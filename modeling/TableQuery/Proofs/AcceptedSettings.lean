import TableQuery.Proofs.PageWalk
import TableQuery.Proofs.SplicedNames

/-!
# Settings that are accepted

Settings come out of five variables.  Each of them is checked for itself, and the limits are also
checked against each other, with the default of a limit standing in for one that is not set: a
greatest limit below the default one is refused even if only one of the two variables is set.

Nothing is checked again later.  A window is cut to the limits (`PageWindow.normalize`), and a
request without a sort is ordered by the default key.  So it is these checks that make every window
one of at least one row and at most the greatest limit, and that let a request build of which
nothing but the table is known.

## Main results

* `Settings.ofLookup_eq_ok_iff` — which settings variables give.
* `PageLimits.Roomy.within_normalize`, `PageWindow.Within.normalize_eq` — what becomes of a window.
* `Request.build_page_ofTable` — what becomes of a request for a window of a table.
* `accepted_settings_bound_pages` — all of this together.
-/

namespace TableQuery

open Checked

/-! ## Directions in letters of either case -/

theorem toNat_toUpper (c : Char) :
    c.toUpper.toNat = if 97 ≤ c.toNat ∧ c.toNat ≤ 122 then c.toNat - 32 else c.toNat := by
  have hiff : ('a'.val ≤ c.val ∧ c.val ≤ 'z'.val) ↔ 97 ≤ c.toNat ∧ c.toNat ≤ 122 := by
    rw [UInt32.le_iff_toNat_le, UInt32.le_iff_toNat_le]
    rfl
  unfold Char.toUpper
  by_cases h : 97 ≤ c.toNat ∧ c.toNat ≤ 122
  · have hval : (c.val + ('A'.val - 'a'.val)).toNat = c.toNat - 32 := by
      have hshift : ('A'.val - 'a'.val).toNat = 4294967264 := by decide
      have hc : c.val.toNat = c.toNat := rfl
      rw [UInt32.toNat_add, hshift, hc]
      omega
    rw [dif_pos (hiff.2 h), if_pos h]
    exact hval
  · rw [dif_neg (hiff.not.2 h), if_neg h]

theorem toNat_toLower (c : Char) :
    c.toLower.toNat = if 65 ≤ c.toNat ∧ c.toNat ≤ 90 then c.toNat + 32 else c.toNat := by
  have hiff : (c.val ≥ 'A'.val ∧ c.val ≤ 'Z'.val) ↔ 65 ≤ c.toNat ∧ c.toNat ≤ 90 := by
    rw [ge_iff_le, UInt32.le_iff_toNat_le, UInt32.le_iff_toNat_le]
    rfl
  unfold Char.toLower
  by_cases h : 65 ≤ c.toNat ∧ c.toNat ≤ 90
  · have hval : (c.val + ('a'.val - 'A'.val)).toNat = c.toNat + 32 := by
      have hshift : ('a'.val - 'A'.val).toNat = 32 := by decide
      have hc : c.val.toNat = c.toNat := rfl
      rw [UInt32.toNat_add, hshift, hc]
      omega
    rw [dif_pos (hiff.2 h), if_pos h]
    exact hval
  · rw [dif_neg (hiff.not.2 h), if_neg h]

/-- What becomes a capital letter is this letter or the small one. -/
theorem toUpper_eq_iff {c letter : Char} (h : 65 ≤ letter.toNat ∧ letter.toNat ≤ 90) :
    c.toUpper = letter ↔ c = letter ∨ c = letter.toLower := by
  rw [← Char.toNat_inj, ← Char.toNat_inj, ← Char.toNat_inj, toNat_toUpper, toNat_toLower, if_pos h]
  split <;> omega

theorem map_toUpper_eq_iff {chars letters : List Char}
    (h : ∀ letter ∈ letters, 65 ≤ letter.toNat ∧ letter.toNat ≤ 90) :
    chars.map Char.toUpper = letters ↔
      List.Forall₂ (fun c letter => c = letter ∨ c = letter.toLower) chars letters := by
  rw [← List.forall₂_eq_eq_eq, List.forall₂_map_left_iff]
  induction letters generalizing chars with
  | nil => rw [List.forall₂_nil_right_iff, List.forall₂_nil_right_iff]
  | cons letter letters ih =>
      obtain ⟨hletter, hletters⟩ := List.forall_mem_cons.1 h
      cases chars with
      | nil => simp
      | cons c chars =>
          rw [List.forall₂_cons, List.forall₂_cons, toUpper_eq_iff hletter, ih hletters]

/-- `direction.NamedBy text` holds if a text names a direction, in ASCII letters of either case. -/
def Direction.NamedBy (direction : Direction) (text : String) : Prop :=
  List.Forall₂ (fun c letter => c = letter ∨ c = letter.toLower) text.toList direction.sql.toList

theorem Direction.ofText_eq_ok_iff {direction : Direction} {text : String} :
    Direction.ofText text = .ok direction ↔ text = direction.sql := by
  constructor
  · intro h
    unfold Direction.ofText at h
    split at h
    · next hasc => rw [← Except.ok.inj h, hasc]; rfl
    · split at h
      · next hdesc => rw [← Except.ok.inj h, hdesc]; rfl
      · cases h
  · rintro rfl
    exact Direction.ofText_sql direction

theorem Direction.ofText_toUpper_eq_ok_iff {direction : Direction} {text : String} :
    Direction.ofText (String.ofList (text.toList.map Char.toUpper)) = .ok direction ↔
      direction.NamedBy text := by
  have hletters : ∀ letter ∈ direction.sql.toList, 65 ≤ letter.toNat ∧ letter.toNat ≤ 90 := by
    cases direction with
    | ascending =>
        show ∀ letter ∈ ['A', 'S', 'C'], _
        simp
    | descending =>
        show ∀ letter ∈ ['D', 'E', 'S', 'C'], _
        simp
  rw [Direction.ofText_eq_ok_iff, NamedBy, ← map_toUpper_eq_iff hletters, ← String.toList_inj,
    String.toList_ofList]

/-! ## Variables -/

namespace Settings

variable {lookup : String → Option String}

/-- `Given lookup variableName reads default value` holds if a value is what the text of a variable
is read as, or is the default where the variable is not set. -/
inductive Given {α : Type} (lookup : String → Option String) (variableName : String)
    (reads : String → α → Prop) (default value : α) : Prop where
  | unset (h : lookup variableName = none) (hdefault : value = default)
  | set {text : String} (h : lookup variableName = some text) (hreads : reads text value)

/-- A text is a limit: an integer with an optional sign and nothing else around its digits. -/
def ReadsLimit (text : String) (limit : Int64) : Prop := Numeral.Writes text.toList limit.toInt

/-- A text is a column: the name itself, if it may stand in a query. -/
def ReadsColumn (text column : String) : Prop := column = text ∧ text.toList ∈ qualifiedNames

/-- A text is a direction. -/
def ReadsDirection (text : String) (direction : Direction) : Prop := direction.NamedBy text

/-- Settings are those that variables give. -/
structure GivenBy (settings : Settings) (lookup : String → Option String) : Prop where
  database : settings.databaseUrl = (lookup "DATABASE_URL").getD "sqlite://filterql.db"
  defaultLimit : Given lookup "PAGE_DEFAULT_LIMIT" ReadsLimit 10 settings.limits.defaultLimit
  maxLimit : Given lookup "PAGE_MAX_LIMIT" ReadsLimit 100 settings.limits.maxLimit
  roomy : settings.limits.Roomy
  column : Given lookup "DEFAULT_SORT_COLUMN" ReadsColumn "created_at"
    settings.limits.defaultSort.column
  direction : Given lookup "DEFAULT_SORT_DIRECTION" ReadsDirection .descending
    settings.limits.defaultSort.direction

/-- Variables are acceptable: the limits are integers that leave room for a row, with the defaults
for those that are not set, and the default key is a name and a direction. -/
structure Acceptable (lookup : String → Option String) : Prop where
  limits : ∃ defaultLimit maxLimit, Given lookup "PAGE_DEFAULT_LIMIT" ReadsLimit 10 defaultLimit ∧
    Given lookup "PAGE_MAX_LIMIT" ReadsLimit 100 maxLimit ∧ 0 < defaultLimit ∧
      defaultLimit ≤ maxLimit
  column : ∀ name, lookup "DEFAULT_SORT_COLUMN" = some name → name.toList ∈ qualifiedNames
  direction : ∀ text, lookup "DEFAULT_SORT_DIRECTION" = some text →
    ∃ direction : Direction, direction.NamedBy text

/-- A reading that is the default where a variable is not set, and else depends on its text, gives
what the variable does. -/
theorem eq_ok_iff_given {α ε : Type} {variableName : String} {reads : String → α → Prop}
    {default value : α} {reading : Except ε α}
    (hunset : lookup variableName = none → reading = .ok default)
    (hset : ∀ text, lookup variableName = some text → (reading = .ok value ↔ reads text value)) :
    reading = .ok value ↔ Given lookup variableName reads default value := by
  constructor
  · intro hvalue
    cases h : lookup variableName with
    | none => exact .unset h (Except.ok.inj (hvalue.symm.trans (hunset h)))
    | some text => exact .set h ((hset text h).1 hvalue)
  · intro hgiven
    cases hgiven with
    | unset h hdefault => rw [hunset h, hdefault]
    | set h hreads => exact (hset _ h).2 hreads

theorem limitOf_eq_ok_iff {variableName : String} {default limit : Int64} :
    limitOf lookup variableName default = .ok limit ↔
      Given lookup variableName ReadsLimit default limit := by
  unfold limitOf
  refine eq_ok_iff_given (fun h => ?_) fun text h => ?_
  · simp only [h]
  · rw [ReadsLimit, ← Numeral.readInt64_eq_ok_iff]
    simp only [h]
    cases Numeral.readInt64 text.toList <;> simp

theorem columnOf_eq_ok_iff {column : String} :
    columnOf lookup = .ok column ↔
      Given lookup "DEFAULT_SORT_COLUMN" ReadsColumn "created_at" column := by
  unfold columnOf
  refine eq_ok_iff_given (fun h => ?_) fun text h => ?_
  · simp only [h]
    rfl
  · rw [ReadsColumn, mem_qualifiedNames_iff]
    by_cases hvalid : isIdentifier text.toList = true
    · simp [h, Identifier.check_of_valid hvalid, hvalid, eq_comm]
    · have hcheck := Identifier.check_eq_error_iff.2 ⟨Bool.eq_false_iff.2 hvalid, rfl⟩
      simp [h, hcheck, hvalid]

theorem directionOf_eq_ok_iff {direction : Direction} :
    directionOf lookup = .ok direction ↔
      Given lookup "DEFAULT_SORT_DIRECTION" ReadsDirection .descending direction := by
  unfold directionOf
  refine eq_ok_iff_given (fun h => ?_) fun text h => ?_
  · simp only [h]
    rfl
  · rw [ReadsDirection, ← Direction.ofText_toUpper_eq_ok_iff]
    simp only [h]
    cases Direction.ofText (String.ofList (text.toList.map Char.toUpper)) <;> simp

/-- Which settings variables give. -/
theorem ofLookup_eq_ok_iff {settings : Settings} :
    ofLookup lookup = .ok settings ↔ settings.GivenBy lookup := by
  constructor
  · intro h
    have hroomy := limits_of_ofLookup h
    unfold ofLookup at h
    obtain ⟨defaultLimit, hdefault, h⟩ := bind_eq_ok_iff.1 h
    obtain ⟨maxLimit, hmax, h⟩ := bind_eq_ok_iff.1 h
    by_cases hpositive : defaultLimit ≤ 0
    · rw [if_pos hpositive] at h
      cases h
    · rw [if_neg hpositive] at h
      by_cases hless : maxLimit < defaultLimit
      · simp only [if_pos hless] at h
        cases h
      · simp only [if_neg hless] at h
        obtain ⟨column, hcolumn, h⟩ := bind_eq_ok_iff.1 h
        obtain ⟨direction, hdirection, h⟩ := bind_eq_ok_iff.1 h
        obtain rfl := Except.ok.inj h
        exact {
          database := rfl
          defaultLimit := limitOf_eq_ok_iff.1 hdefault
          maxLimit := limitOf_eq_ok_iff.1 hmax
          roomy := hroomy
          column := columnOf_eq_ok_iff.1 hcolumn
          direction := directionOf_eq_ok_iff.1 hdirection }
  · intro h
    have hpositive : ¬ settings.limits.defaultLimit ≤ 0 := Int64.not_le.2 h.roomy.positive
    have hless : ¬ settings.limits.maxLimit < settings.limits.defaultLimit :=
      Int64.not_lt.2 h.roomy.le_max
    unfold ofLookup
    refine bind_eq_ok_iff.2 ⟨_, limitOf_eq_ok_iff.2 h.defaultLimit, ?_⟩
    refine bind_eq_ok_iff.2 ⟨_, limitOf_eq_ok_iff.2 h.maxLimit, ?_⟩
    rw [if_neg hpositive]
    simp only [if_neg hless]
    refine bind_eq_ok_iff.2 ⟨_, columnOf_eq_ok_iff.2 h.column, ?_⟩
    refine bind_eq_ok_iff.2 ⟨_, directionOf_eq_ok_iff.2 h.direction, ?_⟩
    obtain ⟨databaseUrl, limits⟩ := settings
    obtain rfl := h.database
    rfl

/-- Variables give settings exactly if they are acceptable. -/
theorem exists_ofLookup_iff : (∃ settings, ofLookup lookup = .ok settings) ↔ Acceptable lookup := by
  constructor
  · rintro ⟨settings, h⟩
    obtain ⟨-, hdefault, hmax, hroomy, hcolumn, hdirection⟩ := ofLookup_eq_ok_iff.1 h
    refine ⟨⟨_, _, hdefault, hmax, hroomy.positive, hroomy.le_max⟩, fun name hname => ?_,
      fun text htext => ?_⟩
    · rcases hcolumn with ⟨hunset, -⟩ | ⟨hset, -, hvalid⟩
      · exact nomatch hunset.symm.trans hname
      · obtain rfl := Option.some.inj (hset.symm.trans hname)
        exact hvalid
    · rcases hdirection with ⟨hunset, -⟩ | ⟨hset, hnamed⟩
      · exact nomatch hunset.symm.trans htext
      · obtain rfl := Option.some.inj (hset.symm.trans htext)
        exact ⟨_, hnamed⟩
  · rintro ⟨⟨defaultLimit, maxLimit, hdefault, hmax, hpositive, hle⟩, hcolumn, hdirection⟩
    obtain ⟨column, hcolumn⟩ : ∃ column,
        Given lookup "DEFAULT_SORT_COLUMN" ReadsColumn "created_at" column := by
      cases h : lookup "DEFAULT_SORT_COLUMN" with
      | none => exact ⟨_, .unset h rfl⟩
      | some name => exact ⟨name, .set h ⟨rfl, hcolumn name h⟩⟩
    obtain ⟨direction, hdirection⟩ : ∃ direction,
        Given lookup "DEFAULT_SORT_DIRECTION" ReadsDirection .descending direction := by
      cases h : lookup "DEFAULT_SORT_DIRECTION" with
      | none => exact ⟨_, .unset h rfl⟩
      | some text =>
          obtain ⟨direction, hnamed⟩ := hdirection text h
          exact ⟨direction, .set h hnamed⟩
    exact ⟨⟨_, { defaultLimit, maxLimit, defaultSort := ⟨column, direction⟩ }⟩,
      ofLookup_eq_ok_iff.2 ⟨rfl, hdefault, hmax, ⟨hpositive, hle⟩, hcolumn, hdirection⟩⟩

end Settings

/-! ## Windows -/

/-- `window.Within limits` holds if a window keeps to limits: it leaves out no negative number of
rows, and returns at least one row and at most the greatest number. -/
structure PageWindow.Within (window : PageWindow) (limits : PageLimits) : Prop where
  skip : 0 ≤ window.skip
  positive : 1 ≤ window.limit
  le_max : window.limit ≤ limits.maxLimit

/-- A window that keeps to the limits stays as it is. -/
theorem PageWindow.Within.normalize_eq {window : PageWindow} {limits : PageLimits}
    (h : window.Within limits) : window.normalize limits = window := by
  have hone : (1 : Int64).toInt = 1 := by decide
  obtain ⟨hskip, hpositive, hle⟩ := h
  rw [Int64.le_iff_toInt_le, Int64.toInt_zero] at hskip
  rw [Int64.le_iff_toInt_le, hone] at hpositive
  rw [Int64.le_iff_toInt_le] at hle
  have hlimit : ¬ window.limit ≤ 0 := by
    rw [Int64.le_iff_toInt_le, Int64.toInt_zero]
    omega
  have hmax : max window.skip 0 = window.skip := by
    apply Int64.toInt_inj.1
    rw [toInt_max, Int64.toInt_zero]
    omega
  have hmin : min window.limit limits.maxLimit = window.limit := by
    apply Int64.toInt_inj.1
    rw [toInt_min]
    omega
  unfold normalize
  rw [if_neg hlimit, hmax, hmin]

/-- Under limits that leave room for a row, every window is cut to one that keeps to them. -/
theorem PageLimits.Roomy.within_normalize {limits : PageLimits} (h : limits.Roomy)
    (window : PageWindow) : (window.normalize limits).Within limits := by
  have hone : (1 : Int64).toInt = 1 := by decide
  obtain ⟨hpositive, hle⟩ := h
  rw [Int64.lt_iff_toInt_lt, Int64.toInt_zero] at hpositive
  rw [Int64.le_iff_toInt_le] at hle
  have hskip : 0 ≤ max window.skip 0 := by
    rw [Int64.le_iff_toInt_le, toInt_max, Int64.toInt_zero]
    omega
  unfold PageWindow.normalize
  by_cases hlimit : window.limit ≤ 0
  · rw [if_pos hlimit]
    refine ⟨hskip, ?_, Int64.le_iff_toInt_le.2 hle⟩
    show 1 ≤ limits.defaultLimit
    rw [Int64.le_iff_toInt_le, hone]
    omega
  · rw [if_neg hlimit]
    rw [Int64.le_iff_toInt_le, Int64.toInt_zero] at hlimit
    refine ⟨hskip, ?_, ?_⟩
    · show 1 ≤ min window.limit limits.maxLimit
      rw [Int64.le_iff_toInt_le, hone, toInt_min]
      omega
    · show min window.limit limits.maxLimit ≤ limits.maxLimit
      rw [Int64.le_iff_toInt_le, toInt_min]
      omega

/-! ## Requests for a window of a table -/

/-- The column that settings order by is an identifier. -/
theorem Settings.GivenBy.isIdentifier_column {settings : Settings}
    {lookup : String → Option String} (h : settings.GivenBy lookup) :
    isIdentifier settings.limits.defaultSort.column.toList = true := by
  rcases h.column with ⟨-, hdefault⟩ | ⟨-, hcolumn, hvalid⟩
  · rw [hdefault]
    decide
  · rw [hcolumn]
    exact mem_qualifiedNames_iff.1 hvalid

/-- A query for a window of a table as it is written. -/
def windowQuery (table : String) (key : SortKey) (page : PageWindow) : String :=
  "SELECT * FROM " ++ table ++ " ORDER BY " ++ key.text ++ " LIMIT " ++ toString page.limit.toInt ++
    if 0 < page.skip then " OFFSET " ++ toString page.skip.toInt else ""

theorem sql_eq_windowQuery (table : Identifier) (key : OrderKey) (page : PageWindow) :
    Select.sql {
        table
        order := some ⟨[key]⟩
        limit := some page.limit
        offset := some page.skip } =
      windowQuery table.name ⟨key.column.name, key.direction⟩ page := by
  have hselect : "SELECT * FROM " = "SELECT " ++ "*" ++ " FROM " := by decide
  have horder : Order.sql ⟨[key]⟩ = SortKey.text ⟨key.column.name, key.direction⟩ :=
    String.intercalate_singleton
  delta windowQuery
  rw [hselect]
  -- Both sides are brought to one bracketing, with the three literals of the start kept apart.
  simp only [-String.reduceAppend, Select.sql, Select.columnsSql, Select.whereSql,
    Select.condition?, Condition.join?_nil, Select.orderSql, horder, Select.windowSql,
    List.isEmpty_nil, if_true, String.append_empty, String.append_assoc]

/-- A request of which only the table and the window are known is built if the table and the default
key are identifiers. -/
theorem Request.build_page_ofTable {table : String} {limits : PageLimits}
    (htable : isIdentifier table.toList = true)
    (hkey : isIdentifier limits.defaultSort.column.toList = true) (window : PageWindow) :
    ∃ plan, ((ofTable table limits).page window).build = .ok plan ∧
      plan.window = window.normalize limits ∧
      plan.select.sql = windowQuery table limits.defaultSort (window.normalize limits) := by
  have horder : Order.ofSpec none limits.defaultSort =
      .ok ⟨[⟨⟨limits.defaultSort.column, hkey⟩, limits.defaultSort.direction⟩]⟩ := by
    show ([limits.defaultSort].mapM SortKey.check >>= fun keys => pure (Order.mk keys)) = _
    rw [List.mapM_cons, SortKey.check, Identifier.check_of_valid hkey]
    rfl
  have hquery : Select.ofTable table = .ok { table := ⟨table, htable⟩ } := by
    rw [Select.ofTable, Identifier.check_of_valid htable]
    rfl
  refine ⟨_, build_eq_ok_iff.2 ⟨rfl, _, _, _, _, hquery, rfl, horder, rfl, rfl⟩, rfl, ?_⟩
  exact sql_eq_windowQuery ⟨table, htable⟩ _ _

/-! ## Accepted settings -/

/-- Variables are accepted exactly if they are acceptable, and settings are those that they give.
Under accepted settings every window becomes one that leaves out no negative number of rows and
returns at least one row and at most the greatest number; a window that is so already stays as it
is, and so does one that has been cut.  A request for a window of any table is built, with that
limit, and with an offset exactly if rows are left out. -/
theorem accepted_settings_bound_pages (lookup : String → Option String) :
    ((∃ settings, Settings.ofLookup lookup = .ok settings) ↔ Settings.Acceptable lookup) ∧
      ∀ settings, Settings.ofLookup lookup = .ok settings → settings.GivenBy lookup ∧
        ∀ window : PageWindow,
          let page := window.normalize settings.limits
          (0 ≤ page.skip ∧ 1 ≤ page.limit ∧ page.limit ≤ settings.limits.maxLimit) ∧
          (0 ≤ window.skip ∧ 1 ≤ window.limit ∧ window.limit ≤ settings.limits.maxLimit →
            page = window) ∧
          page.normalize settings.limits = page ∧
          ∀ table : String, table.toList ∈ qualifiedNames → ∃ plan,
            ((Request.ofTable table settings.limits).page window).build = .ok plan ∧
            plan.window = page ∧
            plan.select.sql = windowQuery table settings.limits.defaultSort page := by
  refine ⟨Settings.exists_ofLookup_iff, fun settings h => ?_⟩
  have hgiven := Settings.ofLookup_eq_ok_iff.1 h
  refine ⟨hgiven, fun window => ?_⟩
  have hwithin := hgiven.roomy.within_normalize window
  refine ⟨⟨hwithin.skip, hwithin.positive, hwithin.le_max⟩, ?_, hwithin.normalize_eq, ?_⟩
  · rintro ⟨hskip, hpositive, hle⟩
    exact PageWindow.Within.normalize_eq ⟨hskip, hpositive, hle⟩
  · intro table htable
    exact Request.build_page_ofTable (mem_qualifiedNames_iff.1 htable) hgiven.isIdentifier_column
      window

/-- All five variables set, and a window past both limits. -/
theorem accepted_settings_bound_pages_overrides :
    let lookup := fun name => [("DATABASE_URL", "sqlite://a.db"), ("PAGE_DEFAULT_LIMIT", "+07"),
      ("PAGE_MAX_LIMIT", "50"), ("DEFAULT_SORT_COLUMN", "m.id"),
      ("DEFAULT_SORT_DIRECTION", "aSc")].lookup name
    let limits : PageLimits :=
      { defaultLimit := 7, maxLimit := 50, defaultSort := ⟨"m.id", .ascending⟩ }
    Settings.ofLookup lookup = .ok ⟨"sqlite://a.db", limits⟩ ∧
      "movies".toList ∈ qualifiedNames ∧
      (({ skip := 30, limit := 1000 } : PageWindow).normalize limits) =
        { skip := 30, limit := 50 } ∧
      ∃ plan, ((Request.ofTable "movies" limits).page { skip := 30, limit := 1000 }).build =
          .ok plan ∧
        plan.select.sql = "SELECT * FROM movies ORDER BY m.id ASC LIMIT 50 OFFSET 30" := by
  intro lookup limits
  have hsettings : Settings.ofLookup lookup = .ok ⟨"sqlite://a.db", limits⟩ := by decide
  have htable : "movies".toList ∈ qualifiedNames := mem_qualifiedNames_iff.2 (by decide)
  obtain ⟨-, hpages⟩ := (accepted_settings_bound_pages lookup).2 _ hsettings
  obtain ⟨-, -, -, hbuild⟩ := hpages { skip := 30, limit := 1000 }
  obtain ⟨plan, hplan, -, hsql⟩ := hbuild "movies" htable
  refine ⟨hsettings, htable, by decide, plan, hplan, hsql.trans ?_⟩
  decide

end TableQuery
