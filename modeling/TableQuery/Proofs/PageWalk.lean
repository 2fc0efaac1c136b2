import TableQuery.Proofs.Cursor
import TableQuery.Proofs.Fetch
import TableQuery.Settings

/-!
# Walking through pages

A client that wants all rows asks for the first page and then, as long as there is a next one, for
the page after its last cursor.  A limit, a cursor and an offset that are off by one would show at
the boundaries of pages only: a row would be lost there or come twice.

The walk is a relation, `Walk`.  Its invariant is the place `m` where it stands, a number of rows
already seen: the page there has the rows from `m` on, cursors from `m` on, and sends the walk to
`m + size` if that is not behind the last row.  The induction is on the number of rows that are
left.

## Main results

* `Settings.limits_of_ofLookup` — settings leave room for a row on every page.
* `ofRows_edges`, `ofRows_hasNext`, `ofRows_endCursor` — the page at a place.
* `walk_from` — the walk from a place.
* `walk_visits_every_row` — the walk from the start.
-/

namespace TableQuery

variable {α : Type}

/-! ## Limits -/

/-- Limits that leave room for a row on every page. -/
structure PageLimits.Roomy (limits : PageLimits) : Prop where
  positive : 0 < limits.defaultLimit
  le_max : limits.defaultLimit ≤ limits.maxLimit

/-- Settings have limits that leave room for a row on every page. -/
theorem Settings.limits_of_ofLookup {lookup : String → Option String} {settings : Settings}
    (h : Settings.ofLookup lookup = .ok settings) : settings.limits.Roomy := by
  unfold ofLookup at h
  obtain ⟨defaultLimit, -, h⟩ := Checked.bind_eq_ok_iff.1 h
  obtain ⟨maxLimit, -, h⟩ := Checked.bind_eq_ok_iff.1 h
  by_cases hpositive : defaultLimit ≤ 0
  · rw [if_pos hpositive] at h
    cases h
  · rw [if_neg hpositive] at h
    by_cases hmax : maxLimit < defaultLimit
    · simp only [if_pos hmax] at h
      cases h
    · simp only [if_neg hmax] at h
      obtain ⟨column, -, h⟩ := Checked.bind_eq_ok_iff.1 h
      obtain ⟨direction, -, h⟩ := Checked.bind_eq_ok_iff.1 h
      obtain rfl := Except.ok.inj h
      exact ⟨Int64.not_le.1 hpositive, Int64.not_lt.1 hmax⟩

/-- The number of rows that a page can hold. -/
def PageLimits.size (limits : PageLimits) (limit : Int64) : Nat :=
  (({ limit } : PageWindow).normalize limits).limit.toInt.toNat

namespace PageLimits.Roomy

variable {limits : PageLimits}

/-- There is room for a row on a page. -/
theorem size_pos (h : limits.Roomy) (limit : Int64) : 0 < limits.size limit := by
  have hpositive := Int64.lt_iff_toInt_lt.1 h.positive
  have hmax := Int64.le_iff_toInt_le.1 h.le_max
  rw [Int64.toInt_zero] at hpositive
  unfold size PageWindow.normalize
  by_cases hlimit : limit ≤ 0
  · simp only [if_pos hlimit]
    omega
  · simp only [if_neg hlimit]
    rw [Int64.le_iff_toInt_le, Int64.toInt_zero] at hlimit
    rw [toInt_min]
    omega

/-- A page at a place has its size as the limit. -/
theorem normalize_eq (h : limits.Roomy) {m : Nat} (hm : m < 2 ^ 63) (limit : Int64) :
    ({ skip := Int64.ofNat m, limit } : PageWindow).normalize limits =
      { skip := Int64.ofNat m, limit := Int64.ofNat (limits.size limit) } := by
  have hskip : max (Int64.ofNat m) 0 = Int64.ofNat m := by
    apply Int64.toInt_inj.1
    rw [toInt_max, Int64.toInt_ofNat_of_lt hm, Int64.toInt_zero]
    omega
  have hsize : (({ limit } : PageWindow).normalize limits).limit =
      Int64.ofNat (limits.size limit) := by
    have hpos := h.size_pos limit
    have hlt := (({ limit } : PageWindow).normalize limits).limit.toInt_lt
    unfold size at hpos ⊢
    apply Int64.toInt_inj.1
    rw [Int64.toInt_ofNat_of_lt (by omega)]
    omega
  rw [← hsize]
  show PageWindow.mk (max (Int64.ofNat m) 0) _ = _
  rw [hskip]
  rfl

theorem size_lt (h : limits.Roomy) (limit : Int64) : limits.size limit < 2 ^ 63 := by
  have hlt := (({ limit } : PageWindow).normalize limits).limit.toInt_lt
  have hpos := h.size_pos limit
  unfold size at hpos ⊢
  omega

end PageLimits.Roomy

/-! ## The page at a place -/

/-- A row and its place as an edge. -/
def Edge.ofPlace (entry : α × Nat) : Edge α := ⟨entry.1, encodeCursor (Int64.ofNat entry.2)⟩

namespace Page

/-- Edges of a page that starts at a place have cursors from that place on. -/
theorem edgesFrom_eq {window : PageWindow} {m : Nat} (hskip : window.skip = Int64.ofNat m)
    (items : List α) (index : Nat) (h : m + index + items.length ≤ 2 ^ 63) :
    edgesFrom window index items = (items.zipIdx (m + index)).map Edge.ofPlace := by
  induction items generalizing index with
  | nil => rfl
  | cons item rest ih =>
      rw [List.length_cons] at h
      have hoffset : window.offsetAt index = Int64.ofNat (m + index) := by
        unfold PageWindow.offsetAt
        rw [hskip]
        exact saturatingAdd_ofNat (by omega)
      rw [edgesFrom, hoffset, ih (index + 1) (by omega)]
      rfl

variable {rows : List α} {limits : PageLimits} {m : Nat}

/-- The rows of the page at a place. -/
theorem windowOf_eq {size : Nat} (hm : m < 2 ^ 63) (hsize : size < 2 ^ 63) :
    windowOf (some (Int64.ofNat size)) (some (Int64.ofNat m)) rows = (rows.drop m).take size := by
  have hnonneg : ¬ Int64.ofNat size < 0 := by
    rw [Int64.lt_iff_toInt_lt, Int64.toInt_ofNat_of_lt hsize, Int64.toInt_zero]
    omega
  unfold windowOf
  show (if Int64.ofNat size < 0 then _ else
    (rows.drop (Int64.ofNat m).toInt.toNat).take (Int64.ofNat size).toInt.toNat) = _
  rw [if_neg hnonneg, Int64.toInt_ofNat_of_lt hm, Int64.toInt_ofNat_of_lt hsize]
  rfl

section AtPlace

variable (hlimits : limits.Roomy) (hm : m < 2 ^ 63) (limit : Int64)
include hlimits hm

/-- The page at a place. -/
theorem ofRows_eq :
    ofRows rows limits { skip := Int64.ofNat m, limit } =
      ofItems ((rows.drop m).take (limits.size limit))
        { skip := Int64.ofNat m, limit := Int64.ofNat (limits.size limit) }
        (Int64.ofNat rows.length) := by
  unfold ofRows
  rw [hlimits.normalize_eq hm, windowOf_eq hm (hlimits.size_lt limit)]

/-- The page at a place has the rows from there on, with their places as cursors. -/
theorem ofRows_edges (hrows : rows.length < 2 ^ 63) :
    (ofRows rows limits { skip := Int64.ofNat m, limit }).edges =
      (((rows.drop m).take (limits.size limit)).zipIdx m).map Edge.ofPlace := by
  rw [ofRows_eq hlimits hm]
  have hlength : ((rows.drop m).take (limits.size limit)).length ≤ rows.length - m := by
    rw [List.length_take, List.length_drop]
    omega
  exact edgesFrom_eq rfl _ 0 (by omega)

/-- There is a next page exactly if there are rows behind the page. -/
theorem ofRows_hasNext (hrows : rows.length < 2 ^ 63) :
    (ofRows rows limits { skip := Int64.ofNat m, limit }).info.hasNext = true ↔
      m + limits.size limit < rows.length := by
  rw [ofRows_eq hlimits hm]
  show decide (_ < _) = true ↔ _
  rw [decide_eq_true_iff]
  exact saturatingAdd_lt_ofNat_iff hm (hlimits.size_lt limit) hrows

/-- The last cursor of a page with a next one is the place before that one. -/
theorem ofRows_endCursor (hrows : rows.length < 2 ^ 63)
    (hnext : m + limits.size limit < rows.length) :
    (ofRows rows limits { skip := Int64.ofNat m, limit }).info.endCursor =
      some (encodeCursor (Int64.ofNat (m + limits.size limit - 1))) := by
  have hpos := hlimits.size_pos limit
  have hlength : ((rows.drop m).take (limits.size limit)).length = limits.size limit := by
    rw [List.length_take, List.length_drop]
    omega
  rw [ofRows_eq hlimits hm]
  show (if List.length _ = 0 then none else some (encodeCursor (saturatingAdd (Int64.ofNat m)
    (Int64.ofNat (List.length _ - 1))))) = _
  rw [hlength, if_neg (by omega), saturatingAdd_ofNat (by omega)]
  congr 3
  omega

end AtPlace

end Page

/-! ## Walks -/

/-- `Walk fetch limit window pages` holds if a client that starts at `window` and goes on after the
last cursor of each page with a next one comes to an end, and sees `pages` on its way. -/
inductive Walk (fetch : PageWindow → Except QueryError (Page α)) (limit : Int64) :
    PageWindow → List (Page α) → Prop where
  | last {window : PageWindow} {page : Page α} (hfetch : fetch window = .ok page)
      (hnext : page.info.hasNext = false) : Walk fetch limit window [page]
  | next {window following : PageWindow} {page : Page α} {pages : List (Page α)} {cursor : String}
      (hfetch : fetch window = .ok page) (hnext : page.info.hasNext = true)
      (hcursor : page.info.endCursor = some cursor)
      (hafter : PageWindow.after cursor limit = .ok following)
      (hrest : Walk fetch limit following pages) : Walk fetch limit window (page :: pages)

/-- A client has no choice on its way. -/
theorem Walk.unique {fetch : PageWindow → Except QueryError (Page α)} {limit : Int64}
    {window : PageWindow} {pages pages' : List (Page α)} (h : Walk fetch limit window pages)
    (h' : Walk fetch limit window pages') : pages = pages' := by
  induction h generalizing pages' with
  | last hfetch hnext =>
      cases h' with
      | last hfetch' _ =>
          rw [hfetch] at hfetch'
          rw [Except.ok.inj hfetch']
      | next hfetch' hnext' =>
          rw [hfetch] at hfetch'
          obtain rfl := Except.ok.inj hfetch'
          rw [hnext] at hnext'
          exact Bool.noConfusion hnext'
  | next hfetch hnext hcursor hafter _ ih =>
      cases h' with
      | last hfetch' hnext' =>
          rw [hfetch] at hfetch'
          obtain rfl := Except.ok.inj hfetch'
          rw [hnext] at hnext'
          exact Bool.noConfusion hnext'
      | next hfetch' _ hcursor' hafter' hrest' =>
          rw [hfetch] at hfetch'
          obtain rfl := Except.ok.inj hfetch'
          rw [hcursor] at hcursor'
          obtain rfl := Option.some.inj hcursor'
          rw [hafter] at hafter'
          obtain rfl := Except.ok.inj hafter'
          rw [ih hrest']

/-- Rows that fit on one page need one. -/
theorem pages_of_le {rows size : Nat} (h : rows ≤ size) (hpos : 0 < size) :
    max 1 ((rows + size - 1) / size) = 1 := by
  have hquotient : (rows + size - 1) / size < 2 := by
    rw [Nat.div_lt_iff_lt_mul hpos]
    omega
  omega

/-- Rows of one more page need one more. -/
theorem pages_add {rows size : Nat} (hrows : 0 < rows) (hpos : 0 < size) :
    max 1 ((rows + size + size - 1) / size) = max 1 ((rows + size - 1) / size) + 1 := by
  have hquotient : 0 < (rows + size - 1) / size := Nat.div_pos (by omega) hpos
  have hsum : rows + size + size - 1 = rows + size - 1 + size := by omega
  rw [hsum, Nat.add_div_right _ hpos]
  omega

/-- The edges from a place are those of a full page there and those from the next place. -/
theorem edges_split {rows : List α} {m size : Nat} (h : m + size ≤ rows.length) :
    ((rows.drop m).zipIdx m).map Edge.ofPlace =
      (((rows.drop m).take size).zipIdx m).map Edge.ofPlace ++
        ((rows.drop (m + size)).zipIdx (m + size)).map Edge.ofPlace := by
  have hpage : ((rows.drop m).take size).length = size := by
    rw [List.length_take, List.length_drop]
    omega
  conv => lhs; rw [← List.take_append_drop size (rows.drop m)]
  rw [List.zipIdx_append, hpage, List.drop_drop, List.map_append]

/-- The walk from a place sees the rows from there on, with their places as cursors. -/
theorem walk_from {rows : List α} {limits : PageLimits} (hlimits : limits.Roomy)
    (hrows : rows.length < 2 ^ 63) {fetch : PageWindow → Except QueryError (Page α)}
    (hfetch : ∀ window, fetch window = .ok (.ofRows rows limits window)) (limit : Int64)
    {m : Nat} (hm : m = 0 ∨ m < rows.length) :
    ∃ pages, Walk fetch limit { skip := Int64.ofNat m, limit } pages ∧
      pages.length =
        max 1 ((rows.length - m + limits.size limit - 1) / limits.size limit) ∧
      pages.flatMap Page.edges = ((rows.drop m).zipIdx m).map Edge.ofPlace ∧
      ∀ page ∈ pages, page.info.totalRecord = Int64.ofNat rows.length := by
  have hpos := hlimits.size_pos limit
  induction hleft : rows.length - m using Nat.strongRecOn generalizing m with
  | ind left ih =>
      have hm' : m < 2 ^ 63 := by omega
      have hedges : (Page.ofRows rows limits { skip := Int64.ofNat m, limit }).edges = _ :=
        Page.ofRows_edges hlimits hm' limit hrows
      have hhasNext : _ ↔ m + limits.size limit < rows.length :=
        Page.ofRows_hasNext hlimits hm' limit hrows
      by_cases hnext : m + limits.size limit < rows.length
      · -- the walk goes on behind a full page
        obtain ⟨pages, hwalk, hlength, hrest, htotal⟩ :=
          ih (rows.length - (m + limits.size limit)) (by omega) (.inr hnext) rfl
        have hcursor := Page.ofRows_endCursor hlimits hm' limit hrows hnext
        have hafter := PageWindow.after_encodeCursor (n := m + limits.size limit - 1) (by omega)
          limit
        rw [Nat.sub_add_cancel (by omega)] at hafter
        refine ⟨_, .next (hfetch _) (hhasNext.2 hnext) hcursor hafter hwalk, ?_, ?_, ?_⟩
        · have hsum : left = rows.length - (m + limits.size limit) + limits.size limit := by omega
          rw [List.length_cons, hlength, hsum, pages_add (by omega) hpos]
        · rw [List.flatMap_cons, hedges, hrest, ← edges_split (Nat.le_of_lt hnext)]
        · exact List.forall_mem_cons.2 ⟨rfl, htotal⟩
      · -- the walk ends here
        have hlast := Bool.eq_false_iff.2 (hhasNext.not.2 hnext)
        refine ⟨_, .last (hfetch _) hlast, ?_, ?_, ?_⟩
        · rw [List.length_singleton, pages_of_le (by omega) hpos]
        · have hrest : (rows.drop m).length ≤ limits.size limit := by
            rw [List.length_drop]
            omega
          rw [List.flatMap_singleton, hedges, List.take_of_length_le hrest]
        · exact List.forall_mem_cons.2 ⟨rfl, fun _ h => absurd h List.not_mem_nil⟩

/-- The walk from the start visits every row exactly once.  It comes to an end, after as many pages
as the rows need (one if there are none); its rows are those of the query, in their order; the
cursor of each row is its place; and every page reports the number of rows. -/
theorem walk_visits_every_row {lookup : String → Option String} {settings : Settings}
    {request : Request} {plan : Plan} {database : Database} {rows : List Record}
    (hsettings : Settings.ofLookup lookup = .ok settings)
    (hlimits : request.limits = settings.limits) (hplan : request.build = .ok plan)
    (hrows : database.select plan.select.unwindowed = .ok rows) (hlength : rows.length < 2 ^ 63)
    (limit : Int64) :
    ∃ pages, Walk (request.fetchPage database) limit { skip := 0, limit } pages ∧
      (∀ pages', Walk (request.fetchPage database) limit { skip := 0, limit } pages' →
        pages' = pages) ∧
      pages.length = max 1
        ((rows.length + request.limits.size limit - 1) / request.limits.size limit) ∧
      pages.flatMap Page.nodes = rows ∧
      (∀ (k : Nat) (hk : k < rows.length), ∃ edge offset,
        (pages.flatMap Page.edges)[k]? = some edge ∧ edge.node = rows[k] ∧
          decodeCursor edge.cursor = .ok offset ∧ offset.toInt = k) ∧
      ∀ page ∈ pages, page.info.totalRecord.toInt = rows.length := by
  have hroomy : request.limits.Roomy := by
    rw [hlimits]
    exact Settings.limits_of_ofLookup hsettings
  obtain ⟨pages, hwalk, hpages, hedges, htotal⟩ :=
    walk_from hroomy hlength (Request.fetchPage_eq hplan hrows) limit (.inl rfl)
  refine ⟨pages, hwalk, fun pages' hwalk' => hwalk'.unique hwalk, hpages, ?_, ?_, ?_⟩
  · have hnodes : pages.flatMap Page.nodes = (pages.flatMap Page.edges).map Edge.node := by
      rw [List.map_flatMap]
      rfl
    have hnode : Edge.node ∘ Edge.ofPlace (α := Record) = Prod.fst := rfl
    rw [hnodes, hedges, List.map_map, hnode, List.zipIdx_map_fst]
    rfl
  · intro k hk
    refine ⟨Edge.ofPlace (rows[k], k), Int64.ofNat k, ?_, rfl,
      decodeCursor_encodeCursor (by omega), Int64.toInt_ofNat_of_lt (by omega)⟩
    rw [hedges, List.getElem?_map, List.drop_zero, List.getElem?_zipIdx,
      List.getElem?_eq_getElem hk, Nat.zero_add]
    rfl
  · intro page hpage
    rw [htotal page hpage]
    exact Int64.toInt_ofNat_of_lt hlength

/-- A table of three rows, stored with the newest first. -/
def Database.threeRows : Database where
  tables := [{
    name := "t"
    columns := [⟨"created_at", "INTEGER"⟩]
    rows := [⟨1, [.integer 30]⟩, ⟨2, [.integer 20]⟩, ⟨3, [.integer 10]⟩] }]

/-- Three rows on pages of two. -/
theorem walk_visits_every_row_two_pages :
    ∃ pages, Walk (Request.fetchPage { table := "t", limits := { defaultLimit := 2 } } .threeRows) 0
        { skip := 0, limit := 0 } pages ∧
      pages.length = 2 ∧
      pages.flatMap Page.nodes = [[("created_at", .integer 30)], [("created_at", .integer 20)],
        [("created_at", .integer 10)]] := by
  have hsettings : (Settings.ofLookup fun name =>
      if name = "PAGE_DEFAULT_LIMIT" then some "2" else none) =
        .ok { limits := { defaultLimit := 2 } } := by decide
  obtain ⟨plan, hplan, hrows⟩ : ∃ plan,
      Request.build { table := "t", limits := { defaultLimit := 2 } } = .ok plan ∧
      Database.threeRows.select plan.select.unwindowed = .ok [[("created_at", .integer 30)],
        [("created_at", .integer 20)], [("created_at", .integer 10)]] := by
    refine ⟨_, rfl, Database.select_eq_ok_iff.2 ⟨_, _, _, _, rfl, rfl, rfl, rfl, ?_⟩⟩
    rw [List.mergeSort_of_pairwise (by decide)]
    rfl
  obtain ⟨pages, hwalk, -, hlength, hnodes, -, -⟩ :=
    walk_visits_every_row hsettings rfl hplan hrows (by decide) 0
  exact ⟨pages, hwalk, hlength, hnodes⟩

end TableQuery
