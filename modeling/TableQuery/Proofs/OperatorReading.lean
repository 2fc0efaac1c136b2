import Mathlib.Data.List.Nodup
import TableQuery.OperatorSet.Json
import TableQuery.Proofs.Checked
import TableQuery.Proofs.NamedEntries

/-!
# Reading operator sets key by key

A notation for operator sets is read by going through keys and setting one value after another.
What comes out does not depend on the order: a set is given by its values (`ext_value?`), reading a
key sets the value of this key and leaves the others alone (`value?_of_readKey`), so a run over
different keys succeeds with exactly the set that has at each key what is read for it
(`foldlM_readKey_eq_ok_iff`).  Everything proved about a notation of operator sets goes by these
three facts and never unfolds the reading of a single key.

## Main results

* `KeyReader.read` — what a notation says about one key.
* `foldlM_readKey_eq_ok_iff` — reading different keys, one after another.
* `OperatorSet.decode_object_eq_ok_iff` — an object of JSON, with its fields in any order.
-/

namespace TableQuery

/-! ## Keys -/

namespace OperatorKey

theorem mem_all (key : OperatorKey) : key ∈ all := by
  cases key with
  | comparison c => cases c <;> decide
  | pattern p => cases p <;> decide
  | flag f => cases f <;> decide
  | oneOf | noneOf | isNull | isNotNull => decide

theorem nodup_all : all.Nodup := by decide

theorem nodup_dateKeys : dateKeys.Nodup := by decide

/-- No two keys are written alike. -/
theorem name_injective : Function.Injective name := by
  have hnames : (all.map name).Nodup := by decide
  intro key other h
  exact List.inj_on_of_nodup_map hnames (mem_all key) (mem_all other) h

theorem find?_eq_some_iff {keys : List OperatorKey} {name : String} {key : OperatorKey} :
    find? keys name = some key ↔ key ∈ keys ∧ key.name = name := by
  have hfound : ∀ {key : OperatorKey}, find? keys name = some key →
      key ∈ keys ∧ key.name = name := by
    intro key h
    have hname := List.find?_some (p := fun key : OperatorKey => decide (key.name = name)) h
    exact ⟨List.mem_of_find?_eq_some h, of_decide_eq_true hname⟩
  constructor
  · exact hfound
  · rintro ⟨hmem, hname⟩
    cases h : find? keys name with
    | none => exact absurd hname (by simpa using List.find?_eq_none.1 h key hmem)
    | some other => rw [name_injective ((hfound h).2.trans hname.symm)]

end OperatorKey

/-! ## Values -/

namespace OperatorSet

theorem comparison_eq_of_value?_eq {set other : OperatorSet} {c : Comparison}
    (h : set.value? (.comparison c) = other.value? (.comparison c)) :
    set.comparison c = other.comparison c :=
  Option.map_injective (fun _ _ => OperatorValue.operand.inj) h

theorem pattern_eq_of_value?_eq {set other : OperatorSet} {p : Pattern}
    (h : set.value? (.pattern p) = other.value? (.pattern p)) :
    set.pattern p = other.pattern p :=
  Option.map_injective (fun _ _ => OperatorValue.operand.inj) h

/-- Whether something is present shows whether it is set. -/
theorem present_inj {a b : Bool}
    (h : (if a then some OperatorValue.present else none) =
      if b then some OperatorValue.present else none) : a = b := by
  cases a <;> cases b <;> simp_all

/-- An operator set is given by the values of its keys. -/
theorem ext_value? {set other : OperatorSet} (h : ∀ key, set.value? key = other.value? key) :
    set = other := by
  have hc : ∀ c, set.comparison c = other.comparison c := fun c => comparison_eq_of_value?_eq (h _)
  have hp : ∀ p, set.pattern p = other.pattern p := fun p => pattern_eq_of_value?_eq (h _)
  have hf : ∀ f, set.flag f = other.flag f := fun f => present_inj (h (.flag f))
  have hin : set.oneOf = other.oneOf :=
    Option.map_injective (fun _ _ => OperatorValue.operands.inj) (h .oneOf)
  have hnotIn : set.noneOf = other.noneOf :=
    Option.map_injective (fun _ _ => OperatorValue.operands.inj) (h .noneOf)
  have hnull : set.isNull = other.isNull := present_inj (h .isNull)
  have hnotNull : set.isNotNull = other.isNotNull := present_inj (h .isNotNull)
  have hvalues : set.toValueOperators = other.toValueOperators := by
    generalize set.toValueOperators = values at *
    generalize other.toValueOperators = values' at *
    cases values
    cases values'
    simp only [ValueOperators.mk.injEq]
    exact ⟨hc .eq, hc .notEq, hc .gte, hc .notGte, hc .gt, hc .notGt, hc .lte, hc .notLte, hc .lt,
      hc .notLt, hin, hnotIn, hnull, hnotNull⟩
  cases set
  cases other
  simp only [OperatorSet.mk.injEq]
  exact ⟨hvalues, hp .contains, hp .notContains, hp .startsWith, hp .notStartsWith, hp .endsWith,
    hp .notEndsWith, hf .fieldUppercase, hf .fieldLowercase, hf .valueUppercase,
    hf .valueLowercase, hf .caseInsensitive⟩

@[simp] theorem value?_empty (key : OperatorKey) : value? {} key = none := by
  cases key with
  | comparison c => cases c <;> rfl
  | pattern p => cases p <;> rfl
  | flag f => cases f <;> rfl
  | oneOf | noneOf | isNull | isNotNull => rfl

end OperatorSet

/-! ## Reading a key -/

/-- What a notation says about a key, by the value that is given for it. -/
def KeyReader.read {ν ε : Type} (reader : KeyReader ν ε) (key : OperatorKey) (value : ν) :
    Except ε (Option OperatorValue) :=
  match key with
  | .comparison _ | .pattern _ => (reader.operand value).map (Option.map .operand)
  | .oneOf | .noneOf => (reader.operands value).map (Option.map .operands)
  | .isNull | .isNotNull | .flag _ =>
    (reader.flag value).map fun isSet => if isSet then some .present else none

namespace OperatorSet

variable {ν ε : Type} {reader : KeyReader ν ε} {key : OperatorKey} {value : ν}
  {set result : OperatorSet}

/-- A comparison stands by itself among the operators of any column. -/
theorem value?_setComparison (set : OperatorSet) (c : Comparison) (operand : Option Operand)
    (other : OperatorKey) :
    value? { set with toValueOperators := set.setComparison c operand } other =
      if other = .comparison c then operand.map .operand else set.value? other := by
  cases other with
  | comparison d =>
      simp only [value?, ValueOperators.comparison_setComparison, OperatorKey.comparison.injEq]
      split <;> rfl
  | pattern | flag => rfl
  | oneOf | noneOf | isNull | isNotNull => cases c <;> rfl

theorem value?_setPattern (set : OperatorSet) (p : Pattern) (operand : Option Operand)
    (other : OperatorKey) :
    (set.setPattern p operand).value? other =
      if other = .pattern p then operand.map .operand else set.value? other := by
  cases other with
  | pattern q =>
      simp only [value?, pattern_setPattern, OperatorKey.pattern.injEq]
      split <;> rfl
  | comparison | flag | oneOf | noneOf | isNull | isNotNull => cases p <;> rfl

theorem value?_setFlag (set : OperatorSet) (f : CaseFlag) (isSet : Bool) (other : OperatorKey) :
    (set.setFlag f isSet).value? other =
      if other = .flag f then (if isSet then some .present else none) else set.value? other := by
  cases other with
  | flag g =>
      simp only [value?, flag_setFlag, OperatorKey.flag.injEq]
      split <;> rfl
  | comparison | pattern | oneOf | noneOf | isNull | isNotNull => cases f <;> rfl

/-- Reading a key sets what is read and leaves the other keys alone. -/
theorem value?_of_readKey (h : set.readKey reader key value = .ok result) :
    reader.read key value = .ok (result.value? key) ∧
      ∀ other, other ≠ key → result.value? other = set.value? other := by
  cases key with
  | comparison c =>
      obtain ⟨operand, hread, h⟩ := Checked.bind_eq_ok_iff.1 h
      obtain rfl := Except.ok.inj h
      refine ⟨?_, fun other hother => ?_⟩
      · rw [value?_setComparison, if_pos rfl, KeyReader.read, hread]
        rfl
      · rw [value?_setComparison, if_neg hother]
  | pattern p =>
      obtain ⟨operand, hread, h⟩ := Checked.bind_eq_ok_iff.1 h
      obtain rfl := Except.ok.inj h
      refine ⟨?_, fun other hother => ?_⟩
      · rw [value?_setPattern, if_pos rfl, KeyReader.read, hread]
        rfl
      · rw [value?_setPattern, if_neg hother]
  | flag f =>
      obtain ⟨isSet, hread, h⟩ := Checked.bind_eq_ok_iff.1 h
      obtain rfl := Except.ok.inj h
      refine ⟨?_, fun other hother => ?_⟩
      · rw [value?_setFlag, if_pos rfl, KeyReader.read, hread]
        rfl
      · rw [value?_setFlag, if_neg hother]
  | oneOf | noneOf | isNull | isNotNull =>
      obtain ⟨content, hread, h⟩ := Checked.bind_eq_ok_iff.1 h
      obtain rfl := Except.ok.inj h
      refine ⟨?_, fun other hother => ?_⟩
      · rw [KeyReader.read, hread]
        rfl
      · cases other <;> first | rfl | exact absurd rfl hother

/-- A key is read exactly if its value is. -/
theorem exists_readKey_eq_ok {content : Option OperatorValue}
    (h : reader.read key value = .ok content) (set : OperatorSet) :
    ∃ result, set.readKey reader key value = .ok result := by
  have hmap : ∀ {α : Type} {x : Except ε α} {g : α → Option OperatorValue} (k : α → OperatorSet),
      x.map g = .ok content → ∃ result, (x >>= fun a => pure (k a)) = .ok result := by
    intro α x g k hx
    cases x with
    | error e => cases hx
    | ok a => exact ⟨k a, rfl⟩
  cases key <;> exact hmap _ h

/-- A set comes of reading different keys exactly if it has at each of them what is read, and is as
before elsewhere. -/
theorem foldlM_readKey_eq_ok_iff {entries : List (OperatorKey × ν)}
    (hkeys : (entries.map Prod.fst).Nodup) :
    entries.foldlM (fun set entry => set.readKey reader entry.1 entry.2) set = .ok result ↔
      (∀ entry ∈ entries, reader.read entry.1 entry.2 = .ok (result.value? entry.1)) ∧
        ∀ key ∉ entries.map Prod.fst, result.value? key = set.value? key := by
  induction entries generalizing set with
  | nil =>
      constructor
      · intro h
        obtain rfl := Except.ok.inj h
        exact ⟨by simp, fun _ _ => rfl⟩
      · rintro ⟨-, hothers⟩
        exact congrArg Except.ok (ext_value? fun key => (hothers key List.not_mem_nil).symm)
  | cons entry entries ih =>
      obtain ⟨key, value⟩ := entry
      obtain ⟨hkey, hkeys⟩ := List.nodup_cons.1 hkeys
      rw [List.foldlM_cons, Checked.bind_eq_ok_iff]
      constructor
      · rintro ⟨mid, hmid, h⟩
        obtain ⟨hread, hothers⟩ := value?_of_readKey hmid
        obtain ⟨hreads, hrest⟩ := (ih hkeys).1 h
        refine ⟨List.forall_mem_cons.2 ⟨?_, hreads⟩, fun other hother => ?_⟩
        · rw [hrest key hkey]
          exact hread
        · obtain ⟨hne, hother⟩ := not_or.1 (mt List.mem_cons.2 hother)
          rw [hrest other hother, hothers other hne]
      · rintro ⟨hreads, hothers⟩
        obtain ⟨hread, hreads⟩ := List.forall_mem_cons.1 hreads
        obtain ⟨mid, hmid⟩ := exists_readKey_eq_ok hread set
        obtain ⟨hread', hothers'⟩ := value?_of_readKey hmid
        refine ⟨mid, hmid, (ih hkeys).2 ⟨hreads, fun other hother => ?_⟩⟩
        by_cases hne : other = key
        · rw [hne]
          exact Except.ok.inj (hread.symm.trans hread')
        · rw [hothers' other hne]
          exact hothers other (by simpa using ⟨hne, by simpa using hother⟩)

end OperatorSet

/-! ## Objects of JSON -/

/-- Fields of an object, by the keys that their names denote. -/
def OperatorKey.fieldsOf (entries : List (OperatorKey × Json)) : List (String × Json) :=
  entries.map fun entry => (entry.1.name, entry.2)

theorem OperatorKey.names_fieldsOf (entries : List (OperatorKey × Json)) :
    (fieldsOf entries).map Prod.fst = (entries.map Prod.fst).map name := by
  rw [fieldsOf, List.map_map, List.map_map]
  rfl

/-- Fields whose names are keys are fields by these keys. -/
theorem OperatorKey.exists_fieldsOf_eq {keys : List OperatorKey} {fields : List (String × Json)}
    (h : ∀ name ∈ fields.map Prod.fst, name ∈ keys.map OperatorKey.name) :
    ∃ entries, fieldsOf entries = fields ∧ ∀ entry ∈ entries, entry.1 ∈ keys := by
  induction fields with
  | nil => exact ⟨[], rfl, by simp⟩
  | cons field fields ih =>
      obtain ⟨hname, hrest⟩ := List.forall_mem_cons.1 h
      obtain ⟨key, hkey, hname⟩ := List.mem_map.1 hname
      obtain ⟨entries, rfl, hentries⟩ := ih hrest
      refine ⟨(key, field.2) :: entries, ?_, List.forall_mem_cons.2 ⟨hkey, hentries⟩⟩
      rw [fieldsOf, List.map_cons, hname]
      rfl

namespace OperatorSet

variable {keys : List OperatorKey} {shape : String} {fields : List (String × Json)}
  {set result : OperatorSet}

/-- The fields of an object are read by their keys, one after another. -/
theorem decodeFields_eq_ok_iff :
    Json.decodeFields (OperatorKey.find? keys) (readKey jsonKeys)
        (fun name _ => .error (.unknownField name (keys.map OperatorKey.name))) fields set =
          .ok result ↔
      ∃ entries, OperatorKey.fieldsOf entries = fields ∧ (∀ entry ∈ entries, entry.1 ∈ keys) ∧
        entries.foldlM (fun set entry => set.readKey jsonKeys entry.1 entry.2) set =
          .ok result := by
  induction fields generalizing set with
  | nil => simp [Json.decodeFields, OperatorKey.fieldsOf, pure, Except.pure]
  | cons field fields ih =>
      obtain ⟨name, value⟩ := field
      rw [Json.decodeFields]
      constructor
      · intro h
        cases hfind : OperatorKey.find? keys name with
        | none =>
            rw [hfind] at h
            cases h
        | some key =>
            rw [hfind] at h
            obtain ⟨hkey, rfl⟩ := OperatorKey.find?_eq_some_iff.1 hfind
            obtain ⟨mid, hmid, h⟩ := Checked.bind_eq_ok_iff.1 h
            obtain ⟨entries, rfl, hentries, hfold⟩ := ih.1 h
            refine ⟨(key, value) :: entries, rfl, List.forall_mem_cons.2 ⟨hkey, hentries⟩, ?_⟩
            rw [List.foldlM_cons]
            exact Checked.bind_eq_ok_iff.2 ⟨mid, hmid, hfold⟩
      · rintro ⟨entries, hfields, hentries, hfold⟩
        obtain ⟨⟨key, _⟩, rest, rfl, heq, rfl⟩ := List.map_eq_cons_iff.1 hfields
        obtain ⟨rfl, rfl⟩ := Prod.mk.inj heq
        obtain ⟨hkey, hrest⟩ := List.forall_mem_cons.1 hentries
        rw [List.foldlM_cons] at hfold
        obtain ⟨mid, hmid, hfold⟩ := Checked.bind_eq_ok_iff.1 hfold
        rw [OperatorKey.find?_eq_some_iff.2 ⟨hkey, rfl⟩]
        exact Checked.bind_eq_ok_iff.2 ⟨mid, hmid, ih.2 ⟨rest, rfl, hrest, hfold⟩⟩

/-- An object of JSON denotes an operator set exactly if all its fields are keys, and the set has at
each key what is read in the field of its name, and nothing where there is none. -/
theorem decode_object_eq_ok_iff (hnames : (fields.map Prod.fst).Nodup) :
    decode keys shape (.object fields) = .ok set ↔
      (∀ name ∈ fields.map Prod.fst, name ∈ keys.map OperatorKey.name) ∧
        (∀ key ∈ keys, ∀ value, fields.lookup key.name = some value →
          jsonKeys.read key value = .ok (set.value? key)) ∧
        ∀ key, (key ∈ keys → fields.lookup key.name = none) → set.value? key = none := by
  -- An entry for a key is the field of its name.
  have hlookup : ∀ {entries}, OperatorKey.fieldsOf entries = fields → ∀ key value,
      fields.lookup key.name = some value ↔ (key, value) ∈ entries := by
    rintro entries rfl key value
    rw [Keyed.lookup_eq_some_iff_mem hnames, OperatorKey.fieldsOf]
    refine ⟨fun hmem => ?_, fun hmem => List.mem_map.2 ⟨_, hmem, rfl⟩⟩
    obtain ⟨⟨other, _⟩, hentry, heq⟩ := List.mem_map.1 hmem
    obtain ⟨hname, rfl⟩ := Prod.mk.inj heq
    rwa [← OperatorKey.name_injective hname]
  have hkeys : ∀ {entries}, OperatorKey.fieldsOf entries = fields →
      (entries.map Prod.fst).Nodup := by
    rintro entries rfl
    exact List.Nodup.of_map OperatorKey.name (OperatorKey.names_fieldsOf entries ▸ hnames)
  rw [decode, decodeFields_eq_ok_iff]
  constructor
  · rintro ⟨entries, hfields, hentries, hfold⟩
    obtain ⟨hreads, hothers⟩ := (foldlM_readKey_eq_ok_iff (hkeys hfields)).1 hfold
    refine ⟨fun name hname => ?_, fun key _ value hvalue => ?_, fun key hkey => ?_⟩
    · rw [← hfields, OperatorKey.names_fieldsOf, List.map_map] at hname
      obtain ⟨entry, hentry, rfl⟩ := List.mem_map.1 hname
      exact List.mem_map_of_mem (hentries entry hentry)
    · exact hreads _ ((hlookup hfields key value).1 hvalue)
    · refine (hothers key fun hmem => ?_).trans (value?_empty key)
      obtain ⟨⟨key, value⟩, hentry, rfl⟩ := List.mem_map.1 hmem
      have hfound := (hlookup hfields key value).2 hentry
      rw [hkey (hentries _ hentry)] at hfound
      cases hfound
  · rintro ⟨hknown, hreads, hnone⟩
    obtain ⟨entries, hfields, hentries⟩ := OperatorKey.exists_fieldsOf_eq hknown
    refine ⟨entries, hfields, hentries, (foldlM_readKey_eq_ok_iff (hkeys hfields)).2 ⟨?_, ?_⟩⟩
    · rintro ⟨key, value⟩ hentry
      exact hreads key (hentries _ hentry) value ((hlookup hfields key value).2 hentry)
    · intro key hkey
      refine (hnone key fun _ => Option.eq_none_iff_forall_ne_some.2 fun value hvalue => ?_).trans
        (value?_empty key).symm
      exact hkey (List.mem_map.2 ⟨_, (hlookup hfields key value).1 hvalue, rfl⟩)

end OperatorSet

end TableQuery
