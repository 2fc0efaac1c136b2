import TableQuery.Order
import TableQuery.Proofs.CompileFaults

/-!
# Orders that are asked for

The fields that a sort sets are its keys: those of an object in the order of their declaration,
those of a list object by object.  Two things can be wrong with them.  An object of a list that sets
several fields is found before any column is looked at.  Columns are then checked from the first key
to the last; the fallback key takes the place of no keys at all, and is not looked at otherwise.

So of two sorts that are well formed only the keys matter, not the objects they stand in: one
object, a list that sets its fields one by one, and either of them with objects that set nothing in
between, all ask for the same order.

## Main results

* `SortSpec.keys_of_singleKeyed`, `SortSpec.keys_of_not_singleKeyed` — the keys of a sort.
* `Order.keys_of_ofSpec`, `Order.fault?_ofSpec` — the keys of an order, and why there is none.
* `Order.ofSpec_exact` — all of this together, and which sorts ask for the same order.
-/

namespace TableQuery

/-! ## Keys of a sort -/

namespace SortSpec

/-- The keys of the fields that are set, in whichever object. -/
def setKeys : SortSpec → List SortKey
  | one fields => SortField.keys fields
  | many objects => objects.flatMap SortField.keys

/-- `spec.SingleKeyed` holds if no object of a list sets several fields. -/
def SingleKeyed : SortSpec → Prop
  | one _ => True
  | many objects => ∀ fields ∈ objects, (SortField.keys fields).length ≤ 1

theorem keys_of_singleKeyed {spec : SortSpec} (h : spec.SingleKeyed) :
    spec.keys = .ok spec.setKeys := by
  cases spec with
  | one fields => rfl
  | many objects =>
      show listKeys objects = .ok (objects.flatMap SortField.keys)
      induction objects with
      | nil => rfl
      | cons fields rest ih =>
          obtain ⟨hfields, hrest⟩ := List.forall_mem_cons.1 h
          rw [listKeys, if_neg (by omega), ih hrest]
          rfl

/-- One object of a list that sets several fields refuses the sort, wherever it stands. -/
theorem keys_of_not_singleKeyed {spec : SortSpec} (h : ¬ spec.SingleKeyed) :
    spec.keys = .error .multipleSortFields := by
  cases spec with
  | one fields => exact absurd trivial h
  | many objects =>
      show listKeys objects = .error .multipleSortFields
      induction objects with
      | nil => exact absurd (fun _ hmem => absurd hmem List.not_mem_nil) h
      | cons fields rest ih =>
          rw [listKeys]
          by_cases hfields : 1 < (SortField.keys fields).length
          · rw [if_pos hfields]
          · have hrest : ¬ (many rest).SingleKeyed := by
              intro hrest
              exact h (List.forall_mem_cons.2 ⟨by omega, hrest⟩)
            rw [if_neg hfields, ih hrest]
            rfl

theorem keys_eq_setKeys {spec : SortSpec} {keys : List SortKey} (h : spec.keys = .ok keys) :
    keys = spec.setKeys := by
  by_cases hsingle : spec.SingleKeyed
  · rw [keys_of_singleKeyed hsingle] at h
    exact (Except.ok.inj h).symm
  · rw [keys_of_not_singleKeyed hsingle] at h
    cases h

/-- The keys that a request is ordered by: those of the set fields, or the default one where no
field is set. -/
def keysOf (spec : Option SortSpec) (fallback : SortKey) : List SortKey :=
  let keys := spec.elim [] setKeys
  if keys.isEmpty then [fallback] else keys

theorem keysOf_ne_nil (spec : Option SortSpec) (fallback : SortKey) :
    keysOf spec fallback ≠ [] := by
  unfold keysOf
  cases spec.elim [] setKeys with
  | nil => exact List.cons_ne_nil fallback []
  | cons key keys => exact List.cons_ne_nil key keys

/-- Objects that set nothing give no keys. -/
theorem flatMap_keys_filter (objects : List (List SortField)) :
    (objects.filter fun fields => SortField.keys fields ≠ []).flatMap SortField.keys =
      objects.flatMap SortField.keys := by
  induction objects with
  | nil => rfl
  | cons fields rest ih =>
      by_cases hfields : SortField.keys fields = []
      · rw [List.filter_cons_of_neg (by simpa using hfields), List.flatMap_cons, hfields, ih]
        rfl
      · rw [List.filter_cons_of_pos (by simpa using hfields), List.flatMap_cons, List.flatMap_cons,
          ih]

theorem singleKeyed_many_filter (objects : List (List SortField)) :
    (many (objects.filter fun fields => SortField.keys fields ≠ [])).SingleKeyed ↔
      (many objects).SingleKeyed := by
  refine ⟨fun h fields hmem => ?_, fun h fields hmem => h fields (List.mem_of_mem_filter hmem)⟩
  by_cases hfields : SortField.keys fields = []
  · rw [hfields]
    exact Nat.zero_le 1
  · exact h fields (List.mem_filter.2 ⟨hmem, by simpa using hfields⟩)

end SortSpec

/-! ## Orders -/

/-- A key before its column was checked. -/
def OrderKey.asked (key : OrderKey) : SortKey := ⟨key.column.name, key.direction⟩

namespace Order

theorem keys_of_ofKeys {keys : List SortKey} {fallback : SortKey} {order : Order}
    (h : ofKeys keys fallback = .ok order) :
    order.keys.map OrderKey.asked = if keys.isEmpty then [fallback] else keys := by
  obtain ⟨checked, hchecked, h⟩ := Checked.bind_eq_ok_iff.1 h
  obtain rfl := Except.ok.inj h
  have hkept := Checked.map_of_mapM_eq_ok (g := id) (h := OrderKey.asked) hchecked ?_
  · rw [List.map_id] at hkept
    exact hkept
  · intro key found hkey
    obtain ⟨column, hcolumn, hkey⟩ := Checked.bind_eq_ok_iff.1 hkey
    obtain rfl := Except.ok.inj hkey
    show SortKey.mk column.name key.direction = key
    rw [Identifier.name_of_check hcolumn]

/-- Keys are refused for the first column that is no identifier. -/
theorem fault?_ofKeys (keys : List SortKey) (fallback : SortKey) :
    Checked.fault? (ofKeys keys fallback) =
      (if keys.isEmpty then [fallback] else keys).findSome? fun key =>
        Checked.fault? (Identifier.check key.column) := by
  have hcheck : ∀ key : SortKey,
      Checked.fault? key.check = Checked.fault? (Identifier.check key.column) :=
    fun key => Checked.fault?_bind_of_total fun _ => rfl
  show Checked.fault? (List.mapM SortKey.check _ >>= fun keys => pure (Order.mk keys)) = _
  rw [Checked.fault?_bind_of_total fun _ => rfl, Checked.fault?_mapM]
  exact congrArg (List.findSome? · _) (funext hcheck)

/-- Of a sort that is well formed only the keys matter. -/
theorem ofSpec_of_singleKeyed {spec : Option SortSpec}
    (h : ∀ asked ∈ spec, asked.SingleKeyed) (fallback : SortKey) :
    ofSpec spec fallback = ofKeys (spec.elim [] SortSpec.setKeys) fallback := by
  cases spec with
  | none => rfl
  | some spec =>
      show (spec.keys >>= fun keys => ofKeys keys fallback) = _
      rw [SortSpec.keys_of_singleKeyed (h spec rfl)]
      rfl

theorem ofSpec_of_not_singleKeyed {spec : SortSpec} (h : ¬ spec.SingleKeyed) (fallback : SortKey) :
    ofSpec (some spec) fallback = .error .multipleSortFields := by
  show (spec.keys >>= fun keys => ofKeys keys fallback) = _
  rw [SortSpec.keys_of_not_singleKeyed h]
  rfl

/-- The keys of an order are those that were asked for. -/
theorem keys_of_ofSpec {spec : Option SortSpec} {fallback : SortKey} {order : Order}
    (h : ofSpec spec fallback = .ok order) :
    order.keys.map OrderKey.asked = SortSpec.keysOf spec fallback := by
  cases spec with
  | none =>
      have h : ofKeys [] fallback = .ok order := h
      exact keys_of_ofKeys h
  | some spec =>
      have h : (spec.keys >>= fun keys => ofKeys keys fallback) = .ok order := h
      obtain ⟨keys, hkeys, h⟩ := Checked.bind_eq_ok_iff.1 h
      obtain rfl := SortSpec.keys_eq_setKeys hkeys
      exact keys_of_ofKeys h

theorem sql_of_ofSpec {spec : Option SortSpec} {fallback : SortKey} {order : Order}
    (h : ofSpec spec fallback = .ok order) :
    order.sql = ", ".intercalate ((SortSpec.keysOf spec fallback).map SortKey.text) := by
  rw [← keys_of_ofSpec h, List.map_map]
  rfl

/-- A sort that is well formed is refused for the first of its keys whose column is no
identifier. -/
theorem fault?_ofSpec {spec : Option SortSpec} (h : ∀ asked ∈ spec, asked.SingleKeyed)
    (fallback : SortKey) :
    Checked.fault? (ofSpec spec fallback) =
      (SortSpec.keysOf spec fallback).findSome? fun key =>
        Checked.fault? (Identifier.check key.column) := by
  rw [ofSpec_of_singleKeyed h]
  exact fault?_ofKeys _ fallback

/-- The default order fails only by the column of its key. -/
theorem fault?_ofSpec_none (fallback : SortKey) : Checked.fault? (ofSpec none fallback) =
    Checked.fault? (Identifier.check fallback.column) := by
  rw [fault?_ofSpec fun _ h => absurd h (Option.not_mem_none _)]
  exact List.findSome?_singleton

/-! ## Sorts that ask for the same order -/

/-- A list that sets the fields of one object one by one asks for the order that the object does. -/
theorem ofSpec_many_of_forall₂ {fields : List SortField} {objects : List (List SortField)}
    (h : List.Forall₂ (fun key object => SortField.keys object = [key]) (SortField.keys fields)
      objects) (fallback : SortKey) :
    ofSpec (some (.many objects)) fallback = ofSpec (some (.one fields)) fallback := by
  generalize hkeys : SortField.keys fields = keys at h
  have hobjects : (SortSpec.many objects).SingleKeyed ∧
      objects.flatMap SortField.keys = keys := by
    clear hkeys
    induction h with
    | nil => exact ⟨fun _ hmem => absurd hmem List.not_mem_nil, rfl⟩
    | @cons key object keys objects hobject _ ih =>
        obtain ⟨hsingle, hrest⟩ := ih
        refine ⟨List.forall_mem_cons.2 ⟨?_, hsingle⟩, ?_⟩
        · rw [hobject]
          exact Nat.le_refl 1
        · rw [List.flatMap_cons, hobject, hrest]
          rfl
  have hmany : ∀ asked ∈ some (SortSpec.many objects), asked.SingleKeyed := by
    rintro _ ⟨⟩
    exact hobjects.1
  have hone : ∀ asked ∈ some (SortSpec.one fields), asked.SingleKeyed := by
    rintro _ ⟨⟩
    exact trivial
  rw [ofSpec_of_singleKeyed hmany, ofSpec_of_singleKeyed hone]
  exact congrArg (ofKeys · fallback) (hobjects.2.trans hkeys.symm)

/-- Objects that set nothing do not matter. -/
theorem ofSpec_many_filter (objects : List (List SortField)) (fallback : SortKey) :
    ofSpec (some (.many (objects.filter fun fields => SortField.keys fields ≠ []))) fallback =
      ofSpec (some (.many objects)) fallback := by
  have hsingle := SortSpec.singleKeyed_many_filter objects
  by_cases h : (SortSpec.many objects).SingleKeyed
  · have hobjects : ∀ asked ∈ some (SortSpec.many objects), asked.SingleKeyed := by
      rintro _ ⟨⟩
      exact h
    have hfilter : ∀ asked ∈ some (SortSpec.many (objects.filter fun fields =>
        SortField.keys fields ≠ [])), asked.SingleKeyed := by
      rintro _ ⟨⟩
      exact hsingle.2 h
    rw [ofSpec_of_singleKeyed hfilter, ofSpec_of_singleKeyed hobjects]
    exact congrArg (ofKeys · fallback) (SortSpec.flatMap_keys_filter objects)
  · rw [ofSpec_of_not_singleKeyed h, ofSpec_of_not_singleKeyed (hsingle.not.2 h)]

/-- Orders are exactly what is asked for.  A list with an object that sets several fields is refused
for that, whatever else is wrong with it.  Any other sort asks for the keys of its set fields, or
for the fallback key if there are none; it gives an order, by these keys and never an empty one,
exactly if all of their columns are identifiers, and a fallback key that is not needed does not
matter.  One object asks for the same order as a list that sets its fields one by one, and objects
that set nothing may stand anywhere in a list. -/
theorem ofSpec_exact (fallback : SortKey) :
    (∀ objects : List (List SortField),
      (∃ fields ∈ objects, 1 < (SortField.keys fields).length) →
      ofSpec (some (.many objects)) fallback = .error .multipleSortFields) ∧
    (∀ spec : Option SortSpec, (∀ asked ∈ spec, asked.SingleKeyed) →
      ((∃ order, ofSpec spec fallback = .ok order) ↔
        ∀ key ∈ SortSpec.keysOf spec fallback, isIdentifier key.column.toList = true) ∧
      (∀ order, ofSpec spec fallback = .ok order →
        order.keys.map OrderKey.asked = SortSpec.keysOf spec fallback ∧ order.keys ≠ [] ∧
          order.sql = ", ".intercalate ((SortSpec.keysOf spec fallback).map SortKey.text)) ∧
      (spec.elim [] SortSpec.setKeys ≠ [] →
        ∀ other, ofSpec spec other = ofSpec spec fallback)) ∧
    (∀ (fields : List SortField) (objects : List (List SortField)),
      List.Forall₂ (fun key object => SortField.keys object = [key]) (SortField.keys fields)
        objects →
      ofSpec (some (.many objects)) fallback = ofSpec (some (.one fields)) fallback) ∧
    ∀ objects objects' : List (List SortField),
      (objects.filter fun fields => SortField.keys fields ≠ []) =
        (objects'.filter fun fields => SortField.keys fields ≠ []) →
      ofSpec (some (.many objects)) fallback = ofSpec (some (.many objects')) fallback := by
  refine ⟨?_, fun spec hspec => ⟨?_, fun order horder => ?_, ?_⟩,
    fun fields objects h => ofSpec_many_of_forall₂ h fallback, ?_⟩
  · rintro objects ⟨fields, hmem, hfields⟩
    refine ofSpec_of_not_singleKeyed (fun h => ?_) fallback
    have hle := h fields hmem
    omega
  · rw [← Checked.fault?_eq_none_iff, fault?_ofSpec hspec, List.findSome?_eq_none_iff]
    exact forall₂_congr fun key _ => Identifier.fault?_check_eq_none_iff
  · have hkeys := keys_of_ofSpec horder
    refine ⟨hkeys, fun hnil => ?_, sql_of_ofSpec horder⟩
    rw [hnil] at hkeys
    exact SortSpec.keysOf_ne_nil spec fallback hkeys.symm
  · intro hset other
    rw [ofSpec_of_singleKeyed hspec, ofSpec_of_singleKeyed hspec, ofKeys, ofKeys,
      if_neg (by simpa using hset), if_neg (by simpa using hset)]
  · intro objects objects' h
    rw [← ofSpec_many_filter objects, h, ofSpec_many_filter objects']

/-- Two fields set in one object behind a column that is no identifier, and two ways to set the same
fields. -/
theorem ofSpec_exact_two_fields :
    let title : SortField := ⟨"title", some .ascending⟩
    let label : SortField := ⟨"label", none⟩
    let year : SortField := ⟨"release_year", some .descending⟩
    ofSpec (some (.many [[⟨"1st", some .ascending⟩], [title, year]])) .standard =
        .error .multipleSortFields ∧
      ofSpec (some (.many [[], [title, label], [label], [year]])) .standard =
        ofSpec (some (.one [title, label, year])) .standard ∧
      ∃ order, ofSpec (some (.one [title, label, year])) .standard = .ok order ∧
        order.sql = "title ASC, release_year DESC" := by
  intro title label year
  obtain ⟨hseveral, hsingle, hlists, hempty⟩ := ofSpec_exact .standard
  have hone : ∀ asked ∈ some (SortSpec.one [title, label, year]), asked.SingleKeyed := by
    rintro _ ⟨⟩
    exact trivial
  obtain ⟨hsucceeds, horder, -⟩ := hsingle _ hone
  obtain ⟨order, hok⟩ := hsucceeds.2 (by decide)
  obtain ⟨-, -, hsql⟩ := horder order hok
  refine ⟨hseveral _ ⟨_, List.mem_cons_of_mem _ List.mem_cons_self, by decide⟩, ?_, order, hok, ?_⟩
  · rw [← hlists [title, label, year] [[title, label], [year]] (.cons rfl (.cons rfl .nil))]
    exact hempty _ _ rfl
  · rw [hsql]
    rfl

end Order

end TableQuery
