import Mathlib.Data.List.Basic
import TableQuery.Descriptor.Declaration
import TableQuery.Proofs.Checked

/-!
# Keys of attributes

What the attributes of a field say about a plan is a list of keys, from left to right over all of
them, unless one of them has no list.  A key may be given several times, and where only one text
counts, it is the last.

## Main results

* `marks_eq_map_keys`, `listed_of_marks` — the marks of a field are its keys.
* `lastText?_append_singleton` — a further key gives the last text, or leaves it as it is.
-/

namespace TableQuery

/-! ## Keys of a field -/

namespace FieldDeclaration

/-- The keys of a field that count for a plan, from left to right over all of its attributes. -/
def keys (field : FieldDeclaration) (kind : PlanKind) : List AttributeItem :=
  (field.attributesOf kind).flatMap fun given => given.items.getD []

/-- Whether all attributes of a field that count for a plan have lists of keys. -/
def Listed (field : FieldDeclaration) (kind : PlanKind) : Prop :=
  ∀ given ∈ field.attributesOf kind, given.items.isSome = true

instance (field : FieldDeclaration) (kind : PlanKind) : Decidable (field.Listed kind) :=
  inferInstanceAs (Decidable (∀ given ∈ field.attributesOf kind, given.items.isSome = true))

/-- Where all attributes have lists, the marks of a field are its keys. -/
theorem marks_eq_map_keys {field : FieldDeclaration} {kind : PlanKind} (h : field.Listed kind) :
    field.marks kind = (field.keys kind).map .item := by
  rw [marks, keys, List.map_flatMap]
  refine List.flatMap_congr fun given hgiven => ?_
  obtain ⟨items, hitems⟩ := Option.isSome_iff_exists.1 (h given hgiven)
  rw [Attribute.marks, hitems]
  rfl

theorem bare_mem_marks_of_not_listed {field : FieldDeclaration} {kind : PlanKind}
    (h : ¬ field.Listed kind) : .bare ∈ field.marks kind := by
  simp only [Listed, not_forall] at h
  obtain ⟨given, hgiven, hitems⟩ := h
  refine List.mem_flatMap.2 ⟨given, hgiven, ?_⟩
  rw [Attribute.marks, Option.not_isSome_iff_eq_none.1 hitems]
  exact List.mem_singleton_self _

/-- A field all of whose marks are items has lists only. -/
theorem listed_of_marks {field : FieldDeclaration} {kind : PlanKind} (items : List AttributeItem)
    (h : field.marks kind = items.map .item) : field.Listed kind ∧ field.keys kind = items := by
  have hlisted : field.Listed kind := by
    by_contra hnot
    have hbare := bare_mem_marks_of_not_listed hnot
    rw [h] at hbare
    obtain ⟨_, -, hitem⟩ := List.mem_map.1 hbare
    cases hitem
  refine ⟨hlisted, ?_⟩
  rw [marks_eq_map_keys hlisted] at h
  exact List.map_injective_iff.2 (fun _ _ => Mark.item.inj) h

end FieldDeclaration

/-! ## Texts of keys -/

namespace AttributeItem

/-- The text that an item gives a key. -/
def textOf? (key : String) (item : AttributeItem) : Option String :=
  match item.value with
  | some (.text value) => if item.key = key then some value else none
  | _ => none

theorem textValue_eq_ok_iff {item : AttributeItem} {value : String} :
    item.textValue = .ok value ↔ item.value = some (.text value) := by
  rw [textValue]
  split <;> simp_all

/-- A column that is not empty is read as it is. -/
theorem columnValue_eq_ok_iff {item : AttributeItem} {column : String} :
    item.columnValue = .ok column ↔ item.value = some (.text column) ∧ column ≠ "" := by
  rw [columnValue, Checked.bind_eq_ok_iff]
  simp only [textValue_eq_ok_iff]
  constructor
  · rintro ⟨value, hvalue, h⟩
    by_cases hempty : value.isEmpty
    · rw [if_pos hempty] at h
      cases h
    · rw [if_neg hempty] at h
      obtain rfl := Except.ok.inj h
      exact ⟨hvalue, by simpa [String.isEmpty_iff] using hempty⟩
  · rintro ⟨hvalue, hne⟩
    exact ⟨column, hvalue, if_neg (by simpa [String.isEmpty_iff] using hne)⟩

/-- The last text that some items give a key. -/
def lastText? (key : String) (items : List AttributeItem) : Option String :=
  (items.filterMap (textOf? key)).getLast?

theorem lastText?_append_singleton (key : String) (items : List AttributeItem)
    (item : AttributeItem) :
    lastText? key (items ++ [item]) = (item.textOf? key).or (lastText? key items) := by
  rw [lastText?, List.filterMap_append, List.getLast?_append]
  cases h : item.textOf? key with
  | none => rw [List.filterMap_cons_none h]; rfl
  | some value => rw [List.filterMap_cons_some h]; rfl

end AttributeItem

end TableQuery
