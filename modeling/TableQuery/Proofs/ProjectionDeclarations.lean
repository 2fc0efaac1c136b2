import Mathlib.Data.List.Induction
import TableQuery.Descriptor.ProjectionPlan
import TableQuery.Proofs.AttributeKeys
import TableQuery.Proofs.Checked

/-!
# Declarations of projections

Which declarations give a plan for projections, and which fields the plan marks with which columns.
The keys of a field are read from left to right; each replaces what was said before it, so that at
the end the last column and the last aliases count, and the name of the field where there are none.
Only a field with an attribute marks a column, and it has to be a flag.

## Main results

* `AttributeItem.IsMarkKey`, `FieldDeclaration.IsProjectionField` — the language of the attributes.
* `foldlM_fieldAfter_eq_ok_iff`, `foldl_after` — the run over the keys of a field.
* `ofDeclaration_eq_ok_iff` — the plan of a declaration.
* `exists_ofDeclaration_eq_error_iff` — why a declaration gives none.
-/

namespace TableQuery

/-! ## The language of attributes -/

namespace AttributeItem

variable {item : AttributeItem}

/-- `item.IsMarkKey` holds if a key is one of projections: aliases, or a column that is not
empty. -/
def IsMarkKey (item : AttributeItem) : Prop :=
  (item.key = "alias" ∧ ∃ aliases, item.value = some (.text aliases)) ∨
    (item.key = "column" ∧ ∃ column, item.value = some (.text column) ∧ column ≠ "")

/-- `item.HasText` holds if a key that needs a text as its value has one. -/
def HasText (item : AttributeItem) : Prop :=
  item.key = "alias" ∨ item.key = "column" → ∃ value, item.value = some (.text value)

/-- Where keys have texts, only an unknown key and an empty column are wrong. -/
theorem not_isMarkKey_iff (h : item.HasText) :
    ¬ item.IsMarkKey ↔ (item.key ≠ "alias" ∧ item.key ≠ "column") ∨
      (item.key = "column" ∧ item.value = some (.text "")) := by
  by_cases halias : item.key = "alias"
  · have hkey : item.IsMarkKey := .inl ⟨halias, h (.inl halias)⟩
    have hcolumn : item.key ≠ "column" := by rw [halias]; decide
    simp [hkey, halias]
  · by_cases hcolumn : item.key = "column"
    · obtain ⟨column, hvalue⟩ := h (.inr hcolumn)
      simp [IsMarkKey, hcolumn, hvalue]
    · simp [IsMarkKey, halias, hcolumn]

end AttributeItem

/-- A field that marks a column, after a further key. -/
def MarkField.after (field : MarkField) (item : AttributeItem) : MarkField where
  name := field.name
  column := (item.textOf? "column").getD field.column
  aliases := (item.textOf? "alias").getD field.aliases

/-- After some keys the last column and the last aliases count. -/
theorem MarkField.foldl_after (field : MarkField) (items : List AttributeItem) :
    items.foldl after field =
      { name := field.name
        column := (AttributeItem.lastText? "column" items).getD field.column
        aliases := (AttributeItem.lastText? "alias" items).getD field.aliases } := by
  induction items using List.reverseRecOn with
  | nil => rfl
  | append_singleton items item ih =>
      rw [List.foldl_append, ih, List.foldl_cons, List.foldl_nil, after,
        AttributeItem.lastText?_append_singleton, AttributeItem.lastText?_append_singleton]
      simp only [Option.getD_or]

namespace ProjectionPlan

open AttributeItem

variable {field result : MarkField}

theorem fieldAfter_alias_eq_ok_iff {value : Option ItemValue} :
    fieldAfter field (.item ⟨"alias", value⟩) = .ok result ↔
      ∃ aliases, value = some (.text aliases) ∧ result = { field with aliases } := by
  show (textValue ⟨"alias", value⟩ >>= fun aliases => .ok { field with aliases }) = _ ↔ _
  simp only [Checked.bind_eq_ok_iff, textValue_eq_ok_iff, Except.ok.injEq, eq_comm (b := result)]

theorem fieldAfter_column_eq_ok_iff {value : Option ItemValue} :
    fieldAfter field (.item ⟨"column", value⟩) = .ok result ↔
      ∃ column, (value = some (.text column) ∧ column ≠ "") ∧ result = { field with column } := by
  show (columnValue ⟨"column", value⟩ >>= fun column => .ok { field with column }) = _ ↔ _
  simp only [Checked.bind_eq_ok_iff, columnValue_eq_ok_iff, Except.ok.injEq, eq_comm (b := result)]

/-- A key of projections changes the field, and no other mark can stand. -/
theorem fieldAfter_eq_ok_iff {mark : Mark} :
    fieldAfter field mark = .ok result ↔
      ∃ item : AttributeItem, mark = .item item ∧ item.IsMarkKey ∧ result = field.after item := by
  match mark with
  | .bare => simp [fieldAfter]
  | .item ⟨key, value⟩ =>
      simp only [Mark.item.injEq, exists_eq_left']
      by_cases halias : key = "alias"
      · subst halias
        rw [fieldAfter_alias_eq_ok_iff]
        constructor
        · rintro ⟨aliases, rfl, rfl⟩
          exact ⟨.inl ⟨rfl, aliases, rfl⟩, rfl⟩
        · rintro ⟨⟨-, aliases, rfl⟩ | ⟨hkey, -⟩, rfl⟩
          · exact ⟨aliases, rfl, rfl⟩
          · exact absurd hkey (by decide : "alias" ≠ "column")
      · by_cases hcolumn : key = "column"
        · subst hcolumn
          rw [fieldAfter_column_eq_ok_iff]
          constructor
          · rintro ⟨column, ⟨rfl, hne⟩, rfl⟩
            exact ⟨.inr ⟨rfl, column, rfl, hne⟩, rfl⟩
          · rintro ⟨⟨hkey, -⟩ | ⟨-, column, rfl, hne⟩, rfl⟩
            · exact absurd hkey (by decide : "column" ≠ "alias")
            · exact ⟨column, ⟨rfl, hne⟩, rfl⟩
        · simp [fieldAfter, aliasKey, columnKey, IsMarkKey, halias, hcolumn]

/-- The marks of a field can stand exactly if each is a key of projections. -/
theorem foldlM_fieldAfter_eq_ok_iff {marks : List Mark} :
    marks.foldlM fieldAfter field = .ok result ↔
      ∃ items : List AttributeItem, marks = items.map .item ∧ (∀ item ∈ items, item.IsMarkKey) ∧
        result = items.foldl MarkField.after field := by
  induction marks generalizing field with
  | nil =>
      rw [List.foldlM_nil]
      constructor
      · intro h
        exact ⟨[], rfl, by simp, (Except.ok.inj h).symm⟩
      · rintro ⟨items, hitems, -, rfl⟩
        obtain rfl := List.map_eq_nil_iff.1 hitems.symm
        rfl
  | cons mark marks ih =>
      rw [List.foldlM_cons, Checked.bind_eq_ok_iff]
      simp only [fieldAfter_eq_ok_iff, ih]
      constructor
      · rintro ⟨_, ⟨item, rfl, hitem, rfl⟩, items, rfl, hitems, rfl⟩
        exact ⟨item :: items, rfl, List.forall_mem_cons.2 ⟨hitem, hitems⟩, rfl⟩
      · rintro ⟨_ | ⟨item, items⟩, hmarks, hkeys, rfl⟩
        · cases hmarks
        · obtain ⟨rfl, rfl⟩ := List.cons.inj hmarks
          obtain ⟨hitem, hitems⟩ := List.forall_mem_cons.1 hkeys
          exact ⟨_, ⟨item, rfl, hitem, rfl⟩, items, rfl, hitems, rfl⟩

end ProjectionPlan

/-! ## Fields of projections -/

namespace FieldDeclaration

/-- Whether a field has an attribute for projections. -/
def isTagged (field : FieldDeclaration) : Bool := !(field.attributesOf .projection).isEmpty

/-- `field.IsProjectionField` holds if all keys of a field are keys of projections, and the field is
a flag if it is tagged. -/
structure IsProjectionField (field : FieldDeclaration) : Prop where
  listed : field.Listed .projection
  known : ∀ key ∈ field.keys .projection, key.IsMarkKey
  flag : field.isTagged = true → Text.trim field.type = "bool"

/-- The column that a field marks: the last one it is given, or its name. -/
def markedColumn (field : FieldDeclaration) : String :=
  (AttributeItem.lastText? "column" (field.keys .projection)).getD field.name

/-- The aliases of the column that a field marks: the last ones it is given, or its name. -/
def markedAliases (field : FieldDeclaration) : String :=
  (AttributeItem.lastText? "alias" (field.keys .projection)).getD field.name

/-- A field as a field that marks a column. -/
def toMark (field : FieldDeclaration) : MarkField :=
  ⟨field.name, field.markedColumn, field.markedAliases⟩

theorem markField_eq_ok_iff {field : FieldDeclaration} {result : Option MarkField} :
    ProjectionPlan.markField field = .ok result ↔
      field.IsProjectionField ∧ result = if field.isTagged then some field.toMark else none := by
  have hmarks : ∀ marked, (field.marks .projection).foldlM ProjectionPlan.fieldAfter
      ⟨field.name, field.name, field.name⟩ = .ok marked ↔
        (field.Listed .projection ∧ ∀ key ∈ field.keys .projection, key.IsMarkKey) ∧
          marked = field.toMark := by
    intro marked
    rw [ProjectionPlan.foldlM_fieldAfter_eq_ok_iff, toMark, markedColumn, markedAliases,
      ← MarkField.foldl_after ⟨field.name, field.name, field.name⟩]
    constructor
    · rintro ⟨items, hitems, hkeys, rfl⟩
      obtain ⟨hlisted, rfl⟩ := listed_of_marks items hitems
      exact ⟨⟨hlisted, hkeys⟩, rfl⟩
    · rintro ⟨⟨hlisted, hkeys⟩, rfl⟩
      exact ⟨_, marks_eq_map_keys hlisted, hkeys, rfl⟩
  rw [ProjectionPlan.markField, Checked.bind_eq_ok_iff]
  simp only [hmarks]
  have htagged : ∀ marked : MarkField,
      (if (field.attributesOf .projection).isEmpty then return none
        else if ProjectionPlan.isFlag field then return some marked
        else .error .notAFlag : Except DeclarationError (Option MarkField)) = .ok result ↔
      (field.isTagged = true → Text.trim field.type = "bool") ∧
        result = if field.isTagged then some marked else none := by
    intro marked
    cases htag : (field.attributesOf .projection).isEmpty <;>
      by_cases hflag : Text.trim field.type = "bool" <;>
        simp [isTagged, ProjectionPlan.isFlag, htag, hflag, pure, Except.pure, eq_comm]
  constructor
  · rintro ⟨_, ⟨⟨hlisted, hkeys⟩, rfl⟩, h⟩
    obtain ⟨hflag, rfl⟩ := (htagged _).1 h
    exact ⟨⟨hlisted, hkeys, hflag⟩, rfl⟩
  · rintro ⟨⟨hlisted, hkeys, hflag⟩, rfl⟩
    exact ⟨_, ⟨⟨hlisted, hkeys⟩, rfl⟩, (htagged _).2 ⟨hflag, rfl⟩⟩

/-- `field.HasTexts` holds if all attributes of a field have lists of keys, and all keys that need
texts have them. -/
structure HasTexts (field : FieldDeclaration) : Prop where
  listed : field.Listed .projection
  texts : ∀ key ∈ field.keys .projection, key.HasText

/-- A field whose keys have texts is wrong by an unknown key, by an empty column or by its type. -/
theorem not_isProjectionField_iff {field : FieldDeclaration} (h : field.HasTexts) :
    ¬ field.IsProjectionField ↔
      (∃ key ∈ field.keys .projection, key.key ≠ "alias" ∧ key.key ≠ "column") ∨
      (∃ key ∈ field.keys .projection, key.key = "column" ∧ key.value = some (.text "")) ∨
      (field.isTagged = true ∧ Text.trim field.type ≠ "bool") := by
  have hfield : field.IsProjectionField ↔ (∀ key ∈ field.keys .projection, key.IsMarkKey) ∧
      (field.isTagged = true → Text.trim field.type = "bool") :=
    ⟨fun ⟨_, hknown, hflag⟩ => ⟨hknown, hflag⟩, fun ⟨hknown, hflag⟩ => ⟨h.listed, hknown, hflag⟩⟩
  have hkeys : (¬ ∀ key ∈ field.keys .projection, key.IsMarkKey) ↔
      ∃ key ∈ field.keys .projection, (key.key ≠ "alias" ∧ key.key ≠ "column") ∨
        (key.key = "column" ∧ key.value = some (.text "")) := by
    simp only [not_forall, exists_prop]
    exact exists_congr fun key => and_congr_right fun hkey =>
      AttributeItem.not_isMarkKey_iff (h.texts key hkey)
  rw [hfield, not_and_or, hkeys, Classical.not_imp]
  simp only [and_or_left, exists_or, or_assoc]

end FieldDeclaration

/-! ## Plans -/

namespace ProjectionPlan

open FieldDeclaration

theorem namedFields_eq_ok_iff {declaration : Declaration} {kind : PlanKind}
    {fields : List FieldDeclaration} :
    declaration.namedFields kind = .ok fields ↔
      declaration.shape = .record ∧ fields = declaration.fields := by
  rw [Declaration.namedFields]
  cases declaration.shape <;> simp [eq_comm]

theorem mapM_markField_eq_ok_iff {fields : List FieldDeclaration}
    {marks : List (Option MarkField)} :
    fields.mapM markField = .ok marks ↔
      (∀ field ∈ fields, field.IsProjectionField) ∧
        marks = fields.map fun field => if field.isTagged then some field.toMark else none := by
  rw [Checked.mapM_eq_ok_iff]
  simp only [markField_eq_ok_iff]
  rw [List.forall₂_and_left]
  simp only [eq_comm (b := ite _ _ _)]
  rw [← List.forall₂_map_left_iff, List.forall₂_eq_eq_eq, eq_comm]

/-- The plan of some fields: those that are tagged, in their order. -/
def ofFields (fields : List FieldDeclaration) : ProjectionPlan :=
  ⟨(fields.filter isTagged).map toMark⟩

/-- A declaration gives a plan exactly if it is a record of fields of projections. -/
theorem ofDeclaration_eq_ok_iff {declaration : Declaration} {plan : ProjectionPlan} :
    ofDeclaration declaration = .ok plan ↔
      (declaration.shape = .record ∧ ∀ field ∈ declaration.fields, field.IsProjectionField) ∧
        plan = ofFields declaration.fields := by
  have hmarks : ∀ fields : List FieldDeclaration,
      (fields.map fun field => if field.isTagged then some field.toMark else none).filterMap id =
        (fields.filter isTagged).map toMark := by
    intro fields
    rw [List.filterMap_map, ← List.filterMap_eq_map, List.filterMap_filter]
    rfl
  rw [ofDeclaration, Checked.bind_eq_ok_iff]
  simp only [namedFields_eq_ok_iff, Checked.bind_eq_ok_iff, mapM_markField_eq_ok_iff]
  constructor
  · rintro ⟨_, ⟨hshape, rfl⟩, _, ⟨hfields, rfl⟩, h⟩
    obtain rfl := Except.ok.inj h
    exact ⟨⟨hshape, hfields⟩, congrArg ProjectionPlan.mk (hmarks _)⟩
  · rintro ⟨⟨hshape, hfields⟩, rfl⟩
    exact ⟨_, ⟨hshape, rfl⟩, _, ⟨hfields, rfl⟩,
      congrArg (Except.ok ∘ ProjectionPlan.mk) (hmarks _)⟩

/-- A declaration whose keys have texts gives no plan exactly if it is no record of named fields, or
for one of three faults of a field. -/
theorem exists_ofDeclaration_eq_error_iff {declaration : Declaration}
    (h : ∀ field ∈ declaration.fields, field.HasTexts) :
    (∃ error, ofDeclaration declaration = .error error) ↔
      declaration.shape ≠ .record ∨ ∃ field ∈ declaration.fields,
        (∃ key ∈ field.keys .projection, key.key ≠ "alias" ∧ key.key ≠ "column") ∨
        (∃ key ∈ field.keys .projection, key.key = "column" ∧ key.value = some (.text "")) ∨
        (field.isTagged = true ∧ Text.trim field.type ≠ "bool") := by
  have hrefused : (∃ error, ofDeclaration declaration = .error error) ↔
      ¬ (declaration.shape = .record ∧
        ∀ field ∈ declaration.fields, field.IsProjectionField) := by
    cases hplan : ofDeclaration declaration with
    | ok plan =>
        refine ⟨fun ⟨_, herror⟩ => ?_, fun hnot => ?_⟩
        · cases herror
        · exact absurd (ofDeclaration_eq_ok_iff.1 hplan).1 hnot
    | error error =>
        refine ⟨fun _ haccepted => ?_, fun _ => ⟨error, rfl⟩⟩
        rw [ofDeclaration_eq_ok_iff.2 ⟨haccepted, rfl⟩] at hplan
        cases hplan
  rw [hrefused, not_and_or]
  simp only [not_forall, exists_prop]
  exact or_congr_right (exists_congr fun field => and_congr_right fun hfield =>
    not_isProjectionField_iff (h field hfield))

end ProjectionPlan

end TableQuery
