import Mathlib.Data.List.Induction
import TableQuery.Proofs.AttributeKeys
import TableQuery.Proofs.DerivedFilters

/-!
# Declarations of filters

Which declarations give a plan for filters, and what the plan makes of records.  The attributes of a
field are read from left to right, and the fields in their order; what is kept meanwhile is the plan
of the fields so far.  So a run over the fields ends with the plan of all of them, or at the first
field that cannot stand after those before it, with the first fault of that field.

In the plan the fields of groups have lost their places, and ignored fields have left no trace.  The
filter of a record is therefore made of its leaves in the order of the declaration and of its two
groups after them, and it does not depend on what the record holds in ignored fields.

## Main results

* `AttributeItem.IsFilterKey`, `FieldDeclaration.IsFilterField`, `FilterPlan.Accepts` — the language
  of the attributes.
* `addField_of_isFilterField`, `addField_of_filterFaultAfter` — one field after others.
* `ofDeclaration_eq_ok_iff`, `ofDeclaration_eq_error_iff` — the run over all fields.
* `toFilter_ofFields_eq_ok_iff` — the filters of records.
* `declared_filters_exact` — all of this together.
-/

namespace TableQuery

/-! ## The language of attributes -/

namespace AttributeItem

/-- `item.IsFilterKey` holds if a key is one of filters: a column that is not empty, or a group
without a value. -/
def IsFilterKey (item : AttributeItem) : Prop :=
  (item.key = "column" ∧ ∃ column, item.value = some (.text column) ∧ column ≠ "") ∨
    ((item.key = "and" ∨ item.key = "or") ∧ item.value = none)

/-- `item.FilterFault error` holds if `error` is what is wrong with a key of filters. -/
inductive FilterFault : AttributeItem → DeclarationError → Prop where
  | missingValue : FilterFault ⟨"column", none⟩ .missingValue
  | notAText : FilterFault ⟨"column", some .literal⟩ .notAText
  | emptyColumn : FilterFault ⟨"column", some (.text "")⟩ .emptyColumn
  | unexpectedValue (junction : Junction) (value : ItemValue) :
      FilterFault ⟨junction.key, some value⟩ .unexpectedValue
  | unknownKey {key : String} (value : Option ItemValue) (hcolumn : key ≠ "column")
      (hgroup : ∀ junction : Junction, key ≠ junction.key) :
      FilterFault ⟨key, value⟩ (.unknownKey .filter)

/-- `item.Plays role` holds if `role` is what a key of filters makes of its field. -/
inductive Plays : AttributeItem → FilterRole → Prop where
  | ignored : Plays ⟨"column", some (.text "-")⟩ .ignored
  | leaf {column : String} (hempty : column ≠ "") (hignored : column ≠ "-") :
      Plays ⟨"column", some (.text column)⟩ (.leaf column)
  | group (junction : Junction) : Plays ⟨junction.key, none⟩ (.group junction)

/-- The column of which a key lets its field ask something; `-` stands for none. -/
def column? (item : AttributeItem) : Option String :=
  match item.value with
  | some (.text column) => if item.key = "column" ∧ column ≠ "-" then some column else none
  | _ => none

variable {item : AttributeItem}

theorem isFilterKey_iff_plays : item.IsFilterKey ↔ ∃ role, item.Plays role := by
  obtain ⟨key, value⟩ := item
  constructor
  · rintro (⟨rfl, column, rfl, hempty⟩ | ⟨rfl | rfl, rfl⟩)
    · by_cases hignored : column = "-"
      · exact ⟨.ignored, hignored ▸ .ignored⟩
      · exact ⟨.leaf column, .leaf hempty hignored⟩
    · exact ⟨.group .all, .group .all⟩
    · exact ⟨.group .any, .group .any⟩
  · rintro ⟨_, h⟩
    cases h with
    | ignored => exact .inl ⟨rfl, "-", rfl, by decide⟩
    | @leaf column hempty hignored => exact .inl ⟨rfl, column, rfl, hempty⟩
    | group junction => cases junction <;> exact .inr ⟨by decide, rfl⟩

/-- A key is one of filters or has a fault. -/
theorem isFilterKey_or_fault (item : AttributeItem) :
    item.IsFilterKey ∨ ∃ error, item.FilterFault error := by
  obtain ⟨key, value⟩ := item
  by_cases hcolumn : key = "column"
  · subst hcolumn
    match value with
    | none => exact .inr ⟨_, .missingValue⟩
    | some .literal => exact .inr ⟨_, .notAText⟩
    | some (.text column) =>
        by_cases hempty : column = ""
        · subst hempty
          exact .inr ⟨_, .emptyColumn⟩
        · exact .inl (.inl ⟨rfl, column, rfl, hempty⟩)
  · by_cases hgroup : ∃ junction : Junction, key = junction.key
    · obtain ⟨junction, rfl⟩ := hgroup
      cases value with
      | none => exact .inl (isFilterKey_iff_plays.2 ⟨_, .group junction⟩)
      | some value => exact .inr ⟨_, .unexpectedValue junction value⟩
    · exact .inr ⟨_, .unknownKey value hcolumn (not_exists.1 hgroup)⟩

theorem ofItem_of_plays {role : FilterRole} (h : item.Plays role) :
    FilterRole.ofItem item = .ok role := by
  cases h with
  | ignored => rfl
  | @leaf column hempty hignored =>
      have hcolumn : columnValue ⟨"column", some (.text column)⟩ = .ok column := by
        show (if column.isEmpty then _ else _) = _
        rw [if_neg (by simpa [String.isEmpty_iff] using hempty)]
      simp only [FilterRole.ofItem, columnKey, if_true, hcolumn]
      exact congrArg Except.ok (if_neg hignored)
  | group junction => cases junction <;> rfl

theorem ofItem_of_fault {error : DeclarationError} (h : item.FilterFault error) :
    FilterRole.ofItem item = .error error := by
  cases h with
  | missingValue | notAText | emptyColumn => rfl
  | unexpectedValue junction value => cases junction <;> rfl
  | unknownKey value hcolumn hgroup =>
      simp only [FilterRole.ofItem, columnKey, if_neg hcolumn, if_neg (hgroup .all),
        if_neg (hgroup .any)]

theorem Plays.leaf_iff {role : FilterRole} (h : item.Plays role) (column : String) :
    role = .leaf column ↔ item.column? = some column := by
  cases h with
  | ignored => simp [column?]
  | leaf hempty hignored => simp [column?, hignored]
  | group junction => simp [column?]

theorem Plays.group_iff {role : FilterRole} (h : item.Plays role) (junction : Junction) :
    role = .group junction ↔ item.key = junction.key := by
  cases h with
  | ignored | leaf => cases junction <;> simp [Junction.key]
  | group other => cases other <;> cases junction <;> simp [Junction.key]

end AttributeItem

namespace FilterRole

/-- `MarksFault marks error` holds if `error` is the first fault in the marks of a field: they are
read from left to right, and after a key of filters there may be no other. -/
inductive MarksFault : List Mark → DeclarationError → Prop where
  | bare (rest : List Mark) : MarksFault (.bare :: rest) (.bareAttribute .filter)
  | key {item : AttributeItem} {error : DeclarationError} (h : item.FilterFault error)
      (rest : List Mark) : MarksFault (.item item :: rest) error
  | bareAfter {item : AttributeItem} (h : item.IsFilterKey) (rest : List Mark) :
      MarksFault (.item item :: .bare :: rest) (.bareAttribute .filter)
  | several {item : AttributeItem} (h : item.IsFilterKey) (other : AttributeItem)
      (rest : List Mark) : MarksFault (.item item :: .item other :: rest) .severalKeys

theorem MarksFault.ofMarks_eq {marks : List Mark} {error : DeclarationError}
    (h : MarksFault marks error) : ofMarks marks = .error error := by
  cases h with
  | bare rest => rfl
  | key h rest => rw [ofMarks, AttributeItem.ofItem_of_fault h]; rfl
  | bareAfter h rest | several h other rest =>
      obtain ⟨role, hrole⟩ := AttributeItem.isFilterKey_iff_plays.1 h
      rw [ofMarks, AttributeItem.ofItem_of_plays hrole]
      rfl

end FilterRole

/-! ## Fields of filters -/

namespace FieldDeclaration

variable {field : FieldDeclaration}

/-- `field.IsFilterField` holds if a field has one key at most over all its attributes for filters,
and that is a key of filters. -/
structure IsFilterField (field : FieldDeclaration) : Prop where
  listed : field.Listed .filter
  single : (field.keys .filter).length ≤ 1
  known : ∀ key ∈ field.keys .filter, key.IsFilterKey

/-- The column of which a field asks something. -/
def filterColumn? (field : FieldDeclaration) : Option String :=
  (field.keys .filter).findSome? AttributeItem.column?

/-- Whether a field holds the members of a group. -/
def isGroup (junction : Junction) (field : FieldDeclaration) : Bool :=
  (field.keys .filter).any fun item => item.key = junction.key

/-- `field.Ignored` holds if a field has no key of filters, or only the column that stands for
none. -/
def Ignored (field : FieldDeclaration) : Prop :=
  field.keys .filter = [] ∨ field.keys .filter = [⟨"column", some (.text "-")⟩]

theorem Ignored.filterColumn?_eq_none (h : field.Ignored) : field.filterColumn? = none := by
  rcases h with h | h <;> rw [filterColumn?, h] <;> rfl

theorem Ignored.isGroup_eq_false (h : field.Ignored) (junction : Junction) :
    field.isGroup junction = false := by
  rcases h with h | h <;> rw [isGroup, h]
  · rfl
  · cases junction <;> rfl

/-- The role of a field of filters is told by its column and its group. -/
theorem IsFilterField.exists_role (h : field.IsFilterField) :
    ∃ role, FilterRole.ofMarks (field.marks .filter) = .ok role ∧
      (∀ column, role = .leaf column ↔ field.filterColumn? = some column) ∧
      ∀ junction, role = .group junction ↔ field.isGroup junction = true := by
  rw [marks_eq_map_keys h.listed, filterColumn?]
  simp only [isGroup]
  match hkeys : field.keys .filter with
  | [] => exact ⟨.ignored, rfl, by simp, by simp⟩
  | [item] =>
      obtain ⟨role, hrole⟩ := AttributeItem.isFilterKey_iff_plays.1
        (h.known item (hkeys ▸ List.mem_singleton_self item))
      refine ⟨role, ?_, ?_, ?_⟩
      · show (FilterRole.ofItem item >>= fun role => .ok role) = _
        rw [AttributeItem.ofItem_of_plays hrole]
        rfl
      · intro column
        rw [hrole.leaf_iff, List.findSome?_cons]
        cases item.column? <;> simp
      · intro junction
        rw [hrole.group_iff]
        simp
  | _ :: _ :: _ =>
      have hsingle := h.single
      rw [hkeys] at hsingle
      simp at hsingle

/-- What is no field of filters has a first fault. -/
theorem isFilterField_or_fault (field : FieldDeclaration) :
    field.IsFilterField ∨ ∃ error, FilterRole.MarksFault (field.marks .filter) error := by
  match hmarks : field.marks .filter with
  | [] =>
      obtain ⟨hlisted, hkeys⟩ := listed_of_marks [] hmarks
      exact .inl ⟨hlisted, by simp [hkeys], by simp [hkeys]⟩
  | .bare :: rest => exact .inr ⟨_, .bare rest⟩
  | .item item :: rest =>
      rcases item.isFilterKey_or_fault with hkey | ⟨error, hfault⟩
      · match rest with
        | [] =>
            obtain ⟨hlisted, hkeys⟩ := listed_of_marks [item] hmarks
            refine .inl ⟨hlisted, by simp [hkeys], ?_⟩
            rw [hkeys]
            exact List.forall_mem_singleton.2 hkey
        | .bare :: rest => exact .inr ⟨_, .bareAfter hkey rest⟩
        | .item other :: rest => exact .inr ⟨_, .several hkey other rest⟩
      · exact .inr ⟨error, .key hfault rest⟩

/-- `field.FilterFaultAfter before error` holds if `error` is the first fault of a field that stands
after others: what is wrong with its own marks, or that it is a group that one of the others is. -/
inductive FilterFaultAfter (before : List FieldDeclaration) (field : FieldDeclaration) :
    DeclarationError → Prop where
  | marks {error : DeclarationError} (h : FilterRole.MarksFault (field.marks .filter) error) :
      FilterFaultAfter before field error
  | repeated (h : field.IsFilterField) (junction : Junction)
      (hfield : field.isGroup junction = true)
      (hbefore : ∃ earlier ∈ before, earlier.isGroup junction = true) :
      FilterFaultAfter before field (.repeatedGroup junction)

end FieldDeclaration

/-! ## Plans -/

namespace FilterPlan

open FieldDeclaration

/-- `Accepts fields` holds if all of some fields are fields of filters and each group is one of them
at most. -/
structure Accepts (fields : List FieldDeclaration) : Prop where
  known : ∀ field ∈ fields, field.IsFilterField
  single : ∀ junction, (fields.filter (isGroup junction)).length ≤ 1

/-- The plan of accepted fields: those with a column, in their order, and that of each group. -/
def ofFields (fields : List FieldDeclaration) : FilterPlan where
  leaves := fields.filterMap fun field => field.filterColumn?.map (LeafField.mk field.name)
  all := (fields.find? (isGroup .all)).map FieldDeclaration.name
  any := (fields.find? (isGroup .any)).map FieldDeclaration.name

theorem ext_group? {plan plan' : FilterPlan} (hleaves : plan.leaves = plan'.leaves)
    (hgroup : ∀ junction, plan.group? junction = plan'.group? junction) : plan = plan' := by
  obtain ⟨leaves, all, any⟩ := plan
  obtain ⟨leaves', all', any'⟩ := plan'
  obtain rfl : leaves = leaves' := hleaves
  obtain rfl : all = all' := hgroup .all
  obtain rfl : any = any' := hgroup .any
  rfl

theorem group?_ofFields (fields : List FieldDeclaration) (junction : Junction) :
    (ofFields fields).group? junction =
      (fields.find? (isGroup junction)).map FieldDeclaration.name := by
  cases junction <;> rfl

theorem leaves_setGroup (plan : FilterPlan) (junction : Junction) (name : String) :
    (plan.setGroup junction name).leaves = plan.leaves := by
  cases junction <;> rfl

theorem group?_setGroup (plan : FilterPlan) (junction other : Junction) (name : String) :
    (plan.setGroup junction name).group? other =
      if junction = other then some name else plan.group? other := by
  cases junction <;> cases other <;> rfl

theorem isSome_group?_ofFields {fields : List FieldDeclaration} {junction : Junction} :
    ((ofFields fields).group? junction).isSome = true ↔
      ∃ field ∈ fields, field.isGroup junction = true := by
  rw [group?_ofFields, Option.isSome_map, List.find?_isSome]

theorem leaves_ofFields_append (before : List FieldDeclaration) (field : FieldDeclaration) :
    (ofFields (before ++ [field])).leaves = (ofFields before).leaves ++
      (field.filterColumn?.map (LeafField.mk field.name)).toList := by
  show List.filterMap _ _ = List.filterMap _ _ ++ _
  rw [List.filterMap_append]
  cases hcolumn : field.filterColumn? <;> simp [hcolumn]

theorem group?_ofFields_append (before : List FieldDeclaration) (field : FieldDeclaration)
    (junction : Junction) :
    (ofFields (before ++ [field])).group? junction = ((ofFields before).group? junction).or
      (if field.isGroup junction then some field.name else none) := by
  rw [group?_ofFields, group?_ofFields, List.find?_append, Option.map_or, List.find?_singleton]
  split <;> rfl

/-- Fields and a further one are accepted if they are, and the further one is a field of filters and
no group that one of them is. -/
theorem accepts_append_singleton_iff {before : List FieldDeclaration} {field : FieldDeclaration} :
    Accepts (before ++ [field]) ↔ Accepts before ∧ field.IsFilterField ∧
      ∀ junction, field.isGroup junction = true →
        ∀ earlier ∈ before, earlier.isGroup junction = false := by
  have hlength : ∀ junction,
      ((before ++ [field]).filter (isGroup junction)).length =
        (before.filter (isGroup junction)).length +
          if field.isGroup junction = true then 1 else 0 := by
    intro junction
    rw [List.filter_append, List.length_append, List.filter_singleton]
    cases field.isGroup junction <;> rfl
  have hnone : ∀ junction, (before.filter (isGroup junction)).length = 0 ↔
      ∀ earlier ∈ before, earlier.isGroup junction = false := by
    intro junction
    rw [List.length_eq_zero_iff, List.filter_eq_nil_iff]
    simp only [Bool.not_eq_true]
  constructor
  · intro h
    refine ⟨⟨fun earlier hearlier => h.known earlier (List.mem_append_left _ hearlier),
      fun junction => ?_⟩, h.known field (List.mem_append_right _ (List.mem_singleton_self field)),
      fun junction hfield => (hnone junction).1 ?_⟩
    · have hsingle := h.single junction
      rw [hlength] at hsingle
      omega
    · have hsingle := h.single junction
      rw [hlength, if_pos hfield] at hsingle
      omega
  · rintro ⟨hbefore, hknown, hnew⟩
    refine ⟨List.forall_mem_append.2 ⟨hbefore.known, List.forall_mem_singleton.2 hknown⟩,
      fun junction => ?_⟩
    rw [hlength]
    by_cases hfield : field.isGroup junction = true
    · rw [if_pos hfield, (hnone junction).2 (hnew junction hfield)]
    · rw [if_neg hfield]
      exact hbefore.single junction

/-- A field of filters that is no group of those before it is added to their plan. -/
theorem addField_of_isFilterField {before : List FieldDeclaration} {field : FieldDeclaration}
    (hknown : field.IsFilterField) (hnew : ∀ junction, field.isGroup junction = true →
      ∀ earlier ∈ before, earlier.isGroup junction = false) :
    (ofFields before).addField field = .ok (ofFields (before ++ [field])) := by
  obtain ⟨role, hrole, hcolumn, hgroup⟩ := hknown.exists_role
  have hleaves : (∀ column, role ≠ .leaf column) →
      (ofFields (before ++ [field])).leaves = (ofFields before).leaves := by
    intro hne
    have hnone : field.filterColumn? = none :=
      Option.eq_none_iff_forall_ne_some.2 fun column h => hne column ((hcolumn column).2 h)
    rw [leaves_ofFields_append, hnone]
    exact List.append_nil _
  have hgroups : (∀ junction, role ≠ .group junction) → ∀ junction,
      (ofFields (before ++ [field])).group? junction = (ofFields before).group? junction := by
    intro hne junction
    rw [group?_ofFields_append, if_neg ((hgroup junction).not.1 (hne junction)), Option.or_none]
  rw [addField, hrole]
  cases role with
  | ignored =>
      refine congrArg Except.ok (ext_group? ?_ fun junction => ?_)
      · rw [hleaves (by simp)]
      · rw [hgroups (by simp)]
  | leaf column =>
      refine congrArg Except.ok (ext_group? ?_ fun junction => ?_)
      · rw [leaves_ofFields_append, (hcolumn column).1 rfl]
        rfl
      · rw [hgroups (by simp)]
        cases junction <;> rfl
  | group junction =>
      have hfree : ¬ ((ofFields before).group? junction).isSome = true := by
        rw [isSome_group?_ofFields]
        rintro ⟨earlier, hearlier, hearlierGroup⟩
        rw [hnew junction ((hgroup junction).1 rfl) earlier hearlier] at hearlierGroup
        cases hearlierGroup
      refine (if_neg hfree).trans (congrArg Except.ok (ext_group? ?_ fun other => ?_))
      · rw [leaves_setGroup, hleaves (by simp)]
      · rw [group?_ofFields_append, group?_setGroup]
        by_cases hother : junction = other
        · subst hother
          rw [if_pos rfl, if_pos ((hgroup junction).1 rfl), Option.not_isSome_iff_eq_none.1 hfree]
          rfl
        · rw [if_neg hother, if_neg ((hgroup other).not.1 (by simpa using hother)), Option.or_none]

/-- The first fault of a field after others is the fault of adding it to their plan. -/
theorem addField_of_filterFaultAfter {before : List FieldDeclaration} {field : FieldDeclaration}
    {error : DeclarationError} (h : field.FilterFaultAfter before error) :
    (ofFields before).addField field = .error error := by
  cases h with
  | marks h => rw [addField, h.ofMarks_eq]; rfl
  | repeated hknown junction hfield hbefore =>
      obtain ⟨role, hrole, -, hgroup⟩ := hknown.exists_role
      obtain rfl := (hgroup junction).2 hfield
      rw [addField, hrole]
      exact if_pos (isSome_group?_ofFields.2 hbefore)

/-- The run over accepted fields. -/
theorem foldlM_of_accepts {fields : List FieldDeclaration} (h : Accepts fields) :
    fields.foldlM addField {} = .ok (ofFields fields) := by
  induction fields using List.reverseRecOn with
  | nil => rfl
  | append_singleton before field ih =>
      obtain ⟨hbefore, hknown, hnew⟩ := accepts_append_singleton_iff.1 h
      rw [List.foldlM_append, ih hbefore]
      show [field].foldlM addField (ofFields before) = _
      rw [List.foldlM_cons, addField_of_isFilterField hknown hnew]
      rfl

theorem exists_fault_of_not_accepts {fields : List FieldDeclaration} (h : ¬ Accepts fields) :
    ∃ before field after error, fields = before ++ field :: after ∧ Accepts before ∧
      field.FilterFaultAfter before error := by
  induction fields using List.reverseRecOn with
  | nil => exact absurd ⟨by simp, by simp⟩ h
  | append_singleton before field ih =>
      by_cases hbefore : Accepts before
      · refine ⟨before, field, [], ?_⟩
        rcases field.isFilterField_or_fault with hknown | ⟨error, hfault⟩
        · by_contra hnone
          refine h (accepts_append_singleton_iff.2 ⟨hbefore, hknown, ?_⟩)
          intro junction hfield earlier hearlier
          by_contra hgroup
          refine hnone ⟨_, rfl, hbefore, .repeated hknown junction hfield ⟨earlier, hearlier, ?_⟩⟩
          simpa using hgroup
        · exact ⟨error, rfl, hbefore, .marks hfault⟩
      · obtain ⟨first, faulty, rest, error, rfl, hfirst, hfault⟩ := ih hbefore
        exact ⟨first, faulty, rest ++ [field], error, by simp, hfirst, hfault⟩

theorem foldlM_of_fault {before after : List FieldDeclaration} {field : FieldDeclaration}
    {error : DeclarationError} (hbefore : Accepts before)
    (h : field.FilterFaultAfter before error) :
    (before ++ field :: after).foldlM addField {} = .error error := by
  rw [List.foldlM_append, foldlM_of_accepts hbefore]
  show (field :: after).foldlM addField (ofFields before) = _
  rw [List.foldlM_cons, addField_of_filterFaultAfter h]
  rfl

/-- A declaration gives the plan of its fields exactly if they are accepted. -/
theorem ofDeclaration_eq_ok_iff {fields : List FieldDeclaration} {plan : FilterPlan} :
    ofDeclaration { fields } = .ok plan ↔ Accepts fields ∧ plan = ofFields fields := by
  show fields.foldlM addField {} = .ok plan ↔ _
  constructor
  · intro h
    by_cases haccepts : Accepts fields
    · exact ⟨haccepts, Except.ok.inj (h.symm.trans (foldlM_of_accepts haccepts))⟩
    · obtain ⟨before, field, after, error, rfl, hbefore, hfault⟩ :=
        exists_fault_of_not_accepts haccepts
      rw [foldlM_of_fault hbefore hfault] at h
      cases h
  · rintro ⟨haccepts, rfl⟩
    exact foldlM_of_accepts haccepts

/-- A declaration fails with the first fault of the first field that is not accepted after those
before it. -/
theorem ofDeclaration_eq_error_iff {fields : List FieldDeclaration} {error : DeclarationError} :
    ofDeclaration { fields } = .error error ↔ ∃ before field after,
      fields = before ++ field :: after ∧ Accepts before ∧ field.FilterFaultAfter before error := by
  show fields.foldlM addField {} = .error error ↔ _
  constructor
  · intro h
    by_cases haccepts : Accepts fields
    · rw [foldlM_of_accepts haccepts] at h
      cases h
    · obtain ⟨before, field, after, error', rfl, hbefore, hfault⟩ :=
        exists_fault_of_not_accepts haccepts
      rw [foldlM_of_fault hbefore hfault] at h
      obtain rfl := Except.error.inj h
      exact ⟨before, field, after, rfl, hbefore, hfault⟩
  · rintro ⟨before, field, after, rfl, hbefore, hfault⟩
    exact foldlM_of_fault hbefore hfault

/-! ## Filters of records -/

section Records

variable {plan : FilterPlan} {fields : List FieldDeclaration}
  {operators operators' : List (String × LeafOperators)}
  {groups groups' : List (String × List FilterRecord)}

/-- The columns of which a record asks something, in the order of the fields, with what is asked of
them. -/
def askedColumns (fields : List FieldDeclaration) (operators : List (String × LeafOperators)) :
    List (String × LeafOperators) :=
  fields.filterMap fun field => field.filterColumn?.bind fun column =>
    (operators.lookup field.name).map fun asked => (column, asked)

/-- The members that a record holds of a group. -/
def membersOf (fields : List FieldDeclaration) (groups : List (String × List FilterRecord))
    (junction : Junction) : List FilterRecord :=
  ((fields.find? (isGroup junction)).bind fun field => groups.lookup field.name).getD []

theorem leafFilters_eq_ok_iff {fields : List LeafField} {leaves : List Filter} :
    leafFilters operators fields = .ok leaves ↔
      List.Forall₂
        (fun asked leaf => ∃ set, asked.2.toGeneric = .ok set ∧ leaf = Filter.leaf asked.1 set)
        (fields.filterMap fun field =>
          (operators.lookup field.name).map fun asked => (field.column, asked)) leaves := by
  induction fields generalizing leaves with
  | nil =>
      rw [leafFilters, List.filterMap_nil, List.forall₂_nil_left_iff]
      exact ⟨fun h => (Except.ok.inj h).symm, fun h => congrArg _ h.symm⟩
  | cons field fields ih =>
      rw [leafFilters]
      cases hasked : operators.lookup field.name with
      | none =>
          rw [List.filterMap_cons_none (by rw [hasked]; rfl), ← ih]
          show (leafFilters operators fields >>= fun rest => .ok rest) = _ ↔ _
          rw [Checked.bind_eq_ok_iff]
          simp
      | some asked =>
          rw [List.filterMap_cons_some (by rw [hasked]; rfl), List.forall₂_cons_left_iff]
          simp only [Checked.bind_eq_ok_iff, Checked.map_eq_ok_iff]
          constructor
          · rintro ⟨_, ⟨set, hset, rfl⟩, rest, hrest, h⟩
            obtain rfl := Except.ok.inj h
            exact ⟨_, rest, ⟨set, hset, rfl⟩, ih.1 hrest, rfl⟩
          · rintro ⟨_, rest, ⟨set, hset, rfl⟩, hrest, rfl⟩
            exact ⟨_, ⟨set, hset, rfl⟩, rest, ih.2 hrest, rfl⟩

theorem leafFilters_congr {fields : List LeafField}
    (h : ∀ field ∈ fields, operators'.lookup field.name = operators.lookup field.name) :
    leafFilters operators' fields = leafFilters operators fields := by
  induction fields with
  | nil => rfl
  | cons field fields ih =>
      obtain ⟨hfield, hfields⟩ := List.forall_mem_cons.1 h
      rw [leafFilters, leafFilters, hfield, ih hfields]

theorem memberFilters_eq_mapM (members : List FilterRecord) :
    FilterRecord.memberFilters members = members.mapM FilterRecord.toFilter := by
  induction members with
  | nil => rfl
  | cons member members ih => rw [FilterRecord.memberFilters, List.mapM_cons, ih]

theorem groupFilters_eq_ok_iff {name : Option String} {children : List Filter} :
    FilterRecord.groupFilters name groups = .ok children ↔
      List.Forall₂ (fun member child => member.toFilter = .ok child)
        ((FilterRecord.members? name groups).getD []) children := by
  rw [FilterRecord.groupFilters_eq, ← Checked.mapM_eq_ok_iff]
  cases FilterRecord.members? name groups with
  | none => rfl
  | some members =>
      show FilterRecord.memberFilters members = _ ↔ _
      rw [memberFilters_eq_mapM]
      rfl

theorem members?_ofFields (fields : List FieldDeclaration) (junction : Junction)
    (groups : List (String × List FilterRecord)) :
    (FilterRecord.members? ((ofFields fields).group? junction) groups).getD [] =
      membersOf fields groups junction := by
  rw [FilterRecord.members?, group?_ofFields, Option.bind_map]
  rfl

theorem filterMap_leaves_ofFields (fields : List FieldDeclaration)
    (operators : List (String × LeafOperators)) :
    ((ofFields fields).leaves.filterMap fun field =>
      (operators.lookup field.name).map fun asked => (field.column, asked)) =
        askedColumns fields operators := by
  show List.filterMap _ (List.filterMap _ fields) = _
  rw [List.filterMap_filterMap, askedColumns]
  refine List.filterMap_congr fun field _ => ?_
  cases field.filterColumn? <;> rfl

/-- The filter of a record has a leaf for each column of which the record asks something, then the
members of the groups that have any. -/
theorem toFilter_ofFields_eq_ok_iff {filter : Filter} :
    (FilterRecord.record (ofFields fields) operators groups).toFilter = .ok filter ↔
      ∃ leaves all any,
        List.Forall₂
          (fun asked leaf => ∃ set, asked.2.toGeneric = .ok set ∧ leaf = Filter.leaf asked.1 set)
          (askedColumns fields operators) leaves ∧
        List.Forall₂ (fun member child => member.toFilter = .ok child)
          (membersOf fields groups .all) all ∧
        List.Forall₂ (fun member child => member.toFilter = .ok child)
          (membersOf fields groups .any) any ∧
        filter = .group .all (leaves ++ Filter.groupOf .all all ++ Filter.groupOf .any any) := by
  rw [FilterRecord.toFilter]
  simp only [Checked.bind_eq_ok_iff, leafFilters_eq_ok_iff, groupFilters_eq_ok_iff,
    filterMap_leaves_ofFields, ← members?_ofFields fields .all, ← members?_ofFields fields .any]
  constructor
  · rintro ⟨leaves, hleaves, all, hall, any, hany, h⟩
    exact ⟨leaves, all, any, hleaves, hall, hany, (Except.ok.inj h).symm⟩
  · rintro ⟨leaves, all, any, hleaves, hall, hany, rfl⟩
    exact ⟨leaves, hleaves, all, hall, any, hany, rfl⟩

/-- Ignored fields do not count. -/
theorem toFilter_ofFields_congr
    (h : ∀ field ∈ fields, ¬ field.Ignored →
      operators'.lookup field.name = operators.lookup field.name ∧
        groups'.lookup field.name = groups.lookup field.name) :
    (FilterRecord.record (ofFields fields) operators' groups').toFilter =
      (FilterRecord.record (ofFields fields) operators groups).toFilter := by
  have hleaves : leafFilters operators' (ofFields fields).leaves =
      leafFilters operators (ofFields fields).leaves := by
    refine leafFilters_congr fun leaf hleaf => ?_
    obtain ⟨field, hfield, hcolumn⟩ := List.mem_filterMap.1 hleaf
    obtain ⟨column, hsome, rfl⟩ := Option.map_eq_some_iff.1 hcolumn
    refine (h field hfield fun hignored => ?_).1
    rw [hignored.filterColumn?_eq_none] at hsome
    cases hsome
  have hmembers : ∀ junction,
      FilterRecord.groupFilters ((ofFields fields).group? junction) groups' =
        FilterRecord.groupFilters ((ofFields fields).group? junction) groups := by
    intro junction
    have hfound : FilterRecord.members? ((ofFields fields).group? junction) groups' =
        FilterRecord.members? ((ofFields fields).group? junction) groups := by
      rw [FilterRecord.members?, FilterRecord.members?, group?_ofFields]
      cases hfind : fields.find? (isGroup junction) with
      | none => rfl
      | some field =>
          refine (h field (List.mem_of_find?_eq_some hfind) fun hignored => ?_).2
          exact Bool.false_ne_true
            ((hignored.isGroup_eq_false junction).symm.trans (List.find?_some hfind))
    rw [FilterRecord.groupFilters_eq, FilterRecord.groupFilters_eq, hfound]
  rw [FilterRecord.toFilter, FilterRecord.toFilter, hleaves]
  have hall := hmembers .all
  have hany := hmembers .any
  simp only [group?] at hall hany
  rw [hall, hany]

end Records

/-- Which fields a declaration may have, whatever their attributes are, and what comes of its
records.

* Fields give a plan exactly if each of them has one key at most over all its attributes, every key
  is a column that is not empty or a group, and each group is one field at most.  Otherwise the
  first fault in their order is reported.
* The filter of a record has a leaf for each column that some field names and of which the record
  asks something, in the order of the fields; then the members that all have to hold, if the record
  has any, and then those of which one has to hold, wherever the fields of the groups stand.
* What a record holds in a field without a key, or with the column that stands for none, makes no
  difference, not even to its faults. -/
theorem declared_filters_exact (fields : List FieldDeclaration) :
    ((∃ plan, ofDeclaration { fields } = .ok plan) ↔ Accepts fields) ∧
    (∀ error, ofDeclaration { fields } = .error error ↔ ∃ before field after,
      fields = before ++ field :: after ∧ Accepts before ∧ field.FilterFaultAfter before error) ∧
    ∀ plan, ofDeclaration { fields } = .ok plan → ∀ operators groups,
      (∀ filter, (FilterRecord.record plan operators groups).toFilter = .ok filter ↔
        ∃ leaves all any,
        List.Forall₂
          (fun asked leaf => ∃ set, asked.2.toGeneric = .ok set ∧ leaf = Filter.leaf asked.1 set)
          (askedColumns fields operators) leaves ∧
        List.Forall₂ (fun member child => member.toFilter = .ok child)
          (membersOf fields groups .all) all ∧
        List.Forall₂ (fun member child => member.toFilter = .ok child)
          (membersOf fields groups .any) any ∧
        filter = .group .all (leaves ++ Filter.groupOf .all all ++ Filter.groupOf .any any)) ∧
      ∀ operators' groups',
        (∀ field ∈ fields, ¬ field.Ignored →
          operators'.lookup field.name = operators.lookup field.name ∧
            groups'.lookup field.name = groups.lookup field.name) →
        (FilterRecord.record plan operators' groups').toFilter =
          (FilterRecord.record plan operators groups).toFilter := by
  refine ⟨⟨fun ⟨_, h⟩ => (ofDeclaration_eq_ok_iff.1 h).1,
    fun h => ⟨_, ofDeclaration_eq_ok_iff.2 ⟨h, rfl⟩⟩⟩, fun _ => ofDeclaration_eq_error_iff,
    fun plan h operators groups => ?_⟩
  obtain ⟨-, rfl⟩ := ofDeclaration_eq_ok_iff.1 h
  exact ⟨fun _ => toFilter_ofFields_eq_ok_iff, fun _ _ => toFilter_ofFields_congr⟩

/-- A declaration whose group comes first, and which ignores one field and is told to ignore another
one. -/
def titledFields : List FieldDeclaration :=
  [⟨"either", "Option<Vec<Titled>>", [⟨"filter", some []⟩, ⟨"filter", some [⟨"or", none⟩]⟩]⟩,
    ⟨"title", "Option<GenericFilter>", [⟨"filter", some [⟨"column", some (.text "t.title")⟩]⟩]⟩,
    ⟨"hidden", "Option<DateFilter>", [⟨"filter", some [⟨"column", some (.text "-")⟩]⟩]⟩,
    ⟨"note", "String", [⟨"doc", none⟩]⟩]

/-- The group comes last in the filter, with a record and a filter for its members, and nobody looks
at what is wrong with the operand of the ignored field.  A second field for the group is
reported. -/
theorem declared_filters_exact_titled :
    let title := OperatorSet.ofComparison .eq (.text "x")
    (∃ plan, ofDeclaration { fields := titledFields } = .ok plan ∧
      (FilterRecord.record plan
        [("hidden", .date { lt := some (.integer 5) }), ("title", .generic title)]
        [("either", [.record plan [] [], .ready (.leaf "year" title)])]).toFilter =
          .ok (.group .all [.leaf "t.title" title,
            .group .any [.group .all [], .leaf "year" title]])) ∧
    ofDeclaration { fields := titledFields ++
      [⟨"other", "Vec<Titled>", [⟨"filter", some [⟨"or", none⟩]⟩]⟩] } =
        .error (.repeatedGroup .any) := by
  intro title
  obtain ⟨plan, hplan⟩ : ∃ plan, ofDeclaration { fields := titledFields } = .ok plan := ⟨_, rfl⟩
  obtain ⟨haccepts, -, hrecords⟩ := declared_filters_exact titledFields
  refine ⟨⟨plan, hplan, ?_⟩, ?_⟩
  · obtain ⟨hfilter, hignored⟩ := hrecords plan hplan [("title", .generic title)]
      [("either", [.record plan [] [], .ready (.leaf "year" title)])]
    have hchild : (FilterRecord.record plan [] []).toFilter = .ok (.group .all []) :=
      ((hrecords plan hplan [] []).1 _).2 ⟨[], [], [], .nil, .nil, .nil, rfl⟩
    refine (hignored _ _ fun field hfield hnot => ⟨?_, rfl⟩).trans
      ((hfilter _).2 ⟨_, _, _, .cons ⟨title, rfl, rfl⟩ .nil, .nil,
        .cons hchild (.cons (by rw [FilterRecord.toFilter]) .nil), rfl⟩)
    have hname : field.name ≠ "hidden" := by
      simp only [titledFields, List.mem_cons, List.not_mem_nil, or_false] at hfield
      rcases hfield with rfl | rfl | rfl | rfl
      · decide
      · decide
      · exact absurd (.inr rfl) hnot
      · decide
    rw [Keyed.lookup_cons_eq_if, if_neg hname]
  · have hother : FieldDeclaration.IsFilterField
        ⟨"other", "Vec<Titled>", [⟨"filter", some [⟨"or", none⟩]⟩]⟩ :=
      ⟨by decide, by decide, List.forall_mem_singleton.2 (.inr ⟨.inr rfl, rfl⟩)⟩
    exact ((declared_filters_exact _).2.1 _).2 ⟨titledFields, _, [], rfl,
      haccepts.1 ⟨plan, hplan⟩, .repeated hother .any rfl ⟨_, List.mem_cons_self, rfl⟩⟩

end FilterPlan

end TableQuery
