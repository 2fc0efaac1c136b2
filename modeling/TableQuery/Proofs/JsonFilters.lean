import TableQuery.Proofs.FilterTree
import TableQuery.Registry

/-!
# Filters from outside

A registry reads a filter out of any JSON value.  Whatever goes wrong then lies in what the client
sent, so the error has to be one that the client is told about, and whatever does not go wrong must
compile as far as names are concerned.  Errors of the operands of dates are the ones to watch: they
count as faults of trusted code elsewhere and are renamed here.

What may come of reading is said by `Checked.Gives`, one lemma for each function of the reader and
in its recursion: faults are `FieldFault`s, filters are `Over` the registered columns.

## Main results

* `gives_parseNode` — what may come of reading an object at any depth.
* `gives_condition?` — a filter over identifiers fails to compile only for an operand of a pattern.
* `json_filters_fail_as_user_errors` — no JSON value leads to an internal error.
-/

namespace TableQuery

open Checked

/-! ## Dates -/

/-- What can be wrong with the operand of a date operator. -/
inductive DateFault : QueryError → Prop where
  | invalid (operator value : String) : DateFault (.invalidDate operator value)
  | unsupported (operator kind : String) : DateFault (.unsupportedDateValue operator kind)

theorem gives_dateOperand (operator : String) (operand : Operand) :
    Gives (fun _ => True) DateFault (dateOperand operator operand) := by
  cases operand with
  | text value =>
      rw [dateOperand]
      cases Time.Instant.ofText? value with
      | some instant => exact trivial
      | none => exact DateFault.invalid operator value
  | timestamp instant => exact trivial
  | null | boolean | integer | float => exact DateFault.unsupported operator _

/-- A set whose operands are changed one after another fails as the change of an operand does. -/
theorem ValueOperators.gives_mapM {q : QueryError → Prop}
    {change : String → Operand → Except QueryError Operand}
    (h : ∀ operator operand, Gives (fun _ => True) q (change operator operand))
    (set : ValueOperators) : Gives (fun _ => True) q (set.mapM change) := by
  have hoperand : ∀ (operator : String) (operand? : Option Operand),
      Gives (fun _ => True) q (operand?.mapM (change operator)) := by
    intro operator operand?
    exact (gives_optionMapM fun operand _ => h operator operand).faults
  have hoperands : ∀ (operator : String) (operands? : Option (List Operand)),
      Gives (fun _ => True) q (operands?.mapM fun operands => operands.mapM (change operator)) := by
    intro operator operands?
    have hlist : ∀ operands : List Operand,
        Gives (fun _ => True) q (operands.mapM (change operator)) :=
      fun operands => (Checked.gives_mapM fun operand _ => h operator operand).faults
    exact (gives_optionMapM fun operands _ => hlist operands).faults
  unfold ValueOperators.mapM
  iterate 10 refine (hoperand _ _).bind fun _ _ => ?_
  refine (hoperands _ _).bind fun _ _ => ?_
  refine (hoperands _ _).bind fun _ _ => ?_
  exact trivial

theorem DateOperatorSet.gives_toGeneric (set : DateOperatorSet) :
    Gives (fun _ => True) DateFault set.toGeneric :=
  (ValueOperators.gives_mapM gives_dateOperand set.toValueOperators).bind fun _ _ => trivial

/-! ## Faults and columns -/

/-- What can be wrong with the fields of an object: a field that the registry knows or a group does
not hold what it should, or a text is no date. -/
inductive Registry.FieldFault (registry : Registry) : QueryError → Prop where
  | field (field : FilterField) (hmem : field ∈ registry.filters) (reason : String) :
      FieldFault registry (.unsupportedField field.name reason)
  | group (junction : Junction) (reason : String) :
      FieldFault registry (.unsupportedField (groupKey junction) reason)
  | date (operator value : String) : FieldFault registry (.invalidDate operator value)

/-- The columns that filters may be about. -/
def Registry.filterColumns (registry : Registry) : List String :=
  registry.filters.map FilterField.column

/-- `filter.Over columns` holds if every leaf of a filter is about one of some columns. -/
def Filter.Over (columns : List String) (filter : Filter) : Prop :=
  ∀ leaf ∈ filter.leaves, leaf.1 ∈ columns

namespace Filter

variable {columns : List String}

theorem over_leaf {column : String} {operators : OperatorSet} (h : column ∈ columns) :
    (leaf column operators).Over columns := by
  rintro _ (_ | ⟨_, ⟨⟩⟩)
  exact h

theorem over_group {junction : Junction} {children : List Filter}
    (h : ∀ child ∈ children, child.Over columns) : (group junction children).Over columns := by
  intro leaf hleaf
  rw [leaves_group] at hleaf
  obtain ⟨child, hchild, hleaf⟩ := List.mem_flatMap.1 hleaf
  exact h child hchild leaf hleaf

theorem over_groupOf {junction : Junction} {children : List Filter}
    (h : ∀ child ∈ children, child.Over columns) :
    ∀ child ∈ groupOf junction children, child.Over columns := by
  intro child hchild
  unfold groupOf at hchild
  split at hchild
  · exact absurd hchild List.not_mem_nil
  · rw [List.mem_singleton.1 hchild]
    exact over_group h

end Filter

namespace Registry

variable {registry : Registry}

/-! ## Reading -/

theorem gives_parseDates {field : FilterField} (hmem : field ∈ registry.filters) (value : Json) :
    Gives (fun _ => True) registry.FieldFault (parseDates field value) := by
  unfold parseDates
  cases DateOperatorSet.ofJson value with
  | error error => exact .field field hmem _
  | ok set =>
      have hset := set.gives_toGeneric
      cases hgeneric : set.toGeneric with
      | ok operators => simp only [hgeneric, Gives]
      | error error =>
          rw [hgeneric] at hset
          cases hset with
          | invalid operator value =>
              simp only [hgeneric]
              exact .date operator value
          | unsupported operator kind =>
              simp only [hgeneric]
              exact .field field hmem _

theorem gives_parseOperators {field : FilterField} (hmem : field ∈ registry.filters)
    (value : Json) :
    Gives (fun _ => True) registry.FieldFault (parseOperators field value) := by
  cases value with
  | null => exact trivial
  | object fields =>
      rw [parseOperators]
      cases field.kind with
      | generic =>
          cases OperatorSet.ofJson (.object fields) with
          | ok set => exact trivial
          | error error => exact FieldFault.field field hmem _
      | date => exact (gives_parseDates hmem _).map fun _ _ => trivial
  | boolean | integer | float | text | list => exact FieldFault.field field hmem _

/-- The leaves of an object are about the columns of its registered fields. -/
theorem gives_parseLeaves (fields : List (String × Json)) {filters : List FilterField}
    (h : ∀ field ∈ filters, field ∈ registry.filters) :
    Gives (fun leaves => ∀ leaf ∈ leaves, leaf.Over registry.filterColumns)
      registry.FieldFault (parseLeaves fields filters) := by
  induction filters with
  | nil => exact fun _ hleaf => absurd hleaf List.not_mem_nil
  | cons field filters ih =>
      obtain ⟨hfield, hfilters⟩ := List.forall_mem_cons.1 h
      have hrest : ∀ operators? : Option OperatorSet,
          Gives (fun leaves => ∀ leaf ∈ leaves, leaf.Over registry.filterColumns)
            registry.FieldFault (do
              let leaves ← parseLeaves fields filters
              return (operators?.map (Filter.leaf field.column)).toList ++ leaves) := by
        intro operators?
        refine (ih hfilters).bind fun leaves hleaves => ?_
        refine List.forall_mem_append.2 ⟨?_, hleaves⟩
        cases operators? with
        | none => exact fun _ hmem => absurd hmem List.not_mem_nil
        | some operators =>
            refine List.forall_mem_singleton.2 (Filter.over_leaf ?_)
            exact List.mem_map_of_mem hfield
      rw [parseLeaves]
      cases fields.lookup field.name with
      | none => exact hrest none
      | some value =>
          exact (gives_parseOperators hfield value).bind fun operators? _ => hrest operators?

mutual

/-- What may come of reading an object, at any depth: a filter over registered columns, or a fault
of its fields. -/
theorem gives_parseNode (registry : Registry) :
    ∀ value, Gives
      (fun filter? => ∀ filter ∈ filter?, filter.Over registry.filterColumns)
      registry.FieldFault (parseNode registry value)
  | .object fields => by
      rw [parseNode]
      refine (gives_parseLeaves fields fun _ => id).bind fun leaves hleaves => ?_
      refine (gives_parseGroup registry .all fields).bind fun all hall => ?_
      refine (gives_parseGroup registry .any fields).bind fun any hany => ?_
      rintro _ ⟨⟩
      refine Filter.over_group ?_
      exact List.forall_mem_append.2 ⟨List.forall_mem_append.2
        ⟨hleaves, Filter.over_groupOf hall⟩, Filter.over_groupOf hany⟩
  | .null | .boolean _ | .integer _ | .float _ | .text _ | .list _ => by
      rintro _ ⟨⟩

theorem gives_parseGroup (registry : Registry) (junction : Junction) :
    ∀ fields, Gives
      (fun filters => ∀ filter ∈ filters, filter.Over registry.filterColumns)
      registry.FieldFault (parseGroup registry junction fields)
  | [] => fun _ hmem => absurd hmem List.not_mem_nil
  | (name, value) :: rest => by
      rw [parseGroup]
      split
      · exact gives_parseGroupValue registry junction value
      · exact gives_parseGroup registry junction rest

theorem gives_parseGroupValue (registry : Registry) (junction : Junction) :
    ∀ value, Gives
      (fun filters => ∀ filter ∈ filters, filter.Over registry.filterColumns)
      registry.FieldFault (parseGroupValue registry junction value)
  | .null => fun _ hmem => absurd hmem List.not_mem_nil
  | .list items => gives_parseMembers registry items
  | .boolean _ | .integer _ | .float _ | .text _ | .object _ => .group junction _

theorem gives_parseMembers (registry : Registry) :
    ∀ items, Gives
      (fun filters => ∀ filter ∈ filters, filter.Over registry.filterColumns)
      registry.FieldFault (parseMembers registry items)
  | [] => fun _ hmem => absurd hmem List.not_mem_nil
  | item :: rest => by
      rw [parseMembers]
      refine (gives_parseNode registry item).bind fun filter? hfilter => ?_
      refine (gives_parseMembers registry rest).bind fun filters hfilters => ?_
      exact List.forall_mem_append.2
        ⟨fun filter hmem => hfilter filter (Option.mem_toList.1 hmem), hfilters⟩

end

/-- What may come of reading a filter: it is over registered columns, or a fault of the fields of an
object is found, unless there is no object at all. -/
theorem gives_parseFilter (registry : Registry) (value : Json) :
    Gives (fun filter? => ∀ filter ∈ filter?, filter.Over registry.filterColumns)
      (fun error => error = .filterNotObject ∨ registry.FieldFault error)
      (registry.parseFilter value) := by
  cases value with
  | null => rintro _ ⟨⟩
  | object fields =>
      exact (gives_parseNode registry (.object fields)).imp (fun _ => id) fun _ => .inr
  | boolean | integer | float | text | list => exact .inl rfl

/-- The columns of a registry that is built are identifiers. -/
theorem check_of_mem_columns {built : Registry} (h : registry.build = .ok built) {column : String}
    (hcolumn : column ∈ built.columns) :
    ∃ identifier, Identifier.check column = .ok identifier := by
  obtain ⟨identifiers, hcheck, hbuilt⟩ := Checked.bind_eq_ok_iff.1 h
  obtain rfl := Except.ok.inj hbuilt
  obtain ⟨identifier, -, hidentifier⟩ := exists_mem_right (mapM_eq_ok_iff.1 hcheck) hcolumn
  exact ⟨identifier, hidentifier⟩

theorem check_column_of_build {built : Registry} (h : registry.build = .ok built) :
    ∀ column ∈ built.filterColumns,
      ∃ identifier, Identifier.check column = .ok identifier :=
  fun _ hcolumn => check_of_mem_columns h (List.mem_append_left _ hcolumn)

end Registry

/-! ## Compiling -/

/-- What can be wrong with the operand of a pattern operator. -/
inductive PatternFault : QueryError → Prop where
  | notAString (p : Pattern) : PatternFault (.notAString p.name)

theorem OperatorSet.gives_atoms (set : OperatorSet) (column : Identifier) :
    Gives (fun _ => True) PatternFault (set.atoms column) := by
  have hpattern : ∀ p : Pattern, Gives (fun _ => True) PatternFault
      ((set.pattern p).mapM (set.patternAtom column p)) := by
    intro p
    have hoperand : ∀ operand,
        Gives (fun _ => True) PatternFault (set.patternAtom column p operand) := by
      intro operand
      cases operand with
      | text value => exact trivial
      | null | boolean | integer | float | timestamp => exact PatternFault.notAString p
    exact (gives_optionMapM fun operand _ => hoperand operand).faults
  exact (gives_mapM fun p _ => hpattern p).bind fun _ _ => trivial

/-- A filter over identifiers fails to compile only for an operand of a pattern that is no text. -/
theorem Filter.gives_condition? {columns : List String}
    (hcolumns : ∀ column ∈ columns, ∃ identifier, Identifier.check column = .ok identifier)
    (filter : Filter) (hover : filter.Over columns) :
    Gives (fun _ => True) PatternFault filter.condition? := by
  induction filter using Filter.induction with
  | leaf name operators =>
      obtain ⟨identifier, hcheck⟩ := hcolumns name (hover _ List.mem_cons_self)
      rw [condition?, hcheck]
      exact (operators.gives_atoms identifier).bind fun _ _ => trivial
  | group junction children ih =>
      have hmem : ∀ child ∈ children, child.Over columns := by
        intro child hchild leaf hleaf
        have hleaf := List.mem_flatMap.2 ⟨child, hchild, hleaf⟩
        exact hover leaf (leaves_group junction children ▸ hleaf)
      have hchildren : Gives (fun _ => True) PatternFault (conditions children) := by
        clear hover
        induction children with
        | nil => exact trivial
        | cons child children ihrest =>
            obtain ⟨hchild, hrest⟩ := List.forall_mem_cons.1 ih
            obtain ⟨hover, hovers⟩ := List.forall_mem_cons.1 hmem
            rw [conditions]
            refine (hchild hover).bind fun _ _ => ?_
            exact (ihrest hrest hovers).bind fun _ _ => trivial
      rw [condition?]
      exact hchildren.bind fun _ _ => trivial

/-! ## Errors a client sees -/

namespace Registry

theorem FieldFault.isInternal_eq_false {registry : Registry} {error : QueryError}
    (h : registry.FieldFault error) : error.isInternal = false := by
  cases h <;> rfl

/-- No JSON value leads to an internal error.  A value that is refused is no object, or a field that
the registry knows, a group or a date in it is wrong.  A value that is accepted gives a filter over
registered columns, which compiles unless the operand of a pattern is no text. -/
theorem json_filters_fail_as_user_errors {registry built : Registry}
    (hbuild : registry.build = .ok built) (value : Json) :
    (∀ error, built.parseFilter value = .error error →
      error = .filterNotObject ∨ built.FieldFault error) ∧
    (∀ filter, built.parseFilter value = .ok (some filter) →
      (∀ leaf ∈ filter.leaves, leaf.1 ∈ built.filterColumns) ∧
        ((∃ result, filter.condition? = .ok result) ∨
          ∃ p : Pattern, filter.condition? = .error (.notAString p.name))) ∧
    ∀ error, (built.parseFilter value >>= Filter.conditionOf?) = .error error →
      error.isInternal = false := by
  have hcolumns := check_column_of_build hbuild
  have hparse := gives_parseFilter built value
  cases hread : built.parseFilter value with
  | error error =>
      rw [hread] at hparse
      refine ⟨?_, fun _ h => (nomatch h), ?_⟩
      · rintro _ ⟨⟩
        exact hparse
      · rintro _ ⟨⟩
        rcases hparse with rfl | hfault
        · rfl
        · exact hfault.isInternal_eq_false
  | ok filter? =>
      rw [hread] at hparse
      have hcompile : ∀ filter ∈ filter?, Gives (fun _ => True) PatternFault filter.condition? :=
        fun filter hmem => filter.gives_condition? hcolumns (hparse filter hmem)
      refine ⟨fun _ h => (nomatch h), ?_, ?_⟩
      · rintro filter ⟨⟩
        refine ⟨hparse filter rfl, ?_⟩
        have hfilter := hcompile filter rfl
        cases hcondition : filter.condition? with
        | ok result => exact .inl ⟨result, rfl⟩
        | error error =>
            rw [hcondition] at hfilter
            cases hfilter with
            | notAString p => exact .inr ⟨p, rfl⟩
      · intro error herror
        cases filter? with
        | none => cases herror
        | some filter =>
            have hfilter := hcompile filter rfl
            rw [show filter.condition? = .error error from herror] at hfilter
            cases hfilter
            rfl

/-- A number for a date in a group, which is refused, and one for a text, which is accepted but does
not compile. -/
theorem json_filters_fail_as_user_errors_numbers :
    let registry := (({} : Registry).addFilter "made" "t.created_at" .date).addFilter
      "title" "title" .generic
    let asking (field operator : String) : Json :=
      .object [("OR", .list [.object [(field, .object [(operator, .integer 5)])]])]
    registry.parseFilter (asking "made" "eq") =
        .error (.unsupportedField "made" "eq expects a date string, got integer") ∧
      registry.FieldFault (.unsupportedField "made" "eq expects a date string, got integer") ∧
      (registry.parseFilter (asking "title" "contains") >>= Filter.conditionOf?) =
        .error (.notAString "contains") ∧
      (QueryError.notAString "contains").isInternal = false := by
  intro registry asking
  have hbuild : registry.build = .ok registry := rfl
  have hdate : registry.parseFilter (asking "made" "eq") =
      .error (.unsupportedField "made" "eq expects a date string, got integer") := rfl
  have htext : (registry.parseFilter (asking "title" "contains") >>= Filter.conditionOf?) =
      .error (.notAString "contains") := rfl
  obtain ⟨hfault, -, -⟩ := json_filters_fail_as_user_errors hbuild (asking "made" "eq")
  obtain ⟨-, -, hinternal⟩ := json_filters_fail_as_user_errors hbuild (asking "title" "contains")
  refine ⟨hdate, ?_, htext, hinternal _ htext⟩
  rcases hfault _ hdate with h | h
  · cases h
  · exact h

end Registry

end TableQuery
