import TableQuery.Proofs.OppositeOperators

/-!
# Lists and equality

A column is one of some values if it equals one of them, and none of them if it differs from all.
The list operators compare as equality does, element by element, with two exceptions.  A null in a
list is compared like any other value, so it decides nothing, while equality with null asks whether
the column is null.  And a list compares its column in one form only: if it holds anything but
instants, its instants are compared as the texts that they are bound as.

## Main results

* `Filter.elementLeaf` — the equality by which a list compares one of its elements.
* `Filter.matches_oneOf_iff`, `Filter.matches_noneOf_iff` — what list operators match, by equality.
* `Filter.list_operators_agree_with_equality` — where they agree with equality, and where not.
-/

namespace TableQuery

/-! ## Comparing element by element -/

namespace Atom

variable {term : Term} {bounds : List Bound} {scope : Scope}

/-- A column is one of some values exactly if it equals one of them. -/
theorem truth_among_eq_true_iff :
    (among term false bounds).truth scope = some true ↔
      ∃ b ∈ bounds, (compare term .equal b).truth scope = some true := by
  show (Formula.among term.scalar (bounds.map Bound.scalar)).truth scope = some true ↔ _
  rw [Formula.truth_among_bound, Truth.anyOf_eq_true_iff]
  exact List.mem_map

/-- A column is none of some values exactly if it differs from all of them. -/
theorem truth_among_not_eq_true_iff :
    (among term true bounds).truth scope = some true ↔
      ∀ b ∈ bounds, (compare term .notEqual b).truth scope = some true := by
  show Truth.not ((Formula.among term.scalar (bounds.map Bound.scalar)).truth scope) = some true ↔ _
  rw [Formula.truth_among_bound, Truth.not_eq_true_iff, Truth.anyOf_eq_false_iff,
    List.forall_mem_map]
  refine forall₂_congr fun b _ => ?_
  show _ ↔ Comparator.equal.opposite.decide _ _ = some true
  rw [Comparator.decide_opposite, Truth.not_eq_true_iff]
  rfl

/-- Nothing compares with what is bound as null. -/
theorem truth_compare_null {b : Bound} (h : Cell.ofOperand b.value = .null) (term : Term)
    (comparator : Comparator) (scope : Scope) : (compare term comparator b).truth scope = none := by
  have hnull : (b.scalar.datum scope).cell = .null := by
    obtain ⟨operand, form⟩ := b
    cases form <;> simp_all [Bound.scalar, Form.apply, Scalar.datum, Cell.mapText, Cell.text?,
      momentCell, JulianDay.ofCell?]
  show comparator.decide _ _ = none
  rw [Comparator.decide, Datum.compare?, hnull]
  simp [Cell.isNull]

end Atom

/-! ## Columns without a value -/

theorem Cell.isNull_iff {cell : Cell} : cell.isNull = true ↔ cell = .null := by
  cases cell <;> simp [isNull]

theorem Cell.mapText_eq_null_iff {change : String → String} {cell : Cell} :
    cell.mapText change = .null ↔ cell = .null := by
  cases cell <;> simp [mapText, text?]

/-- A null check looks at the value only. -/
theorem Atom.truth_null (term : Term) (scope : Scope) :
    (Atom.null term false).truth scope = some (term.scalar.datum scope).cell.isNull := by
  show some (sameData _ { cell := .null }) = _
  rw [sameData, Datum.compare?]
  simp [Cell.isNull]

/-- Changing the case of a column leaves it null or not null. -/
theorem OperatorSet.cell_term_eq_null_iff (set : OperatorSet) (column : Identifier)
    (scope : Scope) :
    ((set.term column).scalar.datum scope).cell = .null ↔ (scope column.name).cell = .null := by
  unfold OperatorSet.term
  cases set.fieldCase with
  | preserve => exact Iff.rfl
  | lower => exact Cell.mapText_eq_null_iff
  | upper => exact Cell.mapText_eq_null_iff

namespace OperatorSet

variable (set : OperatorSet) (column : Identifier) (operands : List Operand)

/-- The form in which a list compares its column. -/
def listTerm : Term :=
  if operands.all Operand.isTimestamp then ⟨column, .julianDay⟩ else set.term column

/-- The form in which a list compares one of its elements. -/
def listBound (operand : Operand) : Bound :=
  if operands.all Operand.isTimestamp then ⟨operand, .julianDay⟩ else set.bound operand

variable {set column operands}

@[simp] theorem value_listBound {operand : Operand} :
    (set.listBound operands operand).value = operand := by
  unfold listBound
  split <;> rfl

/-- An element that is bound as null compares with nothing. -/
theorem truth_compare_listBound {operand : Operand} (h : Cell.ofOperand operand = .null)
    (term : Term) (comparator : Comparator) (scope : Scope) :
    (Atom.compare term comparator (set.listBound operands operand)).truth scope = none :=
  Atom.truth_compare_null (by rw [value_listBound, h]) term comparator scope

theorem memberAtom?_eq_among (hne : operands ≠ []) (negated : Bool) :
    set.memberAtom? column negated operands =
      some (.among (set.listTerm column operands) negated
        (operands.map (set.listBound operands))) := by
  have hempty : operands.isEmpty = false := by simpa using hne
  unfold memberAtom? listTerm listBound
  rw [hempty]
  split
  · next h => cases h
  · split <;> rfl

end OperatorSet

/-! ## Elements of a list -/

/-- The flags that change the column as these do, and no value. -/
def columnFlags (flags : CaseFlag → Bool) : CaseFlag → Bool
  | .fieldUppercase => flags .fieldUppercase
  | .fieldLowercase => flags .fieldLowercase || flags .caseInsensitive
  | _ => false

namespace OperatorSet

variable (flags : CaseFlag → Bool) (column : Identifier)

theorem term_columnFlags :
    (ofFlags (columnFlags flags)).term column = (ofFlags flags).term column := by
  have hfield : (ofFlags (columnFlags flags)).fieldCase = (ofFlags flags).fieldCase := by
    show CaseTransform.ofFlags ((flags .fieldLowercase || flags .caseInsensitive) || false) _ =
      CaseTransform.ofFlags (flags .fieldLowercase || flags .caseInsensitive) _
    rw [Bool.or_false]
    rfl
  rw [term, hfield, term]

theorem bound_columnFlags (operand : Operand) :
    (ofFlags (columnFlags flags)).bound operand = ⟨operand, .plain⟩ := by
  show Bound.mk operand (if operand.isText then .plain else .plain) = _
  rw [ite_self]

end OperatorSet

namespace Filter

variable {name : String} {flags : CaseFlag → Bool} {operands : List Operand} {operand : Operand}
  {c : Comparison} {scope : Scope}

/-- The equality by which a list compares its column with one of its elements.  An instant among
other values is compared as its text, in the case that this text has. -/
def elementLeaf (name : String) (flags : CaseFlag → Bool) (operands : List Operand)
    (c : Comparison) (operand : Operand) : Filter :=
  match operand with
  | .timestamp instant =>
    if operands.all Operand.isTimestamp then (Demand.comparison c operand).leaf name flags
    else (Demand.comparison c (.text instant.text)).leaf name (columnFlags flags)
  | _ => (Demand.comparison c operand).leaf name flags

/-- Equality with an element is that with an operand, unless it is an instant among other values. -/
theorem elementLeaf_eq (h : operand.isTimestamp = true → operands.all Operand.isTimestamp = true) :
    elementLeaf name flags operands c operand = (Demand.comparison c operand).leaf name flags := by
  cases operand with
  | timestamp instant => exact if_pos (h rfl)
  | _ => rfl

theorem matches_comparison_iff (hname : isIdentifier name.toList = true) :
    ((Demand.comparison c operand).leaf name flags).Matches scope ↔
      ((OperatorSet.ofFlags flags).comparisonAtom ⟨name, hname⟩ c operand).truth scope =
        some true := by
  rw [matches_demand_iff_of_valid hname]
  simp [OperatorSet.atomOf?, Atom.truthOf?]

/-- An element that is not null is compared in the form of the list. -/
theorem matches_elementLeaf_iff (hname : isIdentifier name.toList = true)
    (hc : c = .eq ∨ c = .notEq) (hmem : operand ∈ operands) (hnull : operand ≠ .null) :
    (elementLeaf name flags operands c operand).Matches scope ↔
      (Atom.compare ((OperatorSet.ofFlags flags).listTerm ⟨name, hname⟩ operands) c.comparator
        ((OperatorSet.ofFlags flags).listBound operands operand)).truth scope = some true := by
  by_cases hall : operands.all Operand.isTimestamp = true
  · have htime := List.all_eq_true.1 hall operand hmem
    rw [OperatorSet.listTerm, if_pos hall, OperatorSet.listBound, if_pos hall]
    cases operand with
    | timestamp instant =>
        rw [elementLeaf_eq fun _ => hall, matches_comparison_iff hname]
        rcases hc with rfl | rfl <;> rfl
    | _ => cases htime
  · rw [OperatorSet.listTerm, if_neg hall, OperatorSet.listBound, if_neg hall]
    cases operand with
    | null => exact absurd rfl hnull
    | timestamp instant =>
        rw [elementLeaf, if_neg hall, matches_comparison_iff hname]
        have hterm := OperatorSet.term_columnFlags flags ⟨name, hname⟩
        have hbound := OperatorSet.bound_columnFlags flags (.text instant.text)
        rcases hc with rfl | rfl
        all_goals
          show (Atom.compare ((OperatorSet.ofFlags (columnFlags flags)).term _) _
            ((OperatorSet.ofFlags (columnFlags flags)).bound _)).truth scope = _ ↔ _
          rw [hterm, hbound]
          rfl
    | _ =>
        rw [elementLeaf_eq, matches_comparison_iff hname]
        · rcases hc with rfl | rfl <;> rfl
        · exact nofun

/-- An element of a list compares as the list does, if it is not null. -/
theorem compares_element_iff (hname : isIdentifier name.toList = true)
    (hc : c = .eq ∨ c = .notEq) (hmem : operand ∈ operands) :
    (Atom.compare ((OperatorSet.ofFlags flags).listTerm ⟨name, hname⟩ operands) c.comparator
        ((OperatorSet.ofFlags flags).listBound operands operand)).truth scope = some true ↔
      operand ≠ .null ∧ (elementLeaf name flags operands c operand).Matches scope := by
  by_cases hnull : operand = .null
  · subst hnull
    rw [OperatorSet.truth_compare_listBound rfl]
    exact ⟨nofun, fun h => absurd rfl h.1⟩
  · rw [← matches_elementLeaf_iff hname hc hmem hnull]
    exact ⟨fun h => ⟨hnull, h⟩, fun h => h.2⟩

/-- One of a list compares the column with its elements, all in the form of the list. -/
theorem matches_oneOf_iff_compare (hname : isIdentifier name.toList = true) :
    ((Demand.oneOf operands).leaf name flags).Matches scope ↔
      ∃ operand ∈ operands,
        (Atom.compare ((OperatorSet.ofFlags flags).listTerm ⟨name, hname⟩ operands) .equal
          ((OperatorSet.ofFlags flags).listBound operands operand)).truth scope = some true := by
  rw [matches_demand_iff_of_valid hname]
  simp only [OperatorSet.atomOf?, Except.ok.injEq, exists_eq_left']
  by_cases hne : operands = []
  · subst hne
    constructor
    · intro h
      cases h
    · rintro ⟨_, hmem, -⟩
      exact absurd hmem List.not_mem_nil
  · rw [OperatorSet.memberAtom?_eq_among hne]
    show (Atom.among _ false _).truth scope = some true ↔ _
    rw [Atom.truth_among_eq_true_iff]
    simp only [List.mem_map, exists_exists_and_eq_and]

theorem matches_noneOf_iff_compare (hname : isIdentifier name.toList = true) :
    ((Demand.noneOf operands).leaf name flags).Matches scope ↔
      ∀ operand ∈ operands,
        (Atom.compare ((OperatorSet.ofFlags flags).listTerm ⟨name, hname⟩ operands) .notEqual
          ((OperatorSet.ofFlags flags).listBound operands operand)).truth scope = some true := by
  rw [matches_demand_iff_of_valid hname]
  simp only [OperatorSet.atomOf?, Except.ok.injEq, exists_eq_left']
  by_cases hne : operands = []
  · subst hne
    exact ⟨fun _ _ hmem => absurd hmem List.not_mem_nil, fun _ => rfl⟩
  · rw [OperatorSet.memberAtom?_eq_among hne]
    show (Atom.among _ true _).truth scope = some true ↔ _
    rw [Atom.truth_among_not_eq_true_iff, List.forall_mem_map]

/-- One of a list matches what equality with one of its elements does, compared as the list has it;
a null in the list matches nothing. -/
theorem matches_oneOf_iff (hname : isIdentifier name.toList = true) :
    ((Demand.oneOf operands).leaf name flags).Matches scope ↔
      ∃ operand ∈ operands, operand ≠ .null ∧
        (elementLeaf name flags operands .eq operand).Matches scope := by
  rw [matches_oneOf_iff_compare hname]
  exact exists_congr fun operand =>
    and_congr_right fun hmem => compares_element_iff hname (.inl rfl) hmem

/-- None of a list matches what differs from each of its elements, compared as the list has it; with
a null in the list that is nothing. -/
theorem matches_noneOf_iff (hname : isIdentifier name.toList = true) :
    ((Demand.noneOf operands).leaf name flags).Matches scope ↔
      ∀ operand ∈ operands, operand ≠ .null ∧
        (elementLeaf name flags operands .notEq operand).Matches scope := by
  rw [matches_noneOf_iff_compare hname]
  exact forall₂_congr fun operand hmem => compares_element_iff hname (.inr rfl) hmem

/-! ## Lists against equality -/

/-- Equality with null matches exactly the rows in which the column is null. -/
theorem matches_eq_null_iff (hname : isIdentifier name.toList = true) :
    ((Demand.comparison .eq .null).leaf name flags).Matches scope ↔
      (scope name).cell = .null := by
  rw [matches_comparison_iff hname]
  show (Atom.null _ false).truth scope = some true ↔ _
  rw [Atom.truth_null, Option.some.injEq, Cell.isNull_iff, OperatorSet.cell_term_eq_null_iff]

/-- A column that is null equals no value. -/
theorem not_matches_eq_of_null (hname : isIdentifier name.toList = true)
    (hcell : (scope name).cell = .null) (hnull : operand ≠ .null) :
    ¬ ((Demand.comparison .eq operand).leaf name flags).Matches scope := by
  have hatom : ∃ term bound,
      (OperatorSet.ofFlags flags).comparisonAtom ⟨name, hname⟩ .eq operand =
          .compare term .equal bound ∧
        (term.scalar.datum scope).cell = .null := by
    have hterm := ((OperatorSet.ofFlags flags).cell_term_eq_null_iff ⟨name, hname⟩ scope).2 hcell
    cases operand with
    | null => exact absurd rfl hnull
    | timestamp instant =>
        refine ⟨⟨⟨name, hname⟩, .julianDay⟩, _, rfl, ?_⟩
        show momentCell (scope name).cell = .null
        rw [hcell]
        rfl
    | _ => exact ⟨_, _, rfl, hterm⟩
  obtain ⟨term, bound, hatom, hterm⟩ := hatom
  rw [matches_comparison_iff hname, hatom]
  show Comparator.equal.decide _ _ ≠ some true
  rw [Comparator.decide, Datum.compare?, hterm]
  simp [Cell.isNull]

/-- The instants of a list are compared as instants: it holds nothing else, or none of them. -/
def OneKind (operands : List Operand) : Prop :=
  (∀ operand ∈ operands, operand.isTimestamp = true) ∨
    ∀ operand ∈ operands, operand.isTimestamp = false

theorem elementLeaf_of_oneKind (h : OneKind operands) (hmem : operand ∈ operands) :
    elementLeaf name flags operands c operand = (Demand.comparison c operand).leaf name flags := by
  refine elementLeaf_eq fun htime => ?_
  rcases h with h | h
  · exact List.all_eq_true.2 h
  · rw [h operand hmem] at htime
    cases htime

/-- With a null in the list, one of a list agrees with equality where the column is not null. -/
theorem oneOf_agrees_iff (hname : isIdentifier name.toList = true) (hkind : OneKind operands)
    (hnull : .null ∈ operands) :
    (((Demand.oneOf operands).leaf name flags).Matches scope ↔
        ∃ operand ∈ operands, ((Demand.comparison .eq operand).leaf name flags).Matches scope) ↔
      (scope name).cell ≠ .null := by
  have hleaf : ∀ operand ∈ operands, elementLeaf name flags operands .eq operand =
      (Demand.comparison .eq operand).leaf name flags :=
    fun operand hmem => elementLeaf_of_oneKind hkind hmem
  constructor
  · intro hagree hcell
    obtain ⟨operand, hmem, hne, hmatches⟩ := (matches_oneOf_iff hname).1
      (hagree.2 ⟨.null, hnull, (matches_eq_null_iff hname).2 hcell⟩)
    rw [hleaf operand hmem] at hmatches
    exact not_matches_eq_of_null hname hcell hne hmatches
  · intro hcell
    rw [matches_oneOf_iff hname]
    refine exists_congr fun operand => and_congr_right fun hmem => ?_
    rw [hleaf operand hmem]
    refine ⟨fun h => h.2, fun h => ⟨?_, h⟩⟩
    rintro rfl
    exact hcell ((matches_eq_null_iff hname).1 h)

/-- The list operators agree with equality if no null is in the list, and the instants in it are
not among other values.  With a null in it, one of the list does so where the column is not null,
and none of the list matches nothing.  In general a list compares as `elementLeaf` has it. -/
theorem list_operators_agree_with_equality (hname : isIdentifier name.toList = true)
    (flags : CaseFlag → Bool) (operands : List Operand) (scope : Scope) :
    (OneKind operands → .null ∉ operands →
      (((Demand.oneOf operands).leaf name flags).Matches scope ↔
        ∃ operand ∈ operands, ((Demand.comparison .eq operand).leaf name flags).Matches scope) ∧
      (((Demand.noneOf operands).leaf name flags).Matches scope ↔
        ∀ operand ∈ operands,
          ((Demand.comparison .notEq operand).leaf name flags).Matches scope)) ∧
    (.null ∈ operands → ¬ ((Demand.noneOf operands).leaf name flags).Matches scope ∧
      (OneKind operands → ((((Demand.oneOf operands).leaf name flags).Matches scope ↔
        ∃ operand ∈ operands, ((Demand.comparison .eq operand).leaf name flags).Matches scope) ↔
        (scope name).cell ≠ .null))) ∧
    (((Demand.oneOf operands).leaf name flags).Matches scope ↔
      ∃ operand ∈ operands, operand ≠ .null ∧
        (elementLeaf name flags operands .eq operand).Matches scope) ∧
    (((Demand.noneOf operands).leaf name flags).Matches scope ↔
      ∀ operand ∈ operands, operand ≠ .null ∧
        (elementLeaf name flags operands .notEq operand).Matches scope) := by
  refine ⟨fun hkind hnull => ⟨?_, ?_⟩, fun hnull => ⟨fun h => ?_, fun hkind =>
    oneOf_agrees_iff hname hkind hnull⟩, matches_oneOf_iff hname, matches_noneOf_iff hname⟩
  · rw [matches_oneOf_iff hname]
    refine exists_congr fun operand => and_congr_right fun hmem => ?_
    rw [elementLeaf_of_oneKind hkind hmem]
    exact and_iff_right (ne_of_mem_of_not_mem hmem hnull)
  · rw [matches_noneOf_iff hname]
    refine forall₂_congr fun operand hmem => ?_
    rw [elementLeaf_of_oneKind hkind hmem]
    exact and_iff_right (ne_of_mem_of_not_mem hmem hnull)
  · exact ((matches_noneOf_iff hname).1 h .null hnull).1 rfl

/-- A number and a text in one list, without regard to case, and the same list with a null. -/
theorem list_operators_agree_with_equality_two_kinds :
    let flags : CaseFlag → Bool := fun flag => flag = .caseInsensitive
    let operands : List Operand := [.integer 7, .text "Ab"]
    let row : Scope := fun _ => { cell := .text "AB" }
    OneKind operands ∧ .null ∉ operands ∧ ((Demand.oneOf operands).leaf "code" flags).Matches row ∧
      (∃ operand ∈ operands, ((Demand.comparison .eq operand).leaf "code" flags).Matches row) ∧
      ¬ ((Demand.noneOf (.null :: operands)).leaf "code" flags).Matches row := by
  intro flags operands row
  have hname : isIdentifier "code".toList = true := by decide
  have hkind : OneKind operands := .inr (by decide)
  have hnull : .null ∉ operands := by decide
  have hmatches : ((Demand.oneOf operands).leaf "code" flags).Matches row :=
    (matches_demand_iff_of_valid (by decide)).2 ⟨_, rfl, by decide +kernel⟩
  have hagree := list_operators_agree_with_equality hname flags operands row
  have hwith := list_operators_agree_with_equality hname flags (.null :: operands) row
  exact ⟨hkind, hnull, hmatches, (hagree.1 hkind hnull).1.1 hmatches,
    (hwith.2.1 List.mem_cons_self).1⟩

/-- Equality with null finds a missing value and a list of null does not; 7 differs from 1 and is
not null, and yet it is not outside the list of both; and an instant in another spelling is found by
equality, but not by a list that holds a number beside it. -/
theorem lists_differ_from_equality :
    let flags : CaseFlag → Bool := fun _ => false
    let row (cell : Cell) : Scope := fun _ => { cell := cell }
    let instant : Operand := .timestamp ⟨1577836800, 0, .inl (by decide)⟩
    let spelling : Cell := .text "2020-01-01T01:00:00+01:00"
    (((Demand.comparison .eq .null).leaf "rank" flags).Matches (row .null) ∧
      ¬ ((Demand.oneOf [.null]).leaf "rank" flags).Matches (row .null)) ∧
    ((∀ operand ∈ [.integer 1, .null],
        ((Demand.comparison .notEq operand).leaf "id" flags).Matches (row (.integer 7))) ∧
      ¬ ((Demand.noneOf [.integer 1, .null]).leaf "id" flags).Matches (row (.integer 7))) ∧
    ((Demand.comparison .eq instant).leaf "seen" flags).Matches (row spelling) ∧
      ¬ ((Demand.oneOf [instant, .integer 0]).leaf "seen" flags).Matches (row spelling) := by
  intro flags row instant spelling
  have hid : isIdentifier "id".toList = true := by decide
  have hrank : isIdentifier "rank".toList = true := by decide
  refine ⟨⟨(matches_eq_null_iff hrank).2 rfl, fun h => ?_⟩, ⟨?_, fun h => ?_⟩, ?_, fun h => ?_⟩
  · obtain ⟨operand, hmem, hne, -⟩ := (matches_oneOf_iff hrank).1 h
    exact hne (List.mem_singleton.1 hmem)
  · rw [List.forall_mem_cons, List.forall_mem_singleton]
    exact ⟨(matches_comparison_iff (by decide)).2 (by decide +kernel),
      (matches_comparison_iff (by decide)).2 (by decide +kernel)⟩
  · exact ((matches_noneOf_iff hid).1 h .null (by decide)).1 rfl
  · exact (matches_comparison_iff (by decide)).2 (by decide +kernel)
  · obtain ⟨a?, ha?, htrue⟩ := (matches_demand_iff_of_valid (by decide)).1 h
    obtain rfl := Except.ok.inj ha?
    exact absurd htrue (by decide +kernel)

end Filter

end TableQuery
