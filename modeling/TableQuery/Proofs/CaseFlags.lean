import TableQuery.Proofs.InstantText
import TableQuery.Proofs.ListMembership

/-!
# Case flags without texts

Case flags are about texts.  Where no text is asked for, they change no operand, but those for the
column still change the column: what it holds becomes a text, and a text equals no number.  The
flags leave a row in or out regardless only if the column is compared as it is or as an instant, if
it is asked about null, or if it is compared with nothing but null.  Everything else is decided by
the changed text: it equals no number, and differs from all of them.

## Main definitions

* `Demand.Textless`: the operators that ask for no text.
* `Demand.IgnoresCase`: those of them for which no flag counts.
* `Demand.SaysOfText`: what the others say of a text.

## Main results

* `Filter.matches_iff_of_ignoresCase`, `Filter.matches_iff_of_preserve` — when an operator matches
  the same rows with and without case flags.
* `Filter.matches_iff_saysOfText` — what an operator matches otherwise.
* `Filter.case_flags_keep_rows` — that it is not the same, and what this makes of whole leaves.
-/

namespace TableQuery

/-! ## Operators without texts -/

namespace Demand

/-- An operator that is no pattern, and asks for no text by equality or in a list. -/
def Textless : Demand → Prop
  | comparison c operand => c = .eq ∨ c = .notEq → operand.isText = false
  | pattern _ _ => False
  | oneOf operands => ∀ operand ∈ operands, operand.isText = false
  | noneOf operands => ∀ operand ∈ operands, operand.isText = false
  | null => True
  | notNull => True

/-- An operator that takes its column as it is, as an instant, or only asks whether it is null, or
that no row can meet because of a null in it. -/
def IgnoresCase : Demand → Prop
  | comparison c operand =>
    c = .eq ∨ c = .notEq → operand.isTimestamp = true ∨ Cell.ofOperand operand = .null
  | pattern _ _ => False
  | oneOf operands => (∀ operand ∈ operands, operand.isTimestamp = true) ∨
    ∀ operand ∈ operands, Cell.ofOperand operand = .null
  | noneOf operands => (∀ operand ∈ operands, operand.isTimestamp = true) ∨
    ∃ operand ∈ operands, Cell.ofOperand operand = .null
  | null => True
  | notNull => True

/-- What an operator asks of a value by equality with its operands, as they are. -/
def Compares (subject : Datum) : Demand → Prop
  | comparison .eq operand =>
    Comparator.equal.decide subject { cell := .ofOperand operand } = some true
  | comparison .notEq operand =>
    Comparator.notEqual.decide subject { cell := .ofOperand operand } = some true
  | oneOf operands => ∃ operand ∈ operands,
    Comparator.equal.decide subject { cell := .ofOperand operand } = some true
  | noneOf operands => ∀ operand ∈ operands,
    Comparator.notEqual.decide subject { cell := .ofOperand operand } = some true
  | _ => True

/-- What an operator says of a text, or of null: among its operands only instants are bound as
texts, and no text equals a number. -/
def SaysOfText (cell : Cell) : Demand → Prop
  | comparison .eq _ => False
  | comparison .notEq _ => cell ≠ .null
  | oneOf operands => ∃ instant, .timestamp instant ∈ operands ∧ cell = .text instant.text
  | noneOf operands =>
    cell ≠ .null ∧ ∀ instant, .timestamp instant ∈ operands → cell ≠ .text instant.text
  | _ => True

end Demand

/-! ## Columns in another case -/

/-- A value with its text in the case that flags give to a column. -/
def CaseTransform.cell (transform : CaseTransform) (cell : Cell) : Cell :=
  match transform with
  | preserve => cell
  | lower => cell.mapText lowerText
  | upper => cell.mapText upperText

/-- A value that is null or a text. -/
def Cell.IsTextOrNull (cell : Cell) : Prop := cell = .null ∨ ∃ text, cell = .text text

theorem CaseTransform.isTextOrNull_cell {transform : CaseTransform} (h : transform ≠ .preserve)
    (cell : Cell) : (transform.cell cell).IsTextOrNull := by
  have hmap : ∀ change, (cell.mapText change).IsTextOrNull := by
    intro change
    unfold Cell.mapText
    split
    · exact .inr ⟨_, rfl⟩
    · exact .inl rfl
  cases transform with
  | preserve => exact absurd rfl h
  | lower => exact hmap lowerText
  | upper => exact hmap upperText

/-- Changing the case of a column makes it a text, unless it is null. -/
theorem OperatorSet.datum_term {set : OperatorSet} (h : set.fieldCase ≠ .preserve)
    (column : Identifier) (scope : Scope) :
    (set.term column).scalar.datum scope =
      { cell := set.fieldCase.cell (scope column.name).cell } := by
  unfold OperatorSet.term
  cases hcase : set.fieldCase with
  | preserve => exact absurd hcase h
  | lower => rfl
  | upper => rfl

/-- The case of a value counts only if it is a text. -/
theorem OperatorSet.bound_of_textless {operand : Operand} (h : operand.isText = false)
    (set : OperatorSet) : set.bound operand = ⟨operand, .plain⟩ := by
  rw [bound, h]
  rfl

/-- Without a column on either side nothing is converted. -/
theorem Datum.compare?_bare (left right : Cell) :
    Datum.compare? { cell := left } { cell := right } =
      if left.isNull || right.isNull then none else some (left.compare right) := rfl

section Texts

variable {cell other : Cell} (h : cell.IsTextOrNull)
include h

/-- A text equals nothing but the same text. -/
theorem Datum.equal_eq_true_iff :
    Comparator.equal.decide { cell := cell } { cell := other } = some true ↔
      cell ≠ .null ∧ cell = other := by
  rw [Comparator.decide, Datum.compare?_bare]
  rcases h with rfl | ⟨text, rfl⟩
  · simp [Cell.isNull]
  · cases other <;> simp [Cell.isNull, Cell.compare, Cell.rank, Comparator.holds]

/-- A text differs from everything else but null. -/
theorem Datum.notEqual_eq_true_iff :
    Comparator.notEqual.decide { cell := cell } { cell := other } = some true ↔
      cell ≠ .null ∧ other ≠ .null ∧ cell ≠ other := by
  rw [Comparator.decide, Datum.compare?_bare]
  rcases h with rfl | ⟨text, rfl⟩
  · simp [Cell.isNull]
  · cases other <;> simp [Cell.isNull, Cell.compare, Cell.rank, Comparator.holds]

/-- The only operand besides texts that is bound as a text is an instant. -/
theorem Cell.eq_ofOperand_iff (hcell : cell ≠ .null) {operand : Operand}
    (hoperand : operand.isText = false) :
    cell = .ofOperand operand ↔ ∃ instant, operand = .timestamp instant ∧
      cell = .text instant.text := by
  obtain ⟨text, rfl⟩ := h.resolve_left hcell
  cases operand with
  | text value => cases hoperand
  | float value =>
      simp only [ofOperand]
      split <;> simp
  | _ => simp [ofOperand]

end Texts

theorem Cell.compare_self (cell : Cell) : cell.compare cell = .eq := by
  cases cell with
  | real value =>
      show value.compare value = .eq
      unfold Numeral.Binary64.compare
      cases value.isFinite with
      | true => exact Std.ReflOrd.compare_self
      | false => cases value.isNegative <;> rfl
  | _ => exact Std.ReflOrd.compare_self

section Self

variable {cell : Cell} (h : cell ≠ .null)
include h

/-- A column that converts nothing equals what it holds, unless that is null. -/
theorem Datum.equal_self :
    Comparator.equal.decide ⟨cell, some .blob⟩ { cell := cell } = some true := by
  have hnull : cell.isNull = false := Bool.eq_false_iff.2 fun hnull => h (Cell.isNull_iff.1 hnull)
  have hcompare : Datum.compare? ⟨cell, some .blob⟩ { cell := cell } =
      if cell.isNull || cell.isNull then none else some (cell.compare cell) := rfl
  rw [Comparator.decide, hcompare, hnull, Cell.compare_self]
  rfl

theorem Datum.notEqual_self :
    Comparator.notEqual.decide ⟨cell, some .blob⟩ { cell := cell } = some false :=
  (Comparator.decide_opposite .equal _ _).trans (congrArg Truth.not (Datum.equal_self h))

end Self

/-- The text of an instant has a `T` in it, so no text in lower case is that of an instant. -/
theorem CaseTransform.lower_cell_ne_instant (cell : Cell) (instant : Time.Instant) :
    lower.cell cell ≠ .text instant.text := by
  have hT : 'T' ∈ instant.text.toList := by simp [Time.Instant.text, Time.Instant.chars]
  show cell.mapText lowerText ≠ _
  unfold Cell.mapText
  split
  · next text =>
      intro heq
      rw [← Cell.text.inj heq, lowerText, String.toList_ofList] at hT
      obtain ⟨c, -, hc⟩ := List.mem_map.1 hT
      unfold Char.toLower at hc
      split at hc
      · next hupper =>
          have hval := congrArg Char.val hc
          grind
      · next hupper => exact hupper (hc ▸ by decide)
  · exact nofun

/-! ## Operators one at a time -/

namespace Demand

variable {demand : Demand}

/-- A comparison counts case only if it is an equality with a number. -/
theorem not_ignoresCase_comparison {c : Comparison} {operand : Operand}
    (hcase : ¬ (comparison c operand).IgnoresCase) :
    (c = .eq ∨ c = .notEq) ∧ operand.isTimestamp = false ∧ Cell.ofOperand operand ≠ .null := by
  rw [IgnoresCase, Classical.not_imp, not_or, Bool.not_eq_true] at hcase
  exact hcase

/-- A list that excludes values counts case only if none of them is null, and there are some. -/
theorem not_ignoresCase_noneOf {operands : List Operand}
    (hcase : ¬ (noneOf operands).IgnoresCase) :
    (∃ operand, operand ∈ operands) ∧ ∀ operand ∈ operands, Cell.ofOperand operand ≠ .null := by
  obtain ⟨htimes, hnulls⟩ := not_or.1 hcase
  push Not at htimes hnulls
  obtain ⟨operand, hmem, -⟩ := htimes
  exact ⟨⟨operand, hmem⟩, hnulls⟩

/-- On texts, equality with numbers and instants is equality of texts. -/
theorem compares_iff_saysOfText {cell : Cell} (hcell : cell.IsTextOrNull)
    (htextless : demand.Textless) (hcase : ¬ demand.IgnoresCase) :
    demand.Compares { cell := cell } ↔ demand.SaysOfText cell := by
  cases demand with
  | comparison c operand =>
      obtain ⟨hc, htime, hnull⟩ := not_ignoresCase_comparison hcase
      have hne : cell ≠ .null → cell ≠ .ofOperand operand := by
        intro hcellnull heq
        obtain ⟨instant, rfl, -⟩ :=
          (Cell.eq_ofOperand_iff hcell hcellnull (htextless hc)).1 heq
        cases htime
      rcases hc with rfl | rfl
      · rw [Compares, Datum.equal_eq_true_iff hcell]
        exact iff_false_intro fun h => hne h.1 h.2
      · rw [Compares, Datum.notEqual_eq_true_iff hcell]
        exact ⟨fun h => h.1, fun h => ⟨h, hnull, hne h⟩⟩
  | pattern p operand => exact htextless.elim
  | oneOf operands =>
      simp only [Compares, SaysOfText, Datum.equal_eq_true_iff hcell]
      constructor
      · rintro ⟨operand, hmem, hnull, heq⟩
        obtain ⟨instant, rfl, htext⟩ :=
          (Cell.eq_ofOperand_iff hcell hnull (htextless operand hmem)).1 heq
        exact ⟨instant, hmem, htext⟩
      · rintro ⟨instant, hmem, rfl⟩
        exact ⟨.timestamp instant, hmem, nofun, rfl⟩
  | noneOf operands =>
      obtain ⟨⟨operand, hmem⟩, hnulls⟩ := not_ignoresCase_noneOf hcase
      simp only [Compares, SaysOfText, Datum.notEqual_eq_true_iff hcell]
      constructor
      · exact fun h => ⟨(h operand hmem).1, fun instant hmem => (h _ hmem).2.2⟩
      · rintro ⟨hnull, hinstants⟩ operand hmem
        refine ⟨hnull, hnulls operand hmem, fun heq => ?_⟩
        obtain ⟨instant, rfl, htext⟩ :=
          (Cell.eq_ofOperand_iff hcell hnull (htextless operand hmem)).1 heq
        exact hinstants instant hmem htext
  | null => exact absurd trivial hcase
  | notNull => exact absurd trivial hcase

/-- An operator for which case counts tells a value that it is asked for from the text of this value
in lower case. -/
theorem exists_compares_iff_not (htextless : demand.Textless) (hcase : ¬ demand.IgnoresCase) :
    ∃ cell : Cell, ¬ (demand.Compares ⟨cell, some .blob⟩ ↔
      demand.SaysOfText (CaseTransform.lower.cell cell)) := by
  cases demand with
  | comparison c operand =>
      obtain ⟨hc, -, hnull⟩ := not_ignoresCase_comparison hcase
      refine ⟨.ofOperand operand, fun h => ?_⟩
      rcases hc with rfl | rfl
      · exact h.1 (Datum.equal_self hnull)
      · have hdiffers := h.2 (Cell.mapText_eq_null_iff.not.2 hnull)
        rw [Compares, Datum.notEqual_self hnull] at hdiffers
        cases hdiffers
  | pattern p operand => exact htextless.elim
  | oneOf operands =>
      have hnulls := (not_or.1 hcase).2
      push Not at hnulls
      obtain ⟨operand, hmem, hnull⟩ := hnulls
      refine ⟨.ofOperand operand, fun h => ?_⟩
      obtain ⟨instant, -, htext⟩ := h.1 ⟨operand, hmem, Datum.equal_self hnull⟩
      exact CaseTransform.lower_cell_ne_instant _ _ htext
  | noneOf operands =>
      obtain ⟨⟨operand, hmem⟩, hnulls⟩ := not_ignoresCase_noneOf hcase
      have hnull := hnulls operand hmem
      refine ⟨.ofOperand operand, fun h => ?_⟩
      have hdiffers := h.2 ⟨Cell.mapText_eq_null_iff.not.2 hnull,
        fun instant _ => CaseTransform.lower_cell_ne_instant _ instant⟩ operand hmem
      rw [Datum.notEqual_self hnull] at hdiffers
      cases hdiffers
  | null => exact absurd trivial hcase
  | notNull => exact absurd trivial hcase

end Demand

/-! ## Leaves of one operator -/

section Conditions

variable (set other : OperatorSet) (column : Identifier) (scope : Scope) {operand : Operand}

/-- Equality with an instant or with null is the same in every case. -/
theorem OperatorSet.truth_equalityAtom_eq
    (h : operand.isTimestamp = true ∨ Cell.ofOperand operand = .null) (negated : Bool) :
    (set.equalityAtom column negated operand).truth scope =
      (other.equalityAtom column negated operand).truth scope := by
  have hcheck : (Atom.null (set.term column) false).truth scope =
      (Atom.null (other.term column) false).truth scope := by
    rw [Atom.truth_null, Atom.truth_null, Option.some.injEq, Bool.eq_iff_iff, Cell.isNull_iff,
      Cell.isNull_iff, cell_term_eq_null_iff, cell_term_eq_null_iff]
  cases operand with
  | null =>
      cases negated with
      | false => exact hcheck
      | true =>
          show (Atom.null _ !false).truth scope = (Atom.null _ !false).truth scope
          rw [Atom.truth_null_not, hcheck, Atom.truth_null_not]
  | timestamp instant => rfl
  | float value =>
      have hnull := h.resolve_left nofun
      exact (Atom.truth_compare_null hnull _ _ scope).trans
        (Atom.truth_compare_null hnull _ _ scope).symm
  | _ => exact absurd h (by simp [Operand.isTimestamp, Cell.ofOperand])

end Conditions

namespace Filter

variable {name : String} {demand : Demand} {flags : CaseFlag → Bool} {scope : Scope}

/-- Equality and lists ask what they say of the column in the case that the flags give it. -/
theorem matches_iff_compares (hname : isIdentifier name.toList = true)
    (htextless : demand.Textless) (hcase : ¬ demand.IgnoresCase) :
    (demand.leaf name flags).Matches scope ↔
      demand.Compares (((OperatorSet.ofFlags flags).term ⟨name, hname⟩).scalar.datum scope) := by
  cases demand with
  | comparison c operand =>
      obtain ⟨hc, htime, hnull⟩ := Demand.not_ignoresCase_comparison hcase
      have htext := htextless hc
      rw [matches_comparison_iff hname]
      cases operand with
      | null => exact absurd rfl hnull
      | text value => cases htext
      | timestamp instant => cases htime
      | _ => rcases hc with rfl | rfl <;> exact Iff.rfl
  | pattern p operand => exact htextless.elim
  | oneOf operands =>
      have hall := List.all_eq_true.not.2 (not_or.1 hcase).1
      rw [matches_oneOf_iff_compare hname, OperatorSet.listTerm, if_neg hall]
      refine exists_congr fun operand => and_congr_right fun hmem => ?_
      rw [OperatorSet.listBound, if_neg hall, OperatorSet.bound_of_textless (htextless operand hmem)]
      rfl
  | noneOf operands =>
      have hall := List.all_eq_true.not.2 (not_or.1 hcase).1
      rw [matches_noneOf_iff_compare hname, OperatorSet.listTerm, if_neg hall]
      refine forall₂_congr fun operand hmem => ?_
      rw [OperatorSet.listBound, if_neg hall, OperatorSet.bound_of_textless (htextless operand hmem)]
      rfl
  | null => exact absurd trivial hcase
  | notNull => exact absurd trivial hcase

/-- Instants are compared as such, and null checks look at no text. -/
theorem matches_iff_of_ignoresCase (hname : isIdentifier name.toList = true)
    (hcase : demand.IgnoresCase) (other : CaseFlag → Bool) :
    (demand.leaf name flags).Matches scope ↔ (demand.leaf name other).Matches scope := by
  cases demand with
  | comparison c operand =>
      rw [matches_comparison_iff hname, matches_comparison_iff hname]
      cases c with
      | eq => exact of_eq (congrArg (· = some true)
          (OperatorSet.truth_equalityAtom_eq _ _ _ scope (hcase (.inl rfl)) false))
      | notEq => exact of_eq (congrArg (· = some true)
          (OperatorSet.truth_equalityAtom_eq _ _ _ scope (hcase (.inr rfl)) true))
      | _ => exact Iff.rfl
  | pattern p operand => exact hcase.elim
  | oneOf operands =>
      rw [matches_oneOf_iff_compare hname, matches_oneOf_iff_compare hname]
      refine exists_congr fun operand => and_congr_right fun hmem => ?_
      rcases hcase with h | h
      · simp only [OperatorSet.listTerm, OperatorSet.listBound, if_pos (List.all_eq_true.2 h)]
      · rw [OperatorSet.truth_compare_listBound (h operand hmem),
          OperatorSet.truth_compare_listBound (h operand hmem)]
  | noneOf operands =>
      rw [matches_noneOf_iff_compare hname, matches_noneOf_iff_compare hname]
      rcases hcase with h | ⟨operand, hmem, h⟩
      · simp only [OperatorSet.listTerm, OperatorSet.listBound, if_pos (List.all_eq_true.2 h)]
      · have hnone : ∀ (set : OperatorSet) term comparator,
            (Atom.compare term comparator (set.listBound operands operand)).truth scope ≠
              some true := by
          intro set term comparator
          rw [OperatorSet.truth_compare_listBound h]
          exact (Option.some_ne_none true).symm
        exact iff_of_false (fun hall => hnone _ _ _ (hall operand hmem))
          fun hall => hnone _ _ _ (hall operand hmem)
  | null => exact Iff.rfl
  | notNull => exact Iff.rfl

/-- Without a flag for the column, no operator without texts counts case. -/
theorem matches_iff_of_preserve (hname : isIdentifier name.toList = true)
    (htextless : demand.Textless) (hflags : (OperatorSet.ofFlags flags).fieldCase = .preserve) :
    (demand.leaf name flags).Matches scope ↔ (demand.leaf name fun _ => false).Matches scope := by
  by_cases hcase : demand.IgnoresCase
  · exact matches_iff_of_ignoresCase hname hcase _
  · rw [matches_iff_compares hname htextless hcase, matches_iff_compares hname htextless hcase,
      OperatorSet.term, hflags]
    rfl

/-- With a flag for the column, an operator that counts case says of the column's text what it says
of texts. -/
theorem matches_iff_saysOfText (hname : isIdentifier name.toList = true)
    (htextless : demand.Textless) (hcase : ¬ demand.IgnoresCase)
    (hflags : (OperatorSet.ofFlags flags).fieldCase ≠ .preserve) :
    (demand.leaf name flags).Matches scope ↔
      demand.SaysOfText ((OperatorSet.ofFlags flags).fieldCase.cell (scope name).cell) := by
  rw [matches_iff_compares hname htextless hcase, OperatorSet.datum_term hflags]
  exact Demand.compares_iff_saysOfText (CaseTransform.isTextOrNull_cell hflags _) htextless hcase

/-- Only operators that ignore case match the same rows with all case flags. -/
theorem keeps_rows_iff_ignoresCase (hname : isIdentifier name.toList = true)
    (htextless : demand.Textless) :
    (∀ flags scope, (demand.leaf name flags).Matches scope ↔
      (demand.leaf name fun _ => false).Matches scope) ↔ demand.IgnoresCase := by
  refine ⟨fun hkeeps => ?_, fun hcase flags scope => matches_iff_of_ignoresCase hname hcase _⟩
  by_contra hcase
  obtain ⟨cell, hcell⟩ := Demand.exists_compares_iff_not htextless hcase
  have hlower := hkeeps (fun flag => flag = .caseInsensitive) fun _ => ⟨cell, some .blob⟩
  rw [matches_iff_saysOfText hname htextless hcase (by decide),
    matches_iff_compares hname htextless hcase] at hlower
  exact hcell hlower.symm

/-! ## Leaves -/

/-- The column keeps its case exactly if no flag but those for values is set. -/
theorem fieldCase_eq_preserve_iff :
    (OperatorSet.ofFlags flags).fieldCase = .preserve ↔
      ∀ flag, flags flag = true → flag = .valueUppercase ∨ flag = .valueLowercase := by
  have hflags : (OperatorSet.ofFlags flags).fieldCase = .preserve ↔
      flags .fieldLowercase = false ∧ flags .caseInsensitive = false ∧
        flags .fieldUppercase = false := by
    show CaseTransform.ofFlags (flags .fieldLowercase || flags .caseInsensitive)
      (flags .fieldUppercase) = .preserve ↔ _
    cases flags .fieldLowercase <;> cases flags .caseInsensitive <;>
      cases flags .fieldUppercase <;> simp [CaseTransform.ofFlags]
  rw [hflags]
  constructor
  · rintro ⟨hlower, hboth, hupper⟩ flag hflag
    cases flag <;> simp_all
  · intro h
    simp only [← Bool.not_eq_true]
    refine ⟨fun hflag => ?_, fun hflag => ?_, fun hflag => ?_⟩
    all_goals simpa using h _ hflag

/-- A leaf without texts matches the same rows with every choice of flags for values, and with all
case flags if its operators ignore case.  An operator matches the same rows with all case flags only
if it does.  With a flag for the column the others say something of the column's changed text. -/
theorem case_flags_keep_rows (hname : isIdentifier name.toList = true) (set : OperatorSet)
    (htextless : ∀ demand, set.Has demand → demand.Textless) :
    (∀ flags scope,
      (∀ flag, flags flag = true → flag = .valueUppercase ∨ flag = .valueLowercase) ∨
        (∀ demand, set.Has demand → demand.IgnoresCase) →
      ((leaf name (set.withFlags flags)).Matches scope ↔
        (leaf name (set.withFlags fun _ => false)).Matches scope)) ∧
    (∀ flags scope, (leaf name (set.withFlags flags)).Matches scope ↔
      ∀ demand, set.Has demand → (demand.leaf name flags).Matches scope) ∧
    ∀ demand, set.Has demand →
      ((∀ flags scope, (demand.leaf name flags).Matches scope ↔
        (demand.leaf name fun _ => false).Matches scope) ↔ demand.IgnoresCase) ∧
      (¬ demand.IgnoresCase → ∀ flags scope, (OperatorSet.ofFlags flags).fieldCase ≠ .preserve →
        ((demand.leaf name flags).Matches scope ↔
          demand.SaysOfText ((OperatorSet.ofFlags flags).fieldCase.cell (scope name).cell))) := by
  have hleaf : ∀ flags scope, (leaf name (set.withFlags flags)).Matches scope ↔
      ∀ demand, set.Has demand → (demand.leaf name flags).Matches scope := by
    intro flags scope
    rw [matches_leaf_iff_forall hname]
    simp only [OperatorSet.has_withFlags, OperatorSet.flag_withFlags]
  refine ⟨fun flags scope h => ?_, hleaf, fun demand hhas => ⟨?_, fun hcase flags scope => ?_⟩⟩
  · rw [hleaf, hleaf]
    refine forall₂_congr fun demand hhas => ?_
    rcases h with h | h
    · exact matches_iff_of_preserve hname (htextless demand hhas) (fieldCase_eq_preserve_iff.2 h)
    · exact matches_iff_of_ignoresCase hname (h demand hhas) _
  · exact keeps_rows_iff_ignoresCase hname (htextless demand hhas)
  · exact matches_iff_saysOfText hname (htextless demand hhas) hcase

/-- An instant beside a bound that is a text, and a number; without regard to case. -/
theorem case_flags_keep_rows_instant :
    let flags : CaseFlag → Bool := fun flag => flag = .caseInsensitive
    let dated : OperatorSet :=
      { eq := some (.timestamp ⟨1577836800, 0, .inl (by decide)⟩), gt := some (.text "2019") }
    let counted : Demand := .comparison .notEq (.integer 1979)
    let row : Scope := fun _ => ⟨.integer 1979, some .integer⟩
    (∀ demand, dated.Has demand → demand.Textless ∧ demand.IgnoresCase) ∧
      ((leaf "seen" (dated.withFlags flags)).Matches row ↔
        (leaf "seen" (dated.withFlags fun _ => false)).Matches row) ∧
      (counted.Textless ∧ ¬ counted.IgnoresCase) ∧ (counted.leaf "year" flags).Matches row := by
  intro flags dated counted row
  have hdated : ∀ demand, dated.Has demand → demand.Textless ∧ demand.IgnoresCase := by
    intro demand h
    cases demand with
    | comparison c operand =>
        cases c <;> cases h <;>
          simp [Demand.Textless, Demand.IgnoresCase, Operand.isText, Operand.isTimestamp,
            Operand.text?]
    | pattern p operand => cases p <;> cases h
    | _ => cases h
  have hcounted : ∀ demand, (OperatorSet.ofComparison .notEq (.integer 1979)).Has demand →
      demand.Textless := by
    intro demand h
    cases demand with
    | comparison c operand =>
        cases c <;> cases h
        exact fun _ => rfl
    | pattern p operand => cases p <;> cases h
    | _ => cases h
  have hcase : ¬ counted.IgnoresCase := fun h => by
    simpa [Operand.isTimestamp, Cell.ofOperand] using h (.inr rfl)
  have hseen := @case_flags_keep_rows "seen" (by decide) dated fun demand h => (hdated demand h).1
  have hyear := @case_flags_keep_rows "year" (by decide) _ hcounted
  have hsays : counted.SaysOfText (CaseTransform.lower.cell (.integer 1979)) := by
    intro h
    cases h
  exact ⟨hdated, hseen.1 flags row (.inr fun demand h => (hdated demand h).2),
    ⟨fun _ => rfl, hcase⟩, ((hyear.2.2 counted rfl).2 hcase flags row (by decide)).2 hsays⟩

/-- A number in a column of numbers is found by equality, but not without regard to case; in upper
case the column differs from it; and in lower case it is not in a list of numbers. -/
theorem case_flags_change_numbers :
    let none : CaseFlag → Bool := fun _ => false
    let row : Scope := fun _ => ⟨.integer 1979, some .integer⟩
    let list : Demand := .oneOf [.integer 1979, .integer 1980]
    let equal : Demand := .comparison .eq (.integer 1979)
    let differs : Demand := .comparison .notEq (.integer 1979)
    (equal.Textless ∧ (equal.leaf "year" none).Matches row ∧
      ¬ (equal.leaf "year" fun flag => flag = .caseInsensitive).Matches row) ∧
    (differs.Textless ∧ ¬ (differs.leaf "year" none).Matches row ∧
      (differs.leaf "year" fun flag => flag = .fieldUppercase).Matches row) ∧
    list.Textless ∧ (list.leaf "year" none).Matches row ∧
      ¬ (list.leaf "year" fun flag => flag = .fieldLowercase).Matches row := by
  intro none row list equal differs
  refine ⟨⟨fun _ => rfl, ?_, ?_⟩, ⟨fun _ => rfl, ?_, ?_⟩, ?_, ?_, ?_⟩
  · exact (matches_comparison_iff (by decide)).2 (by decide +kernel)
  · rw [matches_comparison_iff (by decide)]
    decide +kernel
  · rw [matches_comparison_iff (by decide)]
    decide +kernel
  · exact (matches_comparison_iff (by decide)).2 (by decide +kernel)
  · show ∀ operand ∈ [Operand.integer 1979, .integer 1980], operand.isText = false
    decide
  · exact (matches_oneOf_iff_compare (by decide)).2 (by decide +kernel)
  · rw [matches_oneOf_iff_compare (by decide)]
    decide +kernel

end Filter

end TableQuery
