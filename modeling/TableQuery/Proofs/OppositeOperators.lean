import TableQuery.Proofs.SingleOperators

/-!
# Opposite operators

Every operator has an opposite: the condition of one is the negation of the condition of the other,
where what is undecided stays undecided.  Comparisons are written with the opposite sign instead of
a negation, so this rests on the order of values being decided whenever neither of them is null.
Excluding nothing has no condition at all; it is the opposite of being one of nothing, which is
false.

## Main results

* `Comparator.decide_opposite` — the opposite comparison decides the opposite.
* `OperatorSet.exists_atomOf?_opposite` — the condition of the opposite operator is the negation.
* `Filter.opposite_operator_negates` — so is the truth value of the leaf that asks for it.
-/

namespace TableQuery

/-! ## Opposites -/

/-- The comparison that holds exactly where this one does not. -/
def Comparator.opposite : Comparator → Comparator
  | equal => notEqual
  | notEqual => equal
  | less => greaterEqual
  | lessEqual => greater
  | greater => lessEqual
  | greaterEqual => less

/-- The operator that denies a comparison. -/
def Comparison.opposite : Comparison → Comparison
  | eq => notEq
  | notEq => eq
  | gte => notGte
  | notGte => gte
  | gt => notGt
  | notGt => gt
  | lte => notLte
  | notLte => lte
  | lt => notLt
  | notLt => lt

/-- The operator that denies a pattern. -/
def Pattern.opposite : Pattern → Pattern
  | contains => notContains
  | notContains => contains
  | startsWith => notStartsWith
  | notStartsWith => startsWith
  | endsWith => notEndsWith
  | notEndsWith => endsWith

/-- The operator that denies another one, with the same operand. -/
def Demand.opposite : Demand → Demand
  | comparison c operand => comparison c.opposite operand
  | pattern p operand => pattern p.opposite operand
  | oneOf operands => noneOf operands
  | noneOf operands => oneOf operands
  | null => notNull
  | notNull => null

@[simp] theorem Demand.opposite_opposite (demand : Demand) : demand.opposite.opposite = demand := by
  cases demand with
  | comparison c operand => cases c <;> rfl
  | pattern p operand => cases p <;> rfl
  | _ => rfl

/-! ## Conditions -/

theorem Comparator.holds_opposite (comparator : Comparator) (order : Ordering) :
    comparator.opposite.holds order = !comparator.holds order := by
  cases comparator <;> cases order <;> rfl

/-- Two values compare the opposite way exactly if they do not compare so, unless one is null. -/
theorem Comparator.decide_opposite (comparator : Comparator) (left right : Datum) :
    comparator.opposite.decide left right = Truth.not (comparator.decide left right) := by
  rw [Comparator.decide, Comparator.decide, Truth.not, Option.map_map]
  exact congrFun (congrArg Option.map (funext comparator.holds_opposite)) _

theorem Formula.truth_negateIf_not (negated : Bool) (formula : Formula) (scope : Scope) :
    (formula.negateIf !negated).truth scope = Truth.not ((formula.negateIf negated).truth scope) := by
  cases negated with
  | false => rfl
  | true => exact (Truth.not_not _).symm

theorem Atom.truth_null_not (term : Term) (negated : Bool) (scope : Scope) :
    (Atom.null term !negated).truth scope = Truth.not ((Atom.null term negated).truth scope) :=
  Formula.truth_negateIf_not negated _ scope

section Atoms

variable (set : OperatorSet) (column : Identifier) (scope : Scope)

theorem OperatorSet.truth_orderAtom_opposite (comparator : Comparator) (operand : Operand) :
    (orderAtom column comparator.opposite operand).truth scope =
      Truth.not ((orderAtom column comparator operand).truth scope) := by
  unfold orderAtom
  split
  · exact comparator.decide_opposite _ _
  · exact comparator.decide_opposite _ _

theorem OperatorSet.truth_equalityAtom_not (negated : Bool) (operand : Operand) :
    (set.equalityAtom column (!negated) operand).truth scope =
      Truth.not ((set.equalityAtom column negated operand).truth scope) := by
  cases operand with
  | null => exact Atom.truth_null_not _ negated scope
  | timestamp instant =>
      cases negated with
      | false => exact truth_orderAtom_opposite column scope .equal (.timestamp instant)
      | true => exact truth_orderAtom_opposite column scope .notEqual (.timestamp instant)
  | _ =>
      cases negated with
      | false => exact Comparator.decide_opposite .equal _ _
      | true => exact Comparator.decide_opposite .notEqual _ _

theorem OperatorSet.truth_comparisonAtom_opposite (c : Comparison) (operand : Operand) :
    (set.comparisonAtom column c.opposite operand).truth scope =
      Truth.not ((set.comparisonAtom column c operand).truth scope) := by
  have horder := fun comparator => truth_orderAtom_opposite column scope comparator operand
  have hequality := fun negated => set.truth_equalityAtom_not column scope negated operand
  cases c with
  | eq => exact hequality false
  | notEq => exact hequality true
  | gte => exact horder .greaterEqual
  | notGte => exact horder .less
  | gt => exact horder .greater
  | notGt => exact horder .lessEqual
  | lte => exact horder .lessEqual
  | notLte => exact horder .greater
  | lt => exact horder .less
  | notLt => exact horder .greaterEqual

theorem OperatorSet.truth_likeAtom_opposite (p : Pattern) (text : String) :
    (set.likeAtom column p.opposite text).truth scope =
      Truth.not ((set.likeAtom column p text).truth scope) := by
  have hnegated : p.opposite.isNegated = !p.isNegated := by cases p <;> rfl
  have htext : p.opposite.apply text = p.apply text := by cases p <;> rfl
  rw [likeAtom, hnegated, htext]
  exact Formula.truth_negateIf_not _ _ scope

theorem OperatorSet.truth_memberAtom?_not (negated : Bool) (operands : List Operand) :
    Atom.truthOf? scope (set.memberAtom? column (!negated) operands) =
      Truth.not (Atom.truthOf? scope (set.memberAtom? column negated operands)) := by
  unfold memberAtom?
  split
  · cases negated <;> rfl
  · split
    · exact Formula.truth_negateIf_not negated _ scope
    · exact Formula.truth_negateIf_not negated _ scope

/-- The condition of the opposite operator is the negation of the condition of an operator. -/
theorem OperatorSet.exists_atomOf?_opposite {demand : Demand} {a? : Option Atom}
    (h : set.atomOf? column demand = .ok a?) :
    ∃ b?, set.atomOf? column demand.opposite = .ok b? ∧
      Atom.truthOf? scope b? = Truth.not (Atom.truthOf? scope a?) := by
  cases demand with
  | comparison c operand =>
      obtain rfl := Except.ok.inj h
      exact ⟨_, rfl, set.truth_comparisonAtom_opposite column scope c operand⟩
  | pattern p operand =>
      obtain ⟨a, ha, rfl⟩ := Checked.map_eq_ok_iff.1 h
      obtain ⟨text, rfl, rfl⟩ := patternAtom_eq_ok_iff.1 ha
      exact ⟨_, rfl, set.truth_likeAtom_opposite column scope p text⟩
  | oneOf operands =>
      obtain rfl := Except.ok.inj h
      exact ⟨_, rfl, set.truth_memberAtom?_not column scope false operands⟩
  | noneOf operands =>
      obtain rfl := Except.ok.inj h
      exact ⟨_, rfl, set.truth_memberAtom?_not column scope true operands⟩
  | null =>
      obtain rfl := Except.ok.inj h
      exact ⟨_, rfl, Atom.truth_null_not _ false scope⟩
  | notNull =>
      obtain rfl := Except.ok.inj h
      exact ⟨_, rfl, Atom.truth_null_not _ true scope⟩

end Atoms

/-! ## Leaves -/

namespace Filter

variable {name : String} {demand : Demand} {flags : CaseFlag → Bool} {scope : Scope} {t : Truth}

theorem Evaluates.opposite (h : (demand.leaf name flags).Evaluates scope t) :
    (demand.opposite.leaf name flags).Evaluates scope (Truth.not t) := by
  obtain ⟨column, a?, hcolumn, ha?, rfl⟩ := evaluates_demand_iff.1 h
  obtain ⟨b?, hb?, htruth⟩ :=
    (OperatorSet.ofFlags flags).exists_atomOf?_opposite column scope ha?
  exact evaluates_demand_iff.2 ⟨column, b?, hcolumn, hb?, htruth.symm⟩

/-- The opposite operator has the opposite truth value. -/
theorem evaluates_opposite_iff :
    (demand.opposite.leaf name flags).Evaluates scope t ↔
      (demand.leaf name flags).Evaluates scope (Truth.not t) := by
  constructor
  · intro h
    have := h.opposite
    rwa [Demand.opposite_opposite] at this
  · intro h
    have := h.opposite
    rwa [Truth.not_not] at this

/-- The leaf of the opposite operator compiles exactly if that of the operator does, which is so if
the column is an identifier and the operand of a pattern is a text.  Then the truth value of one is
the negation of that of the other in every row: no row is matched by both, and a row that is matched
by neither is one where both are undecided. -/
theorem opposite_operator_negates (name : String) (demand : Demand) (flags : CaseFlag → Bool) :
    ((demand.leaf name flags).Compiles ↔ isIdentifier name.toList = true ∧
      ∀ p operand, demand = .pattern p operand → ∃ text, operand = .text text) ∧
    ((demand.opposite.leaf name flags).Compiles ↔ (demand.leaf name flags).Compiles) ∧
    ∀ scope,
      (∀ t, (demand.opposite.leaf name flags).Evaluates scope t ↔
        (demand.leaf name flags).Evaluates scope (Truth.not t)) ∧
      ¬ ((demand.leaf name flags).Matches scope ∧
        (demand.opposite.leaf name flags).Matches scope) ∧
      ((demand.leaf name flags).Compiles → ¬ (demand.leaf name flags).Matches scope →
        ¬ (demand.opposite.leaf name flags).Matches scope →
        (demand.leaf name flags).Evaluates scope none ∧
          (demand.opposite.leaf name flags).Evaluates scope none) := by
  refine ⟨compiles_demand_iff, ?_, fun scope => ⟨fun t => evaluates_opposite_iff, ?_, ?_⟩⟩
  · have hrow : Scope := fun _ => ⟨.null, none⟩
    rw [compiles_iff_evaluates hrow, compiles_iff_evaluates hrow]
    simp only [evaluates_opposite_iff]
    exact ⟨fun ⟨t, h⟩ => ⟨_, h⟩, fun ⟨t, h⟩ => ⟨Truth.not t, by rwa [Truth.not_not]⟩⟩
  · rintro ⟨h, hopposite⟩
    rw [matches_iff_evaluates] at h hopposite
    cases h.unique (evaluates_opposite_iff.1 hopposite)
  · intro hcompiles h hopposite
    rw [matches_iff_evaluates] at h hopposite
    rw [evaluates_opposite_iff] at hopposite ⊢
    obtain ⟨t, ht⟩ := (compiles_iff_evaluates scope).1 hcompiles
    match t with
    | none => exact ⟨ht, ht⟩
    | some true => exact absurd ht h
    | some false => exact absurd ht hopposite

/-- Neither more than 5 nor not more than 5: a row without a value. -/
theorem opposite_operator_negates_missing_value :
    let demand : Demand := .comparison .gt (.integer 5)
    let flags : CaseFlag → Bool := fun _ => true
    let row : Scope := fun _ => { cell := .null }
    (demand.leaf "year" flags).Compiles ∧ ¬ (demand.leaf "year" flags).Matches row ∧
      ¬ (demand.opposite.leaf "year" flags).Matches row ∧
      (demand.leaf "year" flags).Evaluates row none ∧
      (demand.opposite.leaf "year" flags).Evaluates row none := by
  intro demand flags row
  obtain ⟨hcompiles, -, hrow⟩ := opposite_operator_negates "year" demand flags
  have hundecided : (demand.leaf "year" flags).Evaluates row none :=
    evaluates_demand_iff.2 ⟨_, _, Identifier.check_of_valid (by decide), rfl, rfl⟩
  have hmatches : ¬ (demand.leaf "year" flags).Matches row := by
    rw [matches_iff_evaluates]
    exact fun htrue => nomatch hundecided.unique htrue
  have hopposite : ¬ (demand.opposite.leaf "year" flags).Matches row := by
    rw [matches_iff_evaluates]
    exact fun htrue => nomatch hundecided.unique (evaluates_opposite_iff.1 htrue)
  have hcompiles := hcompiles.2 ⟨by decide, fun p operand h => nomatch h⟩
  exact ⟨hcompiles, hmatches, hopposite, (hrow row).2.2 hcompiles hmatches hopposite⟩

end Filter

end TableQuery
