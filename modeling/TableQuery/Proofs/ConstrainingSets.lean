import TableQuery.Proofs.DateSpelling
import TableQuery.Proofs.Placeholders
import TableQuery.Proofs.SingleOperators

/-!
# Operator sets that constrain their column

Whether a set of operators asks for anything is told in two ways: it is not empty, or it compiles to
a condition.  They differ in one case only, a list of excluded values that excludes none, which is
an operator without a condition.  How many values the condition binds can be told beforehand as
well, operator by operator, since only equality with null and null checks compare with nothing.

Operators are gone through in a fixed order in each of these places, comparisons, patterns, lists
and null checks.  So each fact is shown for one operator and carried over to the list of all.

## Main results

* `OperatorSet.isEmpty_withoutVoidList` — emptiness and compiled conditions.
* `OperatorSet.length_values_atoms` — how many values the conditions of a set bind.
* `ValueOperators.Corresponds.isEmpty_eq`, `operandCount_eq` — sets with the same operators.
* `emptiness_tells_constraint` — all of this together.
-/

namespace TableQuery

/-! ## Emptiness -/

namespace ValueOperators

/-- The set in which a list of excluded values counts as absent if it excludes none. -/
def withoutVoidList (set : ValueOperators) : ValueOperators :=
  { set with noneOf := set.noneOf.filter fun operands => !operands.isEmpty }

theorem isEmpty_iff {set : ValueOperators} :
    set.isEmpty = true ↔ (∀ c, set.comparison c = none) ∧ set.oneOf = none ∧ set.noneOf = none ∧
      set.isNull = false ∧ set.isNotNull = false := by
  simp only [isEmpty, Bool.and_eq_true, List.all_eq_true, Option.isNone_iff_eq_none,
    Bool.not_eq_true', and_assoc, Comparison.mem_all, true_implies]

end ValueOperators

namespace OperatorSet

/-- The set in which a list of excluded values counts as absent if it excludes none. -/
def withoutVoidList (set : OperatorSet) : OperatorSet :=
  { set with toValueOperators := set.toValueOperators.withoutVoidList }

theorem pattern_withoutVoidList (set : OperatorSet) (p : Pattern) :
    set.withoutVoidList.pattern p = set.pattern p := by
  cases p <;> rfl

theorem isEmpty_iff {set : OperatorSet} :
    set.isEmpty = true ↔
      set.toValueOperators.isEmpty = true ∧ ∀ p, set.pattern p = none := by
  simp only [isEmpty, Bool.and_eq_true, List.all_eq_true, Option.isNone_iff_eq_none,
    Pattern.mem_all, true_implies]

theorem constrains_eq_false_iff {set : OperatorSet} :
    set.constrains = false ↔ (∀ c, set.comparison c = none) ∧ (∀ p, set.pattern p = none) ∧
      set.oneOf = none ∧ (∀ operands, set.noneOf = some operands → operands = []) ∧
      set.isNull = false ∧ set.isNotNull = false := by
  simp only [constrains, Bool.or_eq_false_iff, List.any_eq_false, Bool.not_eq_true,
    Option.isSome_eq_false_iff, Option.isNone_iff_eq_none, and_assoc, Comparison.mem_all,
    Pattern.mem_all, true_implies, Option.any_eq_false, Bool.not_eq_false', List.isEmpty_iff]

/-- A set constrains nothing exactly if it is empty but for a list that excludes nothing. -/
theorem isEmpty_withoutVoidList {set : OperatorSet} :
    set.withoutVoidList.isEmpty = true ↔ set.constrains = false := by
  have hcomparison : ∀ c, set.withoutVoidList.comparison c = set.comparison c := fun c => by
    cases c <;> rfl
  have hnoneOf : set.withoutVoidList.noneOf = none ↔
      ∀ operands, set.noneOf = some operands → operands = [] := by
    show set.noneOf.filter _ = none ↔ _
    simp only [Option.filter_eq_none_iff, Bool.not_eq_true', Bool.not_eq_false, List.isEmpty_iff]
  rw [isEmpty_iff, ValueOperators.isEmpty_iff, constrains_eq_false_iff]
  simp only [hcomparison, pattern_withoutVoidList, hnoneOf]
  show ((_ ∧ set.oneOf = none ∧ _ ∧ set.isNull = false ∧ set.isNotNull = false) ∧ _) ↔ _
  tauto

end OperatorSet

/-! ## Values -/

namespace Comparison

/-- The comparisons that ask for equality, or for none. -/
def equalities : List Comparison := [eq, notEq]

/-- The comparisons that ask for an order. -/
def orders : List Comparison := [gte, notGte, gt, notGt, lte, notLte, lt, notLt]

/-- Whether a comparison with an operand binds it; equality with null is a null check. -/
def binds (c : Comparison) (operand : Operand) : Bool :=
  match c with
  | eq | notEq => operand ≠ .null
  | _ => true

end Comparison

/-- The number of operands of a set that are bound: those of equalities if they are not null, those
of other comparisons, and the elements of both lists. -/
def ValueOperators.operandCount (set : ValueOperators) : Nat :=
  (Comparison.equalities.countP fun c => (set.comparison c).any fun operand => operand ≠ .null) +
    (Comparison.orders.countP fun c => (set.comparison c).isSome) +
    ((set.oneOf.getD []).length + (set.noneOf.getD []).length)

namespace OperatorSet

variable {set : OperatorSet} {column : Identifier}

/-- The number of operands of a set that are bound, with those of its patterns. -/
def operandCount (set : OperatorSet) : Nat :=
  set.toValueOperators.operandCount + Pattern.all.countP fun p => (set.pattern p).isSome

/-- Of conditions that bind one value or none each, as many values are bound as there are conditions
that bind one. -/
theorem length_values_filterMap {α : Type} {atomOf? : α → Option Atom} {binds : α → Bool}
    {xs : List α}
    (h : ∀ x ∈ xs, ((atomOf? x).toList.flatMap Atom.values).length = if binds x then 1 else 0) :
    ((xs.filterMap atomOf?).flatMap Atom.values).length = xs.countP binds := by
  induction xs with
  | nil => rfl
  | cons x xs ih =>
      obtain ⟨hx, hxs⟩ := List.forall_mem_cons.1 h
      rw [List.filterMap_cons, List.countP_cons, ← ih hxs, ← hx]
      cases atomOf? x with
      | none => rfl
      | some a =>
          rw [List.flatMap_cons, List.length_append, Option.toList_some, List.flatMap_singleton,
            Nat.add_comm]

theorem length_values_comparisonAtom (c : Comparison) (operand : Operand) :
    (set.comparisonAtom column c operand).values.length = if c.binds operand then 1 else 0 := by
  cases c <;> cases operand <;> rfl

theorem length_values_comparisonAtoms :
    ((set.comparisonAtoms column).flatMap Atom.values).length =
      (Comparison.equalities.countP fun c => (set.comparison c).any fun operand =>
          operand ≠ .null) +
        Comparison.orders.countP fun c => (set.comparison c).isSome := by
  have hbinds : ∀ c ∈ Comparison.equalities ++ Comparison.orders,
      (((set.comparison c).map (set.comparisonAtom column c)).toList.flatMap Atom.values).length =
        if (set.comparison c).any c.binds then 1 else 0 := by
    intro c _
    cases set.comparison c with
    | none => rfl
    | some operand =>
        rw [Option.map_some, Option.toList_some, List.flatMap_singleton,
          length_values_comparisonAtom, Option.any_some]
  have horders : ∀ c ∈ Comparison.orders,
      (set.comparison c).any c.binds = true ↔ (set.comparison c).isSome = true := by
    intro c hc
    have htrue : c.binds = fun _ => true := by
      cases c with
      | eq | notEq => exact absurd hc (by decide)
      | gte | notGte | gt | notGt | lte | notLte | lt | notLt => rfl
    rw [htrue]
    cases set.comparison c <;> simp
  show ((List.filterMap _ (Comparison.equalities ++ Comparison.orders)).flatMap _).length = _
  rw [length_values_filterMap hbinds, List.countP_append, List.countP_congr horders]
  rfl

theorem length_values_patternAtoms
    (htext : ∀ p operand, set.pattern p = some operand → ∃ text, operand = .text text) :
    ((set.patternAtoms column).flatMap Atom.values).length =
      Pattern.all.countP fun p => (set.pattern p).isSome := by
  refine length_values_filterMap fun p _ => ?_
  cases hp : set.pattern p with
  | none => rfl
  | some operand =>
      obtain ⟨text, rfl⟩ := htext p operand hp
      rfl

/-- A list operator binds the elements of its list. -/
theorem values_memberAtom? (negated : Bool) (operands : List Operand) :
    (set.memberAtom? column negated operands).toList.flatMap Atom.values = operands := by
  unfold memberAtom?
  cases operands with
  | nil => cases negated <;> rfl
  | cons operand operands =>
      rw [if_neg (by simp)]
      split
      · rw [Option.toList_some, List.flatMap_singleton, Atom.values, List.map_map]
        exact List.map_id _
      · rw [Option.toList_some, List.flatMap_singleton, Atom.values, List.map_map]
        exact List.map_id _

theorem length_values_memberAtoms :
    ((set.memberAtoms column).flatMap Atom.values).length =
      (set.oneOf.getD []).length + (set.noneOf.getD []).length := by
  have hmember : ∀ negated (operands? : Option (List Operand)),
      (operands?.bind (set.memberAtom? column negated)).toList.flatMap Atom.values =
        operands?.getD [] := by
    intro negated operands?
    cases operands? with
    | none => rfl
    | some operands => exact values_memberAtom? negated operands
  rw [memberAtoms, List.flatMap_append, List.length_append, hmember, hmember]

theorem values_nullAtoms : (set.nullAtoms column).flatMap Atom.values = [] := by
  rw [nullAtoms]
  cases set.isNull <;> cases set.isNotNull <;> rfl

/-- The conditions of a set bind as many values as the set counts. -/
theorem length_values_atoms {atoms : List Atom} (h : set.atoms column = .ok atoms) :
    (atoms.flatMap Atom.values).length = set.operandCount := by
  obtain ⟨htext, rfl⟩ := atoms_eq_ok_iff.1 h
  rw [List.flatMap_append, List.flatMap_append, List.flatMap_append, values_nullAtoms,
    List.append_nil, List.length_append, List.length_append, length_values_comparisonAtoms,
    length_values_patternAtoms htext, length_values_memberAtoms, operandCount,
    ValueOperators.operandCount, Nat.add_right_comm]

end OperatorSet

/-! ## Sets with the same operators -/

namespace ValueOperators.Corresponds

variable {R : String → Operand → Operand → Prop} {set other : ValueOperators}

theorem eq_none_iff_of_rel {α β : Type} {r : α → β → Prop} {a? : Option α} {b? : Option β}
    (h : Option.Rel r a? b?) : b? = none ↔ a? = none := by
  cases h <;> simp

theorem isEmpty_eq (h : set.Corresponds R other) : other.isEmpty = set.isEmpty := by
  have hcomparison : ∀ c, other.comparison c = none ↔ set.comparison c = none := fun c =>
    eq_none_iff_of_rel (h.comparison c)
  rw [Bool.eq_iff_iff, isEmpty_iff, isEmpty_iff]
  simp only [hcomparison, eq_none_iff_of_rel h.oneOf, eq_none_iff_of_rel h.noneOf, h.isNull,
    h.isNotNull]

/-- Sets with the same operators bind as many operands, if null corresponds to null. -/
theorem operandCount_eq (h : set.Corresponds R other)
    (hnull : ∀ operator a b, R operator a b → (b = .null ↔ a = .null)) :
    other.operandCount = set.operandCount := by
  have hany : ∀ {operator : String} {a? b? : Option Operand}, Option.Rel (R operator) a? b? →
      (b?.any fun operand => operand ≠ .null) = a?.any fun operand => operand ≠ .null := by
    rintro operator _ _ (hab | _)
    · simp [hnull _ _ _ hab]
    · rfl
  have hequality : ∀ c ∈ Comparison.equalities,
      ((other.comparison c).any fun operand => operand ≠ .null) = true ↔
        ((set.comparison c).any fun operand => operand ≠ .null) = true := fun c _ => by
    rw [hany (h.comparison c)]
  have horder : ∀ c ∈ Comparison.orders,
      (other.comparison c).isSome = true ↔ (set.comparison c).isSome = true := by
    intro c _
    rw [Option.isSome_iff_ne_none, Option.isSome_iff_ne_none, ne_eq,
      eq_none_iff_of_rel (h.comparison c)]
  have hlength : ∀ {operator : String} {as? bs? : Option (List Operand)},
      Option.Rel (List.Forall₂ (R operator)) as? bs? →
        (bs?.getD []).length = (as?.getD []).length := by
    rintro operator _ _ (hall | _)
    · exact hall.length_eq.symm
    · rfl
  rw [operandCount, List.countP_congr hequality, List.countP_congr horder, hlength h.oneOf,
    hlength h.noneOf, operandCount]

/-- A list that excludes nothing corresponds to one that excludes nothing. -/
theorem withoutVoidList (h : set.Corresponds R other) :
    set.withoutVoidList.Corresponds R other.withoutVoidList := by
  refine ⟨fun c => ?_, h.oneOf, ?_, h.isNull, h.isNotNull⟩
  · cases c <;> exact h.comparison _
  · have hlist : ∀ {as? bs? : Option (List Operand)},
        Option.Rel (List.Forall₂ (R "notIn")) as? bs? →
          Option.Rel (List.Forall₂ (R "notIn")) (as?.filter fun operands => !operands.isEmpty)
            (bs?.filter fun operands => !operands.isEmpty) := by
      rintro _ _ (hall | _)
      · cases hall with
        | nil => exact .none
        | cons hab hrest => exact .some (.cons hab hrest)
      · exact .none
    exact hlist h.noneOf

end ValueOperators.Corresponds

/-! ## Compiled leaves -/

/-- `ConstrainsAs result empty count` holds if there is no condition exactly if `empty` is true, and
what there is has `count` placeholders. -/
structure ConstrainsAs (result : Option Condition) (empty : Bool) (count : Nat) : Prop where
  none_iff : result = none ↔ empty = true
  placeholders : (result.elim "" Condition.sql).toList.count '?' = count

theorem ConstrainsAs.exists_eq_some {result : Option Condition} {empty : Bool} {count : Nat}
    (h : ConstrainsAs result empty count) (hempty : empty = false) : ∃ c, result = some c := by
  rw [← Option.ne_none_iff_exists']
  intro hnone
  rw [h.none_iff.1 hnone] at hempty
  cases hempty

namespace OperatorSet

variable {set : OperatorSet}

/-- A leaf of a valid column whose patterns are texts compiles. -/
theorem exists_condition? {column : String} (hcolumn : isIdentifier column.toList = true)
    (htext : ∀ p operand, set.pattern p = some operand → ∃ text, operand = .text text) :
    ∃ result, (Filter.leaf column set).condition? = .ok result ∧
      ConstrainsAs result set.withoutVoidList.isEmpty set.operandCount := by
  obtain ⟨atoms, hatoms⟩ : ∃ atoms, set.atoms ⟨column, hcolumn⟩ = .ok atoms :=
    ⟨_, atoms_eq_ok_iff.2 ⟨htext, rfl⟩⟩
  have hcondition : (Filter.leaf column set).condition? =
      .ok (Condition.join? .all (atoms.map Condition.atom)) :=
    Filter.condition?_leaf_eq_ok_iff.2
      ⟨_, _, Identifier.check_of_valid hcolumn, hatoms, rfl⟩
  have hvalues : (Condition.join? .all (atoms.map Condition.atom)).elim [] Condition.values =
      atoms.flatMap Atom.values := by
    cases hjoin : Condition.join? .all (atoms.map Condition.atom) with
    | none =>
        rw [Condition.join?_eq_none_iff, List.map_eq_nil_iff] at hjoin
        rw [hjoin]
        rfl
    | some condition =>
        rw [Option.elim_some, Condition.values_of_join? hjoin, List.flatMap_map]
        rfl
  refine ⟨_, hcondition, ?_, ?_⟩
  · rw [Condition.join?_eq_none_iff, List.map_eq_nil_iff, atoms_eq_nil_iff hatoms,
      isEmpty_withoutVoidList]
  · rw [Filter.count_placeholder hcondition, hvalues, length_values_atoms hatoms]

/-! ## Case flags -/

theorem pattern_withFlags (set : OperatorSet) (flags : CaseFlag → Bool) :
    (set.withFlags flags).pattern = set.pattern := by
  funext p
  cases p <;> rfl

theorem isEmpty_withFlags (set : OperatorSet) (flags : CaseFlag → Bool) :
    (set.withFlags flags).isEmpty = set.isEmpty := by
  rw [isEmpty, isEmpty, pattern_withFlags]
  rfl

theorem operandCount_withFlags (set : OperatorSet) (flags : CaseFlag → Bool) :
    (set.withFlags flags).operandCount = set.operandCount := by
  rw [operandCount, operandCount, pattern_withFlags]
  rfl

/-! ## Sets without patterns -/

theorem isEmpty_of_pattern (h : ∀ p, set.pattern p = none) :
    set.isEmpty = set.toValueOperators.isEmpty := by
  rw [Bool.eq_iff_iff, isEmpty_iff]
  exact and_iff_left h

theorem operandCount_of_pattern (h : ∀ p, set.pattern p = none) :
    set.operandCount = set.toValueOperators.operandCount := by
  rw [operandCount, funext h]
  rfl

end OperatorSet

/-- A set that is converted compiles to a condition exactly if it has operators, apart from a list
that excludes nothing, and the condition has a placeholder for each of its operands. -/
theorem DateOperatorSet.exists_leafCondition? {set : DateOperatorSet} {operators : OperatorSet}
    {column : String} (h : set.toGeneric = .ok operators)
    (hcolumn : isIdentifier column.toList = true) :
    ∃ result, set.leafCondition? column = .ok result ∧
      ConstrainsAs result set.withoutVoidList.isEmpty set.operandCount := by
  obtain ⟨hoperators, hpattern, -⟩ := toGeneric_eq_ok_iff.1 h
  have htext : ∀ p operand, operators.pattern p = some operand → ∃ text, operand = .text text := by
    intro p operand hp
    rw [hpattern p] at hp
    cases hp
  have hempty : operators.withoutVoidList.isEmpty = set.withoutVoidList.isEmpty := by
    rw [OperatorSet.isEmpty_of_pattern fun p =>
      (operators.pattern_withoutVoidList p).trans (hpattern p)]
    exact hoperators.withoutVoidList.isEmpty_eq
  have hcount : operators.operandCount = set.operandCount := by
    rw [OperatorSet.operandCount_of_pattern hpattern]
    -- What is converted holds an instant, which null does not.
    refine hoperators.operandCount_eq ?_
    rintro _ operand _ ⟨instant, hinstant, rfl⟩
    refine iff_of_false (fun h => ?_) ?_
    · cases h
    · rintro rfl
      cases hinstant
  obtain ⟨result, hresult, hconstrains⟩ := OperatorSet.exists_condition? hcolumn htext
  rw [hempty, hcount] at hconstrains
  refine ⟨result, ?_, hconstrains⟩
  rw [leafCondition?, h]
  exact hresult

/-- An operator set whose patterns are texts has no condition on a valid column exactly if it is
empty, where a list that excludes nothing counts as absent; its condition has a placeholder for each
operand but null in an equality.  Case flags make no difference to any of this.  A date operator set
that is converted is empty exactly if the result is, and has as many placeholders as it has
operands. -/
theorem emptiness_tells_constraint :
    (∀ (set : OperatorSet) (column : String), isIdentifier column.toList = true →
      (∀ p operand, set.pattern p = some operand → ∃ text, operand = .text text) →
      (∃ result, (Filter.leaf column set).condition? = .ok result ∧
        ConstrainsAs result set.withoutVoidList.isEmpty set.operandCount) ∧
      ∀ flags, (set.withFlags flags).isEmpty = set.isEmpty ∧
        ∃ result, (Filter.leaf column (set.withFlags flags)).condition? = .ok result ∧
          ConstrainsAs result set.withoutVoidList.isEmpty set.operandCount) ∧
    ∀ (set : DateOperatorSet) (operators : OperatorSet), set.toGeneric = .ok operators →
      operators.isEmpty = set.isEmpty ∧
      ∀ column : String, isIdentifier column.toList = true →
        ∃ result, set.leafCondition? column = .ok result ∧
          ConstrainsAs result set.withoutVoidList.isEmpty set.operandCount := by
  refine ⟨fun set column hcolumn htext => ⟨OperatorSet.exists_condition? hcolumn htext,
    fun flags => ⟨set.isEmpty_withFlags flags, ?_⟩⟩, fun set operators h => ⟨?_, fun column hcolumn =>
      DateOperatorSet.exists_leafCondition? h hcolumn⟩⟩
  · rw [← set.operandCount_withFlags flags, ← set.withoutVoidList.isEmpty_withFlags flags]
    refine OperatorSet.exists_condition? hcolumn fun p operand hp => htext p operand ?_
    rwa [OperatorSet.pattern_withFlags] at hp
  · obtain ⟨hoperators, hpattern, -⟩ := DateOperatorSet.toGeneric_eq_ok_iff.1 h
    rw [OperatorSet.isEmpty_of_pattern hpattern]
    exact hoperators.isEmpty_eq

/-- A set that excludes nothing is not empty and asks for nothing.  One that asks for null, for an
order against null, for a text with the sign of a placeholder in it and for one of two values has
four placeholders, whatever the case flags.  Dates with one instant and an empty list have one. -/
theorem emptiness_tells_constraint_void_list :
    let excluding : OperatorSet := { noneOf := some [] }
    let asking : OperatorSet :=
      { eq := some .null, gte := some .null, contains := some (.text "what?"),
        oneOf := some [.integer 1, .null], noneOf := some [] }
    let dates : DateOperatorSet :=
      { notEq := some (.text "2020-01-01T01:00:00+01:00"), oneOf := some [] }
    let instants : OperatorSet :=
      { notEq := some (.timestamp ⟨1577836800, 0, .inl (by decide)⟩), oneOf := some [] }
    isIdentifier "f.title".toList = true ∧
      (∀ p operand, excluding.pattern p = some operand → ∃ text, operand = .text text) ∧
      (∀ p operand, asking.pattern p = some operand → ∃ text, operand = .text text) ∧
      excluding.isEmpty = false ∧ (Filter.leaf "f.title" excluding).condition? = .ok none ∧
      (∀ flags, ∃ c, (Filter.leaf "f.title" (asking.withFlags flags)).condition? = .ok (some c) ∧
        c.sql.toList.count '?' = 4) ∧
      dates.toGeneric = .ok instants ∧ instants.isEmpty = dates.isEmpty ∧
        ∃ c, dates.leafCondition? "f.title" = .ok (some c) ∧ c.sql.toList.count '?' = 1 := by
  intro excluding asking dates instants
  have hcolumn : isIdentifier "f.title".toList = true := by decide
  have hexcluding : ∀ p operand, excluding.pattern p = some operand →
      ∃ text, operand = .text text := fun p operand h => by cases p <;> cases h
  have hasking : ∀ p operand, asking.pattern p = some operand → ∃ text, operand = .text text :=
    fun p operand h => by
      cases p <;> cases h
      exact ⟨"what?", rfl⟩
  have hinstants : dates.toGeneric = .ok instants := by decide +kernel
  obtain ⟨hsets, hdates⟩ := emptiness_tells_constraint
  obtain ⟨hempty, hleaf⟩ := hdates dates instants hinstants
  refine ⟨hcolumn, hexcluding, hasking, by decide, ?_, fun flags => ?_, hinstants, hempty, ?_⟩
  · obtain ⟨⟨result, hresult, hconstrains⟩, -⟩ := hsets excluding "f.title" hcolumn hexcluding
    rw [hresult, hconstrains.none_iff.2 (by decide)]
  · obtain ⟨-, hflags⟩ := hsets asking "f.title" hcolumn hasking
    obtain ⟨-, result, hresult, hconstrains⟩ := hflags flags
    obtain ⟨c, rfl⟩ := hconstrains.exists_eq_some (by decide)
    exact ⟨c, hresult, hconstrains.placeholders⟩
  · obtain ⟨result, hresult, hconstrains⟩ := hleaf "f.title" hcolumn
    obtain ⟨c, rfl⟩ := hconstrains.exists_eq_some (by decide)
    exact ⟨c, hresult, hconstrains.placeholders⟩

end TableQuery
