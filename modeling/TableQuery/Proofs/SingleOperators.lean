import TableQuery.Proofs.ListOperators

/-!
# One operator at a time

What a leaf says is the conjunction of what its operators say, so most facts about operators are
facts about leaves of one operator.  Such a leaf is given by the operator with its operand and by
the case flags beside it.  It compiles to at most one atomic condition, and where it compiles to
none, every row meets it.

## Main definitions

* `Demand`: an operator with its operand.
* `Demand.set`, `Demand.leaf`: the set and the leaf that hold nothing else.
* `OperatorSet.Has`, `OperatorSet.withFlags`: what is present in a set; its case flags.
* `Filter.Evaluates`: the truth value of a filter in a row.

## Main results

* `Filter.matches_leaf_iff_forall` — a leaf matches a row exactly if each operator of it does.
* `Filter.evaluates_demand_iff` — the truth value of a leaf of one operator.
-/

namespace TableQuery

/-! ## Operators with their operands -/

/-- An operator with its operand. -/
inductive Demand where
  | comparison (c : Comparison) (operand : Operand)
  | pattern (p : Pattern) (operand : Operand)
  | oneOf (operands : List Operand)
  | noneOf (operands : List Operand)
  | null
  | notNull

namespace OperatorSet

/-- `set.Has demand` holds if the operator is present in the set, with this operand. -/
def Has (set : OperatorSet) : Demand → Prop
  | .comparison c operand => set.comparison c = some operand
  | .pattern p operand => set.pattern p = some operand
  | .oneOf operands => set.oneOf = some operands
  | .noneOf operands => set.noneOf = some operands
  | .null => set.isNull = true
  | .notNull => set.isNotNull = true

/-- The set with these case flags in place of its own. -/
def withFlags (set : OperatorSet) (flags : CaseFlag → Bool) : OperatorSet :=
  { set with
    fieldUppercase := flags .fieldUppercase
    fieldLowercase := flags .fieldLowercase
    valueUppercase := flags .valueUppercase
    valueLowercase := flags .valueLowercase
    caseInsensitive := flags .caseInsensitive }

/-- The set of these case flags and no operator. -/
def ofFlags (flags : CaseFlag → Bool) : OperatorSet := withFlags {} flags

@[simp] theorem flag_withFlags (set : OperatorSet) (flags : CaseFlag → Bool) :
    (set.withFlags flags).flag = flags := by
  funext flag
  cases flag <;> rfl

@[simp] theorem has_withFlags (set : OperatorSet) (flags : CaseFlag → Bool) (demand : Demand) :
    (set.withFlags flags).Has demand ↔ set.Has demand := by
  cases demand with
  | pattern p operand => cases p <;> rfl
  | _ => rfl

/-- The condition that an operator asks of a column with the case flags of a set, if any. -/
def atomOf? (set : OperatorSet) (column : Identifier) : Demand → Except QueryError (Option Atom)
  | .comparison c operand => .ok (some (set.comparisonAtom column c operand))
  | .pattern p operand => (set.patternAtom column p operand).map some
  | .oneOf operands => .ok (set.memberAtom? column false operands)
  | .noneOf operands => .ok (set.memberAtom? column true operands)
  | .null => .ok (some (.null ⟨column, .plain⟩ false))
  | .notNull => .ok (some (.null ⟨column, .plain⟩ true))

end OperatorSet

/-- The set of one operator, with these case flags. -/
def Demand.set (demand : Demand) (flags : CaseFlag → Bool) : OperatorSet :=
  OperatorSet.withFlags
    (match demand with
      | comparison c operand => .ofComparison c operand
      | pattern p operand => .ofPattern p operand
      | oneOf operands => .ofOneOf operands
      | noneOf operands => .ofNoneOf operands
      | null => .ofNull
      | notNull => .ofNotNull)
    flags

@[simp] theorem Demand.flag_set (demand : Demand) (flags : CaseFlag → Bool) :
    (demand.set flags).flag = flags :=
  OperatorSet.flag_withFlags _ _

/-- The leaf of one operator, with these case flags. -/
def Demand.leaf (demand : Demand) (name : String) (flags : CaseFlag → Bool) : Filter :=
  .leaf name (demand.set flags)

/-! ## Conditions of an operator -/

namespace OperatorSet

variable {set : OperatorSet} {column : Identifier} {demand : Demand} {flags : CaseFlag → Bool}

/-- Of a set, only its case flags count for the condition of an operator. -/
theorem atomOf?_eq_of_flag_eq {other : OperatorSet} (h : set.flag = other.flag) :
    set.atomOf? column demand = other.atomOf? column demand := by
  have hflag : ∀ f, set.flag f = other.flag f := congrFun h
  have hfield : set.fieldCase = other.fieldCase := by
    show CaseTransform.ofFlags (set.flag .fieldLowercase || set.flag .caseInsensitive)
      (set.flag .fieldUppercase) = _
    simp only [hflag]
    rfl
  have hvalue : set.valueCase = other.valueCase := by
    show CaseTransform.ofFlags (set.flag .valueLowercase || set.flag .caseInsensitive)
      (set.flag .valueUppercase) = _
    simp only [hflag]
    rfl
  have hterm : set.term column = other.term column := by rw [term, hfield, term]
  have hbound : set.bound = other.bound := by
    funext operand
    rw [bound, hvalue, bound]
  cases demand with
  | comparison c operand =>
      cases c <;> simp only [atomOf?, comparisonAtom, equalityAtom, hterm, hbound]
  | pattern p operand => simp only [atomOf?, patternAtom, hterm, hvalue]
  | oneOf operands => simp only [atomOf?, memberAtom?, hterm, hbound]
  | noneOf operands => simp only [atomOf?, memberAtom?, hterm, hbound]
  | null => rfl
  | notNull => rfl

/-- An operator asks for a condition exactly if it is present and this is its condition. -/
theorem asks_iff {a : Atom} :
    set.Asks column a ↔ ∃ demand, set.Has demand ∧ set.atomOf? column demand = .ok (some a) := by
  constructor
  · rintro (⟨c, operand, h⟩ | ⟨p, text, h⟩ | ⟨operands, a, h, ha⟩ | ⟨operands, a, h, ha⟩ | h | h)
    · exact ⟨.comparison c operand, h, rfl⟩
    · exact ⟨.pattern p (.text text), h, rfl⟩
    · exact ⟨.oneOf operands, h, congrArg Except.ok ha⟩
    · exact ⟨.noneOf operands, h, congrArg Except.ok ha⟩
    · exact ⟨.null, h, rfl⟩
    · exact ⟨.notNull, h, rfl⟩
  · rintro ⟨demand, hhas, ha⟩
    cases demand with
    | comparison c operand =>
        obtain rfl := Option.some.inj (Except.ok.inj ha)
        exact .comparison c operand hhas
    | pattern p operand =>
        obtain ⟨a', ha', heq⟩ := Checked.map_eq_ok_iff.1 ha
        obtain ⟨text, rfl, rfl⟩ := patternAtom_eq_ok_iff.1 ha'
        obtain rfl := Option.some.inj heq
        exact .pattern p text hhas
    | oneOf operands => exact .oneOf operands a hhas (Except.ok.inj ha)
    | noneOf operands => exact .noneOf operands a hhas (Except.ok.inj ha)
    | null =>
        obtain rfl := Option.some.inj (Except.ok.inj ha)
        exact .null hhas
    | notNull =>
        obtain rfl := Option.some.inj (Except.ok.inj ha)
        exact .notNull hhas

/-- Only a pattern operator can be refused, and only if its operand is no text. -/
theorem exists_atomOf?_eq_ok_iff :
    (∃ a?, set.atomOf? column demand = .ok a?) ↔
      ∀ p operand, demand = .pattern p operand → ∃ text, operand = .text text := by
  cases demand with
  | pattern p operand =>
      simp only [atomOf?, Checked.map_eq_ok_iff, patternAtom_eq_ok_iff]
      constructor
      · rintro ⟨_, _, ⟨text, rfl, rfl⟩, rfl⟩ p operand ⟨⟩
        exact ⟨text, rfl⟩
      · intro h
        obtain ⟨text, rfl⟩ := h p operand rfl
        exact ⟨_, _, ⟨text, rfl, rfl⟩, rfl⟩
  | _ => simp [atomOf?]

/-- The conditions of a set are those of its operators, all of which have to compile. -/
theorem exists_atoms_iff {P : Atom → Prop} :
    (∃ atoms, set.atoms column = .ok atoms ∧ ∀ a ∈ atoms, P a) ↔
      ∀ demand, set.Has demand → ∃ a?, set.atomOf? column demand = .ok a? ∧ ∀ a ∈ a?, P a := by
  constructor
  · rintro ⟨atoms, hatoms, hall⟩ demand hhas
    have hok : ∃ a?, set.atomOf? column demand = .ok a? := by
      rw [exists_atomOf?_eq_ok_iff]
      rintro p operand rfl
      exact (atoms_eq_ok_iff.1 hatoms).1 p operand hhas
    obtain ⟨a?, ha?⟩ := hok
    refine ⟨a?, ha?, fun a ha => hall a ((mem_atoms_iff hatoms a).2 (asks_iff.2 ⟨demand, hhas, ?_⟩))⟩
    rw [ha?, Option.mem_def.1 ha]
  · intro hall
    have htexts : ∀ p operand, set.pattern p = some operand → ∃ text, operand = .text text := by
      intro p operand hp
      obtain ⟨a?, ha?, -⟩ := hall (.pattern p operand) hp
      exact exists_atomOf?_eq_ok_iff.1 ⟨a?, ha?⟩ p operand rfl
    have hatoms : set.atoms column = .ok _ := atoms_eq_ok_iff.2 ⟨htexts, rfl⟩
    refine ⟨_, hatoms, fun a ha => ?_⟩
    obtain ⟨demand, hhas, hdemand⟩ := asks_iff.1 ((mem_atoms_iff hatoms a).1 ha)
    obtain ⟨a?, ha?, hP⟩ := hall demand hhas
    exact hP a (Except.ok.inj (ha?.symm.trans hdemand))

/-- A set of one operator has no other condition than that of this operator. -/
theorem atoms_set (demand : Demand) (flags : CaseFlag → Bool) (column : Identifier) :
    (demand.set flags).atoms column =
      ((ofFlags flags).atomOf? column demand).map Option.toList := by
  have hflag : (ofFlags flags).flag = (demand.set flags).flag := by
    rw [ofFlags, flag_withFlags, Demand.flag_set]
  rw [atomOf?_eq_of_flag_eq hflag]
  cases demand with
  | comparison c operand => cases c <;> rfl
  | pattern p operand => cases p <;> cases operand <;> rfl
  | oneOf operands =>
      show Except.ok ([] ++ (_ ++ []) ++ []) = Except.ok _
      simp only [List.nil_append, List.append_nil]
      rfl
  | noneOf operands =>
      show Except.ok ([] ++ ([] ++ _) ++ []) = Except.ok _
      simp only [List.nil_append, List.append_nil]
      rfl
  | null => rfl
  | notNull => rfl

end OperatorSet

/-! ## Truth of a leaf -/

/-- The truth value of a condition that may be missing: what asks for nothing is true. -/
def Atom.truthOf? (scope : Scope) (a? : Option Atom) : Truth := a?.elim (some true) (Atom.truth scope)

theorem Atom.truthOf?_eq_true_iff {scope : Scope} {a? : Option Atom} :
    Atom.truthOf? scope a? = some true ↔ ∀ a ∈ a?, a.truth scope = some true := by
  cases a? <;> simp [truthOf?]

namespace Filter

variable {name : String} {set : OperatorSet} {column : Identifier} {demand : Demand}
  {flags : CaseFlag → Bool} {scope : Scope} {t : Truth}

/-- `filter.Evaluates scope t` holds if a filter compiles and its condition has the truth value `t`
in a row with these values; where it asks for nothing, it is true. -/
inductive Evaluates (filter : Filter) (scope : Scope) : Truth → Prop where
  | condition {c : Condition} {f : Formula} (h : filter.condition? = .ok (some c))
      (hf : c.formula? (fun _ _ => none) = some f) : Evaluates filter scope (f.truth scope)
  | nothing (h : filter.condition? = .ok none) : Evaluates filter scope (some true)

/-- A row is matched exactly if the filter is true in it. -/
theorem matches_iff_evaluates {filter : Filter} :
    filter.Matches scope ↔ filter.Evaluates scope (some true) := by
  constructor
  · rintro ⟨result, hresult, hmatches⟩
    cases result with
    | none => exact .nothing hresult
    | some c =>
        obtain ⟨f, hf, htrue⟩ := hmatches c rfl
        exact htrue ▸ .condition hresult hf
  · intro h
    generalize ht : some true = t at h
    cases h with
    | condition h hf =>
        refine ⟨_, h, ?_⟩
        rintro _ ⟨⟩
        exact ⟨_, hf, ht.symm⟩
    | nothing h => exact ⟨_, h, fun _ hc => nomatch hc⟩

/-- A filter has one truth value in a row. -/
theorem Evaluates.unique {filter : Filter} {t' : Truth} (h : filter.Evaluates scope t)
    (h' : filter.Evaluates scope t') : t = t' := by
  cases h with
  | condition h hf =>
      cases h' with
      | condition h' hf' =>
          obtain rfl := Option.some.inj (Except.ok.inj (h.symm.trans h'))
          rw [Option.some.inj (hf.symm.trans hf')]
      | nothing h' => cases h.symm.trans h'
  | nothing h =>
      cases h' with
      | condition h' hf' => cases h.symm.trans h'
      | nothing h' => rfl

/-- A filter that compiles has a truth value in every row. -/
theorem compiles_iff_evaluates {filter : Filter} (scope : Scope) :
    filter.Compiles ↔ ∃ t, filter.Evaluates scope t := by
  constructor
  · rintro ⟨_ | c, hresult⟩
    · exact ⟨_, .nothing hresult⟩
    · obtain ⟨f, hf, -⟩ := filter.decides_of_condition? hresult
      exact ⟨_, .condition hresult hf⟩
  · rintro ⟨t, h | h⟩
    · exact ⟨_, ‹_›⟩
    · exact ⟨_, ‹_›⟩

/-- The truth value of a leaf of one operator is that of its atomic condition, if it has one. -/
theorem evaluates_demand_iff :
    (demand.leaf name flags).Evaluates scope t ↔
      ∃ column a?, Identifier.check name = .ok column ∧
        (OperatorSet.ofFlags flags).atomOf? column demand = .ok a? ∧
        t = Atom.truthOf? scope a? := by
  have hcondition : ∀ result, (demand.leaf name flags).condition? = .ok result ↔
      ∃ column a?, Identifier.check name = .ok column ∧
        (OperatorSet.ofFlags flags).atomOf? column demand = .ok a? ∧ result = a?.map .atom := by
    intro result
    rw [Demand.leaf, condition?_leaf_eq_ok_iff]
    simp only [OperatorSet.atoms_set, Checked.map_eq_ok_iff]
    constructor
    · rintro ⟨column, _, hcolumn, ⟨a?, ha?, rfl⟩, rfl⟩
      exact ⟨column, a?, hcolumn, ha?, by cases a? <;> rfl⟩
    · rintro ⟨column, a?, hcolumn, ha?, rfl⟩
      exact ⟨column, _, hcolumn, ⟨a?, ha?, rfl⟩, by cases a? <;> rfl⟩
  constructor
  · rintro (⟨h, hf⟩ | h)
    · obtain ⟨column, a?, hcolumn, ha?, hresult⟩ := (hcondition _).1 h
      cases a? with
      | none => cases hresult
      | some a =>
          obtain rfl := Option.some.inj hresult
          obtain rfl := Option.some.inj hf
          exact ⟨column, some a, hcolumn, ha?, rfl⟩
    · obtain ⟨column, a?, hcolumn, ha?, hresult⟩ := (hcondition _).1 h
      cases a? with
      | none => exact ⟨column, none, hcolumn, ha?, rfl⟩
      | some a => cases hresult
  · rintro ⟨column, a?, hcolumn, ha?, rfl⟩
    have hresult := (hcondition _).2 ⟨column, a?, hcolumn, ha?, rfl⟩
    cases a? with
    | none => exact .nothing hresult
    | some a => exact .condition hresult rfl

/-- A leaf matches a row exactly if all its conditions are true there. -/
theorem matches_leaf_iff :
    (leaf name set).Matches scope ↔ ∃ column, Identifier.check name = .ok column ∧
      ∃ atoms, set.atoms column = .ok atoms ∧ ∀ a ∈ atoms, a.truth scope = some true := by
  constructor
  · intro h
    obtain ⟨⟨result, hresult⟩, hpasses⟩ := matches_iff.1 h
    obtain ⟨column, atoms, hcolumn, hatoms, -⟩ := condition?_leaf_eq_ok_iff.1 hresult
    refine ⟨column, hcolumn, atoms, hatoms, ?_⟩
    cases hconstrains : set.constrains with
    | true =>
        rw [contributes_leaf] at hpasses
        exact (holds_leaf_iff hcolumn hatoms).1 (hpasses hconstrains)
    | false =>
        rw [(OperatorSet.atoms_eq_nil_iff hatoms).2 hconstrains]
        exact fun a ha => absurd ha List.not_mem_nil
  · rintro ⟨column, hcolumn, atoms, hatoms, hall⟩
    exact matches_iff.2 ⟨⟨_, condition?_leaf_eq_ok_iff.2 ⟨column, atoms, hcolumn, hatoms, rfl⟩⟩,
      fun _ => (holds_leaf_iff hcolumn hatoms).2 hall⟩

/-- A leaf of one operator compiles exactly if its column is an identifier, and its operand a text
if it is a pattern operator. -/
theorem compiles_demand_iff :
    (demand.leaf name flags).Compiles ↔ isIdentifier name.toList = true ∧
      ∀ p operand, demand = .pattern p operand → ∃ text, operand = .text text := by
  rw [compiles_iff_evaluates fun _ => ⟨.null, none⟩]
  simp only [evaluates_demand_iff]
  constructor
  · rintro ⟨_, column, a?, hcolumn, ha?, rfl⟩
    exact ⟨Identifier.name_of_check hcolumn ▸ column.valid,
      OperatorSet.exists_atomOf?_eq_ok_iff.1 ⟨a?, ha?⟩⟩
  · rintro ⟨hname, htexts⟩
    obtain ⟨a?, ha?⟩ := OperatorSet.exists_atomOf?_eq_ok_iff.2 htexts
    exact ⟨_, _, a?, Identifier.check_of_valid hname, ha?, rfl⟩

/-- A leaf of one operator matches a row exactly if its condition is true there, if it has one. -/
theorem matches_demand_iff :
    (demand.leaf name flags).Matches scope ↔ ∃ column, Identifier.check name = .ok column ∧
      ∃ a?, (OperatorSet.ofFlags flags).atomOf? column demand = .ok a? ∧
        Atom.truthOf? scope a? = some true := by
  rw [matches_iff_evaluates, evaluates_demand_iff]
  simp only [exists_and_left, eq_comm (a := some true)]

theorem matches_demand_iff_of_valid (hname : isIdentifier name.toList = true) :
    (demand.leaf name flags).Matches scope ↔
      ∃ a?, (OperatorSet.ofFlags flags).atomOf? ⟨name, hname⟩ demand = .ok a? ∧
        Atom.truthOf? scope a? = some true := by
  rw [matches_demand_iff, Identifier.check_of_valid hname]
  simp only [Except.ok.injEq, exists_eq_left']

/-- What a leaf says is the conjunction of what its operators say. -/
theorem matches_leaf_iff_forall (hname : isIdentifier name.toList = true) :
    (leaf name set).Matches scope ↔
      ∀ demand, set.Has demand → (demand.leaf name set.flag).Matches scope := by
  have hcheck := Identifier.check_of_valid hname
  have hatom : ∀ demand column, (OperatorSet.ofFlags set.flag).atomOf? column demand =
      set.atomOf? column demand :=
    fun demand column => OperatorSet.atomOf?_eq_of_flag_eq (OperatorSet.flag_withFlags _ _)
  simp only [matches_demand_iff, hatom, Atom.truthOf?_eq_true_iff]
  simp only [matches_leaf_iff, hcheck, Except.ok.injEq, exists_eq_left',
    OperatorSet.exists_atoms_iff]

end Filter

end TableQuery
