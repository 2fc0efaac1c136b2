import TableQuery.Database.Execution
import TableQuery.Proofs.Grouping

/-!
# The rows that a filter matches

What a compiled filter means for a row.  Its condition has a formula, which is evaluated with the
values of the row; where no condition comes out, every row is matched.  The formula of joined
conditions is built from the left, so its truth is that of all parts, or of one of them, by an
induction on the parts.  From there a row is matched exactly if the filter compiles and its tree
holds for the truth values that the row gives to the atomic conditions.

## Main results

* `Condition.formula?_join?` — the formula of joined conditions.
* `Filter.decides_of_condition?` — the formula of a compiled filter is true when its tree is.
* `Filter.matches_iff` — the rows that a filter matches, by its tree.
* `Filter.mem_matching_iff` — the rows that count for a query over a filter.
-/

namespace TableQuery

/-! ## Formulas of joined conditions -/

/-- Formulas joined one after another are true exactly if all of them are, or one of them is. -/
theorem Junction.truth_foldl_formula (junction : Junction) (scope : Scope) (first : Formula)
    (rest : List Formula) :
    (rest.foldl junction.formula first).truth scope = some true ↔
      junction.Over (fun f => f.truth scope = some true) (first :: rest) := by
  induction rest generalizing first with
  | nil => cases junction <;> simp [Over]
  | cons next rest ih =>
      rw [List.foldl_cons, ih]
      cases junction with
      | all =>
          rw [over_all_cons, over_all_cons, over_all_cons, ← and_assoc]
          exact and_congr_left' Truth.and_eq_true_iff
      | any =>
          rw [over_any_cons, over_any_cons, over_any_cons, ← or_assoc]
          exact or_congr_left Truth.or_eq_true_iff

namespace Condition

variable {fragment? : String → List Operand → Option Formula} {junction : Junction}

theorem formulaRest?_eq {rest : List Condition} {formulas : List Formula} (left : Formula)
    (h : List.Forall₂ (fun c f => formula? fragment? c = some f) rest formulas) :
    formulaRest? fragment? junction left rest = some (formulas.foldl junction.formula left) := by
  induction h generalizing left with
  | nil => rfl
  | cons hpart _ ih =>
      rw [formulaRest?, hpart]
      exact ih _

/-- The formula of joined conditions is true exactly if all their formulas are, or one of them. -/
theorem formula?_join? {parts : List Condition} {formulas : List Formula} {c : Condition}
    (hparts : List.Forall₂ (fun c f => formula? fragment? c = some f) parts formulas)
    (h : join? junction parts = some c) :
    ∃ f, formula? fragment? c = some f ∧ ∀ scope, f.truth scope = some true ↔
      junction.Over (fun f => f.truth scope = some true) formulas := by
  cases hparts with
  | nil => exact absurd h (Option.some_ne_none c).symm
  | @cons first f rest fs hfirst hrest =>
      cases hrest with
      | nil =>
          obtain rfl := Option.some.inj h
          exact ⟨f, hfirst, fun scope => junction.truth_foldl_formula scope f []⟩
      | @cons second g rest fs hsecond hrest =>
          obtain rfl := Option.some.inj h
          refine ⟨_, ?_, fun scope => junction.truth_foldl_formula scope f (g :: fs)⟩
          rw [formula?, hfirst, hsecond]
          exact formulaRest?_eq _ hrest

end Condition

/-! ## Compiled filters -/

/-- The truth value that a row gives to an atomic condition. -/
def Atom.truth (scope : Scope) (a : Atom) : Truth := a.formula.truth scope

/-- A condition decides a filter if its formula is true in a row exactly when the filter is. -/
def Condition.Decides (c : Condition) (filter : Filter) : Prop :=
  ∃ f, c.formula? (fun _ _ => none) = some f ∧
    ∀ scope, f.truth scope = some true ↔ filter.Holds (Atom.truth scope)

namespace Filter

variable {scope : Scope}

/-- The conditions of a leaf joined decide the leaf. -/
theorem decides_leaf {name : String} {operators : OperatorSet} {column : Identifier}
    {atoms : List Atom} {c : Condition} (hcolumn : Identifier.check name = .ok column)
    (hatoms : operators.atoms column = .ok atoms)
    (h : Condition.join? .all (atoms.map .atom) = some c) : c.Decides (leaf name operators) := by
  have hparts : List.Forall₂ (fun c f => Condition.formula? (fun _ _ => none) c = some f)
      (atoms.map .atom) (atoms.map Atom.formula) := by
    rw [List.forall₂_map_left_iff, List.forall₂_map_right_iff]
    exact List.forall₂_same.2 fun a _ => rfl
  obtain ⟨f, hf, htruth⟩ := Condition.formula?_join? hparts h
  refine ⟨f, hf, fun scope => ?_⟩
  rw [htruth scope, holds_leaf_iff hcolumn hatoms]
  exact List.forall_mem_map

/-- The conditions of children joined decide their group. -/
theorem decides_group {junction : Junction} {children : List Filter} {parts : List Condition}
    {c : Condition} (hparts : List.Forall₂ Condition.Decides parts (children.filter contributes))
    (h : Condition.join? junction parts = some c) : c.Decides (group junction children) := by
  obtain ⟨fs, hfs, htruths⟩ : ∃ fs : List Formula,
      List.Forall₂ (fun c f => Condition.formula? (fun _ _ => none) c = some f) parts fs ∧
      List.Forall₂ (fun (f : Formula) child => ∀ scope, f.truth scope = some true ↔
        Holds (Atom.truth scope) child) fs (children.filter contributes) := by
    clear h
    generalize children.filter contributes = members at hparts
    induction hparts with
    | nil => exact ⟨[], .nil, .nil⟩
    | cons hpart _ ih =>
        obtain ⟨f, hf, htruth⟩ := hpart
        obtain ⟨fs, hfs, htruths⟩ := ih
        exact ⟨f :: fs, .cons hf hfs, .cons htruth htruths⟩
  obtain ⟨f, hf, htruth⟩ := Condition.formula?_join? hfs h
  refine ⟨f, hf, fun scope => ?_⟩
  rw [htruth scope, holds_group_iff]
  exact junction.over_congr (htruths.imp fun _ _ hchild => hchild scope)

/-- The condition that a filter becomes decides it. -/
theorem decides_of_condition? (filter : Filter) :
    ∀ {c : Condition}, filter.condition? = .ok (some c) → c.Decides filter :=
  filter.compiled_induction decides_leaf decides_group

/-- Whether a filter becomes a condition, or none, without a fault. -/
def Compiles (filter : Filter) : Prop := ∃ result, filter.condition? = .ok result

theorem compiles_group_iff {junction : Junction} {children : List Filter} :
    (group junction children).Compiles ↔ ∀ child ∈ children, child.Compiles := by
  constructor
  · rintro ⟨result, h⟩ child hchild
    obtain ⟨results, hresults, -⟩ := condition?_group_eq_ok_iff.1 h
    obtain ⟨result, -, hresult⟩ := Checked.exists_mem_right hresults hchild
    exact ⟨result, hresult⟩
  · intro h
    have hresults : ∃ results : List (Option Condition),
        List.Forall₂ (fun child result => child.condition? = .ok result) children results := by
      induction children with
      | nil => exact ⟨[], .nil⟩
      | cons child children ih =>
          obtain ⟨⟨result, hresult⟩, hrest⟩ := List.forall_mem_cons.1 h
          obtain ⟨results, hresults⟩ := ih hrest
          exact ⟨result :: results, .cons hresult hresults⟩
    obtain ⟨results, hresults⟩ := hresults
    exact ⟨_, condition?_group_eq_ok_iff.2 ⟨results, hresults, rfl⟩⟩

/-- `filter.Matches scope` holds if a filter compiles and its condition is true in a row with these
values; where it asks for nothing, every row is matched. -/
def Matches (filter : Filter) (scope : Scope) : Prop :=
  ∃ result, filter.condition? = .ok result ∧ ∀ c, result = some c →
    ∃ f, c.formula? (fun _ _ => none) = some f ∧ f.truth scope = some true

/-- A filter that compiles matches a row exactly if it asks for nothing or its tree holds there. -/
theorem matches_iff {filter : Filter} :
    filter.Matches scope ↔
      filter.Compiles ∧ (filter.contributes = true → filter.Holds (Atom.truth scope)) := by
  constructor
  · rintro ⟨result, hresult, hmatches⟩
    refine ⟨⟨result, hresult⟩, fun hcontributes => ?_⟩
    cases result with
    | none => exact absurd hcontributes (by simp [(filter.condition?_eq_none_iff hresult).1 rfl])
    | some c =>
        obtain ⟨f, hf, htrue⟩ := hmatches c rfl
        obtain ⟨g, hg, htruth⟩ := filter.decides_of_condition? hresult
        obtain rfl := Option.some.inj (hf.symm.trans hg)
        exact (htruth scope).1 htrue
  · rintro ⟨⟨result, hresult⟩, hholds⟩
    refine ⟨result, hresult, ?_⟩
    rintro c rfl
    obtain ⟨f, hf, htruth⟩ := filter.decides_of_condition? hresult
    refine ⟨f, hf, (htruth scope).2 (hholds ?_)⟩
    by_contra hnot
    have hnone := (filter.condition?_eq_none_iff hresult).2 (Bool.eq_false_iff.2 hnot)
    exact Option.some_ne_none c hnone

/-- The rows that count for a query over a filter are those that the filter matches. -/
theorem mem_matching_iff {filter : Filter} {result : Option Condition} {query : Select}
    (h : filter.condition? = .ok result) (hquery : query.conditions = result.toList)
    (table : Table) (row : Row) :
    ∃ formula, query.formula? = .ok formula ∧
      (row ∈ table.matching formula ↔ row ∈ table.rows ∧ filter.Matches (table.scope row)) := by
  have hquery : query.condition? = result := by
    rw [Select.condition?, hquery]
    cases result <;> rfl
  cases result with
  | none =>
      refine ⟨none, by rw [Select.formula?, hquery], ?_⟩
      have hmatches : filter.Matches (table.scope row) := ⟨none, h, fun _ hc => nomatch hc⟩
      simp only [Table.matching, hmatches, and_true]
  | some c =>
      obtain ⟨f, hf, -⟩ := filter.decides_of_condition? h
      refine ⟨some f, by simp only [Select.formula?, hquery, hf], ?_⟩
      rw [Table.matching, List.mem_filter, decide_eq_true_iff]
      refine and_congr_right fun _ => ⟨fun htrue => ⟨some c, h, ?_⟩, ?_⟩
      · rintro _ ⟨⟩
        exact ⟨f, hf, htrue⟩
      · rintro ⟨result, hresult, hmatches⟩
        obtain rfl := Except.ok.inj (h.symm.trans hresult)
        obtain ⟨g, hg, htrue⟩ := hmatches c rfl
        obtain rfl := Option.some.inj (hf.symm.trans hg)
        exact htrue

end Filter

end TableQuery
