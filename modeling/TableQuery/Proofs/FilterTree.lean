import TableQuery.Filter
import TableQuery.Proofs.Checked

/-!
# Filter trees and their leaves

What compiling a filter does, said once.  A leaf becomes the conditions of the operators that are
present, in a fixed order; a group becomes its children's conditions without those that are empty.
Everything proved about compiled filters goes by `Filter.induction` and the two inversion lemmas
`condition?_leaf_eq_ok_iff` and `condition?_group_eq_ok_iff`.

## Main results

* `mem_atoms_iff` — the conditions of an operator set are those that its operators ask for.
* `atoms_eq_nil_iff` — there are none exactly if no operator constrains anything.
* `conditions_eq_ok_iff` — children compile exactly if each of them does.
* `condition?_eq_none_iff` — no condition comes out exactly if no leaf constrains anything.
* `compiled_induction` — induction over a compiled filter and its condition.
-/

namespace TableQuery

/-! ## Operators of a leaf -/

/-- The condition of a pattern operator whose operand is a text. -/
def OperatorSet.likeAtom (set : OperatorSet) (column : Identifier) (pattern : Pattern)
    (text : String) : Atom :=
  .like (set.term column) pattern.isNegated ⟨.text (pattern.apply text), set.valueCase.form⟩

/-- `set.Asks column a` holds if `a` is the condition of an operator that is present in `set`. -/
inductive OperatorSet.Asks (set : OperatorSet) (column : Identifier) : Atom → Prop where
  | comparison (c : Comparison) (operand : Operand) (h : set.comparison c = some operand) :
      Asks set column (set.comparisonAtom column c operand)
  | pattern (p : Pattern) (text : String) (h : set.pattern p = some (.text text)) :
      Asks set column (set.likeAtom column p text)
  | oneOf (operands : List Operand) (a : Atom) (h : set.oneOf = some operands)
      (ha : set.memberAtom? column false operands = some a) : Asks set column a
  | noneOf (operands : List Operand) (a : Atom) (h : set.noneOf = some operands)
      (ha : set.memberAtom? column true operands = some a) : Asks set column a
  | null (h : set.isNull = true) : Asks set column (.null ⟨column, .plain⟩ false)
  | notNull (h : set.isNotNull = true) : Asks set column (.null ⟨column, .plain⟩ true)

/-- Whether an operator set constrains its column: some operator is present, and not just an empty
list of excluded values. -/
def OperatorSet.constrains (set : OperatorSet) : Bool :=
  (Comparison.all.any fun c => (set.comparison c).isSome) ||
    (Pattern.all.any fun p => (set.pattern p).isSome) || set.oneOf.isSome ||
    set.noneOf.any (fun operands => !operands.isEmpty) || set.isNull || set.isNotNull

namespace OperatorSet

/-- The conditions of the comparisons that are present. -/
def comparisonAtoms (set : OperatorSet) (column : Identifier) : List Atom :=
  Comparison.all.filterMap fun c => (set.comparison c).map (set.comparisonAtom column c)

/-- The conditions of the pattern operators that are present with a text. -/
def patternAtoms (set : OperatorSet) (column : Identifier) : List Atom :=
  Pattern.all.filterMap fun p =>
    ((set.pattern p).bind Operand.text?).map (set.likeAtom column p)

/-- The conditions of the list operators that are present. -/
def memberAtoms (set : OperatorSet) (column : Identifier) : List Atom :=
  (set.oneOf.bind (set.memberAtom? column false)).toList ++
    (set.noneOf.bind (set.memberAtom? column true)).toList

/-- The conditions of the null checks that are present. -/
def nullAtoms (set : OperatorSet) (column : Identifier) : List Atom :=
  (if set.isNull then [.null ⟨column, .plain⟩ false] else []) ++
    (if set.isNotNull then [.null ⟨column, .plain⟩ true] else [])

theorem patternAtom_eq_ok_iff {set : OperatorSet} {column : Identifier} {p : Pattern}
    {operand : Operand} {a : Atom} :
    set.patternAtom column p operand = .ok a ↔
      ∃ text, operand = .text text ∧ a = set.likeAtom column p text := by
  rw [patternAtom, Checked.bind_eq_ok_iff]
  cases operand <;> simp [textOperand, likeAtom, pure, Except.pure, eq_comm]

/-- An operator without an operand compiles to nothing, and one with a text to its condition. -/
theorem mapM_patternAtom_eq_ok_iff {set : OperatorSet} {column : Identifier} {p : Pattern}
    {result : Option Atom} :
    (set.pattern p).mapM (set.patternAtom column p) = .ok result ↔
      (∀ operand, set.pattern p = some operand → ∃ text, operand = .text text) ∧
        result = ((set.pattern p).bind Operand.text?).map (set.likeAtom column p) := by
  cases hp : set.pattern p with
  | none => simp [pure, Except.pure, eq_comm]
  | some operand =>
      rw [Option.mapM_some, ← bind_pure_comp, Checked.bind_eq_ok_iff]
      simp only [patternAtom_eq_ok_iff]
      cases operand <;> simp [Operand.text?, pure, Except.pure, eq_comm]

/-- An operator set compiles exactly if its pattern operators have texts, and then to the
conditions of its comparisons, patterns, lists and null checks, in this order. -/
theorem atoms_eq_ok_iff {set : OperatorSet} {column : Identifier} {atoms : List Atom} :
    set.atoms column = .ok atoms ↔
      (∀ p operand, set.pattern p = some operand → ∃ text, operand = .text text) ∧
        atoms = set.comparisonAtoms column ++ set.patternAtoms column ++
          set.memberAtoms column ++ set.nullAtoms column := by
  have key : ∀ (ps : List Pattern) (results : List (Option Atom)),
      (ps.mapM fun p => (set.pattern p).mapM (set.patternAtom column p)) = .ok results ↔
        (∀ p ∈ ps, ∀ operand, set.pattern p = some operand → ∃ text, operand = .text text) ∧
          results = ps.map fun p =>
            ((set.pattern p).bind Operand.text?).map (set.likeAtom column p) := by
    intro ps results
    rw [Checked.mapM_eq_ok_iff]
    simp only [mapM_patternAtom_eq_ok_iff]
    induction ps generalizing results with
    | nil => simp
    | cons p ps ih =>
        cases results with
        | nil => simp
        | cons result results =>
            rw [List.forall₂_cons, ih]
            simp only [List.forall_mem_cons, List.map_cons, List.cons.injEq]
            tauto
  rw [OperatorSet.atoms, Checked.bind_eq_ok_iff]
  constructor
  · rintro ⟨results, hresults, h⟩
    obtain ⟨htext, rfl⟩ := (key _ _).1 hresults
    refine ⟨fun p => htext p (Pattern.mem_all p), ?_⟩
    have h := (Except.ok.inj h).symm
    simpa [comparisonAtoms, patternAtoms, memberAtoms, nullAtoms, List.filterMap_map] using h
  · rintro ⟨htext, rfl⟩
    refine ⟨_, (key _ _).2 ⟨fun p _ => htext p, rfl⟩, ?_⟩
    simp [comparisonAtoms, patternAtoms, memberAtoms, nullAtoms, List.filterMap_map, pure,
      Except.pure]

/-- The conditions of an operator set are those that its operators ask for. -/
theorem mem_atoms_iff {set : OperatorSet} {column : Identifier} {atoms : List Atom}
    (h : set.atoms column = .ok atoms) (a : Atom) : a ∈ atoms ↔ set.Asks column a := by
  obtain ⟨htext, rfl⟩ := atoms_eq_ok_iff.1 h
  simp only [List.mem_append, comparisonAtoms, patternAtoms, memberAtoms, nullAtoms]
  constructor
  · rintro (((ha | ha) | (ha | ha)) | (ha | ha))
    · obtain ⟨c, -, ha⟩ := List.mem_filterMap.1 ha
      obtain ⟨operand, hc, rfl⟩ := Option.map_eq_some_iff.1 ha
      exact .comparison c operand hc
    · obtain ⟨p, -, ha⟩ := List.mem_filterMap.1 ha
      obtain ⟨text, hp, rfl⟩ := Option.map_eq_some_iff.1 ha
      obtain ⟨operand, hp, htext⟩ := Option.bind_eq_some_iff.1 hp
      exact .pattern p text (Operand.text?_eq_some_iff.1 htext ▸ hp)
    · obtain ⟨operands, h, ha⟩ := Option.bind_eq_some_iff.1 (Option.mem_toList.1 ha)
      exact .oneOf operands a h ha
    · obtain ⟨operands, h, ha⟩ := Option.bind_eq_some_iff.1 (Option.mem_toList.1 ha)
      exact .noneOf operands a h ha
    · split at ha
      · next h => exact List.mem_singleton.1 ha ▸ .null h
      · simp at ha
    · split at ha
      · next h => exact List.mem_singleton.1 ha ▸ .notNull h
      · simp at ha
  · rintro (⟨c, operand, h⟩ | ⟨p, text, h⟩ | ⟨operands, a, h, ha⟩ | ⟨operands, a, h, ha⟩ | h | h)
    · exact .inl (.inl (.inl (List.mem_filterMap.2 ⟨c, Comparison.mem_all c, by simp [h]⟩)))
    · exact .inl (.inl (.inr (List.mem_filterMap.2 ⟨p, Pattern.mem_all p, by simp [h]⟩)))
    · exact .inl (.inr (.inl (by simp [h, ha])))
    · exact .inl (.inr (.inr (by simp [h, ha])))
    · exact .inr (.inl (by simp [h]))
    · exact .inr (.inr (by simp [h]))

/-- A list operator asks for nothing exactly if it excludes no values. -/
theorem memberAtom?_eq_none_iff {set : OperatorSet} {column : Identifier} {negated : Bool}
    {operands : List Operand} :
    set.memberAtom? column negated operands = none ↔ negated = true ∧ operands = [] := by
  unfold memberAtom?
  cases operands with
  | nil => cases negated <;> simp
  | cons operand operands =>
      simp only [List.isEmpty_cons, Bool.false_eq_true, ↓reduceIte, reduceCtorEq, and_false,
        iff_false]
      split <;> exact Option.some_ne_none _

/-- An operator set compiles to no condition exactly if it constrains nothing. -/
theorem atoms_eq_nil_iff {set : OperatorSet} {column : Identifier} {atoms : List Atom}
    (h : set.atoms column = .ok atoms) : atoms = [] ↔ set.constrains = false := by
  obtain ⟨htext, rfl⟩ := atoms_eq_ok_iff.1 h
  have hpatterns : set.patternAtoms column = [] ↔
      (Pattern.all.any fun p => (set.pattern p).isSome) = false := by
    simp only [patternAtoms, List.filterMap_eq_nil_iff, List.any_eq_false, Option.map_eq_none_iff]
    refine forall₂_congr fun p _ => ?_
    cases hp : set.pattern p with
    | none => simp
    | some operand =>
        obtain ⟨text, rfl⟩ := htext p operand hp
        simp
  have hcomparisons : set.comparisonAtoms column = [] ↔
      (Comparison.all.any fun c => (set.comparison c).isSome) = false := by
    simp [comparisonAtoms]
  have hmembers : set.memberAtoms column = [] ↔
      set.oneOf = none ∧ set.noneOf.any (fun operands => !operands.isEmpty) = false := by
    cases h1 : set.oneOf <;> cases h2 : set.noneOf <;>
      simp [memberAtoms, h1, h2, memberAtom?_eq_none_iff]
  have hnulls : set.nullAtoms column = [] ↔ set.isNull = false ∧ set.isNotNull = false := by
    simp [nullAtoms]
  simp only [List.append_eq_nil_iff, hpatterns, hcomparisons, hmembers, hnulls, constrains,
    Bool.or_eq_false_iff, Option.isSome_eq_false_iff, Option.isNone_iff_eq_none]
  tauto

end OperatorSet

/-! ## Trees -/

namespace Filter

/-- Induction over a filter: what holds of every leaf, and of a group if it holds of each of its
children, holds of every filter. -/
@[elab_as_elim]
theorem induction {motive : Filter → Prop}
    (leaf : ∀ column operators, motive (.leaf column operators))
    (group : ∀ junction children, (∀ child ∈ children, motive child) →
      motive (.group junction children))
    (filter : Filter) : motive filter :=
  @Filter.rec motive (fun children => ∀ child ∈ children, motive child)
    leaf group
    (fun _ h => absurd h List.not_mem_nil)
    (fun _ _ hchild hrest _ h => (List.mem_cons.1 h).elim (fun heq => heq ▸ hchild) (hrest _))
    filter

mutual

/-- The leaves of a filter, from left to right. -/
def leaves : Filter → List (String × OperatorSet)
  | leaf column operators => [(column, operators)]
  | group _ children => leavesOf children

/-- The leaves of some filters, from left to right. -/
def leavesOf : List Filter → List (String × OperatorSet)
  | [] => []
  | child :: rest => child.leaves ++ leavesOf rest

end

theorem leavesOf_eq_flatMap (children : List Filter) :
    leavesOf children = children.flatMap leaves := by
  induction children with
  | nil => rfl
  | cons child rest ih => rw [leavesOf, ih, List.flatMap_cons]

@[simp] theorem leaves_leaf (column : String) (operators : OperatorSet) :
    (leaf column operators).leaves = [(column, operators)] := rfl

@[simp] theorem leaves_group (junction : Junction) (children : List Filter) :
    (group junction children).leaves = children.flatMap leaves :=
  leavesOf_eq_flatMap children

/-- Whether some leaf of a filter constrains its column. -/
def contributes (filter : Filter) : Bool := filter.leaves.any fun leaf => leaf.2.constrains

/-- A group contributes exactly if one of its children does. -/
theorem contributes_group (junction : Junction) (children : List Filter) :
    (group junction children).contributes = children.any contributes := by
  rw [contributes, leaves_group, List.any_flatMap]
  rfl

/-! ## Compiling -/

/-- A leaf compiles exactly if its column is an identifier and its operators compile. -/
theorem condition?_leaf_eq_ok_iff {name : String} {operators : OperatorSet}
    {result : Option Condition} :
    (leaf name operators).condition? = .ok result ↔
      ∃ column atoms, Identifier.check name = .ok column ∧ operators.atoms column = .ok atoms ∧
        result = Condition.join? .all (atoms.map Condition.atom) := by
  rw [condition?, Checked.bind_eq_ok_iff]
  refine exists_congr fun column => ?_
  rw [Checked.bind_eq_ok_iff]
  simp only [pure, Except.pure, Except.ok.injEq, eq_comm (a := result), exists_and_left]

/-- Children compile exactly if each of them does; those without a condition are left out. -/
theorem conditions_eq_ok_iff {children : List Filter} {parts : List Condition} :
    conditions children = .ok parts ↔
      ∃ results : List (Option Condition),
        List.Forall₂ (fun child result => child.condition? = .ok result) children results ∧
          parts = results.flatMap Option.toList := by
  induction children generalizing parts with
  | nil => simp [conditions, pure, Except.pure, eq_comm]
  | cons child rest ih =>
      rw [conditions, Checked.bind_eq_ok_iff]
      constructor
      · rintro ⟨result, hresult, h⟩
        obtain ⟨tail, htail, h⟩ := Checked.bind_eq_ok_iff.1 h
        obtain ⟨results, hresults, rfl⟩ := ih.1 htail
        exact ⟨result :: results, .cons hresult hresults, (Except.ok.inj h).symm⟩
      · rintro ⟨_, _ | ⟨hresult, hresults⟩, rfl⟩
        exact ⟨_, hresult, Checked.bind_eq_ok_iff.2 ⟨_, ih.2 ⟨_, hresults, rfl⟩, rfl⟩⟩

/-- A group compiles exactly if each of its children does. -/
theorem condition?_group_eq_ok_iff {junction : Junction} {children : List Filter}
    {result : Option Condition} :
    (group junction children).condition? = .ok result ↔
      ∃ results : List (Option Condition),
        List.Forall₂ (fun child result => child.condition? = .ok result) children results ∧
          result = Condition.join? junction (results.flatMap Option.toList) := by
  rw [condition?, Checked.bind_eq_ok_iff]
  constructor
  · rintro ⟨parts, hparts, h⟩
    obtain ⟨results, hresults, rfl⟩ := conditions_eq_ok_iff.1 hparts
    exact ⟨results, hresults, (Except.ok.inj h).symm⟩
  · rintro ⟨results, hresults, rfl⟩
    exact ⟨_, conditions_eq_ok_iff.2 ⟨results, hresults, rfl⟩, rfl⟩

/-- A filter that compiles becomes no condition exactly if it does not contribute one. -/
theorem condition?_eq_none_iff (filter : Filter) :
    ∀ {result : Option Condition}, filter.condition? = .ok result →
      (result = none ↔ filter.contributes = false) := by
  induction filter using Filter.induction with
  | leaf name operators =>
      intro result h
      obtain ⟨column, atoms, -, hatoms, rfl⟩ := condition?_leaf_eq_ok_iff.1 h
      rw [Condition.join?_eq_none_iff, List.map_eq_nil_iff, OperatorSet.atoms_eq_nil_iff hatoms]
      simp [contributes]
  | group junction children ih =>
      intro result h
      obtain ⟨results, hresults, rfl⟩ := condition?_group_eq_ok_iff.1 h
      rw [Condition.join?_eq_none_iff, contributes_group]
      clear h
      induction hresults with
      | nil => simp
      | @cons child result children results hresult _ ihrest =>
          have hchild := ih child List.mem_cons_self hresult
          have hrest := ihrest fun child hmem => ih child (List.mem_cons_of_mem _ hmem)
          rw [List.flatMap_cons, List.append_eq_nil_iff, hrest, List.any_cons, Bool.or_eq_false_iff,
            Option.toList_eq_nil_iff, hchild]

/-- The conditions that a group joins are those of its children that contribute one. -/
theorem forall₂_contributing {children : List Filter} {results : List (Option Condition)}
    (h : List.Forall₂ (fun child result => child.condition? = .ok result) children results) :
    List.Forall₂ (fun c child => child.condition? = .ok (some c))
      (results.flatMap Option.toList) (children.filter contributes) := by
  induction h with
  | nil => exact .nil
  | @cons child result children results hresult _ ih =>
      have hnone := child.condition?_eq_none_iff hresult
      cases result with
      | none =>
          rw [List.filter_cons_of_neg (by simp [hnone.1 rfl])]
          exact ih
      | some c =>
          have hcontributes : child.contributes = true := by
            by_contra hnot
            exact absurd (hnone.2 (Bool.eq_false_iff.2 hnot)) (Option.some_ne_none c)
          rw [List.filter_cons_of_pos hcontributes]
          exact .cons hresult ih

/-- Induction over a compiled filter: what relates the conditions of a leaf to the leaf, and those
of a group to the group if it relates each part to the child that it comes from, relates what comes
out to the filter. -/
theorem compiled_induction {motive : Condition → Filter → Prop}
    (hleaf : ∀ {name : String} {operators : OperatorSet} {column : Identifier} {atoms : List Atom}
      {c : Condition}, Identifier.check name = .ok column → operators.atoms column = .ok atoms →
        Condition.join? .all (atoms.map .atom) = some c → motive c (.leaf name operators))
    (hgroup : ∀ {junction : Junction} {children : List Filter} {parts : List Condition}
      {c : Condition}, List.Forall₂ motive parts (children.filter contributes) →
        Condition.join? junction parts = some c → motive c (.group junction children))
    (filter : Filter) : ∀ {c : Condition}, filter.condition? = .ok (some c) → motive c filter := by
  induction filter using Filter.induction with
  | leaf name operators =>
      intro c h
      obtain ⟨column, atoms, hcolumn, hatoms, hjoin⟩ := condition?_leaf_eq_ok_iff.1 h
      exact hleaf hcolumn hatoms hjoin.symm
  | group junction children ih =>
      intro c h
      obtain ⟨results, hresults, hjoin⟩ := condition?_group_eq_ok_iff.1 h
      refine hgroup ?_ hjoin.symm
      have hparts := forall₂_contributing hresults
      rw [List.forall₂_iff_zip] at hparts ⊢
      refine ⟨hparts.1, fun {part child} hzip => ?_⟩
      have hmem := List.mem_of_mem_filter (List.of_mem_zip hzip).2
      exact ih child hmem (hparts.2 hzip)

end Filter

/-! ## Joined conditions -/

namespace Condition

/-- Induction over a condition: a join is reached from all the conditions that it joins. -/
@[elab_as_elim]
theorem induction {motive : Condition → Prop} (atom : ∀ a, motive (.atom a))
    (fragment : ∀ text values, motive (.fragment text values))
    (joined : ∀ junction first second rest, (∀ c ∈ first :: second :: rest, motive c) →
      motive (.joined junction first second rest))
    (c : Condition) : motive c :=
  @Condition.rec motive (fun rest => ∀ c ∈ rest, motive c) atom fragment
    (fun junction first second rest hfirst hsecond hrest =>
      joined junction first second rest
        (List.forall_mem_cons.2 ⟨hfirst, List.forall_mem_cons.2 ⟨hsecond, hrest⟩⟩))
    (fun _ h => absurd h List.not_mem_nil)
    (fun _ _ hhead htail => List.forall_mem_cons.2 ⟨hhead, htail⟩)
    c

/-- The text of a join is its first part and then, each after the separator, the others. -/
theorem sql_joined (junction : Junction) (first second : Condition) (rest : List Condition) :
    sql (.joined junction first second rest) =
      first.grouped ++ sqlRest junction (second :: rest) := by
  rw [sql, sqlRest, grouped, String.append_assoc, String.append_assoc, String.append_assoc]

/-- The values of a join are those of its first part and then those of the others. -/
theorem values_joined (junction : Junction) (first second : Condition) (rest : List Condition) :
    values (.joined junction first second rest) = first.values ++ valuesRest (second :: rest) := by
  rw [values, valuesRest, List.append_assoc]

/-- The text of joined atoms is that of each of them, with the separator between them. -/
theorem sql_of_join?_atoms {junction : Junction} {atoms : List Atom} {c : Condition}
    (h : join? junction (atoms.map atom) = some c) :
    c.sql = junction.separator.intercalate (atoms.map Atom.sql) := by
  have hrest : ∀ (a : Atom) (rest : List Atom), a.sql ++ sqlRest junction (rest.map atom) =
      junction.separator.intercalate ((a :: rest).map Atom.sql) := by
    intro a rest
    induction rest generalizing a with
    | nil =>
        rw [List.map_nil, sqlRest, String.append_empty]
        exact String.intercalate_singleton.symm
    | cons b rest ih =>
        have hb : parenthesize (atom b).isJoined (atom b).sql = b.sql := rfl
        rw [List.map_cons, sqlRest, hb, String.append_assoc, ih b]
        simp only [List.map_cons]
        rw [String.intercalate_cons_cons, String.append_assoc]
  cases atoms with
  | nil => cases h
  | cons a rest =>
      cases rest with
      | nil =>
          obtain rfl := Option.some.inj h
          exact String.intercalate_singleton.symm
      | cons b rest =>
          obtain rfl := Option.some.inj h
          have hgrouped : (atom a).grouped = a.sql := rfl
          rw [sql_joined, hgrouped]
          exact hrest a (b :: rest)

end Condition

end TableQuery
