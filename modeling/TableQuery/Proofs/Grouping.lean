import TableQuery.Proofs.Grammar

/-!
# Compiled filters keep their grouping

A filter is a tree of conjunctions and disjunctions, its compiled condition a text.  Parentheses
are written only around a part that joins several conditions, so a wrong decision would not be
refused by a database but silently select other rows.  Here the text is read back by the grammar
of SQL: it is read in one way only, and for all truth values of the atomic conditions what is read
is true exactly when the tree is.

The induction follows the tree.  Its invariant, `Condition.ReadsAs`, says at which level of the
grammar a condition is read: a joined one as a whole text only, any other one as a unit.  This is
what a group needs of its children, since `grouped` puts exactly the joined ones in parentheses.

## Main results

* `Filter.Holds` — when a tree is true.
* `join?_readsAs` — joining conditions joins what they are read as.
* `condition?_reads_as_tree` — the text of a compiled filter is read as the tree.
-/

namespace TableQuery

/-! ## Truth of a tree -/

/-- Whether a property holds of all members of a list, or of any of them. -/
def Junction.Over {α : Type} (junction : Junction) (p : α → Prop) (members : List α) : Prop :=
  match junction with
  | all => ∀ a ∈ members, p a
  | any => ∃ a ∈ members, p a

theorem Junction.over_all_cons {α : Type} {p : α → Prop} {a : α} {as : List α} :
    Over all p (a :: as) ↔ p a ∧ Over all p as :=
  List.forall_mem_cons

theorem Junction.over_any_cons {α : Type} {p : α → Prop} {a : α} {as : List α} :
    Over any p (a :: as) ↔ p a ∨ Over any p as := by
  unfold Over
  exact List.exists_mem_cons_iff p a as

/-- `filter.Holds truth` holds if a filter is true where the atomic conditions have the truth
values `truth`: a leaf is the conjunction of the conditions that its operators ask for, a group
joins those of its children that contribute a condition. -/
inductive Filter.Holds (truth : Atom → Truth) : Filter → Prop where
  | leaf {name : String} {operators : OperatorSet}
      (h : ∀ column : Identifier, column.name = name →
        ∀ a, operators.Asks column a → truth a = some true) :
      Holds truth (.leaf name operators)
  | all {children : List Filter}
      (h : ∀ child ∈ children, child.contributes = true → Holds truth child) :
      Holds truth (.group .all children)
  | any {children : List Filter} (child : Filter) (hmem : child ∈ children)
      (hcontributes : child.contributes = true) (h : Holds truth child) :
      Holds truth (.group .any children)

theorem Filter.holds_group_iff {truth : Atom → Truth} {junction : Junction}
    {children : List Filter} :
    (Filter.group junction children).Holds truth ↔
      junction.Over (Filter.Holds truth) (children.filter Filter.contributes) := by
  cases junction with
  | all =>
      constructor
      · intro hholds child hchild
        cases hholds with
        | all h =>
            obtain ⟨hmem, hcontributes⟩ := List.mem_filter.1 hchild
            exact h child hmem hcontributes
      · intro h
        exact .all fun child hmem hcontributes => h child (List.mem_filter.2 ⟨hmem, hcontributes⟩)
  | any =>
      constructor
      · intro hholds
        cases hholds with
        | any child hmem hcontributes h =>
            exact ⟨child, List.mem_filter.2 ⟨hmem, hcontributes⟩, h⟩
      · rintro ⟨child, hchild, h⟩
        obtain ⟨hmem, hcontributes⟩ := List.mem_filter.1 hchild
        exact .any child hmem hcontributes h

/-- Lists that agree member by member agree as a whole. -/
theorem Junction.over_congr {α β : Type} {p : α → Prop} {q : β → Prop} {as : List α} {bs : List β}
    (junction : Junction) (h : List.Forall₂ (fun a b => p a ↔ q b) as bs) :
    junction.Over p as ↔ junction.Over q bs := by
  induction h with
  | nil => cases junction <;> simp [Over]
  | cons hab _ ih =>
      cases junction
      case all => rw [over_all_cons, over_all_cons, hab, ih]
      case any => rw [over_any_cons, over_any_cons, hab, ih]

/-! ## Reading a condition -/

/-- `c.ReadsAs e` holds if the condition `c` is read as `e`: as a text if it joins others, and as
a unit if it does not. -/
def Condition.ReadsAs (c : Condition) (e : Sql.Expression) : Prop :=
  Sql.Reads (if c.isJoined then .disjunction else .primary) c.sql c.values e

/-- A unit is also a text. -/
theorem Sql.Reads.whole {s : String} {vs : List Operand} {e : Sql.Expression}
    (h : Sql.Reads .primary s vs e) : Sql.Reads .disjunction s vs e :=
  .conjunction (.primary h)

namespace Condition

/-- The text of a condition is read as the condition is. -/
theorem ReadsAs.whole {c : Condition} {e : Sql.Expression} (h : c.ReadsAs e) :
    Sql.Reads .disjunction c.sql c.values e := by
  unfold ReadsAs at h
  split at h
  · exact h
  · exact h.whole

/-- A condition as a part of another one is a unit. -/
theorem ReadsAs.grouped {c : Condition} {e : Sql.Expression} (h : c.ReadsAs e) :
    Sql.Reads .primary c.grouped c.values e := by
  unfold ReadsAs at h
  unfold Condition.grouped parenthesize
  split at h
  · next hjoined =>
      rw [if_pos hjoined]
      exact .parentheses h
  · next hjoined =>
      rw [if_neg hjoined]
      exact h

theorem readsAs_atom (a : Atom) : (Condition.atom a).ReadsAs (.atom a) := .atom a

end Condition

/-! ## Reading joined conditions -/

/-- The level at which conditions joined in one way are read. -/
def Junction.level : Junction → Sql.Level
  | all => .conjunction
  | any => .disjunction

/-- A unit is read at the level of either join. -/
theorem Sql.Reads.atLevel {s : String} {vs : List Operand} {e : Sql.Expression}
    (h : Sql.Reads .primary s vs e) (junction : Junction) : Sql.Reads junction.level s vs e := by
  cases junction with
  | all => exact .primary h
  | any => exact .conjunction (.primary h)

/-- A unit before a text of a join is read as one more part of it. -/
theorem Sql.Reads.join {s t : String} {vs ws : List Operand} {e f : Sql.Expression}
    {junction : Junction} (hs : Sql.Reads .primary s vs e) (ht : Sql.Reads junction.level t ws f) :
    Sql.Reads junction.level (s ++ junction.separator ++ t) (vs ++ ws)
      (.joined junction e f) := by
  cases junction with
  | all => exact .and hs ht
  | any => exact .or (.primary hs) ht

/-- The text of a join is also a whole text. -/
theorem Sql.Reads.wholeOfJoin {s : String} {vs : List Operand} {e : Sql.Expression}
    {junction : Junction} (h : Sql.Reads junction.level s vs e) : Sql.Reads .disjunction s vs e := by
  cases junction with
  | all => exact .conjunction h
  | any => exact h

namespace Condition

/-- Conditions written one after another in a join are read as the join of what each of them is
read as. -/
theorem reads_sqlRest (junction : Junction) {first : Condition} {e : Sql.Expression}
    {rest : List Condition} {es : List Sql.Expression} (hfirst : first.ReadsAs e)
    (hrest : List.Forall₂ ReadsAs rest es) :
    ∃ f, Sql.Reads junction.level (first.grouped ++ sqlRest junction rest)
        (first.values ++ valuesRest rest) f ∧
      ∀ truth, f.truth truth = some true ↔
        junction.Over (fun e => e.truth truth = some true) (e :: es) := by
  induction hrest generalizing first e with
  | nil =>
      refine ⟨e, ?_, fun truth => ?_⟩
      · rw [sqlRest, valuesRest, String.append_empty, List.append_nil]
        exact hfirst.grouped.atLevel junction
      · cases junction <;> simp [Junction.Over]
  | cons hsecond _ ih =>
      obtain ⟨f, hreads, htruth⟩ := ih hsecond
      refine ⟨.joined junction e f, ?_, fun truth => ?_⟩
      · have h := hfirst.grouped.join hreads
        rw [sqlRest, valuesRest, String.append_assoc]
        rw [String.append_assoc] at h
        exact h
      · cases junction with
        | all =>
            show Truth.and (e.truth truth) (f.truth truth) = some true ↔ _
            rw [Truth.and_eq_true_iff, Junction.over_all_cons, htruth truth]
        | any =>
            show Truth.or (e.truth truth) (f.truth truth) = some true ↔ _
            rw [Truth.or_eq_true_iff, Junction.over_any_cons, htruth truth]

/-- Joining conditions joins what they are read as. -/
theorem join?_readsAs {junction : Junction} {parts : List Condition} {es : List Sql.Expression}
    {c : Condition} (hparts : List.Forall₂ ReadsAs parts es) (h : join? junction parts = some c) :
    ∃ e, c.ReadsAs e ∧
      ∀ truth, e.truth truth = some true ↔
        junction.Over (fun e => e.truth truth = some true) es := by
  cases hparts with
  | nil => exact absurd h (Option.some_ne_none c).symm
  | @cons first e rest es hfirst hrest =>
      cases hrest with
      | nil =>
          obtain rfl := Option.some.inj h
          refine ⟨e, hfirst, fun truth => ?_⟩
          cases junction <;> simp [Junction.Over]
      | @cons second _ rest _ hsecond hrest =>
          obtain rfl := Option.some.inj h
          obtain ⟨f, hreads, htruth⟩ := reads_sqlRest junction hfirst (.cons hsecond hrest)
          refine ⟨f, ?_, htruth⟩
          show Sql.Reads .disjunction _ _ f
          rw [sql_joined, values_joined]
          exact hreads.wholeOfJoin

end Condition

/-! ## Reading a compiled filter -/

/-- A condition means a filter if what it is read as is true exactly when the filter is. -/
def Condition.Means (c : Condition) (filter : Filter) : Prop :=
  ∃ e, c.ReadsAs e ∧ ∀ truth, e.truth truth = some true ↔ filter.Holds truth

namespace Filter

/-- A leaf is true exactly if all the conditions that it compiles to are. -/
theorem holds_leaf_iff {truth : Atom → Truth} {name : String} {operators : OperatorSet}
    {column : Identifier} {atoms : List Atom} (hcolumn : Identifier.check name = .ok column)
    (hatoms : operators.atoms column = .ok atoms) :
    (leaf name operators).Holds truth ↔ ∀ a ∈ atoms, truth a = some true := by
  have hname := Identifier.name_of_check hcolumn
  constructor
  · intro hholds a ha
    cases hholds with
    | leaf hall => exact hall column hname a ((OperatorSet.mem_atoms_iff hatoms a).1 ha)
  · intro hall
    refine .leaf fun column' hname' a ha => ?_
    have hsame : column'.name = column.name := by rw [hname, hname']
    obtain rfl : column' = column := Identifier.eq_of_name_eq hsame
    exact hall a ((OperatorSet.mem_atoms_iff hatoms a).2 ha)

/-- The conditions of a leaf joined mean the leaf. -/
theorem means_leaf {name : String} {operators : OperatorSet} {column : Identifier}
    {atoms : List Atom} {c : Condition} (hcolumn : Identifier.check name = .ok column)
    (hatoms : operators.atoms column = .ok atoms)
    (h : Condition.join? .all (atoms.map .atom) = some c) : c.Means (leaf name operators) := by
  have hparts : List.Forall₂ Condition.ReadsAs (atoms.map .atom) (atoms.map .atom) := by
    rw [List.forall₂_map_left_iff, List.forall₂_map_right_iff]
    exact List.forall₂_same.2 fun a _ => Condition.readsAs_atom a
  obtain ⟨e, hreads, htruth⟩ := Condition.join?_readsAs hparts h
  refine ⟨e, hreads, fun truth => ?_⟩
  rw [htruth truth, holds_leaf_iff hcolumn hatoms]
  exact List.forall_mem_map

/-- The conditions of children joined mean their group. -/
theorem means_group {junction : Junction} {children : List Filter} {parts : List Condition}
    {c : Condition} (hparts : List.Forall₂ Condition.Means parts (children.filter contributes))
    (h : Condition.join? junction parts = some c) : c.Means (group junction children) := by
  obtain ⟨es, hreads, hes⟩ : ∃ es, List.Forall₂ Condition.ReadsAs parts es ∧
      List.Forall₂ (fun (e : Sql.Expression) child =>
        ∀ truth, e.truth truth = some true ↔ Holds truth child) es (children.filter contributes) := by
    clear h
    generalize children.filter contributes = members at hparts
    induction hparts with
    | nil => exact ⟨[], .nil, .nil⟩
    | cons hpart _ ih =>
        obtain ⟨e, hread, htruth⟩ := hpart
        obtain ⟨es, hreads, htruths⟩ := ih
        exact ⟨e :: es, .cons hread hreads, .cons htruth htruths⟩
  obtain ⟨e, hread, htruth⟩ := Condition.join?_readsAs hreads h
  refine ⟨e, hread, fun truth => ?_⟩
  rw [htruth truth, holds_group_iff]
  exact junction.over_congr (hes.imp fun _ _ hchild => hchild truth)

/-- The invariant of compiling: what comes out means the filter. -/
theorem means_of_condition? (filter : Filter) :
    ∀ {c : Condition}, filter.condition? = .ok (some c) → c.Means filter :=
  filter.compiled_induction means_leaf means_group

/-- Compiling keeps the structure of a filter.  No condition comes out exactly if no leaf
constrains anything.  Any other text is read by SQL, and in whichever way it is read, it is true
exactly when the tree is, for all truth values of the atomic conditions. -/
theorem condition?_reads_as_tree {filter : Filter} {result : Option Condition}
    (h : filter.condition? = .ok result) :
    (result = none ↔ filter.contributes = false) ∧
      ∀ c, result = some c →
        (∃ e, Sql.Reads .disjunction c.sql c.values e) ∧
          ∀ e, Sql.Reads .disjunction c.sql c.values e →
            ∀ truth : Atom → Truth, e.truth truth = some true ↔ filter.Holds truth := by
  refine ⟨filter.condition?_eq_none_iff h, ?_⟩
  rintro c rfl
  obtain ⟨e, hread, htruth⟩ := filter.means_of_condition? h
  refine ⟨⟨e, hread.whole⟩, fun e' hread' => ?_⟩
  obtain rfl := hread.whole.unique hread'
  exact htruth

/-- A disjunction in a conjunction, beside a leaf that asks for nothing and a group of one. -/
theorem condition?_reads_as_tree_nested :
    let filter : Filter := .group .all
      [.leaf "d" {}, .leaf "c" (.ofComparison .eq (.text "x")),
        .group .any [.leaf "a" (.ofComparison .lt (.integer 5)), .group .all [.leaf "b" .ofNull]]]
    ∃ c, filter.condition? = .ok (some c) ∧ c.sql = "c = ? AND (a < ? OR b IS NULL)" ∧
      (∃ e, Sql.Reads .disjunction c.sql c.values e) ∧
        ∀ e, Sql.Reads .disjunction c.sql c.values e →
          ∀ truth : Atom → Truth, e.truth truth = some true ↔ filter.Holds truth := by
  intro filter
  refine ⟨_, rfl, rfl, ?_⟩
  have h : filter.condition? = .ok _ := rfl
  exact (condition?_reads_as_tree h).2 _ rfl

end Filter

end TableQuery
