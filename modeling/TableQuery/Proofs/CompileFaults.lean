import TableQuery.Proofs.FilterTree

/-!
# Which fault refuses a filter

Two things refuse a filter: a column that is no identifier, whatever is asked of it, and a pattern
operator with anything but a text.  Nothing hides them.  A leaf that asks for nothing is checked
like any other, and so is every member of a disjunction, however many of the others are fine.

Of several faults the first counts.  Leaves come from left to right, at whatever depth they stand;
within a leaf the column comes before the operators, and these come in a fixed order.  Compiling is
a traversal in `Except` on every level, and the fault of a traversal is the first fault of its
steps, so what has to be followed through the tree is the fault alone.

## Main results

* `fault?_condition?` — a filter is refused for the first fault of its leaves.
* `leafFault?_eq_some_iff`, `leafFault?_eq_none_iff` — what the fault of a leaf is, and when it has
  none.
* `condition?_reports_first_fault` — both together.
-/

namespace TableQuery

/-! ## Faults of a leaf -/

/-- A pattern operator is misused where it is present with anything but a text. -/
def OperatorSet.Misuses (set : OperatorSet) (p : Pattern) : Prop :=
  ∃ operand, set.pattern p = some operand ∧ ∀ text, operand ≠ .text text

/-- A leaf is faulty if its column is no identifier or one of its pattern operators is misused. -/
def Filter.LeafFaulty (leaf : String × OperatorSet) : Prop :=
  isIdentifier leaf.1.toList = false ∨ ∃ p, leaf.2.Misuses p

/-- `LeafReports leaf error` holds if `error` is the fault of a leaf that counts: its column, or
else the first of its pattern operators that is misused. -/
inductive Filter.LeafReports (leaf : String × OperatorSet) : QueryError → Prop where
  | column (h : isIdentifier leaf.1.toList = false) : LeafReports leaf (.invalidIdentifier leaf.1)
  | operator {earlier later : List Pattern} {p : Pattern}
      (hcolumn : isIdentifier leaf.1.toList = true)
      (horder : [.contains, .notContains, .startsWith, .notStartsWith, .endsWith, .notEndsWith] =
        earlier ++ p :: later)
      (hearlier : ∀ q ∈ earlier, ¬ leaf.2.Misuses q) (hp : leaf.2.Misuses p) :
      LeafReports leaf (.notAString p.name)

namespace Identifier

theorem fault?_check_eq_some_iff {name : String} {error : QueryError} :
    Checked.fault? (check name) = some error ↔
      isIdentifier name.toList = false ∧ error = .invalidIdentifier name := by
  rw [Checked.fault?_eq_some_iff, check_eq_error_iff]

theorem fault?_check_eq_none_iff {name : String} :
    Checked.fault? (check name) = none ↔ isIdentifier name.toList = true := by
  rw [Option.eq_none_iff_forall_ne_some]
  simp [fault?_check_eq_some_iff]

end Identifier

namespace OperatorSet

variable {set : OperatorSet} {p : Pattern}

/-- The fault of a pattern operator, if it has one. -/
def patternFault? (set : OperatorSet) (p : Pattern) : Option QueryError :=
  match set.pattern p with
  | none | some (.text _) => none
  | some _ => some (.notAString p.name)

theorem patternFault?_eq_some_iff {error : QueryError} :
    set.patternFault? p = some error ↔ set.Misuses p ∧ error = .notAString p.name := by
  unfold patternFault? Misuses
  cases set.pattern p with
  | none => simp
  | some operand => cases operand <;> simp [eq_comm]

theorem patternFault?_eq_none_iff : set.patternFault? p = none ↔ ¬ set.Misuses p := by
  unfold patternFault? Misuses
  cases set.pattern p with
  | none => simp
  | some operand => cases operand <;> simp

/-- An operator set is refused for the first pattern operator that is misused. -/
theorem fault?_atoms (set : OperatorSet) (column : Identifier) :
    Checked.fault? (set.atoms column) = Pattern.all.findSome? set.patternFault? := by
  have hstep : ∀ p, Checked.fault? ((set.pattern p).mapM (set.patternAtom column p)) =
      set.patternFault? p := by
    intro p
    unfold patternFault?
    cases set.pattern p with
    | none => rfl
    | some operand => cases operand <;> rfl
  have hmapM := Checked.fault?_mapM
    (fun p => (set.pattern p).mapM (set.patternAtom column p)) Pattern.all
  simp only [hstep] at hmapM
  rw [← hmapM]
  exact Checked.fault?_bind_of_total fun _ => rfl

end OperatorSet

namespace Filter

/-- The fault of a leaf, if it has one. -/
def leafFault? (leaf : String × OperatorSet) : Option QueryError :=
  (Checked.fault? (Identifier.check leaf.1)).or (Pattern.all.findSome? leaf.2.patternFault?)

variable {leaf : String × OperatorSet}

theorem leafFault?_eq_none_iff : leafFault? leaf = none ↔ ¬ LeafFaulty leaf := by
  unfold leafFault? LeafFaulty
  have hpatterns : Pattern.all.findSome? leaf.2.patternFault? = none ↔
      ∀ p, ¬ leaf.2.Misuses p := by
    rw [List.findSome?_eq_none_iff]
    simp only [OperatorSet.patternFault?_eq_none_iff]
    exact ⟨fun h p => h p (Pattern.mem_all p), fun h p _ => h p⟩
  rw [Option.or_eq_none_iff, Identifier.fault?_check_eq_none_iff, hpatterns, not_or,
    Bool.not_eq_false, not_exists]

theorem leafFault?_eq_some_iff {error : QueryError} :
    leafFault? leaf = some error ↔ LeafReports leaf error := by
  have hpatterns : Pattern.all.findSome? leaf.2.patternFault? = some error ↔
      ∃ earlier p later, Pattern.all = earlier ++ p :: later ∧
        (∀ q ∈ earlier, ¬ leaf.2.Misuses q) ∧ leaf.2.Misuses p ∧ error = .notAString p.name := by
    rw [List.findSome?_eq_some_iff]
    simp only [OperatorSet.patternFault?_eq_none_iff, OperatorSet.patternFault?_eq_some_iff]
    refine exists_congr fun earlier => exists_congr fun p => exists_congr fun later => ?_
    tauto
  cases hcolumn : isIdentifier leaf.1.toList with
  | false =>
      have hcheck := Identifier.fault?_check_eq_some_iff.2 ⟨hcolumn, rfl⟩
      rw [leafFault?, hcheck, Option.some_or, Option.some.injEq]
      constructor
      · rintro rfl
        exact .column hcolumn
      · intro h
        cases h with
        | column _ => rfl
        | operator hvalid => rw [hcolumn] at hvalid; cases hvalid
  | true =>
      rw [leafFault?, Identifier.fault?_check_eq_none_iff.2 hcolumn, Option.none_or, hpatterns]
      constructor
      · rintro ⟨earlier, p, later, horder, hearlier, hp, rfl⟩
        exact .operator hcolumn horder hearlier hp
      · intro h
        cases h with
        | column hinvalid => rw [hcolumn] at hinvalid; cases hinvalid
        | operator _ horder hearlier hp => exact ⟨_, _, _, horder, hearlier, hp, rfl⟩

/-! ## Faults of a tree -/

theorem fault?_conditions {children : List Filter}
    (h : ∀ child ∈ children, Checked.fault? child.condition? = child.leaves.findSome? leafFault?) :
    Checked.fault? (conditions children) = (leavesOf children).findSome? leafFault? := by
  induction children with
  | nil => rfl
  | cons child rest ih =>
      have hchild := h child List.mem_cons_self
      have hrest := ih fun child hmem => h child (List.mem_cons_of_mem _ hmem)
      have hstep : ∀ condition : Option Condition, child.condition? = .ok condition →
          Checked.fault? (conditions rest >>= fun tail => pure (condition.toList ++ tail)) =
            (leavesOf rest).findSome? leafFault? := by
        intro condition _
        rw [← hrest]
        exact Checked.fault?_bind_of_total fun _ => rfl
      rw [conditions, Checked.fault?_bind hstep, hchild, leavesOf, List.findSome?_append]

/-- A filter is refused for the first fault of its leaves. -/
theorem fault?_condition? (filter : Filter) :
    Checked.fault? filter.condition? = filter.leaves.findSome? leafFault? := by
  induction filter using Filter.induction with
  | leaf name operators =>
      have hstep : ∀ column, Identifier.check name = .ok column →
          Checked.fault? (operators.atoms column >>= fun atoms =>
            pure (Condition.join? .all (atoms.map .atom))) =
              Pattern.all.findSome? operators.patternFault? := by
        intro column _
        rw [← operators.fault?_atoms column]
        exact Checked.fault?_bind_of_total fun _ => rfl
      rw [condition?, Checked.fault?_bind hstep, leaves_leaf, List.findSome?_singleton]
      rfl
  | group junction children ih =>
      rw [condition?, Checked.fault?_bind_of_total fun _ => rfl, fault?_conditions ih]
      rfl

/-- A filter is refused exactly if some leaf is faulty. -/
theorem fails_iff (filter : Filter) :
    (∃ error, filter.condition? = .error error) ↔ ∃ leaf ∈ filter.leaves, LeafFaulty leaf := by
  have hfails : (∃ error, filter.condition? = .error error) ↔
      Checked.fault? filter.condition? ≠ none := by
    rw [Option.ne_none_iff_exists']
    simp only [Checked.fault?_eq_some_iff]
  have hnone : Checked.fault? filter.condition? = none ↔
      ∀ leaf ∈ filter.leaves, ¬ LeafFaulty leaf := by
    rw [fault?_condition?, List.findSome?_eq_none_iff]
    simp only [leafFault?_eq_none_iff]
  rw [hfails, ne_eq, hnone]
  simp only [not_forall, not_not, exists_prop]

/-- Compiling reports the first fault and hides none.  It fails exactly if some leaf is faulty,
wherever that stands in the tree, and then with the fault of the first leaf from the left that has
one.  So no group compiles that has a member with a fault, whatever its other members are. -/
theorem condition?_reports_first_fault (filter : Filter) :
    ((∃ error, filter.condition? = .error error) ↔ ∃ leaf ∈ filter.leaves, LeafFaulty leaf) ∧
      (∀ error, filter.condition? = .error error ↔
        ∃ before leaf after, filter.leaves = before ++ leaf :: after ∧
          (∀ leaf ∈ before, ¬ LeafFaulty leaf) ∧ LeafReports leaf error) ∧
      ∀ junction before after, (∃ error, filter.condition? = .error error) →
        ∃ error, (group junction (before ++ filter :: after)).condition? = .error error := by
  refine ⟨filter.fails_iff, ?_, ?_⟩
  · intro error
    rw [← Checked.fault?_eq_some_iff, fault?_condition?, List.findSome?_eq_some_iff]
    simp only [leafFault?_eq_none_iff, leafFault?_eq_some_iff]
    refine exists_congr fun before => exists_congr fun leaf => exists_congr fun after => ?_
    exact and_congr_right fun _ => and_comm
  · intro junction before after h
    obtain ⟨leaf, hleaf, hfaulty⟩ := filter.fails_iff.1 h
    have hmember : leaf ∈ (group junction (before ++ filter :: after)).leaves := by
      rw [leaves_group]
      exact List.mem_flatMap.2 ⟨filter, by simp, hleaf⟩
    exact (fails_iff _).2 ⟨leaf, hmember, hfaulty⟩

/-- A disjunction whose first member is fine: the column of the leaf that asks for nothing counts,
not the operand of the leaf after it. -/
theorem condition?_reports_first_fault_in_disjunction :
    let inner : Filter :=
      .group .all [.leaf "b c" {}, .leaf "d" (.ofPattern .contains (.integer 5))]
    inner.condition? = .error (.invalidIdentifier "b c") ∧
      ∃ error, (group .any ([.leaf "a" (.ofComparison .eq (.integer 1))] ++ [inner])).condition? =
        .error error := by
  intro inner
  obtain ⟨-, hreports, hgroup⟩ := condition?_reports_first_fault inner
  have hinner : inner.condition? = .error (.invalidIdentifier "b c") :=
    (hreports _).2 ⟨[], ("b c", {}), [("d", .ofPattern .contains (.integer 5))], rfl, by simp,
      .column (by decide)⟩
  exact ⟨hinner, hgroup .any _ [] ⟨_, hinner⟩⟩

end Filter

end TableQuery
