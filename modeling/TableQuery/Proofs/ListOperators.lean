import TableQuery.Proofs.MatchingRows

/-!
# Changing the lists of a filter

Nothing in a filter negates a part of it, so whoever excludes fewer values, or asks for one of more
values, should not lose a row, wherever in the tree the list stands.  This is so with one exception.
A leaf that excludes nothing asks for nothing, and what asks for nothing leaves no trace: in a
conjunction that is as good as being true, but from a disjunction with other members a member
disappears, and with it the rows that it let in.

The induction is on the place in the tree, a `Filter.Context`.  Its invariant, `Relaxes`, has three
parts, since what a group asks for depends on whether its children contribute at all.

## Main results

* `Filter.Context.Drops` — the exception: a member of a disjunction on the way stops contributing.
* `Relaxes.fill` — relaxing a part of a filter relaxes the filter, but for the exception.
* `list_operators_monotone` — excluding fewer values or asking for more of them loses no row.
* `excluding_nothing_loses_rows` — the exception does lose a row.
-/

namespace TableQuery

/-! ## Truth of lists -/

namespace Truth

theorem not_eq_true_iff {a : Truth} : not a = some true ↔ a = some false := by
  rcases a with _ | _ | _ <;> simp [not]

theorem or_eq_false_iff {a b : Truth} : or a b = some false ↔ a = some false ∧ b = some false := by
  rcases a with _ | _ | _ <;> rcases b with _ | _ | _ <;> simp [or]

theorem anyOf_eq_true_iff {truths : List Truth} :
    anyOf truths = some true ↔ some true ∈ truths := by
  induction truths with
  | nil => simp [anyOf]
  | cons a truths ih =>
      show or a (anyOf truths) = some true ↔ _
      rw [or_eq_true_iff, ih, List.mem_cons, eq_comm]

theorem anyOf_eq_false_iff {truths : List Truth} :
    anyOf truths = some false ↔ ∀ a ∈ truths, a = some false := by
  induction truths with
  | nil => simp [anyOf]
  | cons a truths ih =>
      show or a (anyOf truths) = some false ↔ _
      rw [or_eq_false_iff, ih, List.forall_mem_cons]

end Truth

section Lists

variable {scope : Scope} {term : Term} {bounds bounds' : List Bound}

/-- A value that is none of some values is none of fewer. -/
theorem Atom.truth_among_of_subset_excluded (hsubset : bounds' ⊆ bounds)
    (h : (Atom.among term true bounds).truth scope = some true) :
    (Atom.among term true bounds').truth scope = some true := by
  have hall := Truth.anyOf_eq_false_iff.1 (Truth.not_eq_true_iff.1 h)
  refine Truth.not_eq_true_iff.2 (Truth.anyOf_eq_false_iff.2 fun a ha => hall a ?_)
  exact List.map_subset _ (List.map_subset _ hsubset) ha

/-- A value that is one of some values is one of more. -/
theorem Atom.truth_among_of_subset_included (hsubset : bounds ⊆ bounds')
    (h : (Atom.among term false bounds).truth scope = some true) :
    (Atom.among term false bounds').truth scope = some true :=
  Truth.anyOf_eq_true_iff.2
    (List.map_subset _ (List.map_subset _ hsubset) (Truth.anyOf_eq_true_iff.1 h))

end Lists

/-! ## List operators of a leaf -/

namespace OperatorSet

variable {set : OperatorSet} {column : Identifier} {scope : Scope}
  {operands operands' : List Operand}

/-- Without instants, the values of a list are compared as those of an equality are. -/
theorem memberAtom?_of_not_isTimestamp {negated : Bool} (hne : operands ≠ [])
    (h : ∀ operand ∈ operands, operand.isTimestamp = false) :
    set.memberAtom? column negated operands =
      some (.among (set.term column) negated (operands.map set.bound)) := by
  cases operands with
  | nil => exact absurd rfl hne
  | cons operand operands =>
      have hfirst := h operand List.mem_cons_self
      rw [memberAtom?, if_neg (by simp), if_neg (by simp [hfirst])]

/-- What excluding fewer values asks for is implied by what excluding all of them does. -/
theorem exists_implying_fewer_excluded {a' : Atom} (hsubset : operands' ⊆ operands)
    (h : ∀ operand ∈ operands, operand.isTimestamp = false)
    (ha' : set.memberAtom? column true operands' = some a') :
    ∃ a, set.memberAtom? column true operands = some a ∧
      (a.truth scope = some true → a'.truth scope = some true) := by
  have hne' : operands' ≠ [] := by
    rintro rfl
    cases ha'
  have hne : operands ≠ [] := by
    rintro rfl
    exact hne' (List.subset_nil.1 hsubset)
  rw [memberAtom?_of_not_isTimestamp hne' fun operand hmem => h operand (hsubset hmem)] at ha'
  obtain rfl := Option.some.inj ha'
  exact ⟨_, memberAtom?_of_not_isTimestamp hne h,
    Atom.truth_among_of_subset_excluded (List.map_subset _ hsubset)⟩

/-- What including more values asks for is implied by what including some of them does. -/
theorem exists_implying_more_included {a' : Atom} (hsubset : operands ⊆ operands')
    (h : ∀ operand ∈ operands', operand.isTimestamp = false)
    (ha' : set.memberAtom? column false operands' = some a') :
    ∃ a, set.memberAtom? column false operands = some a ∧
      (a.truth scope = some true → a'.truth scope = some true) := by
  by_cases hne : operands = []
  · exact ⟨.never, by rw [hne]; rfl, fun htrue => nomatch htrue⟩
  · have hne' : operands' ≠ [] := by
      rintro rfl
      exact hne (List.subset_nil.1 hsubset)
    rw [memberAtom?_of_not_isTimestamp hne' h] at ha'
    obtain rfl := Option.some.inj ha'
    exact ⟨_, memberAtom?_of_not_isTimestamp hne fun operand hmem => h operand (hsubset hmem),
      Atom.truth_among_of_subset_included (List.map_subset _ hsubset)⟩

end OperatorSet

/-! ## Relaxing a filter -/

namespace Filter

@[simp] theorem contributes_leaf (column : String) (set : OperatorSet) :
    (leaf column set).contributes = set.constrains := by
  simp [contributes]

/-- A leaf compiles exactly if its column is an identifier and its patterns have texts. -/
theorem compiles_leaf_iff {column : String} {set : OperatorSet} :
    (leaf column set).Compiles ↔ (∃ identifier, Identifier.check column = .ok identifier) ∧
      ∀ p operand, set.pattern p = some operand → ∃ text, operand = .text text := by
  constructor
  · rintro ⟨result, h⟩
    obtain ⟨identifier, atoms, hcheck, hatoms, -⟩ := condition?_leaf_eq_ok_iff.1 h
    exact ⟨⟨identifier, hcheck⟩, (OperatorSet.atoms_eq_ok_iff.1 hatoms).1⟩
  · rintro ⟨⟨identifier, hcheck⟩, htexts⟩
    exact ⟨_, condition?_leaf_eq_ok_iff.2
      ⟨identifier, _, hcheck, OperatorSet.atoms_eq_ok_iff.2 ⟨htexts, rfl⟩, rfl⟩⟩

/-- `filter.Passes scope` holds if a row meets what a filter asks for, if it asks for anything. -/
def Passes (filter : Filter) (scope : Scope) : Prop :=
  filter.contributes = true → filter.Holds (Atom.truth scope)

/-- `Relaxes scope f f'` holds if `f'` asks for no more than `f` in a row with these values. -/
structure Relaxes (scope : Scope) (f f' : Filter) : Prop where
  compiles : f.Compiles → f'.Compiles
  contributes : f'.contributes = true → f.contributes = true
  passes : f.Passes scope → f'.Passes scope

variable {scope : Scope} {f f' : Filter}

theorem Relaxes.matches (h : Relaxes scope f f') (hmatches : f.Matches scope) :
    f'.Matches scope := by
  obtain ⟨hcompiles, hpasses⟩ := matches_iff.1 hmatches
  exact matches_iff.2 ⟨h.compiles hcompiles, h.passes hpasses⟩

/-- A leaf is relaxed by other operators that ask for conditions that it implies. -/
theorem relaxes_leaf {column : String} {set set' : OperatorSet}
    (hpattern : ∀ p, set'.pattern p = set.pattern p)
    (hconstrains : set'.constrains = true → set.constrains = true)
    (hasks : ∀ identifier a', set'.Asks identifier a' → ∃ a, set.Asks identifier a ∧
      (a.truth scope = some true → a'.truth scope = some true)) :
    Relaxes scope (leaf column set) (leaf column set') := by
  constructor
  · simp only [compiles_leaf_iff, hpattern, imp_self]
  · simpa only [contributes_leaf] using hconstrains
  · intro hpasses hcontributes
    rw [contributes_leaf] at hcontributes
    have hholds := hpasses ((contributes_leaf column set).trans (hconstrains hcontributes))
    refine .leaf fun identifier hname a' ha' => ?_
    obtain ⟨a, ha, himp⟩ := hasks identifier a' ha'
    cases hholds with
    | leaf hall => exact himp (hall identifier hname a ha)

section Lists

variable {column : String} {set : OperatorSet} {operands operands' : List Operand}

/-- Excluding fewer values relaxes a leaf. -/
theorem relaxes_excluding_fewer (hset : set.noneOf = some operands) (hsubset : operands' ⊆ operands)
    (h : ∀ operand ∈ operands, operand.isTimestamp = false) :
    Relaxes scope (leaf column set) (leaf column { set with noneOf := some operands' }) := by
  refine relaxes_leaf (fun p => by cases p <;> rfl) (fun hconstrains => ?_) ?_
  · by_cases hne : operands = []
    · have hne' : operands' = [] := List.subset_nil.1 (hne ▸ hsubset)
      rw [hne', ← hne, ← hset] at hconstrains
      exact hconstrains
    · simp [OperatorSet.constrains, hset, hne]
  · rintro identifier a' (⟨c, operand, hc⟩ | ⟨p, text, hp⟩ | ⟨values, a', hin, ha'⟩ |
      ⟨values, a', hnotIn, ha'⟩ | hnull | hnotNull)
    · exact ⟨_, .comparison c operand hc, id⟩
    · exact ⟨_, .pattern p text hp, id⟩
    · exact ⟨a', .oneOf values a' hin ha', id⟩
    · obtain rfl := Option.some.inj hnotIn
      have ha' : set.memberAtom? identifier true operands' = some a' := ha'
      obtain ⟨a, ha, himp⟩ := OperatorSet.exists_implying_fewer_excluded hsubset h ha'
      exact ⟨a, .noneOf operands a hset ha, himp⟩
    · exact ⟨_, .null hnull, id⟩
    · exact ⟨_, .notNull hnotNull, id⟩

/-- Including more values relaxes a leaf. -/
theorem relaxes_including_more (hset : set.oneOf = some operands) (hsubset : operands ⊆ operands')
    (h : ∀ operand ∈ operands', operand.isTimestamp = false) :
    Relaxes scope (leaf column set) (leaf column { set with oneOf := some operands' }) := by
  refine relaxes_leaf (fun p => by cases p <;> rfl) (fun _ => ?_) ?_
  · simp [OperatorSet.constrains, hset]
  · rintro identifier a' (⟨c, operand, hc⟩ | ⟨p, text, hp⟩ | ⟨values, a', hin, ha'⟩ |
      ⟨values, a', hnotIn, ha'⟩ | hnull | hnotNull)
    · exact ⟨_, .comparison c operand hc, id⟩
    · exact ⟨_, .pattern p text hp, id⟩
    · obtain rfl := Option.some.inj hin
      have ha' : set.memberAtom? identifier false operands' = some a' := ha'
      obtain ⟨a, ha, himp⟩ := OperatorSet.exists_implying_more_included hsubset h ha'
      exact ⟨a, .oneOf operands a hset ha, himp⟩
    · exact ⟨a', .noneOf values a' hnotIn ha', id⟩
    · exact ⟨_, .null hnull, id⟩
    · exact ⟨_, .notNull hnotNull, id⟩

end Lists

/-! ## Places in a tree -/

/-- A filter with a hole in place of one of its parts. -/
inductive Context where
  /-- The hole. -/
  | hole
  /-- A group with the hole in one of its children. -/
  | group (junction : Junction) (before : List Filter) (inside : Context) (after : List Filter)

namespace Context

/-- The filter that comes of filling the hole. -/
def fill : Context → Filter → Filter
  | hole, filter => filter
  | group junction before inside after, filter =>
    .group junction (before ++ inside.fill filter :: after)

/-- `context.Drops f f'` holds if on the way to the hole there is a disjunction of which one member
asks for something with `f` in the hole and for nothing with `f'`, while another member still asks
for something. -/
inductive Drops (f f' : Filter) : Context → Prop where
  | here {before after : List Filter} {inside : Context} {other : Filter}
      (hbefore : (inside.fill f).contributes = true)
      (hafter : (inside.fill f').contributes = false) (hmem : other ∈ before ++ after)
      (hother : other.contributes = true) : Drops f f' (group .any before inside after)
  | inside {junction : Junction} {before after : List Filter} {inside : Context}
      (h : Drops f f' inside) : Drops f f' (group junction before inside after)

end Context

/-! ## Relaxing a part -/

theorem contributes_group_iff {junction : Junction} {children : List Filter} :
    (group junction children).contributes = true ↔
      ∃ child ∈ children, child.contributes = true := by
  rw [contributes_group, List.any_eq_true]

/-- A row passes a conjunction exactly if it passes each of its members. -/
theorem passes_all_iff {children : List Filter} :
    (group .all children).Passes scope ↔ ∀ child ∈ children, child.Passes scope := by
  constructor
  · intro hpasses child hmem hcontributes
    cases hpasses (contributes_group_iff.2 ⟨child, hmem, hcontributes⟩) with
    | all h => exact h child hmem hcontributes
  · exact fun h _ => .all fun child hmem hcontributes => h child hmem hcontributes

/-- A row passes a disjunction exactly if one of its members holds, or none asks for anything. -/
theorem passes_any_iff {children : List Filter} :
    (group .any children).Passes scope ↔
      ((∃ child ∈ children, child.contributes = true) →
        ∃ child ∈ children, child.contributes = true ∧ child.Holds (Atom.truth scope)) := by
  rw [Passes, contributes_group_iff]
  refine imp_congr_right fun _ => ⟨fun hholds => ?_, ?_⟩
  · cases hholds with
    | any child hmem hcontributes h => exact ⟨child, hmem, hcontributes, h⟩
  · rintro ⟨child, hmem, hcontributes, h⟩
    exact .any child hmem hcontributes h

/-- Relaxing a member relaxes a group, unless the member disappears from a disjunction that has
others. -/
theorem Relaxes.group {junction : Junction} {before after : List Filter} (h : Relaxes scope f f')
    (hstays : junction = .any → f.contributes = true → f'.contributes = false →
      ∀ other ∈ before ++ after, other.contributes = false) :
    Relaxes scope (.group junction (before ++ f :: after))
      (.group junction (before ++ f' :: after)) := by
  have hmem : ∀ child {g : Filter},
      child ∈ before ++ g :: after ↔ child = g ∨ child ∈ before ++ after :=
    fun child g => List.perm_middle.mem_iff.trans List.mem_cons
  constructor
  · simp only [compiles_group_iff, hmem, forall_eq_or_imp]
    exact And.imp_left h.compiles
  · simp only [contributes_group_iff, hmem, exists_eq_or_imp]
    exact Or.imp_left h.contributes
  · cases junction with
    | all =>
        simp only [passes_all_iff, hmem, forall_eq_or_imp]
        exact And.imp_left h.passes
    | any =>
        simp only [passes_any_iff, hmem, exists_eq_or_imp]
        intro hpasses hcontributes
        rcases hpasses (hcontributes.imp_left h.contributes) with ⟨hf, hholds⟩ | hother
        · cases hf' : f'.contributes with
          | true => exact .inl ⟨rfl, h.passes (fun _ => hholds) hf'⟩
          | false =>
              obtain ⟨other, hother, hcontributes⟩ := hcontributes.resolve_left (by simp [hf'])
              rw [hstays rfl hf hf' other hother] at hcontributes
              cases hcontributes
        · exact .inr hother

/-- Relaxing a part of a filter relaxes the filter, unless a disjunction loses a member. -/
theorem Relaxes.fill {context : Context} (h : Relaxes scope f f') (hdrops : ¬ context.Drops f f') :
    Relaxes scope (context.fill f) (context.fill f') := by
  induction context with
  | hole => exact h
  | group junction before inside after ih =>
      refine (ih fun hinside => hdrops (.inside hinside)).group ?_
      rintro rfl hbefore hafter other hmem
      by_contra hother
      exact hdrops (.here hbefore hafter hmem (Bool.not_eq_false _ ▸ hother))

/-- What asks for something in the hole makes the whole filter ask for it. -/
theorem Context.contributes_fill (context : Context) (h : f.contributes = true) :
    (context.fill f).contributes = true := by
  induction context with
  | hole => exact h
  | group junction before inside after ih =>
      exact contributes_group_iff.2 ⟨_, List.mem_append_right before List.mem_cons_self, ih⟩

/-- Nothing disappears while what is in the hole asks for something. -/
theorem Context.not_drops_of_contributes {context : Context} (h : f'.contributes = true) :
    ¬ context.Drops f f' := by
  intro hdrops
  induction hdrops with
  | here _ hafter _ _ =>
      rw [contributes_fill _ h] at hafter
      cases hafter
  | inside _ ih => exact ih

/-! ## Members that disappear -/

theorem conditions_append (before after : List Filter) :
    conditions (before ++ after) = (do
      let first ← conditions before
      return first ++ (← conditions after)) := by
  induction before with
  | nil =>
      rw [List.nil_append, conditions]
      cases conditions after <;> rfl
  | cons child before ih =>
      rw [List.cons_append, conditions, conditions, ih]
      cases child.condition? with
      | error error => rfl
      | ok condition =>
          cases conditions before with
          | error error => rfl
          | ok first =>
              cases conditions after with
              | error error => rfl
              | ok second => exact congrArg Except.ok (List.append_assoc ..).symm

/-- A member that asks for nothing is as good as not being there. -/
theorem condition?_of_none {junction : Junction} {before after : List Filter} {child : Filter}
    (h : child.condition? = .ok none) :
    (group junction (before ++ child :: after)).condition? =
      (group junction (before ++ after)).condition? := by
  have hchild : conditions (child :: after) = conditions after := by
    rw [conditions, h]
    cases conditions after <;> rfl
  rw [condition?, condition?, conditions_append, conditions_append, hchild]

/-! ## List operators -/

/-- Excluding fewer values loses no row, in any place of a tree, unless the list stands in a member
of a disjunction that asks for nothing without it, beside others that do: this member is then left
out.  Asking for one of more values loses no row.  The operands are no instants. -/
theorem list_operators_monotone (context : Context) (column : String) (set : OperatorSet)
    (operands operands' : List Operand) (scope : Scope) :
    (set.noneOf = some operands → operands' ⊆ operands →
      (∀ operand ∈ operands, operand.isTimestamp = false) →
      ¬ context.Drops (leaf column set) (leaf column { set with noneOf := some operands' }) →
      (context.fill (leaf column set)).Matches scope →
        (context.fill (leaf column { set with noneOf := some operands' })).Matches scope) ∧
    (∀ (junction : Junction) (before after : List Filter) (child : Filter),
      child.condition? = .ok none →
        (group junction (before ++ child :: after)).condition? =
          (group junction (before ++ after)).condition?) ∧
    (set.oneOf = some operands → operands ⊆ operands' →
      (∀ operand ∈ operands', operand.isTimestamp = false) →
      (context.fill (leaf column set)).Matches scope →
        (context.fill (leaf column { set with oneOf := some operands' })).Matches scope) := by
  refine ⟨fun hset hsubset htimes hdrops => ?_, fun _ _ _ _ => condition?_of_none,
    fun hset hsubset htimes => ?_⟩
  · exact ((relaxes_excluding_fewer hset hsubset htimes).fill hdrops).matches
  · refine ((relaxes_including_more hset hsubset htimes).fill ?_).matches
    exact Context.not_drops_of_contributes (by simp [OperatorSet.constrains])

/-- A row with a number in every column. -/
def everywhere (value : Int64) : Scope := fun _ => { cell := .integer value }

/-- One of two excluded values is no longer excluded, and one more value is included, beside another
member of a disjunction. -/
theorem list_operators_monotone_beside_equality :
    let context (value : Int64) : Context :=
      .group .any [] .hole [.leaf "id" (.ofComparison .eq (.integer value))]
    let excluding (values : List Int64) : Filter := .leaf "id" (.ofNoneOf (values.map .integer))
    let including (values : List Int64) : Filter := .leaf "id" (.ofOneOf (values.map .integer))
    ((context 2).fill (excluding [1, 2])).Matches (everywhere 3) ∧
      ((context 2).fill (excluding [2])).Matches (everywhere 3) ∧
      ((context 2).fill (including [1])).Matches (everywhere 1) ∧
      ((context 2).fill (including [3, 1])).Matches (everywhere 1) := by
  intro context excluding including
  have hexcluding : ((context 2).fill (excluding [1, 2])).Matches (everywhere 3) := by
    refine ⟨_, rfl, ?_⟩
    rintro _ ⟨⟩
    exact ⟨_, rfl, rfl⟩
  have hincluding : ((context 2).fill (including [1])).Matches (everywhere 1) := by
    refine ⟨_, rfl, ?_⟩
    rintro _ ⟨⟩
    exact ⟨_, rfl, rfl⟩
  have hdrops : ¬ (context 2).Drops (excluding [1, 2]) (excluding [2]) :=
    Context.not_drops_of_contributes rfl
  obtain ⟨hfewer, -, -⟩ := list_operators_monotone (context 2) "id"
    (.ofNoneOf [.integer 1, .integer 2]) [.integer 1, .integer 2] [.integer 2] (everywhere 3)
  obtain ⟨-, -, hmore⟩ := list_operators_monotone (context 2) "id" (.ofOneOf [.integer 1])
    [.integer 1] [.integer 3, .integer 1] (everywhere 1)
  exact ⟨hexcluding, hfewer rfl (by decide) (by decide) hdrops hexcluding,
    hincluding, hmore rfl (by decide) (by decide) hincluding⟩

/-- Excluding nothing can lose a row: a disjunction of excluding 1 and asking for 2 matches 3, but
without the excluded value only 2 is left to match. -/
theorem excluding_nothing_loses_rows :
    ¬ ∀ (context : Context) (column : String) (set : OperatorSet)
        (operands operands' : List Operand) (scope : Scope),
        set.noneOf = some operands → operands'.Sublist operands →
        (∀ operand ∈ operands, operand ≠ .null ∧ operand.isTimestamp = false) →
        (context.fill (leaf column set)).Matches scope →
          (context.fill (leaf column { set with noneOf := some operands' })).Matches scope := by
  intro h
  have hmatches := h (.group .any [] .hole [.leaf "id" (.ofComparison .eq (.integer 2))]) "id"
    (.ofNoneOf [.integer 1]) [.integer 1] [] (everywhere 3) rfl (List.nil_sublist _) (by decide) (by
      refine ⟨_, rfl, ?_⟩
      rintro _ ⟨⟩
      exact ⟨_, rfl, rfl⟩)
  obtain ⟨result, hresult, hmatches⟩ := hmatches
  obtain rfl := Except.ok.inj hresult
  obtain ⟨f, hf, htrue⟩ := hmatches _ rfl
  obtain rfl := Option.some.inj hf
  cases htrue

end Filter

end TableQuery
