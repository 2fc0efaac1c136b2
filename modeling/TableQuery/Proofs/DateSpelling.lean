import TableQuery.Proofs.DateConversion
import TableQuery.Proofs.FilterTree
import TableQuery.Proofs.WrittenInstants

/-!
# Spellings of date operands

An instant can be an operand as it is, or spelled as a text in many ways: by any clock, in letters
of either case, with zeros and further digits after its fraction, with blanks around it.  None of
that survives conversion.  What a filter compiles to depends on the instants alone, and where it
compares, both sides are moments in the form that the database compares as such; no date is ever
compared as a text.

## Main results

* `Operand.denotes_iff` — an operand denotes the instant that it is converted to.
* `DateOperatorSet.toGeneric_congr` — sets that differ in spelling are converted alike.
* `DateOperatorSet.comparesMoments_of_mem_atoms` — what the conditions of a converted set are.
* `date_spelling_is_immaterial` — both together.
-/

namespace TableQuery

/-! ## Operands of the same instant -/

/-- `operand.Denotes instant` holds if an operand is an instant or a text that spells it. -/
inductive Operand.Denotes : Operand → Time.Instant → Prop where
  | timestamp (instant : Time.Instant) : Denotes (.timestamp instant) instant
  | text {value : String} {instant : Time.Instant} (h : instant.SpelledBy value) :
      Denotes (.text value) instant

/-- An operand denotes the instant that it is converted to. -/
theorem Operand.denotes_iff {operand : Operand} {instant : Time.Instant} :
    operand.Denotes instant ↔ operand.instant? = some instant := by
  constructor
  · intro h
    cases h with
    | timestamp => rfl
    | text h => exact Time.Instant.ofText?_eq_some_iff.2 h
  · intro h
    cases operand with
    | timestamp value => exact Option.some.inj h ▸ .timestamp value
    | text value => exact .text (Time.Instant.ofText?_eq_some_iff.1 h)
    | null | boolean | integer | float => cases h

/-- `a.Respells b` holds if two operands are the same or denote the same instant. -/
def Operand.Respells (a b : Operand) : Prop :=
  a = b ∨ ∃ instant, a.Denotes instant ∧ b.Denotes instant

theorem dateOperand_congr {a b : Operand} (h : a.Respells b) (operator : String) :
    dateOperand operator a = dateOperand operator b := by
  rcases h with rfl | ⟨instant, ha, hb⟩
  · rfl
  · rw [dateOperand_of_instant (Operand.denotes_iff.1 ha),
      dateOperand_of_instant (Operand.denotes_iff.1 hb)]

/-- Two date operator sets have the same operators and differ in the spelling of instants only. -/
def DateOperatorSet.Respells (set other : DateOperatorSet) : Prop :=
  set.Corresponds (fun _ a b => a.Respells b) other.toValueOperators

/-- Sets that differ in the spelling of instants are converted alike. -/
theorem DateOperatorSet.toGeneric_congr {set other : DateOperatorSet} (h : set.Respells other) :
    set.toGeneric = other.toGeneric := by
  have hoperands := ValueOperators.mapM_congr
    (h.imp fun operator _ _ hab => dateOperand_congr hab operator)
  rw [toGeneric, toGeneric, hoperands]

/-! ## Conditions of a converted set -/

/-- `ComparesMoments column text values` holds if the text of a condition on a column, with the
values of its placeholders, is a null check, is false in every row, or compares the moment of the
column with the moments of instants. -/
inductive ComparesMoments (column : String) : String → List Operand → Prop where
  | null (negated : Bool) :
      ComparesMoments column (column ++ if negated then " IS NOT NULL" else " IS NULL") []
  | never : ComparesMoments column "1 = 0" []
  | compare (comparator : Comparator) (instant : Time.Instant) :
      ComparesMoments column
        ("julianday(" ++ column ++ ")" ++ " " ++ comparator.sql ++ " " ++ "julianday(?)")
        [.timestamp instant]
  | among (negated : Bool) {instants : List Time.Instant} (hne : instants ≠ []) :
      ComparesMoments column
        ("julianday(" ++ column ++ ")" ++ (if negated then " NOT IN (" else " IN (") ++
          ", ".intercalate (instants.map fun _ => "julianday(?)") ++ ")")
        (instants.map .timestamp)

theorem exists_of_rel_some {α β : Type} {R : α → β → Prop} {a? : Option α} {b : β}
    (h : Option.Rel R a? (some b)) : ∃ a, R a b := by
  cases h with
  | some hab => exact ⟨_, hab⟩

namespace DateOperatorSet

variable {set : DateOperatorSet} {operators : OperatorSet} {column : Identifier}

/-- A converted list holds instants only. -/
theorem exists_instants {operands converted : List Operand}
    (h : List.Forall₂ (fun operand converted => ∃ instant, operand.instant? = some instant ∧
      converted = .timestamp instant) operands converted) :
    ∃ instants : List Time.Instant, converted = instants.map .timestamp := by
  induction h with
  | nil => exact ⟨[], rfl⟩
  | cons hab _ ih =>
      obtain ⟨instant, -, rfl⟩ := hab
      obtain ⟨instants, rfl⟩ := ih
      exact ⟨instant :: instants, rfl⟩

theorem comparesMoments_comparisonAtom (c : Comparison) (instant : Time.Instant) :
    ComparesMoments column.name (operators.comparisonAtom column c (.timestamp instant)).sql
      (operators.comparisonAtom column c (.timestamp instant)).values := by
  have hatom : operators.comparisonAtom column c (.timestamp instant) =
      .compare ⟨column, .julianDay⟩ c.comparator ⟨.timestamp instant, .julianDay⟩ := by
    cases c <;> rfl
  rw [hatom]
  exact .compare c.comparator instant

theorem comparesMoments_memberAtom? {negated : Bool} {instants : List Time.Instant} {a : Atom}
    (h : operators.memberAtom? column negated (instants.map .timestamp) = some a) :
    ComparesMoments column.name a.sql a.values := by
  unfold OperatorSet.memberAtom? at h
  by_cases hne : instants = []
  · subst hne
    cases negated with
    | true => cases h
    | false =>
        obtain rfl := Option.some.inj h
        exact .never
  · have hsome : ¬ (instants.map Operand.timestamp).isEmpty = true := by
      simpa [List.isEmpty_iff] using hne
    have hall : (instants.map Operand.timestamp).all Operand.isTimestamp = true := by
      simp [Operand.isTimestamp]
    rw [if_neg hsome, if_pos hall] at h
    obtain rfl := Option.some.inj h
    have hbounds : ((instants.map Operand.timestamp).map fun operand =>
        Bound.mk operand .julianDay).map Bound.sql = instants.map fun _ => "julianday(?)" := by
      rw [List.map_map, List.map_map]
      rfl
    have hvalues : ((instants.map Operand.timestamp).map fun operand =>
        Bound.mk operand .julianDay).map Bound.value = instants.map .timestamp := by
      rw [List.map_map, List.map_map]
      rfl
    rw [Atom.sql, Atom.values, hbounds, hvalues]
    exact .among negated hne

/-- The conditions of a converted set compare moments. -/
theorem comparesMoments_of_mem_atoms {atoms : List Atom} (h : set.toGeneric = .ok operators)
    (hatoms : operators.atoms column = .ok atoms) {a : Atom} (ha : a ∈ atoms) :
    ComparesMoments column.name a.sql a.values := by
  obtain ⟨⟨hcomparison, honeOf, hnoneOf, -, -⟩, hpattern, -⟩ := toGeneric_eq_ok_iff.1 h
  cases (OperatorSet.mem_atoms_iff hatoms a).1 ha with
  | comparison c operand hc =>
      have hrel := hcomparison c
      rw [hc] at hrel
      obtain ⟨_, instant, -, rfl⟩ := exists_of_rel_some hrel
      exact comparesMoments_comparisonAtom c instant
  | pattern p text hp =>
      rw [hpattern p] at hp
      cases hp
  | oneOf operands _ hlist ha =>
      rw [hlist] at honeOf
      obtain ⟨_, hstamps⟩ := exists_of_rel_some honeOf
      obtain ⟨instants, rfl⟩ := exists_instants hstamps
      exact comparesMoments_memberAtom? ha
  | noneOf operands _ hlist ha =>
      rw [hlist] at hnoneOf
      obtain ⟨_, hstamps⟩ := exists_of_rel_some hnoneOf
      obtain ⟨instants, rfl⟩ := exists_instants hstamps
      exact comparesMoments_memberAtom? ha
  | null => exact .null false
  | notNull => exact .null true

/-- A converted set compiles to its conditions. -/
theorem exists_atoms (h : set.toGeneric = .ok operators) (column : Identifier) :
    ∃ atoms, operators.atoms column = .ok atoms ∧
      (Filter.leaf column.name operators).condition? =
        .ok (Condition.join? .all (atoms.map Condition.atom)) := by
  have hpattern := (toGeneric_eq_ok_iff.1 h).pattern
  obtain ⟨atoms, hatoms⟩ : ∃ atoms, operators.atoms column = .ok atoms :=
    ⟨_, OperatorSet.atoms_eq_ok_iff.2
      ⟨fun p operand hp => (nomatch (hpattern p).symm.trans hp), rfl⟩⟩
  exact ⟨atoms, hatoms, Filter.condition?_leaf_eq_ok_iff.2
    ⟨_, _, Identifier.check_of_valid column.valid, hatoms, rfl⟩⟩

/-- The condition of a leaf that asks for a date operator set. -/
def leafCondition? (set : DateOperatorSet) (column : String) :
    Except QueryError (Option Condition) := do
  (Filter.leaf column (← set.toGeneric)).condition?

end DateOperatorSet

/-- Date operator sets that differ in the spelling of instants only are converted alike, and so
compile to the same condition with the same values.  Every set that is converted compiles to
conditions joined by `AND`, each of which is a null check, is false in every row, or compares the
moment of the column with moments of instants. -/
theorem date_spelling_is_immaterial (set : DateOperatorSet) :
    (∀ other : DateOperatorSet, set.Respells other →
      other.toGeneric = set.toGeneric ∧
      ∀ column, other.leafCondition? column = set.leafCondition? column) ∧
    ∀ operators, set.toGeneric = .ok operators →
      ∀ column : String, isIdentifier column.toList = true →
        ∃ atoms : List Atom, (∀ a ∈ atoms, ComparesMoments column a.sql a.values) ∧
          set.leafCondition? column = .ok (Condition.join? .all (atoms.map .atom)) ∧
          ∀ condition, Condition.join? .all (atoms.map .atom) = some condition →
            condition.sql = " AND ".intercalate (atoms.map Atom.sql) ∧
            condition.values = atoms.flatMap Atom.values := by
  refine ⟨fun other h => ?_, fun operators h column hcolumn => ?_⟩
  · have hsame := DateOperatorSet.toGeneric_congr h
    refine ⟨hsame.symm, fun column => ?_⟩
    rw [DateOperatorSet.leafCondition?, DateOperatorSet.leafCondition?, hsame]
  · obtain ⟨atoms, hatoms, hcondition⟩ := DateOperatorSet.exists_atoms h ⟨column, hcolumn⟩
    refine ⟨atoms, fun a ha => DateOperatorSet.comparesMoments_of_mem_atoms h hatoms ha, ?_,
      fun condition hjoin => ⟨Condition.sql_of_join?_atoms hjoin, ?_⟩⟩
    · rw [DateOperatorSet.leafCondition?, h]
      exact hcondition
    · rw [Condition.values_of_join? hjoin, List.flatMap_map]
      rfl

/-- The first hour of a year by a clock ahead of Universal Time, and a leap second, each as an
instant in one set and as a text in the other. -/
theorem date_spelling_is_immaterial_offset :
    let newYear : Time.Instant := ⟨1577835000, 500000000, .inl (by decide)⟩
    let leap : Time.Instant := ⟨1483228799, 1000000000, .inr (by decide)⟩
    let set : DateOperatorSet :=
      { gte := some (.text "2020-01-01t00:30:00.5000000009+01:00 "),
        oneOf := some [.timestamp leap] }
    let other : DateOperatorSet :=
      { gte := some (.timestamp newYear), oneOf := some [.text "2016-12-31 23:59:60z"] }
    set.Respells other ∧
      other.toGeneric = set.toGeneric ∧
      set.toGeneric = .ok { gte := some (.timestamp newYear), oneOf := some [.timestamp leap] } ∧
      isIdentifier "created_at".toList = true ∧
      ∃ atoms : List Atom, (∀ a ∈ atoms, ComparesMoments "created_at" a.sql a.values) ∧
        set.leafCondition? "created_at" = .ok (Condition.join? .all (atoms.map .atom)) := by
  intro newYear leap set other
  have hnewYear : newYear.SpelledBy "2020-01-01t00:30:00.5000000009+01:00 " :=
    Time.Instant.ofText?_eq_some_iff.1 (by decide +kernel)
  have hleap : leap.SpelledBy "2016-12-31 23:59:60z" :=
    Time.Instant.ofText?_eq_some_iff.1 (by decide +kernel)
  have hrespells : set.Respells other := by
    refine ⟨fun c => ?_, .some (.cons (.inr ⟨leap, .timestamp leap, .text hleap⟩) .nil), .none, rfl,
      rfl⟩
    cases c with
    | gte => exact .some (.inr ⟨newYear, .text hnewYear, .timestamp newYear⟩)
    | eq | notEq | notGte | gt | notGt | lte | notLte | lt | notLt => exact .none
  have hset : set.toGeneric =
      .ok { gte := some (.timestamp newYear), oneOf := some [.timestamp leap] } := by
    decide +kernel
  have hcolumn : isIdentifier "created_at".toList = true := by decide
  obtain ⟨halike, hcompiles⟩ := date_spelling_is_immaterial set
  obtain ⟨atoms, hatoms, hcondition, -⟩ := hcompiles _ hset "created_at" hcolumn
  exact ⟨hrespells, (halike other hrespells).1, hset, hcolumn, atoms, hatoms, hcondition⟩

end TableQuery
