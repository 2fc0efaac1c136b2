import Mathlib.Algebra.Order.Monoid.Unbundled.Basic
import TableQuery.Database.Formula
import TableQuery.OperatorSet.Dates
import TableQuery.Proofs.DayNumbers
import TableQuery.Proofs.FilterTree
import TableQuery.Proofs.WrittenInstants

/-!
# Filters on dates

A date operator is to compare instants.  What it does compare are the moments that the database
reads from two texts: that of the operand, which goes through `Instant.ofText?` and is written
again, and that of the row.  Both are rounded to milliseconds on the way, and an instant that is not
read (`Instant.Readable`) becomes a null, which no operator matches.  A moment is then a number of
days, in which the order of the milliseconds is kept (`JulianDay.compare_toDays`).

So a date operator is right about two instants exactly if both are readable and the rounding does
not make them equal.  It is wrong about instants of the same millisecond, about an operand in a leap
second, and about one past the last millisecond of the year 9999, which an offset can bring about.

## Main results

* `JulianDay.ofText?_text_eq` — an instant is read exactly if it is readable.
* `DateOperator.matches_iff` — which rows an operator matches.
* `DateOperator.matches_order_iff` — for which instants that is what was asked for.
* `date_operators_compare_milliseconds` — all of this together.
* `date_operators_confuse_instants` — instants that it is wrong about.
-/

namespace TableQuery

open Time

/-! ## Readable instants -/

namespace Time.Instant

/-- An instant that the database reads back: no leap second, and not past the last millisecond. -/
def Readable (instant : Instant) : Prop :=
  instant.nanos < nanosPerSecond ∧ JulianDay.epoch + instant.millis ≤ JulianDay.last

instance (instant : Instant) : Decidable instant.Readable := inferInstanceAs (Decidable (_ ∧ _))

/-- The start of the day before the year 0; offsets bring no written instant before it. -/
def earliestSecond : Int := -719529 * 86400

/-- The order of instants. -/
def order (a b : Instant) : Ordering :=
  (compare a.seconds b.seconds).then (compare a.nanos b.nanos)

theorem earliestSecond_le_of_year {instant : Instant} (h : 0 ≤ instant.date.year) :
    earliestSecond ≤ instant.seconds := by
  have hbefore := Date.year_ofDayNumber_lt_iff (instant.seconds / 86400) 0
  have hyear : ¬ (Date.ofDayNumber (instant.seconds / 86400)).year < 400 * 0 := Int.not_lt.2 h
  rw [hbefore] at hyear
  unfold earliestSecond
  omega

/-- No text denotes an instant more than a day before the year 0. -/
theorem earliestSecond_le_of_ofText? {text : String} {instant : Instant}
    (h : ofText? text = some instant) : earliestSecond ≤ instant.seconds := by
  obtain ⟨_, _, _, -, -, -, hnames⟩ := ofText?_eq_some_iff.1 h
  obtain ⟨hdate, hexists, -, -, -, -, -, -, -, -, hzone, hwhole, -⟩ := hnames
  have hday := Date.le_dayNumber hexists hdate.zero_le_year
  have hclock := hzone.lt
  unfold earliestSecond
  omega

/-- The first instants are later than day zero. -/
theorem moment_nonneg {instant : Instant} (h : earliestSecond ≤ instant.seconds) :
    0 ≤ JulianDay.epoch + instant.millis := by
  unfold earliestSecond at h
  unfold JulianDay.epoch millis
  omega

theorem order_eq_lt_iff {a b : Instant} :
    a.order b = .lt ↔ a.seconds < b.seconds ∨ a.seconds = b.seconds ∧ a.nanos < b.nanos := by
  unfold order
  rw [Ordering.then_eq_lt, Int.compare_eq_lt, Std.compare_eq_iff_eq, Nat.compare_eq_lt]

theorem order_swap (a b : Instant) : (a.order b).swap = b.order a := by
  unfold order
  rw [Ordering.swap_then, Int.compare_swap, Nat.compare_swap]

theorem order_eq_eq_iff {a b : Instant} : a.order b = .eq ↔ a = b := by
  unfold order
  rw [Ordering.then_eq_eq, Std.compare_eq_iff_eq, Std.compare_eq_iff_eq]
  obtain ⟨seconds, nanos, _⟩ := a
  obtain ⟨seconds', nanos', _⟩ := b
  exact (Instant.mk.injEq ..).symm ▸ Iff.rfl

theorem millis_le_of_order_eq_lt {a b : Instant} (ha : a.nanos < nanosPerSecond)
    (h : a.order b = .lt) : a.millis ≤ b.millis := by
  unfold nanosPerSecond at ha
  unfold millis
  rcases order_eq_lt_iff.1 h with h | ⟨h, hnanos⟩ <;> omega

/-- Milliseconds order two instants as they are, unless they make them equal. -/
theorem compare_millis_eq_order {a b : Instant} (ha : a.nanos < nanosPerSecond)
    (hb : b.nanos < nanosPerSecond) (hdiffer : a.millis = b.millis → a = b) :
    compare a.millis b.millis = a.order b := by
  cases horder : a.order b with
  | eq =>
      obtain rfl := order_eq_eq_iff.1 horder
      exact Std.compare_eq_iff_eq.2 rfl
  | lt =>
      have hle := millis_le_of_order_eq_lt ha horder
      have hne : a.millis ≠ b.millis := by
        intro heq
        rw [order_eq_eq_iff.2 (hdiffer heq)] at horder
        cases horder
      exact Int.compare_eq_lt.2 (by omega)
  | gt =>
      have hswapped : b.order a = .lt := by
        rw [← order_swap, horder]
        rfl
      have hle := millis_le_of_order_eq_lt hb hswapped
      have hne : a.millis ≠ b.millis := by
        intro heq
        rw [order_eq_eq_iff.2 (hdiffer heq)] at horder
        cases horder
      exact Int.compare_eq_gt.2 (by omega)

end Time.Instant

namespace JulianDay

/-- The text of an instant is read exactly if it is readable, and then as its millisecond. -/
theorem ofText?_text_eq {instant : Instant} (h : Instant.earliestSecond ≤ instant.seconds) :
    ofText? instant.text =
      if instant.Readable then some (epoch + instant.millis) else none := by
  have hday : -719529 ≤ instant.seconds / 86400 := by
    unfold Instant.earliestSecond at h
    omega
  have hfirst : -9999 ≤ instant.date.year := by
    have hbefore := Date.year_ofDayNumber_lt_iff (instant.seconds / 86400) (-1)
    have hyear : ¬ (Date.ofDayNumber (instant.seconds / 86400)).year < 400 * -1 := by omega
    show -9999 ≤ (Date.ofDayNumber (instant.seconds / 86400)).year
    omega
  have hpast := Date.year_ofDayNumber_lt_iff (instant.seconds / 86400) 25
  have hzero := Instant.moment_nonneg h
  rw [ofText?_text instant hfirst]
  by_cases hreadable : instant.Readable
  · have hlate : instant.date.year ≤ 9999 := by
      have hlast := hreadable.2
      unfold epoch last Instant.millis at hlast
      show (Date.ofDayNumber (instant.seconds / 86400)).year ≤ 9999
      omega
    rw [if_pos ⟨hlate, hreadable.1⟩, if_pos hreadable]
    exact if_pos ⟨hzero, hreadable.2⟩
  · rw [if_neg hreadable]
    split
    · next hread => exact if_neg fun hrange => hreadable ⟨hread.2, hrange.2⟩
    · rfl

end JulianDay

/-! ## Operators on dates -/

/-- The operators of a date column that have an operand; lists are of one element. -/
inductive DateOperator where
  | comparison (c : Comparison)
  | oneOf
  | noneOf

namespace DateOperator

/-- The set of one operator. -/
def ask (operator : DateOperator) (operand : Operand) : DateOperatorSet :=
  match operator with
  | comparison c => { toValueOperators := ValueOperators.setComparison {} c (some operand) }
  | oneOf => { oneOf := some [operand] }
  | noneOf => { noneOf := some [operand] }

/-- How an operator compares a column with its operand. -/
def comparator : DateOperator → Comparator
  | comparison c => c.comparator
  | oneOf => .equal
  | noneOf => .notEqual

end DateOperator

/-- `set.Matches column scope` holds if the leaf that asks for a date operator set compiles, and the
condition that it becomes is true in a row with these values. -/
def DateOperatorSet.Matches (set : DateOperatorSet) (column : String) (scope : Scope) : Prop :=
  ∃ operators condition formula, set.toGeneric = .ok operators ∧
    (Filter.leaf column operators).condition? = .ok (some condition) ∧
    condition.formula? (fun _ _ => none) = some formula ∧ formula.truth scope = some true

namespace DateOperator

theorem toGeneric_ask (operator : DateOperator) {text : String} {instant : Instant}
    (h : Instant.ofText? text = some instant) :
    (operator.ask (.text text)).toGeneric =
      .ok { toValueOperators := (operator.ask (.timestamp instant)).toValueOperators } := by
  have hread : ∀ name, dateOperand name (.text text) = .ok (.timestamp instant) := by
    intro name
    simp only [dateOperand, h]
  rcases operator with c | _ | _
  on_goal 1 => cases c
  all_goals
    simp [ask, DateOperatorSet.toGeneric, ValueOperators.mapM, ValueOperators.setComparison, hread,
      pure, Except.pure, bind, Except.bind]

/-- The condition that an operator becomes. -/
def atom (operator : DateOperator) (column : Identifier) (instant : Instant) : Atom :=
  let moment : Bound := ⟨.timestamp instant, .julianDay⟩
  match operator with
  | comparison c => .compare ⟨column, .julianDay⟩ c.comparator moment
  | oneOf => .among ⟨column, .julianDay⟩ false [moment]
  | noneOf => .among ⟨column, .julianDay⟩ true [moment]

theorem atoms_ask (operator : DateOperator) (column : Identifier) (instant : Instant) :
    OperatorSet.atoms { toValueOperators := (operator.ask (.timestamp instant)).toValueOperators }
      column = .ok [operator.atom column instant] := by
  rcases operator with c | _ | _
  · cases c <;> rfl
  · rfl
  · rfl

/-- Every operator compares two moments; lists of one element do it as `=` and `<>` do. -/
theorem truth_atom (operator : DateOperator) (column : Identifier) (instant : Instant)
    (scope : Scope) :
    (operator.atom column instant).formula.truth scope =
      operator.comparator.decide ⟨momentCell (scope column.name).cell, none⟩
        ⟨momentCell (.text instant.text), none⟩ := by
  have hlist : ∀ left right : Datum,
      Truth.anyOf [Comparator.equal.decide left right] = Comparator.equal.decide left right ∧
        Truth.not (Truth.anyOf [Comparator.equal.decide left right]) =
          Comparator.notEqual.decide left right := by
    intro left right
    unfold Comparator.decide
    rcases left.compare? right with _ | _ | _ | _ <;> exact ⟨rfl, rfl⟩
  have hamong := Formula.truth_among_bound scope (.julianDay (.column column.name))
    [⟨.timestamp instant, .julianDay⟩]
  cases operator with
  | comparison c => rfl
  | oneOf => exact hamong.trans (hlist _ _).1
  | noneOf => exact (congrArg Truth.not hamong).trans (hlist _ _).2

end DateOperator

/-! ## Moments of two instants -/

theorem momentCell_text {instant : Instant} (h : Instant.earliestSecond ≤ instant.seconds) :
    momentCell (.text instant.text) =
      if instant.Readable then .real (JulianDay.toDays (JulianDay.epoch + instant.millis))
      else .null := by
  rw [momentCell, JulianDay.ofCell?, JulianDay.ofText?_text_eq h]
  by_cases hread : instant.Readable
  · simp only [if_pos hread]
  · simp only [if_neg hread]

/-- Two texts compare as the milliseconds of their instants, unless one of them is not read. -/
theorem compare?_moments {a b : Instant} (ha : Instant.earliestSecond ≤ a.seconds)
    (hb : Instant.earliestSecond ≤ b.seconds) :
    Datum.compare? ⟨momentCell (.text a.text), none⟩ ⟨momentCell (.text b.text), none⟩ =
      if a.Readable ∧ b.Readable then some (compare a.millis b.millis) else none := by
  rw [momentCell_text ha, momentCell_text hb]
  by_cases hreadA : a.Readable
  · by_cases hreadB : b.Readable
    · have hshift : compare (JulianDay.epoch + a.millis) (JulianDay.epoch + b.millis) =
          compare a.millis b.millis :=
        (cmp_eq_compare _ _).symm.trans ((cmp_add_left _ _ _).trans (cmp_eq_compare _ _))
      rw [if_pos hreadA, if_pos hreadB, if_pos ⟨hreadA, hreadB⟩, ← hshift,
        ← JulianDay.compare_toDays (Instant.moment_nonneg ha) hreadA.2
          (Instant.moment_nonneg hb) hreadB.2]
      rfl
    · have hboth : ¬ (a.Readable ∧ b.Readable) := fun hread => hreadB hread.2
      rw [if_pos hreadA, if_neg hreadB, if_neg hboth]
      rfl
  · have hboth : ¬ (a.Readable ∧ b.Readable) := fun hread => hreadA hread.1
    rw [if_neg hreadA, if_neg hboth]
    rfl

/-- Of the operators `<`, `=` and `>`, exactly one holds in an order. -/
theorem existsUnique_comparison (order : Ordering) :
    ∃! c, c ∈ [Comparison.lt, .eq, .gt] ∧ c.comparator.holds order = true := by
  cases order
  · exact ⟨.lt, by decide, fun c => by cases c <;> decide⟩
  · exact ⟨.eq, by decide, fun c => by cases c <;> decide⟩
  · exact ⟨.gt, by decide, fun c => by cases c <;> decide⟩

/-! ## Which rows match -/

section Matching

variable {column text : String} {scope : Scope} {stored asked : Instant}

namespace DateOperator

/-- A leaf of one operator compiles to the condition of that operator. -/
theorem matches_iff_truth (operator : DateOperator) (hcolumn : isIdentifier column.toList = true)
    (hasked : Instant.ofText? text = some asked) :
    (operator.ask (.text text)).Matches column scope ↔
      (operator.atom ⟨column, hcolumn⟩ asked).formula.truth scope = some true := by
  constructor
  · rintro ⟨operators, condition, formula, hset, hcondition, hformula, htrue⟩
    obtain rfl := Except.ok.inj ((toGeneric_ask operator hasked).symm.trans hset)
    obtain ⟨column', atoms, hcheck, hatoms, hjoin⟩ :=
      Filter.condition?_leaf_eq_ok_iff.1 hcondition
    obtain rfl := Except.ok.inj ((Identifier.check_of_valid hcolumn).symm.trans hcheck)
    obtain rfl := Except.ok.inj ((atoms_ask operator _ asked).symm.trans hatoms)
    obtain rfl := Option.some.inj hjoin
    obtain rfl := Option.some.inj hformula
    exact htrue
  · intro htrue
    exact ⟨_, _, _, toGeneric_ask operator hasked,
      Filter.condition?_leaf_eq_ok_iff.2
        ⟨_, _, Identifier.check_of_valid hcolumn, atoms_ask operator _ asked, rfl⟩, rfl, htrue⟩

/-- An operator matches an instant exactly if both instants are readable, and their milliseconds
compare as the operator has it. -/
theorem matches_iff (operator : DateOperator) (hcolumn : isIdentifier column.toList = true)
    (hasked : Instant.ofText? text = some asked) (hyear : 0 ≤ stored.date.year)
    (hcell : (scope column).cell = .text stored.text) :
    (operator.ask (.text text)).Matches column scope ↔
      stored.Readable ∧ asked.Readable ∧
        operator.comparator.holds (compare stored.millis asked.millis) = true := by
  rw [matches_iff_truth operator hcolumn hasked, truth_atom, Comparator.decide, hcell,
    compare?_moments (Instant.earliestSecond_le_of_year hyear)
      (Instant.earliestSecond_le_of_ofText? hasked)]
  split
  · next hread => simp [hread]
  · next hread =>
      simp only [Option.map_none, reduceCtorEq, false_iff]
      exact fun h => hread ⟨h.1, h.2.1⟩

/-- All operators are right about two instants exactly if both are readable, and the same
millisecond does not hold two of them. -/
theorem matches_order_iff (hcolumn : isIdentifier column.toList = true)
    (hasked : Instant.ofText? text = some asked) (hyear : 0 ≤ stored.date.year)
    (hcell : (scope column).cell = .text stored.text) :
    (∀ operator : DateOperator, (operator.ask (.text text)).Matches column scope ↔
        operator.comparator.holds (stored.order asked) = true) ↔
      stored.Readable ∧ asked.Readable ∧ (stored.millis = asked.millis → stored = asked) := by
  simp only [fun operator : DateOperator => operator.matches_iff hcolumn hasked hyear hcell]
  constructor
  · intro hright
    -- Some operator holds in the order that the instants have, so it matches.
    obtain ⟨c, ⟨-, hc⟩, -⟩ := existsUnique_comparison (stored.order asked)
    obtain ⟨hstored, hasked, -⟩ := (hright (.comparison c)).2 hc
    refine ⟨hstored, hasked, fun hmillis => ?_⟩
    have hequal := (hright (.comparison .eq)).1
      ⟨hstored, hasked, by rw [Std.compare_eq_iff_eq.2 hmillis]; rfl⟩
    exact Instant.order_eq_eq_iff.1 (Ordering.isEq_iff_eq_eq.1 hequal)
  · rintro ⟨hstored, hasked, hdiffer⟩ operator
    rw [Instant.compare_millis_eq_order hstored.1 hasked.1 hdiffer]
    exact ⟨fun h => h.2.2, fun h => ⟨hstored, hasked, h⟩⟩

/-- One of `<`, `=` and `>` matches exactly if both instants are readable. -/
theorem existsUnique_matches_iff (hcolumn : isIdentifier column.toList = true)
    (hasked : Instant.ofText? text = some asked) (hyear : 0 ≤ stored.date.year)
    (hcell : (scope column).cell = .text stored.text) :
    (∃! c, c ∈ [Comparison.lt, .eq, .gt] ∧
        ((comparison c).ask (.text text)).Matches column scope) ↔
      stored.Readable ∧ asked.Readable := by
  simp only [fun operator : DateOperator => operator.matches_iff hcolumn hasked hyear hcell]
  constructor
  · rintro ⟨c, ⟨-, hstored, hasked, -⟩, -⟩
    exact ⟨hstored, hasked⟩
  · rintro ⟨hstored, hasked⟩
    simp only [hstored, hasked, true_and]
    exact existsUnique_comparison _

end DateOperator

/-- A date operator compares the milliseconds of two readable instants, and matches nothing if one
of them is not readable.  It is right about two instants exactly if both are readable and are not
different ones of the same millisecond, and where one is not readable, none of `<`, `=` and `>`
matches. -/
theorem date_operators_compare_milliseconds (hcolumn : isIdentifier column.toList = true)
    (hasked : Instant.ofText? text = some asked) (hyear : 0 ≤ stored.date.year)
    (hcell : (scope column).cell = .text stored.text) :
    (∀ operator : DateOperator, (operator.ask (.text text)).Matches column scope ↔
      stored.Readable ∧ asked.Readable ∧
        operator.comparator.holds (compare stored.millis asked.millis) = true) ∧
    ((∀ operator : DateOperator, (operator.ask (.text text)).Matches column scope ↔
        operator.comparator.holds (stored.order asked) = true) ↔
      stored.Readable ∧ asked.Readable ∧ (stored.millis = asked.millis → stored = asked)) ∧
    ((∃! c, c ∈ [Comparison.lt, .eq, .gt] ∧
        ((DateOperator.comparison c).ask (.text text)).Matches column scope) ↔
      stored.Readable ∧ asked.Readable) :=
  ⟨fun operator => operator.matches_iff hcolumn hasked hyear hcell,
    DateOperator.matches_order_iff hcolumn hasked hyear hcell,
    DateOperator.existsUnique_matches_iff hcolumn hasked hyear hcell⟩

/-- An operand of another offset, half a second after the instant of the row. -/
theorem date_operators_compare_milliseconds_offset :
    Instant.ofText? "2020-01-01T01:00:00.75+01:00" =
        some ⟨1577836800, 750000000, .inl (by decide)⟩ ∧
      ∀ operator : DateOperator,
        (operator.ask (.text "2020-01-01T01:00:00.75+01:00")).Matches "created_at"
            (fun _ => { cell := .text "2020-01-01T00:00:00.250Z" }) ↔
          operator.comparator.holds .lt = true :=
  ⟨by decide +kernel, (@date_operators_compare_milliseconds "created_at"
    "2020-01-01T01:00:00.75+01:00" (fun _ => { cell := .text "2020-01-01T00:00:00.250Z" })
    ⟨1577836800, 250000000, .inl (by decide)⟩ ⟨1577836800, 750000000, .inl (by decide)⟩
    (by decide) (by decide +kernel) (by decide) (by decide +kernel)).2.1.2
    ⟨by decide, by decide, by decide⟩⟩

/-- A tenth of a millisecond is lost, and neither a leap second nor the last hour of the year 9999
by a clock behind Universal Time has anything before it. -/
theorem date_operators_confuse_instants :
    ∃ stored fraction early leap late : Instant,
      stored.text = "2020-01-01T00:00:00Z" ∧
      early.text = "2016-12-31T23:59:59Z" ∧
      Instant.ofText? "2020-01-01T00:00:00.0001Z" = some fraction ∧
      Instant.ofText? "2016-12-31T23:59:60Z" = some leap ∧
      Instant.ofText? "9999-12-31T23:30:00-01:00" = some late ∧
      (stored.order fraction = .lt ∧ (DateOperatorSet.sameInstant
        (.text "2020-01-01T00:00:00.0001Z")).Matches "created_at"
          fun _ => { cell := .text stored.text }) ∧
      (early.order leap = .lt ∧ ¬ (DateOperatorSet.before
        (.text "2016-12-31T23:59:60Z")).Matches "created_at"
          fun _ => { cell := .text early.text }) ∧
      (stored.order late = .lt ∧ ¬ (DateOperatorSet.before
        (.text "9999-12-31T23:30:00-01:00")).Matches "created_at"
          fun _ => { cell := .text stored.text }) := by
  have hfraction : Instant.ofText? "2020-01-01T00:00:00.0001Z" =
      some ⟨1577836800, 100000, .inl (by decide)⟩ := by decide +kernel
  have hleap : Instant.ofText? "2016-12-31T23:59:60Z" =
      some ⟨1483228799, 1000000000, .inr (by decide)⟩ := by decide +kernel
  have hlate : Instant.ofText? "9999-12-31T23:30:00-01:00" =
      some ⟨253402302600, 0, .inl (by decide)⟩ := by decide +kernel
  refine ⟨⟨1577836800, 0, .inl (by decide)⟩, _, ⟨1483228799, 0, .inl (by decide)⟩, _, _,
    by decide +kernel, by decide +kernel, hfraction, hleap, hlate, ⟨by decide, ?_⟩,
    ⟨by decide, fun h => ?_⟩, by decide, fun h => ?_⟩
  · exact ((DateOperator.comparison .eq).matches_iff (by decide) hfraction (by decide) rfl).2
      (by decide)
  · have hread := ((DateOperator.comparison .lt).matches_iff (by decide) hleap (by decide) rfl).1 h
    exact absurd hread.2.1 (by decide)
  · have hread := ((DateOperator.comparison .lt).matches_iff (by decide) hlate (by decide) rfl).1 h
    exact absurd hread.2.1 (by decide)

end Matching

end TableQuery
