import TableQuery.GraphQL.Input
import TableQuery.OperatorSet.Dates
import TableQuery.Proofs.WrittenInstants

/-!
# Instants that come back from their text

An instant leaves the program as one text, whether it is bound to a query or handed out as a value.
Up to the year 9999 this text names the instant, so reading it gives the instant back: the date of
a day exists and is on that day, and what the clock shows adds up to the seconds since midnight.  A
leap second needs no case of its own in either direction, since second 60 is written exactly where
nanoseconds go past a second, and is read as second 59 with that second added again.  The database
reads the same text by other rules, under which less comes back (`JulianDay.ofText?_text`).

## Main results

* `Instant.exists_fractionChars` — a fraction is written with the fewest digits that are exact.
* `Instant.names_chars` — the text of an instant names it.
* `instants_round_trip` — what is written, and that it is read back.
-/

namespace TableQuery

open Time

namespace Time.Instant

/-- An instant whose year has four digits. -/
def InFourDigitYear (instant : Instant) : Prop :=
  0 ≤ instant.date.year ∧ instant.date.year ≤ 9999

instance (instant : Instant) : Decidable instant.InFourDigitYear :=
  inferInstanceAs (Decidable (_ ∧ _))

/-! ## Fractions -/

/-- `ShortestFraction digits nanos` holds if digits after a point denote nanoseconds exactly, and
are the fewest that do, in groups of three. -/
structure ShortestFraction (digits : List Char) (nanos : Nat) : Prop where
  width : digits.length ∈ [0, 3, 6, 9]
  isDigit : ∀ c ∈ digits, c.isDigit = true
  exact : Nat.ofDigitChars 10 digits 0 * 10 ^ (9 - digits.length) = nanos
  fewest : ∀ width ∈ [0, 3, 6, 9], 10 ^ (9 - width) ∣ nanos → digits.length ≤ width

/-- Digits with a point before them; without digits there is no point. -/
def withPoint (digits : List Char) : List Char := if digits = [] then [] else '.' :: digits

/-- A number of so many digits is the shortest fraction if it is exact and no three digits less
are. -/
theorem shortestFraction_padded {width value nanos : Nat} (hwidth : width ∈ [3, 6, 9])
    (hvalue : value < 10 ^ width) (hexact : value * 10 ^ (9 - width) = nanos)
    (hneeded : ¬ 10 ^ (9 - (width - 3)) ∣ nanos) : ShortestFraction (padded width value) nanos := by
  have hpos : 0 < width := by
    simp only [List.mem_cons, List.not_mem_nil, or_false] at hwidth
    omega
  have hdigits := digits_padded hpos hvalue
  refine ⟨?_, hdigits.isDigit, ?_, fun shorter hshorter hdvd => ?_⟩
  · rw [hdigits.length]
    exact List.mem_cons_of_mem 0 hwidth
  · rw [hdigits.length, hdigits.denotes, hexact]
  · rw [hdigits.length]
    by_contra hlt
    refine hneeded (Nat.dvd_trans (Nat.pow_dvd_pow 10 ?_) hdvd)
    simp only [List.mem_cons, List.not_mem_nil, or_false] at hwidth hshorter
    omega

/-- A fraction is written with the fewest digits that are exact. -/
theorem exists_fractionChars {nanos : Nat} (h : nanos < nanosPerSecond) :
    ∃ digits, ShortestFraction digits nanos ∧ fractionChars nanos = withPoint digits := by
  have hpadded : ∀ width value, 0 < width → withPoint (padded width value) =
      '.' :: padded width value := by
    intro width value hwidth
    obtain ⟨c, rest, heq, -⟩ := @exists_padded_eq_cons width value
    rw [withPoint, if_neg (heq ▸ List.cons_ne_nil c rest)]
  unfold nanosPerSecond at h
  unfold fractionChars
  by_cases hzero : nanos = 0
  · subst hzero
    exact ⟨[], ⟨by decide, List.forall_mem_nil _, rfl, fun _ _ _ => Nat.zero_le _⟩, rfl⟩
  · rw [if_neg hzero]
    by_cases hmillis : nanos % 1000000 = 0
    · rw [if_pos hmillis]
      refine ⟨_, shortestFraction_padded (by decide) ?_ ?_ ?_, (hpadded 3 _ (by decide)).symm⟩
      all_goals omega
    · rw [if_neg hmillis]
      by_cases hmicros : nanos % 1000 = 0
      · rw [if_pos hmicros]
        refine ⟨_, shortestFraction_padded (by decide) ?_ ?_ ?_, (hpadded 6 _ (by decide)).symm⟩
        all_goals omega
      · rw [if_neg hmicros]
        refine ⟨_, shortestFraction_padded (by decide) ?_ ?_ ?_, (hpadded 9 _ (by decide)).symm⟩
        all_goals omega

theorem ShortestFraction.writesFraction {digits : List Char} {nanos : Nat}
    (h : ShortestFraction digits nanos) : WritesFraction (withPoint digits) nanos := by
  obtain ⟨hwidth, hdigits, rfl, -⟩ := h
  by_cases hnil : digits = []
  · subst hnil
    exact .missing
  · have hlength : digits.length ≤ 9 := by
      simp only [List.mem_cons, List.not_mem_nil, or_false] at hwidth
      omega
    have hvalue := ofDigitChars_take_nine digits
    rw [List.take_of_length_le hlength] at hvalue
    rw [withPoint, if_neg hnil, ← hvalue]
    exact .point hnil hdigits

/-! ## Names -/

/-- The text of an instant up to the fraction of its second. -/
def wholeChars (instant : Instant) : List Char :=
  padded 4 instant.date.year.natAbs ++ '-' :: (padded 2 instant.date.month ++
    '-' :: padded 2 instant.date.day) ++ 'T' :: (padded 2 (instant.secondOfDay / 3600) ++
      ':' :: (padded 2 (instant.secondOfDay / 60 % 60) ++
        ':' :: padded 2 (instant.secondOfDay % 60 + instant.nanos / nanosPerSecond)))

theorem chars_eq_wholeChars {instant : Instant} (h : instant.InFourDigitYear) :
    instant.chars =
      instant.wholeChars ++ fractionChars (instant.nanos % nanosPerSecond) ++ ['Z'] := by
  have hsign : instant.yearSign = [] := if_pos h
  rw [chars_eq, hsign, timeChars, wholeChars]
  simp only [List.nil_append, List.append_assoc, List.cons_append]

/-- The only point in the text of an instant is the one that starts the fraction. -/
theorem point_not_mem_wholeChars (instant : Instant) : '.' ∉ instant.wholeChars := by
  have hpadded : ∀ width value, '.' ∉ padded width value := by
    intro width value hmem
    exact absurd (isDigit_of_mem_padded hmem) (by decide)
  simp [wholeChars, hpadded]

theorem writesDate_date {instant : Instant} (h : instant.InFourDigitYear) :
    WritesDate (padded 4 instant.date.year.natAbs ++ '-' :: (padded 2 instant.date.month ++
      '-' :: padded 2 instant.date.day)) instant.date := by
  obtain ⟨⟨-, hmonth⟩, -, hday⟩ := Date.ofDayNumber_bounds (instant.seconds / 86400)
  have hyear : (instant.date.year.natAbs : Int) = instant.date.year := Int.natAbs_of_nonneg h.1
  have hfour : instant.date.year.natAbs < 10 ^ 4 := by
    have hlate := h.2
    omega
  have hwrites := WritesDate.intro (digits_padded (by decide) hfour)
    (@digits_padded 2 instant.date.month (by decide) (Nat.lt_of_le_of_lt hmonth (by decide)))
    (@digits_padded 2 instant.date.day (by decide) (Nat.lt_of_le_of_lt hday (by decide)))
  rwa [hyear] at hwrites

/-- The text of an instant names it. -/
theorem names_chars {instant : Instant} (h : instant.InFourDigitYear) :
    Names instant.chars instant := by
  obtain ⟨digits, hshortest, hfraction⟩ :=
    exists_fractionChars (Nat.mod_lt instant.nanos (by decide : 0 < nanosPerSecond))
  have hday : instant.date.dayNumber = instant.seconds / 86400 := Date.dayNumber_ofDayNumber _
  have hof : (instant.secondOfDay : Int) = instant.seconds % 86400 := by
    unfold secondOfDay
    omega
  have hclock := instant.isClock
  have hnanos : instant.nanos = instant.nanos % nanosPerSecond +
      if instant.secondOfDay % 60 + instant.nanos / nanosPerSecond = 60 then nanosPerSecond
      else 0 := by
    unfold nanosPerSecond at hclock ⊢
    split <;> omega
  have hrange : instant.secondOfDay / 3600 ≤ 23 ∧ instant.secondOfDay / 60 % 60 ≤ 59 ∧
      instant.secondOfDay % 60 + instant.nanos / nanosPerSecond ≤ 60 := by
    unfold nanosPerSecond at hclock ⊢
    omega
  generalize hsecond : instant.secondOfDay % 60 + instant.nanos / nanosPerSecond = second at *
  have hwhole : instant.seconds = instant.date.dayNumber * 86400 +
      (instant.secondOfDay / 3600 : Nat) * 3600 + (instant.secondOfDay / 60 % 60 : Nat) * 60 +
        (min second 59 : Nat) - 0 := by
    unfold nanosPerSecond at hclock hsecond
    omega
  have hnames := Names.intro (writesDate_date h) (Date.exists_ofDayNumber _) (.inl rfl)
    (@digits_padded 2 (instant.secondOfDay / 3600) (by decide) (by omega)) hrange.1
    (@digits_padded 2 (instant.secondOfDay / 60 % 60) (by decide) (by omega)) hrange.2.1
    (@digits_padded 2 second (by decide) (by omega)) hrange.2.2
    hshortest.writesFraction (.universal (.inl rfl)) hwhole hnanos
  rw [chars_eq_wholeChars h, wholeChars, hfraction, hsecond]
  simpa only [List.append_assoc, List.cons_append, List.nil_append] using hnames

theorem spelledBy_text {instant : Instant} (h : instant.InFourDigitYear) :
    instant.SpelledBy instant.text :=
  ⟨[], instant.chars, [], by simp [text], List.forall_mem_nil _, List.forall_mem_nil _,
    names_chars h⟩

theorem ofText?_text {instant : Instant} (h : instant.InFourDigitYear) :
    ofText? instant.text = some instant := ofText?_eq_some_iff.2 (spelledBy_text h)

end Time.Instant

/-- An instant whose year has four digits is bound as the same text that stands for it as a value.
The text has the fewest digits after the point that are exact, it is read as this instant, also as
the operand of a date operator, and it is the text of no other such instant. -/
theorem instants_round_trip {instant : Instant} (h : instant.InFourDigitYear) :
    (Cell.ofOperand (.timestamp instant) = .text instant.text ∧
      Operand.toGraphQL (.timestamp instant) = .text instant.text) ∧
    (∃ whole digits, instant.text.toList = whole ++ Instant.withPoint digits ++ ['Z'] ∧
      '.' ∉ whole ∧ Instant.ShortestFraction digits (instant.nanos % nanosPerSecond)) ∧
    Instant.ofText? instant.text = some instant ∧
    (∀ operator, dateOperand operator (.text instant.text) = .ok (.timestamp instant)) ∧
    ∀ other : Instant, other.InFourDigitYear → other.text = instant.text → other = instant := by
  have hread := Instant.ofText?_text h
  refine ⟨⟨rfl, rfl⟩, ?_, hread, fun operator => ?_, fun other hother htext => ?_⟩
  · obtain ⟨digits, hshortest, hfraction⟩ :=
      Instant.exists_fractionChars (Nat.mod_lt instant.nanos (by decide : 0 < nanosPerSecond))
    refine ⟨instant.wholeChars, digits, ?_, instant.point_not_mem_wholeChars, hshortest⟩
    rw [Instant.text, String.toList_ofList, Instant.chars_eq_wholeChars h, hfraction]
  · rw [dateOperand, hread]
  · have hsame := Instant.ofText?_text hother
    rw [htext, hread] at hsame
    exact (Option.some.inj hsame).symm

/-- Half a second into a leap second. -/
theorem instants_round_trip_leap_second :
    let instant : Instant := ⟨1483228799, 1500000000, .inr (by decide)⟩
    instant.InFourDigitYear ∧ instant.text = "2016-12-31T23:59:60.500Z" ∧
      Instant.ofText? "2016-12-31T23:59:60.500Z" = some instant := by
  intro instant
  have hyear : instant.InFourDigitYear := by decide +kernel
  have htext : instant.text = "2016-12-31T23:59:60.500Z" := by decide +kernel
  have hread := (instants_round_trip hyear).2.2.1
  rw [htext] at hread
  exact ⟨hyear, htext, hread⟩

end TableQuery
