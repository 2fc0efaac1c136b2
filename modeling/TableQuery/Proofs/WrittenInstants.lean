import TableQuery.Proofs.InstantText

/-!
# What written instants denote

A written instant is read piece by piece, and each piece takes its characters off the front of
those that are left.  So what is read is exactly what a grammar describes: a date, a separator, a
time with any number of digits after the point, and a time zone, with blanks around all of it.  The
grammar is stated here for itself, and each reader is proved to read its part of it and to leave
what follows.

The calendar, the time zone and the leap second meet in one equation only (`Names`): an instant is
counted in seconds, so an offset may carry it into another day, month or year without any case for
that.

## Main results

* `takeNumber_eq_some_iff`, `takeDate_eq_some_iff`, `takeOffset_eq_some_iff` — what readers take.
* `instantOfChars?_eq_some_iff` — which characters are read as which instants.
* `Instant.ofText?_eq_some_iff` — the same for a text, which may have blanks around it.
-/

namespace TableQuery.Time

/-! ## Numbers -/

/-- `Digits width chars value` holds if characters are so many decimal digits, which denote a
number. -/
structure Digits (width : Nat) (chars : List Char) (value : Nat) : Prop where
  length : chars.length = width
  isDigit : ∀ c ∈ chars, c.isDigit = true
  denotes : Nat.ofDigitChars 10 chars 0 = value

theorem digits_padded {width value : Nat} (hwidth : 0 < width) (h : value < 10 ^ width) :
    Digits width (padded width value) value :=
  ⟨length_padded hwidth h, fun _ => isDigit_of_mem_padded, ofDigitChars_padded width value⟩

theorem Digits.exists_eq_cons {width value : Nat} {chars : List Char}
    (h : Digits (width + 1) chars value) : ∃ c rest, chars = c :: rest ∧ c.isDigit = true := by
  obtain ⟨c, rest, rfl⟩ := List.exists_cons_of_length_eq_add_one h.length
  exact ⟨c, rest, rfl, h.isDigit c List.mem_cons_self⟩

/-- A number is taken exactly if its digits are at the front. -/
theorem takeNumber_eq_some_iff {width value : Nat} {chars rest : List Char} :
    takeNumber width 0 chars = some (value, rest) ↔
      ∃ digits, Digits width digits value ∧ chars = digits ++ rest := by
  have hdigits : ∀ {width start : Nat} {chars : List Char},
      takeNumber width start chars = some (value, rest) →
        ∃ digits, digits.length = width ∧ (∀ c ∈ digits, c.isDigit = true) ∧
          Nat.ofDigitChars 10 digits start = value ∧ chars = digits ++ rest := by
    intro width
    induction width with
    | zero =>
        intro start chars h
        obtain ⟨rfl, rfl⟩ := Prod.mk.inj (Option.some.inj h)
        exact ⟨[], rfl, List.forall_mem_nil _, Nat.ofDigitChars_nil, rfl⟩
    | succ width ih =>
        intro start chars h
        cases chars with
        | nil => cases h
        | cons c chars =>
            rw [takeNumber] at h
            split at h
            · next hc =>
                obtain ⟨digits, hlength, hall, hvalue, rfl⟩ := ih h
                refine ⟨c :: digits, congrArg (· + 1) hlength, List.forall_mem_cons.2 ⟨hc, hall⟩,
                  ?_, rfl⟩
                rw [Nat.ofDigitChars_cons, Nat.mul_comm, hvalue]
            · cases h
  constructor
  · intro h
    obtain ⟨digits, hlength, hall, hvalue, rfl⟩ := hdigits h
    exact ⟨digits, ⟨hlength, hall, hvalue⟩, rfl⟩
  · rintro ⟨digits, h, rfl⟩
    have hread := takeNumber_append h.isDigit 0 rest
    rwa [h.length, h.denotes] at hread

theorem takeChar_eq_some_iff {allowed : Char → Bool} {chars rest : List Char} :
    takeChar allowed chars = some rest ↔ ∃ c, allowed c = true ∧ chars = c :: rest := by
  cases chars with
  | nil => simp [takeChar]
  | cons c chars =>
      rw [takeChar]
      by_cases hc : allowed c = true
      · simp [hc]
      · simp only [if_neg hc, List.cons.injEq]
        constructor
        · intro h
          cases h
        · rintro ⟨_, hallowed, rfl, -⟩
          exact absurd hallowed hc

/-! ## Dates -/

/-- `WritesDate chars date` holds if characters are a year of four digits, a month and a day. -/
inductive WritesDate : List Char → Date → Prop where
  | intro {years months days : List Char} {year month day : Nat} (hyear : Digits 4 years year)
      (hmonth : Digits 2 months month) (hday : Digits 2 days day) :
      WritesDate (years ++ '-' :: (months ++ '-' :: days)) ⟨year, month, day⟩

/-- A date is taken exactly if it is at the front. -/
theorem takeDate_eq_some_iff {chars rest : List Char} {date : Date} :
    takeDate chars = some (date, rest) ↔
      ∃ written, WritesDate written date ∧ chars = written ++ rest := by
  simp only [takeDate, Option.bind_eq_bind, Option.bind_eq_some_iff, Prod.exists,
    takeNumber_eq_some_iff, takeChar_eq_some_iff, decide_eq_true_eq, Option.pure_def,
    Option.some.injEq, Prod.mk.injEq]
  constructor
  · rintro ⟨year, _, ⟨years, hyear, rfl⟩, _, ⟨_, rfl, rfl⟩, month, _, ⟨months, hmonth, rfl⟩, _,
      ⟨_, rfl, rfl⟩, day, _, ⟨days, hday, rfl⟩, rfl, rfl⟩
    exact ⟨_, .intro hyear hmonth hday, by simp⟩
  · rintro ⟨_, ⟨hyear, hmonth, hday⟩, rfl⟩
    refine ⟨_, _, ⟨_, hyear, ?_⟩, _, ⟨_, rfl, rfl⟩, _, _, ⟨_, hmonth, rfl⟩, _, ⟨_, rfl, rfl⟩, _, _,
      ⟨_, hday, rfl⟩, rfl, rfl⟩
    simp

theorem WritesDate.exists_eq_cons {chars : List Char} {date : Date} (h : WritesDate chars date) :
    ∃ c rest, chars = c :: rest ∧ c.isDigit = true := by
  obtain ⟨hyear, -, -⟩ := h
  obtain ⟨c, rest, rfl, hc⟩ := hyear.exists_eq_cons
  exact ⟨c, _, List.cons_append, hc⟩

/-- A year of four digits has no sign. -/
theorem WritesDate.zero_le_year {chars : List Char} {date : Date} (h : WritesDate chars date) :
    0 ≤ date.year := by
  cases h with
  | intro => exact Int.natCast_nonneg _

/-! ## Fractions of a second -/

/-- `WritesFraction chars nanos` holds if characters are a point and one or more digits, or nothing
at all.  Of the digits nine count, and zeros stand for those that are missing. -/
inductive WritesFraction : List Char → Nat → Prop where
  | missing : WritesFraction [] 0
  | point {digits : List Char} (hne : digits ≠ []) (hdigits : ∀ c ∈ digits, c.isDigit = true) :
      WritesFraction ('.' :: digits)
        (Nat.ofDigitChars 10 ((digits ++ List.replicate 9 '0').take 9) 0)

/-- The nine digits that count are those that are written, and zeros after them. -/
theorem ofDigitChars_take_nine (digits : List Char) :
    Nat.ofDigitChars 10 ((digits ++ List.replicate 9 '0').take 9) 0 =
      Nat.ofDigitChars 10 (digits.take 9) 0 * 10 ^ (9 - digits.length) := by
  rw [List.take_append, List.take_replicate, Nat.ofDigitChars_append,
    Nat.ofDigitChars_replicate_zero, Nat.min_eq_left (Nat.sub_le 9 _), Nat.mul_comm]

theorem nanosOfDigits_eq (digits : List Char) :
    nanosOfDigits digits = Nat.ofDigitChars 10 ((digits ++ List.replicate 9 '0').take 9) 0 := by
  have hvalue : (digits.take 9).foldl (fun value c => value * 10 + (c.toNat - '0'.toNat)) 0 =
      Nat.ofDigitChars 10 (digits.take 9) 0 := digitsValue_eq_ofDigitChars _
  have hwidth : 9 - (digits.take 9).length = 9 - digits.length := by
    rw [List.length_take]
    omega
  simp only [nanosOfDigits, hvalue, hwidth, ofDigitChars_take_nine]
  rfl

/-- Digits denote less than the power of ten that has one digit more. -/
theorem ofDigitChars_lt_pow {digits : List Char} (h : ∀ c ∈ digits, c.isDigit = true) :
    Nat.ofDigitChars 10 digits 0 < 10 ^ digits.length := by
  induction digits with
  | nil => decide
  | cons c digits ih =>
      obtain ⟨hc, hdigits⟩ := List.forall_mem_cons.1 h
      have hlast := ih hdigits
      have hrange := Text.isDigit_range hc
      have hfirst : 10 ^ digits.length * (c.toNat - '0'.toNat) ≤ 10 ^ digits.length * 9 := by
        refine Nat.mul_le_mul_left _ ?_
        show c.toNat - 48 ≤ 9
        omega
      rw [Nat.ofDigitChars_cons, Nat.ofDigitChars_eq_ofDigitChars_zero, List.length_cons,
        Nat.pow_succ, Nat.mul_zero, Nat.zero_add]
      omega

theorem WritesFraction.lt {chars : List Char} {nanos : Nat} (h : WritesFraction chars nanos) :
    nanos < nanosPerSecond := by
  cases h with
  | missing => decide
  | @point digits _ hdigits =>
      have hkept : ∀ c ∈ (digits ++ List.replicate 9 '0').take 9, c.isDigit = true := by
        intro c hc
        rcases List.mem_append.1 (List.mem_of_mem_take hc) with hc | hc
        · exact hdigits c hc
        · obtain rfl := List.eq_of_mem_replicate hc
          decide
      have hlength : ((digits ++ List.replicate 9 '0').take 9).length = 9 := by
        rw [List.length_take, List.length_append, List.length_replicate]
        omega
      have hlt := ofDigitChars_lt_pow hkept
      rwa [hlength] at hlt

/-- What is taken at the front is a fraction. -/
theorem exists_fraction_of_takeFraction {chars rest : List Char} {nanos : Nat}
    (h : takeFraction chars = some (nanos, rest)) :
    ∃ fraction, WritesFraction fraction nanos ∧ chars = fraction ++ rest := by
  unfold takeFraction at h
  split at h
  · next chars =>
      simp only at h
      split at h
      · cases h
      · next hsome =>
          obtain ⟨rfl, rfl⟩ := Prod.mk.inj (Option.some.inj h)
          refine ⟨'.' :: chars.takeWhile Char.isDigit, ?_, ?_⟩
          · rw [nanosOfDigits_eq]
            exact .point (fun hnil => hsome (List.isEmpty_iff.2 hnil))
              (List.all_eq_true.1 List.all_takeWhile)
          · rw [List.cons_append, List.takeWhile_append_dropWhile]
  · obtain ⟨rfl, rfl⟩ := Prod.mk.inj (Option.some.inj h)
    exact ⟨[], .missing, rfl⟩

/-- A fraction is taken as a whole if neither a point nor a digit follows it. -/
theorem takeFraction_append {fraction rest : List Char} {nanos : Nat} {c : Char}
    (h : WritesFraction fraction nanos) (hpoint : c ≠ '.') (hdigit : c.isDigit = false) :
    takeFraction (fraction ++ c :: rest) = some (nanos, c :: rest) := by
  cases h with
  | missing =>
      rw [List.nil_append, takeFraction.eq_2 _ fun chars heq => hpoint (List.cons.inj heq).1]
  | @point digits hne hdigits =>
      have hstop : ¬ c.isDigit = true := Bool.eq_false_iff.1 hdigit
      have htake : (digits ++ c :: rest).takeWhile Char.isDigit = digits := by
        rw [List.takeWhile_append_of_pos hdigits, List.takeWhile_cons_of_neg hstop,
          List.append_nil]
      have hdrop : (digits ++ c :: rest).dropWhile Char.isDigit = c :: rest := by
        rw [List.dropWhile_append_of_pos hdigits, List.dropWhile_cons_of_neg hstop]
      have hsome : ¬ digits.isEmpty = true := fun hempty => hne (List.isEmpty_iff.1 hempty)
      rw [List.cons_append, takeFraction]
      simp only [htake, hdrop, if_neg hsome, nanosOfDigits_eq]

/-! ## Time zones -/

/-- The signs of an offset, and the factor that each stands for.  There are two signs of a minus. -/
inductive OffsetSign : Char → Int → Prop where
  | plus : OffsetSign '+' 1
  | hyphen : OffsetSign '-' (-1)
  | minus : OffsetSign '\u2212' (-1)

/-- `WritesZone chars ahead` holds if characters are a time zone whose clock is so many seconds
ahead of Universal Time. -/
inductive WritesZone : List Char → Int → Prop where
  | universal {c : Char} (h : c = 'Z' ∨ c = 'z') : WritesZone [c] 0
  | offset {c : Char} {factor : Int} {hours minutes : List Char} {hour minute : Nat}
      (hsign : OffsetSign c factor) (hhour : Digits 2 hours hour) (hhours : hour ≤ 23)
      (hminute : Digits 2 minutes minute) (hminutes : minute ≤ 59) :
      WritesZone (c :: (hours ++ ':' :: minutes)) (factor * (hour * 3600 + minute * 60))

theorem takeOffset_sign_eq_some_iff {c : Char} {factor ahead : Int} {chars rest : List Char}
    (hsign : OffsetSign c factor) :
    takeOffset (c :: chars) = some (ahead, rest) ↔
      ∃ hours minutes hour minute, Digits 2 hours hour ∧ hour ≤ 23 ∧ Digits 2 minutes minute ∧
        minute ≤ 59 ∧ ahead = factor * (hour * 3600 + minute * 60) ∧
        chars = hours ++ ':' :: (minutes ++ rest) := by
  have hfactor : ∀ whole : Int, (if c = '+' then whole else -whole) = factor * whole := by
    intro whole
    cases hsign with
    | plus => rw [if_pos rfl, Int.one_mul]
    | hyphen | minus => rw [if_neg (by decide), Int.neg_one_mul]
  have hzone : (decide (c = 'Z') || decide (c = 'z')) = false := by cases hsign <;> decide
  have hoffset : (decide (c = '+') || decide (c = '-') || decide (c = '\u2212')) = true := by
    cases hsign <;> decide
  simp only [takeOffset, hzone, hoffset, hfactor, Option.bind_eq_bind, Option.bind_eq_some_iff,
    Prod.exists, takeNumber_eq_some_iff, takeChar_eq_some_iff, decide_eq_true_eq,
    Bool.false_eq_true, if_false, if_true, Bool.and_eq_true]
  constructor
  · rintro ⟨hour, _, ⟨hours, hhour, rfl⟩, _, ⟨_, rfl, rfl⟩, minute, _, ⟨minutes, hminute, rfl⟩, h⟩
    split at h
    · next hrange =>
        obtain ⟨rfl, rfl⟩ := Prod.mk.inj (Option.some.inj h)
        exact ⟨hours, minutes, hour, minute, hhour, hrange.1, hminute, hrange.2, rfl, rfl⟩
    · cases h
  · rintro ⟨hours, minutes, hour, minute, hhour, hhours, hminute, hminutes, rfl, rfl⟩
    exact ⟨hour, _, ⟨hours, hhour, rfl⟩, _, ⟨_, rfl, rfl⟩, minute, _, ⟨minutes, hminute, rfl⟩,
      if_pos ⟨hhours, hminutes⟩⟩

/-- A time zone is taken exactly if it is at the front. -/
theorem takeOffset_eq_some_iff {chars rest : List Char} {ahead : Int} :
    takeOffset chars = some (ahead, rest) ↔
      ∃ zone, WritesZone zone ahead ∧ chars = zone ++ rest := by
  constructor
  · intro h
    cases chars with
    | nil => cases h
    | cons c chars =>
        by_cases hzone : c = 'Z' ∨ c = 'z'
        · have htaken : takeOffset (c :: chars) = some (0, chars) := by
            rcases hzone with rfl | rfl <;> rfl
          obtain ⟨rfl, rfl⟩ := Prod.mk.inj (Option.some.inj (htaken.symm.trans h))
          exact ⟨[c], .universal hzone, rfl⟩
        · obtain ⟨factor, hsign⟩ : ∃ factor, OffsetSign c factor := by
            by_contra hnone
            have hplus : c ≠ '+' := by
              rintro rfl
              exact hnone ⟨1, .plus⟩
            have hhyphen : c ≠ '-' := by
              rintro rfl
              exact hnone ⟨-1, .hyphen⟩
            have hminus : c ≠ '\u2212' := by
              rintro rfl
              exact hnone ⟨-1, .minus⟩
            rw [not_or] at hzone
            simp [takeOffset, hzone.1, hzone.2, hplus, hhyphen, hminus] at h
          obtain ⟨hours, minutes, hour, minute, hhour, hhours, hminute, hminutes, rfl, rfl⟩ :=
            (takeOffset_sign_eq_some_iff hsign).1 h
          exact ⟨_, .offset hsign hhour hhours hminute hminutes, by simp⟩
  · rintro ⟨_, h, rfl⟩
    cases h with
    | universal h => rcases h with rfl | rfl <;> rfl
    | offset hsign hhour hhours hminute hminutes =>
        rw [List.cons_append]
        exact (takeOffset_sign_eq_some_iff hsign).2
          ⟨_, _, _, _, hhour, hhours, hminute, hminutes, rfl, by simp⟩

/-- An offset is in whole minutes. -/
theorem WritesZone.dvd {zone : List Char} {ahead : Int} (h : WritesZone zone ahead) :
    60 ∣ ahead := by
  cases h with
  | universal => exact Int.dvd_zero 60
  | offset hsign => cases hsign <;> omega

/-- No clock is ahead by a day. -/
theorem WritesZone.lt {zone : List Char} {ahead : Int} (h : WritesZone zone ahead) :
    ahead < 86400 := by
  cases h with
  | universal => decide
  | offset hsign => cases hsign <;> omega

/-- A time zone starts with a character that no fraction goes on with. -/
theorem WritesZone.exists_eq_cons {zone : List Char} {ahead : Int} (h : WritesZone zone ahead) :
    ∃ c rest, zone = c :: rest ∧ c ≠ '.' ∧ c.isDigit = false := by
  cases h with
  | universal h => rcases h with rfl | rfl <;> exact ⟨_, _, rfl, by decide, by decide⟩
  | offset hsign => cases hsign <;> exact ⟨_, _, rfl, by decide, by decide⟩

/-- A time zone ends with a letter or a digit. -/
theorem WritesZone.getLast?_not_blank {zone : List Char} {ahead : Int} (h : WritesZone zone ahead) :
    ∀ c ∈ zone.getLast?, Text.isBlank c = false := by
  cases h with
  | universal h =>
      rintro c ⟨⟩
      rcases h with rfl | rfl <;> decide
  | @offset c _ hours minutes _ _ _ _ _ hminute =>
      obtain ⟨d, rest, rfl, -⟩ := hminute.exists_eq_cons
      have hlast : (c :: (hours ++ ':' :: d :: rest)).getLast? = (d :: rest).getLast? := by
        simp [List.getLast?_cons, List.getLast?_append]
      rw [hlast]
      intro e he
      exact Text.isBlank_of_isDigit (hminute.isDigit e (List.mem_of_mem_getLast? he))

/-! ## Instants -/

/-- `Names chars instant` holds if characters are a date, a separator, a time and a time zone, and
denote an instant: the date is one that exists, hours and minutes are in range, and second 60 is
the leap second after second 59. -/
inductive Names : List Char → Instant → Prop where
  | intro {days hours minutes seconds fraction zone : List Char} {date : Date}
      {hour minute second nanos : Nat} {ahead : Int} {separator : Char} {instant : Instant}
      (hdate : WritesDate days date) (hexists : date.Exists)
      (hseparator : separator = 'T' ∨ separator = 't' ∨ separator = ' ')
      (hhour : Digits 2 hours hour) (hhours : hour ≤ 23)
      (hminute : Digits 2 minutes minute) (hminutes : minute ≤ 59)
      (hsecond : Digits 2 seconds second) (hseconds : second ≤ 60)
      (hfraction : WritesFraction fraction nanos) (hzone : WritesZone zone ahead)
      (hwhole : instant.seconds =
        date.dayNumber * 86400 + hour * 3600 + minute * 60 + min second 59 - ahead)
      (hnanos : instant.nanos = nanos + if second = 60 then nanosPerSecond else 0) :
      Names (days ++ separator :: (hours ++ ':' :: (minutes ++ ':' :: (seconds ++
        (fraction ++ zone))))) instant

/-- The clock of a time zone that is ahead by whole minutes shows an instant at any second. -/
theorem instantOfClock?_eq_some_iff {date : Date} {hour minute second nanos : Nat} {ahead : Int}
    {instant : Instant} (hsecond : second ≤ 60) (hnanos : nanos < nanosPerSecond)
    (hahead : 60 ∣ ahead) :
    instantOfClock? date hour minute second nanos ahead = some instant ↔
      instant.seconds =
          date.dayNumber * 86400 + hour * 3600 + minute * 60 + min second 59 - ahead ∧
        instant.nanos = nanos + if second = 60 then nanosPerSecond else 0 := by
  obtain ⟨seconds, kept, hclock⟩ := instant
  unfold nanosPerSecond at hnanos
  unfold instantOfClock? nanosPerSecond
  by_cases hleap : second = 60
  · have hclock : nanos + 1000000000 < 1000000000 ∨ nanos + 1000000000 < 2 * 1000000000 ∧
        (date.dayNumber * 86400 + hour * 3600 + minute * 60 + (59 : Nat) - ahead) % 60 = 59 := by
      omega
    have hmin : min second 59 = 59 := by omega
    simp only [if_pos hleap, dif_pos hclock, hmin, Option.some.injEq, Instant.mk.injEq]
    exact and_congr eq_comm eq_comm
  · have hmin : min second 59 = second := by omega
    have hclock : nanos < 1000000000 ∨ nanos < 2 * 1000000000 ∧
        (date.dayNumber * 86400 + hour * 3600 + minute * 60 + second - ahead) % 60 = 59 :=
      .inl hnanos
    simp only [if_neg hleap, dif_pos hclock, hmin, Option.some.injEq, Instant.mk.injEq,
      Nat.add_zero]
    exact and_congr eq_comm eq_comm

/-- Characters are read as an instant exactly if they name it. -/
theorem instantOfChars?_eq_some_iff {chars : List Char} {instant : Instant} :
    instantOfChars? chars = some instant ↔ Names chars instant := by
  simp only [instantOfChars?, Option.bind_eq_bind, Option.bind_eq_some_iff, Prod.exists,
    takeDate_eq_some_iff, takeNumber_eq_some_iff, takeChar_eq_some_iff, takeOffset_eq_some_iff,
    decide_eq_true_eq, Bool.or_eq_true]
  constructor
  · rintro ⟨date, _, ⟨days, hdate, rfl⟩, _, ⟨separator, hseparator, rfl⟩, hour, _,
      ⟨hours, hhour, rfl⟩, _, ⟨_, rfl, rfl⟩, minute, _, ⟨minutes, hminute, rfl⟩, _,
      ⟨_, rfl, rfl⟩, second, _, ⟨seconds, hsecond, rfl⟩, nanos, _, htaken, ahead, rest,
      ⟨zone, hzone, rfl⟩, h⟩
    obtain ⟨fraction, hfraction, rfl⟩ := exists_fraction_of_takeFraction htaken
    split at h
    · next hvalid =>
        simp only [Bool.and_eq_true, decide_eq_true_eq, List.isEmpty_iff] at hvalid
        obtain ⟨⟨⟨⟨rfl, hexists⟩, hhours⟩, hminutes⟩, hseconds⟩ := hvalid
        obtain ⟨hwhole, hnanos⟩ :=
          (instantOfClock?_eq_some_iff hseconds hfraction.lt hzone.dvd).1 h
        rw [List.append_nil]
        exact .intro hdate hexists (or_assoc.1 hseparator) hhour hhours hminute hminutes hsecond
          hseconds hfraction hzone hwhole hnanos
    · cases h
  · rintro ⟨hdate, hexists, hseparator, hhour, hhours, hminute, hminutes, hsecond, hseconds,
      hfraction, hzone, hwhole, hnanos⟩
    obtain ⟨c, rest, rfl, hpoint, hdigit⟩ := hzone.exists_eq_cons
    refine ⟨_, _, ⟨_, hdate, rfl⟩, _, ⟨_, or_assoc.2 hseparator, rfl⟩, _, _, ⟨_, hhour, rfl⟩, _,
      ⟨_, rfl, rfl⟩, _, _, ⟨_, hminute, rfl⟩, _, ⟨_, rfl, rfl⟩, _, _, ⟨_, hsecond, rfl⟩, _, _,
      takeFraction_append hfraction hpoint hdigit, _, [], ⟨_, hzone, by simp⟩, ?_⟩
    rw [if_pos (by simp [hexists, hhours, hminutes, hseconds])]
    exact (instantOfClock?_eq_some_iff hseconds hfraction.lt hzone.dvd).2 ⟨hwhole, hnanos⟩

/-- `instant.SpelledBy text` holds if a text names an instant, with blanks around it. -/
def Instant.SpelledBy (instant : Instant) (text : String) : Prop :=
  ∃ before chars after, text.toList = before ++ chars ++ after ∧
    (∀ c ∈ before, Text.isBlank c = true) ∧ (∀ c ∈ after, Text.isBlank c = true) ∧
    Names chars instant

/-- What names an instant is not stripped of anything. -/
theorem Names.strip_append {before chars after : List Char} {instant : Instant}
    (hbefore : ∀ c ∈ before, Text.isBlank c = true) (h : Names chars instant)
    (hafter : ∀ c ∈ after, Text.isBlank c = true) :
    Text.strip (before ++ chars ++ after) = chars := by
  obtain ⟨hdate, -, -, -, -, -, -, -, -, -, hzone, -, -⟩ := h
  refine Text.trim_append_of_ends hbefore ?_ ?_ hafter
  · obtain ⟨c, rest, rfl, hc⟩ := hdate.exists_eq_cons
    rintro _ ⟨⟩
    exact Text.isBlank_of_isDigit hc
  · obtain ⟨c, rest, rfl, -, -⟩ := hzone.exists_eq_cons
    simpa [List.getLast?_append, List.getLast?_cons] using hzone.getLast?_not_blank

/-- A text is read as an instant exactly if it spells it. -/
theorem Instant.ofText?_eq_some_iff {text : String} {instant : Instant} :
    ofText? text = some instant ↔ instant.SpelledBy text := by
  rw [ofText?, instantOfChars?_eq_some_iff]
  constructor
  · intro h
    obtain ⟨before, after, htext, hbefore, hafter⟩ := Text.exists_strip text.toList
    exact ⟨before, _, after, htext, hbefore, hafter, h⟩
  · rintro ⟨before, chars, after, htext, hbefore, hafter, h⟩
    rwa [htext, h.strip_append hbefore hafter]

end TableQuery.Time
