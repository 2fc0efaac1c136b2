import Mathlib.Data.List.TakeWhile
import TableQuery.Database.JulianDay
import TableQuery.Proofs.CalendarDays
import TableQuery.Proofs.Cursor

/-!
# Instants that are written and read

An instant is bound as its text, and the database reads that text by its own rules.  This module
says what becomes of an instant on that way.  Dates and times come back, since their numbers have
as many digits as are read.  A fraction of a second comes back rounded to milliseconds.  Two kinds
of instants do not come back at all: a leap second, because it is written as second 60, and an
instant past the year 9999, because its year is written with a sign and more digits.

## Main results

* `takeNumber_padded` — a number with enough digits is read back.
* `JulianDay.ofText?_text` — the moment that the text of an instant denotes.
-/

namespace TableQuery

open Numeral Time

/-! ## Numbers -/

theorem digitsValue_eq_ofDigitChars (digits : List Char) :
    digitsValue digits = Nat.ofDigitChars 10 digits 0 := by
  unfold digitsValue Nat.ofDigitChars digitValue
  simp only [Nat.mul_comm]

namespace Time

theorem isDigit_of_mem_padded {width value : Nat} {c : Char} (h : c ∈ padded width value) :
    c.isDigit = true := by
  rcases List.mem_append.1 h with h | h
  · obtain rfl := List.eq_of_mem_replicate h
    decide
  · exact Nat.isDigit_of_mem_toDigits (by decide) (by decide) h

theorem length_padded {width value : Nat} (hwidth : 0 < width) (h : value < 10 ^ width) :
    (padded width value).length = width := by
  have hdigits : (Nat.toDigits 10 value).length ≤ width :=
    (Nat.length_toDigits_le_iff (by decide) hwidth).2 h
  unfold padded
  rw [List.length_append, List.length_replicate]
  omega

theorem ofDigitChars_padded (width value : Nat) :
    Nat.ofDigitChars 10 (padded width value) 0 = value := by
  unfold padded
  rw [Nat.ofDigitChars_append, Nat.ofDigitChars_replicate_zero, Nat.mul_zero]
  exact Nat.ofDigitChars_ten_toDigits

theorem exists_padded_eq_cons {width value : Nat} :
    ∃ c rest, padded width value = c :: rest ∧ c.isDigit = true := by
  have hne : padded width value ≠ [] := List.append_ne_nil_of_right_ne_nil _ Nat.toDigits_ne_nil
  obtain ⟨c, rest, heq⟩ := List.exists_cons_of_ne_nil hne
  exact ⟨c, rest, heq, isDigit_of_mem_padded (heq ▸ List.mem_cons_self)⟩

/-- Digits are read as the number that they denote, up to where the reading stops. -/
theorem takeNumber_append {digits : List Char} (hdigits : ∀ c ∈ digits, c.isDigit = true)
    (value : Nat) (rest : List Char) :
    takeNumber digits.length value (digits ++ rest) =
      some (Nat.ofDigitChars 10 digits value, rest) := by
  induction digits generalizing value with
  | nil => rfl
  | cons c digits ih =>
      have hc : c.isDigit = true := hdigits c List.mem_cons_self
      show (if c.isDigit then takeNumber digits.length _ (digits ++ rest) else none) = _
      rw [if_pos hc, ih fun d hd => hdigits d (List.mem_cons_of_mem c hd), Nat.ofDigitChars_cons,
        Nat.mul_comm]

/-- A number with enough digits is read back. -/
theorem takeNumber_padded {width value : Nat} (hwidth : 0 < width) (h : value < 10 ^ width)
    (rest : List Char) : takeNumber width 0 (padded width value ++ rest) = some (value, rest) := by
  have hread := takeNumber_append (fun c => @isDigit_of_mem_padded width value c) 0 rest
  rw [length_padded hwidth h, ofDigitChars_padded] at hread
  exact hread

/-- A date with a year of four digits is read back. -/
theorem takeDate_padded {year month day : Nat} (hyear : year < 10000) (hmonth : month < 100)
    (hday : day < 100) (rest : List Char) :
    takeDate (padded 4 year ++ '-' :: (padded 2 month ++ '-' :: (padded 2 day ++ rest))) =
      some (⟨year, month, day⟩, rest) := by
  unfold takeDate
  rw [takeNumber_padded (by decide) hyear]
  show (takeNumber 2 0 _ >>= _) = _
  rw [takeNumber_padded (by decide) hmonth]
  show (takeNumber 2 0 _ >>= _) = _
  rw [takeNumber_padded (by decide) hday]
  rfl

end Time

/-! ## Times -/

namespace JulianDay

theorem takeHourMinute_padded {hour minute : Nat} (hhour : hour ≤ 24) (hminute : minute ≤ 59)
    (rest : List Char) :
    takeHourMinute 24 (padded 2 hour ++ ':' :: (padded 2 minute ++ rest)) =
      some (hour * 60 + minute, rest) := by
  unfold takeHourMinute
  rw [takeNumber_padded (by decide) (by omega)]
  show (takeNumber 2 0 _ >>= _) = _
  rw [takeNumber_padded (by decide) (by omega)]
  show (if (decide (hour ≤ 24) && decide (minute ≤ 59)) = true then _ else none) = _
  rw [decide_eq_true hhour, decide_eq_true hminute]
  rfl

/-- The digits of a fraction denote it in milliseconds, a half rounded up. -/
theorem millisOfDigits_padded {width value : Nat} (hwidth : 0 < width) (h : value < 10 ^ width) :
    millisOfDigits (padded width value) = (2000 * value + 10 ^ width) / (2 * 10 ^ width) := by
  unfold millisOfDigits
  rw [digitsValue_eq_ofDigitChars, ofDigitChars_padded, length_padded hwidth h]
  rfl

theorem takeSeconds_point {second width value : Nat} (hsecond : second ≤ 59) (hwidth : 0 < width)
    (h : value < 10 ^ width) :
    takeSeconds (':' :: (padded 2 second ++ '.' :: (padded width value ++ ['Z']))) =
      some (second * 1000 + (2000 * value + 10 ^ width) / (2 * 10 ^ width), ['Z']) := by
  have hdigits : ∀ c ∈ padded width value, c.isDigit = true := fun c => isDigit_of_mem_padded
  have htake : (padded width value ++ ['Z']).takeWhile Char.isDigit = padded width value := by
    rw [List.takeWhile_append_of_pos hdigits, List.takeWhile_cons_of_neg (by decide),
      List.append_nil]
  have hdrop : (padded width value ++ ['Z']).dropWhile Char.isDigit = ['Z'] := by
    rw [List.dropWhile_append_of_pos hdigits]
    rfl
  have hsome : (padded width value).isEmpty = false := by
    rw [List.isEmpty_eq_false_iff_exists_mem, ← List.length_pos_iff_exists_mem,
      length_padded hwidth h]
    exact hwidth
  rw [takeSeconds, takeNumber_padded (by decide) (by omega)]
  show (if 59 < second then _ else _) = _
  rw [if_neg (by omega)]
  show (if ((padded width value ++ ['Z']).takeWhile Char.isDigit).isEmpty then _ else _) = _
  rw [htake, hdrop, hsome, millisOfDigits_padded hwidth h]
  rfl

/-- A second and its fraction are read back to the nearest millisecond. -/
theorem takeSeconds_fractionChars {second nanos : Nat} (hsecond : second ≤ 59)
    (hnanos : nanos < nanosPerSecond) :
    takeSeconds (':' :: (padded 2 second ++ (Instant.fractionChars nanos ++ ['Z']))) =
      some (second * 1000 + (nanos + 500000) / 1000000, ['Z']) := by
  unfold nanosPerSecond at hnanos
  unfold Instant.fractionChars
  by_cases hzero : nanos = 0
  · subst hzero
    rw [if_pos rfl, takeSeconds, takeNumber_padded (by decide) (by omega)]
    have hround : (0 + 500000) / 1000000 = 0 := by decide
    show (if 59 < second then _ else _) = _
    rw [if_neg (by omega), hround, Nat.add_zero, List.nil_append]
    simp
  · have hpoint : ∀ {width value : Nat}, 0 < width → value < 10 ^ width →
        (2000 * value + 10 ^ width) / (2 * 10 ^ width) = (nanos + 500000) / 1000000 →
        takeSeconds (':' :: (padded 2 second ++ '.' :: (padded width value ++ ['Z']))) =
          some (second * 1000 + (nanos + 500000) / 1000000, ['Z']) := by
      intro width value hwidth hvalue hround
      rw [← hround]
      exact takeSeconds_point hsecond hwidth hvalue
    rw [if_neg hzero]
    by_cases hmillis : nanos % 1000000 = 0
    · rw [if_pos hmillis]
      exact hpoint (by decide) (by omega) (by omega)
    · rw [if_neg hmillis]
      by_cases hmicros : nanos % 1000 = 0
      · rw [if_pos hmicros]
        exact hpoint (by decide) (by omega) (by omega)
      · rw [if_neg hmicros]
        exact hpoint (by decide) (by omega) (by omega)

/-- There is no second 60. -/
theorem takeSeconds_sixty (rest : List Char) :
    takeSeconds (':' :: (padded 2 60 ++ rest)) = none := by
  rw [takeSeconds, takeNumber_padded (by decide) (by decide)]
  rfl

/-- The time of an instant is read back to the nearest millisecond, unless it is a leap second. -/
theorem timeOf?_timeChars (instant : Instant) :
    timeOf? (instant.timeChars ++ ['Z']) =
      if instant.nanos < nanosPerSecond then
        some (instant.seconds % 86400 * 1000 + ((instant.nanos + 500000) / 1000000 : Nat))
      else none := by
  have hday : instant.secondOfDay < 86400 := by
    unfold Instant.secondOfDay
    omega
  have hseconds : (instant.secondOfDay : Int) = instant.seconds % 86400 := by
    unfold Instant.secondOfDay
    omega
  have hminutes : ∀ rest, takeHourMinute 24 (padded 2 (instant.secondOfDay / 3600) ++
      ':' :: (padded 2 (instant.secondOfDay / 60 % 60) ++ rest)) = some (_, rest) :=
    takeHourMinute_padded (by omega) (by omega)
  have hwritten : instant.timeChars ++ ['Z'] = padded 2 (instant.secondOfDay / 3600) ++
      ':' :: (padded 2 (instant.secondOfDay / 60 % 60) ++
        ':' :: (padded 2 (instant.secondOfDay % 60 + instant.nanos / nanosPerSecond) ++
          (Instant.fractionChars (instant.nanos % nanosPerSecond) ++ ['Z']))) := by
    unfold Instant.timeChars
    simp only [List.append_assoc, List.cons_append]
  rw [hwritten, timeOf?, hminutes]
  show (takeSeconds (':' :: _) >>= _) = _
  by_cases hleap : instant.nanos < nanosPerSecond
  · rw [if_pos hleap, Nat.div_eq_of_lt hleap, Nat.mod_eq_of_lt hleap, Nat.add_zero,
      takeSeconds_fractionChars (by omega) hleap]
    have hzone : zoneOf? ['Z'] = some 0 := by decide
    simp only [hzone, Option.bind_eq_bind, Option.bind_some, pure]
    refine congrArg some ?_
    rw [← hseconds]
    omega
  · -- a leap second is written as second 60
    have hsixty : instant.secondOfDay % 60 + instant.nanos / nanosPerSecond = 60 := by
      have hclock := instant.isClock
      unfold nanosPerSecond at hclock hleap ⊢
      omega
    rw [if_neg hleap, hsixty, takeSeconds_sixty]
    rfl

/-! ## Dates with times -/

theorem isSpace_eq_false {c : Char} (h : 33 ≤ c.toNat) : Cell.isSpace c = false := by
  rw [Bool.eq_false_iff]
  intro hspace
  simp only [Cell.isSpace, Bool.or_eq_true, Bool.and_eq_true, decide_eq_true_eq] at hspace
  rcases hspace with rfl | ⟨-, hspace⟩
  · exact absurd h (by decide)
  · have hbound : c.toNat ≤ 13 := hspace
    omega

/-- A date with a year of four digits and perhaps a minus sign is read back, with the time after
it. -/
theorem ofDateTime?_padded {year month day : Nat} (negative : Bool) (hyear : year < 10000)
    (hmonth : 1 ≤ month ∧ month ≤ 12) (hday : 1 ≤ day ∧ day ≤ 31) {c : Char} (hc : c.isDigit = true)
    (time : List Char) :
    ofDateTime? ((if negative then ['-'] else []) ++ (padded 4 year ++ '-' :: (padded 2 month ++
        '-' :: (padded 2 day ++ 'T' :: c :: time)))) =
      timeOf? (c :: time) >>=
        atDate? ⟨if negative then -(year : Int) else year, month, day⟩ := by
  have hdate := takeDate_padded hyear (show month < 100 by omega) (show day < 100 by omega)
    ('T' :: c :: time)
  have hspace : (decide (c = 'T') || Cell.isSpace c) = false := by
    have hdigit := Text.isDigit_range hc
    rw [isSpace_eq_false (by omega), Bool.or_false, decide_eq_false_iff_not]
    rintro rfl
    exact absurd hc (by decide)
  have hdrop : ('T' :: c :: time).dropWhile (fun c => c = 'T' || Cell.isSpace c) = c :: time := by
    rw [List.dropWhile_cons_of_pos (by decide), List.dropWhile_cons_of_neg]
    rw [hspace]
    exact Bool.false_ne_true
  have hrange : (decide (1 ≤ month) && decide (month ≤ 12) && decide (1 ≤ day) &&
      decide (day ≤ 31)) = true := by
    simp only [hmonth.1, hmonth.2, hday.1, hday.2, decide_true, Bool.and_self]
  obtain ⟨d, rest, hpadded, hd⟩ := @exists_padded_eq_cons 4 year
  have hminus : d ≠ '-' := by
    rintro rfl
    exact absurd hd (by decide)
  unfold ofDateTime?
  cases negative with
  | false =>
      have hhead : ∀ tail : List Char, ¬ (padded 4 year ++ tail).head? = some '-' := by
        intro tail h
        rw [hpadded] at h
        exact hminus (Option.some.inj h)
      simp only [Bool.false_eq_true, ↓reduceIte, List.nil_append, hhead, hdate, hdrop, hrange,
        Option.bind_eq_bind, Option.bind_some, List.isEmpty_cons]
  | true =>
      simp only [↓reduceIte, List.cons_append, List.nil_append, List.head?_cons, List.drop_one,
        List.tail_cons, hdate, hdrop, hrange, Option.bind_eq_bind, Option.bind_some,
        List.isEmpty_cons, Bool.false_eq_true]

end JulianDay

namespace Time.Instant

/-- The milliseconds from 1970-01-01 to an instant, a half of one rounded up. -/
def millis (instant : Instant) : Int :=
  instant.seconds * 1000 + ((instant.nanos + 500000) / 1000000 : Nat)

/-- What stands before the digits of the year. -/
def yearSign (instant : Instant) : List Char :=
  if 0 ≤ instant.date.year ∧ instant.date.year ≤ 9999 then []
  else if instant.date.year < 0 then ['-'] else ['+']

theorem yearSign_cases (instant : Instant) :
    instant.yearSign = [] ∨ instant.yearSign = ['-'] ∨ instant.yearSign = ['+'] := by
  unfold yearSign
  split
  · exact .inl rfl
  · split
    · exact .inr (.inl rfl)
    · exact .inr (.inr rfl)

/-- The text of an instant, as the sign of its year, and then digits and what stands between
them. -/
theorem chars_eq (instant : Instant) :
    instant.chars = instant.yearSign ++
      (padded 4 instant.date.year.natAbs ++ '-' :: (padded 2 instant.date.month ++
        '-' :: (padded 2 instant.date.day ++ 'T' :: (instant.timeChars ++ ['Z'])))) := by
  unfold chars Date.chars yearChars yearSign
  split
  · simp only [List.append_assoc, List.cons_append, List.nil_append]
  · split <;> simp only [List.append_assoc, List.cons_append, List.nil_append]

theorem exists_timeChars_eq_cons (instant : Instant) :
    ∃ c rest, instant.timeChars = c :: rest ∧ c.isDigit = true := by
  obtain ⟨c, rest, hpadded, hc⟩ := @exists_padded_eq_cons 2 (instant.secondOfDay / 3600)
  show ∃ d further, padded 2 (instant.secondOfDay / 3600) ++ _ ++ _ ++ _ = d :: further ∧ _
  rw [hpadded]
  exact ⟨c, _, rfl, hc⟩

end Time.Instant

namespace JulianDay

/-- Neither a year past 9999 nor a leap second is read as a date with a time. -/
theorem ofDateTime?_chars (instant : Instant) (hyear : -9999 ≤ instant.date.year) :
    ofDateTime? instant.chars =
      if instant.date.year ≤ 9999 ∧ instant.nanos < nanosPerSecond then
        inRange? (epoch + instant.millis)
      else none := by
  obtain ⟨c, rest, htime, hc⟩ := instant.exists_timeChars_eq_cons
  have hmonth : 1 ≤ instant.date.month ∧ instant.date.month ≤ 12 := (Date.ofDayNumber_bounds _).1
  have hday : 1 ≤ instant.date.day ∧ instant.date.day ≤ 31 := (Date.ofDayNumber_bounds _).2
  have htimeOf := timeOf?_timeChars instant
  rw [htime, List.cons_append] at htimeOf
  rw [instant.chars_eq, htime, List.cons_append]
  by_cases hlate : instant.date.year ≤ 9999
  · have hsign : instant.yearSign =
        if decide (instant.date.year < 0) then ['-'] else [] := by
      unfold Instant.yearSign
      by_cases hnegative : instant.date.year < 0
      · rw [if_neg (by omega), if_pos hnegative, if_pos (decide_eq_true hnegative)]
      · rw [if_pos (by omega), if_neg (by simpa using hnegative)]
    have hyearBack : (if decide (instant.date.year < 0) then -(instant.date.year.natAbs : Int)
        else instant.date.year.natAbs) = instant.date.year := by
      by_cases hnegative : instant.date.year < 0
      · rw [if_pos (decide_eq_true hnegative)]
        omega
      · rw [if_neg (by simpa using hnegative)]
        omega
    rw [hsign, ofDateTime?_padded _ (by omega) hmonth hday hc, hyearBack, htimeOf]
    by_cases hleap : instant.nanos < nanosPerSecond
    · rw [if_pos hleap, if_pos ⟨hlate, hleap⟩]
      have hday : instant.date.dayNumber = instant.seconds / 86400 := Date.dayNumber_ofDayNumber _
      show inRange? (epoch + instant.date.dayNumber * dayLength + _) = _
      rw [hday]
      unfold dayLength Instant.millis
      congr 1
      omega
    · rw [if_neg hleap, if_neg fun h => hleap h.2]
      rfl
  · have hsign : instant.yearSign = ['+'] := by
      unfold Instant.yearSign
      rw [if_neg (by omega), if_neg (by omega)]
    rw [hsign, if_neg fun h => hlate h.1]
    rfl

/-! ## Other readings -/

/-- What has no colon after two characters is no time. -/
theorem ofTime?_eq_none {a b c : Char} (hc : c ≠ ':') (rest : List Char) :
    ofTime? (a :: b :: c :: rest) = none := by
  have hnone : takeHourMinute 24 (a :: b :: c :: rest) = none := by
    unfold takeHourMinute
    by_cases ha : a.isDigit
    · by_cases hb : b.isDigit
      · simp [takeNumber, takeChar, ha, hb, hc]
      · simp [takeNumber, ha, hb]
    · simp [takeNumber, ha]
  unfold ofTime? timeOf?
  rw [hnone]
  rfl

/-- What goes on with a hyphen after its digits is no number. -/
theorem numberOfChars?_eq_none {sign digits rest : List Char}
    (hsign : sign = [] ∨ sign = ['-'] ∨ sign = ['+']) (hdigits : ∀ c ∈ digits, c.isDigit = true)
    (hne : digits ≠ []) (hspace : ∀ c ∈ sign ++ (digits ++ '-' :: rest), Cell.isSpace c = false) :
    Cell.numberOfChars? (sign ++ (digits ++ '-' :: rest)) = none := by
  have hstrip : Cell.stripSpace (sign ++ (digits ++ '-' :: rest)) =
      sign ++ (digits ++ '-' :: rest) := Text.trim_eq_self hspace
  have htake : (digits ++ '-' :: rest).takeWhile Char.isDigit = digits := by
    rw [List.takeWhile_append_of_pos hdigits, List.takeWhile_cons_of_neg (by decide),
      List.append_nil]
  have hdrop : (digits ++ '-' :: rest).dropWhile Char.isDigit = '-' :: rest := by
    rw [List.dropWhile_append_of_pos hdigits]
    rfl
  have hbody : (if (decide ((sign ++ (digits ++ '-' :: rest)).head? = some '-') ||
        decide ((sign ++ (digits ++ '-' :: rest)).head? = some '+')) = true then
          (sign ++ (digits ++ '-' :: rest)).drop 1 else sign ++ (digits ++ '-' :: rest)) =
      digits ++ '-' :: rest := by
    rcases hsign with rfl | rfl | rfl
    · obtain ⟨c, further, rfl⟩ := List.exists_cons_of_ne_nil hne
      have hc : c.isDigit = true := hdigits c List.mem_cons_self
      have hminus : c ≠ '-' := by
        rintro rfl
        exact absurd hc (by decide)
      have hplus : c ≠ '+' := by
        rintro rfl
        exact absurd hc (by decide)
      simp [hminus, hplus]
    · rfl
    · rfl
  unfold Cell.numberOfChars?
  simp only [hstrip, hbody, htake, hdrop]
  have hexponent : Json.readExponent ('-' :: rest) = some (none, '-' :: rest) := rfl
  show (Json.readExponent ('-' :: rest) >>= _) = _
  rw [hexponent]
  show (if (digits.isEmpty && _ || !false) = true then none else _) = none
  rw [Bool.not_false, Bool.or_true, if_pos rfl]

end JulianDay

/-! ## Texts of instants -/

namespace Time

theorem padded_range {width value : Nat} {c : Char} (h : c ∈ padded width value) :
    43 ≤ c.toNat ∧ c.toNat ≤ 90 := by
  have hdigit := Text.isDigit_range (isDigit_of_mem_padded h)
  omega

/-- The characters of an instant's text lie between `+` and `Z`. -/
theorem Instant.chars_range (instant : Instant) :
    ∀ c ∈ instant.chars, 43 ≤ c.toNat ∧ c.toNat ≤ 90 := by
  have hfraction : ∀ c ∈ fractionChars (instant.nanos % nanosPerSecond),
      43 ≤ c.toNat ∧ c.toNat ≤ 90 := by
    have hpoint : ∀ width value, ∀ c ∈ '.' :: padded width value, 43 ≤ c.toNat ∧ c.toNat ≤ 90 :=
      fun width value => List.forall_mem_cons.2 ⟨by decide, fun c => padded_range⟩
    unfold fractionChars
    split
    · exact fun c h => absurd h List.not_mem_nil
    · split
      · exact hpoint 3 _
      · split
        · exact hpoint 6 _
        · exact hpoint 9 _
  have htime : ∀ c ∈ instant.timeChars, 43 ≤ c.toNat ∧ c.toNat ≤ 90 := by
    unfold timeChars
    simp only [List.forall_mem_append, List.forall_mem_cons]
    exact ⟨⟨⟨fun c => padded_range, by decide, fun c => padded_range⟩, by decide,
      fun c => padded_range⟩, hfraction⟩
  have hsign : ∀ c ∈ instant.yearSign, 43 ≤ c.toNat ∧ c.toNat ≤ 90 := by
    rcases instant.yearSign_cases with h | h | h <;> rw [h]
    · exact List.forall_mem_nil _
    · exact List.forall_mem_singleton.2 (by decide)
    · exact List.forall_mem_singleton.2 (by decide)
  rw [instant.chars_eq]
  simp only [List.forall_mem_append, List.forall_mem_cons]
  exact ⟨hsign, fun c => padded_range, by decide, fun c => padded_range, by decide,
    fun c => padded_range, by decide, htime, by decide, List.forall_mem_nil _⟩

/-- The third character of an instant's text is a digit of the year. -/
theorem Instant.exists_chars_eq_cons (instant : Instant) :
    ∃ a b c rest, instant.chars = a :: b :: c :: rest ∧ c.isDigit = true := by
  have hdigits : ∃ a b c rest, padded 4 instant.date.year.natAbs = a :: b :: c :: rest ∧
      b.isDigit = true ∧ c.isDigit = true := by
    have hlength : 4 ≤ (padded 4 instant.date.year.natAbs).length := by
      unfold padded
      rw [List.length_append, List.length_replicate]
      omega
    have hdigit := fun c => @isDigit_of_mem_padded 4 instant.date.year.natAbs c
    revert hlength hdigit
    match padded 4 instant.date.year.natAbs with
    | a :: b :: c :: rest =>
        intro _ hdigit
        exact ⟨a, b, c, rest, rfl, hdigit b (by simp), hdigit c (by simp)⟩
    | [] | [_] | [_, _] =>
        intro hlength _
        simp at hlength
  obtain ⟨a, b, c, rest, hpadded, hb, hc⟩ := hdigits
  rw [instant.chars_eq, hpadded]
  rcases instant.yearSign_cases with h | h | h
  · rw [h]
    exact ⟨a, b, c, _, rfl, hc⟩
  · rw [h]
    exact ⟨'-', a, b, _, rfl, hb⟩
  · rw [h]
    exact ⟨'+', a, b, _, rfl, hb⟩

end Time

namespace JulianDay

/-- The moment that the text of an instant denotes: the instant to the nearest millisecond, as long
as that is in range.  A year past 9999 and a leap second are not read. -/
theorem ofText?_text (instant : Instant) (hyear : -9999 ≤ instant.date.year) :
    ofText? instant.text =
      if instant.date.year ≤ 9999 ∧ instant.nanos < nanosPerSecond then
        inRange? (epoch + instant.millis)
      else none := by
  have htext : instant.text.toList = instant.chars := String.toList_ofList
  have huntil : untilNull instant.text = instant.chars := by
    unfold untilNull
    rw [htext, List.takeWhile_eq_self_iff]
    intro c hc
    rw [decide_eq_true_iff]
    rintro rfl
    exact absurd (instant.chars_range _ hc) (by decide)
  have htime : ofTime? instant.chars = none := by
    obtain ⟨a, b, c, rest, hchars, hc⟩ := instant.exists_chars_eq_cons
    rw [hchars]
    refine ofTime?_eq_none ?_ rest
    rintro rfl
    exact absurd hc (by decide)
  have hnumber : (Cell.text instant.text).toNumber = .text instant.text := by
    have hspace : ∀ c ∈ instant.chars, Cell.isSpace c = false := by
      intro c hc
      have hrange := instant.chars_range c hc
      exact isSpace_eq_false (by omega)
    have hnone : Cell.numberOfChars? instant.chars = none := by
      rw [instant.chars_eq] at hspace ⊢
      obtain ⟨c, rest, hpadded, -⟩ := @exists_padded_eq_cons 4 instant.date.year.natAbs
      exact numberOfChars?_eq_none instant.yearSign_cases (fun c => isDigit_of_mem_padded)
        (hpadded ▸ List.cons_ne_nil c rest) hspace
    show (Cell.numberOfChars? instant.text.toList).getD (.text instant.text) = _
    rw [htext, hnone]
    rfl
  unfold ofText? ofChars?
  rw [huntil, htime, hnumber, ofDateTime?_chars instant hyear]
  have hlast : ∀ moment : Option Int,
      ((moment.orElse fun _ => none).orElse fun _ => none) = moment := by
    intro moment
    cases moment <;> rfl
  exact hlast _

end JulianDay

end TableQuery
