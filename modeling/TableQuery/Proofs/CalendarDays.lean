import TableQuery.Time.Calendar

/-!
# Days and dates

The date of a day is found by taking the day number apart: whole cycles of 400 years, years of a
cycle, months of a year, and days of a month.  Each step leaves a remainder that is in the range of
the next one.  For months this is plain arithmetic; for years it is not, since the correction for
leap days depends on the year that is sought.  There the quotients by 100 years and by 4 years are
pinned first, and what is left of them is linear.

The day numbers themselves are counted from the first of March, which the calendar does not know of.
They are tied to it by one law: the day after a date has the next number (`Date.dayNumber_next`).

## Main results

* `Date.ofDayNumber_parts` — the parts of a day, with their ranges, and the date that they make.
* `Date.dayNumber_ofDayNumber`, `Date.exists_ofDayNumber` — the date of a day is on that day, and
  exists.
* `Date.year_ofDayNumber_lt_iff` — which days are before a year out of 400.
* `Date.dayNumber_next` — day numbers count the days of the calendar.
-/

namespace TableQuery.Time.Date

/-- What the year of a day in a cycle of 400 years is by 100 and by 4, up to one. -/
theorem yearOfCycle_quotients {day year : Int} (hday : 0 ≤ day ∧ day < 146097)
    (hyear : year = (day - day / 1460 + day / 36524 - day / 146096) / 365) :
    year / 100 = day / 36524 - day / 146096 ∧
      day / 1460 - 1 ≤ year / 4 ∧ year / 4 ≤ day / 1460 := by
  -- the last day of a cycle is the only one that the last correction is for
  have hlast : day / 146096 = 0 ∨ day / 146096 = 1 ∧ day = 146096 := by omega
  have hcentury : day / 36524 = 0 ∨ day / 36524 = 1 ∨ day / 36524 = 2 ∨ day / 36524 = 3 ∨
      day / 36524 = 4 := by omega
  have hrange : 0 ≤ day / 1460 ∧ day / 1460 ≤ 100 := by omega
  rcases hlast with h | ⟨h, rfl⟩
  · rcases hcentury with h' | h' | h' | h' | h' <;> omega
  · omega

/-- The year of a day in a cycle starts on that day or before it, and the next one after it. -/
theorem yearOfCycle_bounds {day year : Int} (hday : 0 ≤ day ∧ day < 146097)
    (hyear : year = (day - day / 1460 + day / 36524 - day / 146096) / 365) :
    0 ≤ year ∧ year < 400 ∧ daysBeforeMarch year ≤ day ∧ day < daysBeforeMarch (year + 1) := by
  obtain ⟨h100, h4⟩ := yearOfCycle_quotients hday hyear
  have hnext : day < 365 * (year + 1) + (year + 1) / 4 - (year + 1) / 100 + (year + 1) / 400 := by
    -- the next year has other quotients only if it starts a leap year, a century or a cycle
    have hleap : (year + 1) / 4 = year / 4 ∧ year ≤ 4 * (year / 4) + 2 ∨
        (year + 1) / 4 = year / 4 + 1 := by omega
    have hcentury : (year + 1) / 100 = year / 100 ∨
        (year + 1) / 100 = year / 100 + 1 ∧ year = 100 * (year / 100) + 99 := by omega
    have hcycle : (year + 1) / 400 = 0 ∨ year = 399 := by omega
    have hlast : day / 146096 = 0 ∨ day = 146096 := by omega
    rcases hlast with hlast | rfl
    · rcases hcycle with hcycle | hcycle
      · rcases hleap with hleap | hleap <;> rcases hcentury with hcentury | hcentury <;> omega
      · omega
    · omega
  unfold daysBeforeMarch
  omega

/-- The month of a day in a year that starts in March, and what is left of the day. -/
theorem monthOfYear_bounds {day month : Int} (hday : 0 ≤ day ∧ day < 366)
    (hmonth : month = (5 * day + 2) / 153) :
    0 ≤ month ∧ month < 12 ∧ daysFromMarch month ≤ day ∧ day < daysFromMarch (month + 1) := by
  unfold daysFromMarch
  omega

/-- A day number taken apart: `cycle` cycles of 400 years, `year` years of the next one, `month`
months from March, and `day` days. -/
theorem ofDayNumber_parts (number : Int) :
    ∃ cycle year month day : Int,
      (0 ≤ year ∧ year < 400) ∧ (0 ≤ month ∧ month < 12) ∧
      (0 ≤ day ∧ day < daysFromMarch (month + 1) - daysFromMarch month) ∧
      daysBeforeMarch year + daysFromMarch month + day < daysBeforeMarch (year + 1) ∧
      number + 719468 =
        146097 * cycle + (daysBeforeMarch year + daysFromMarch month + day) ∧
      ofDayNumber number = {
        year := year + 400 * cycle + if month < 10 then 0 else 1
        month := (if month < 10 then month + 3 else month - 9).toNat
        day := (day + 1).toNat } := by
  have hday : 0 ≤ (number + 719468) % 146097 ∧ (number + 719468) % 146097 < 146097 := by omega
  obtain ⟨hzero, h400, hstart, hnext⟩ := yearOfCycle_bounds hday rfl
  have hfirst : ∀ year : Int, 0 ≤ year → year < 400 →
      365 * year + year / 4 - year / 100 = daysBeforeMarch year := by
    intro year hzero h400
    unfold daysBeforeMarch
    omega
  have hlength : ∀ year : Int, daysBeforeMarch (year + 1) ≤ daysBeforeMarch year + 366 := by
    intro year
    unfold daysBeforeMarch
    omega
  have hmonth := monthOfYear_bounds
    ⟨Int.sub_nonneg.2 hstart, Int.sub_left_lt_of_lt_add (Int.lt_of_lt_of_le hnext (hlength _))⟩ rfl
  have hassemble : ∀ marchYear month : Int, 0 ≤ month ∧ month < 12 →
      (if (if month < 10 then month + 3 else month - 9) ≤ 2 then marchYear + 1 else marchYear) =
        marchYear + if month < 10 then 0 else 1 := by
    intro marchYear month hrange
    by_cases h : month < 10
    · rw [if_pos h, if_pos h, if_neg (by omega), Int.add_zero]
    · rw [if_neg h, if_neg h, if_pos (by omega)]
  refine ⟨(number + 719468) / 146097, _, _, _, ⟨hzero, h400⟩, ⟨hmonth.1, hmonth.2.1⟩,
    ⟨Int.sub_nonneg.2 hmonth.2.2.1, Int.sub_lt_sub_right hmonth.2.2.2 _⟩, ?_, ?_, ?_⟩
  · omega
  · omega
  · unfold ofDayNumber
    simp only [hfirst _ hzero h400, hassemble _ _ ⟨hmonth.1, hmonth.2.1⟩]

/-- The date of a day is on that day. -/
theorem dayNumber_ofDayNumber (number : Int) : (ofDayNumber number).dayNumber = number := by
  obtain ⟨cycle, year, month, day, hyear, hmonth, hday, -, hnumber, heq⟩ := ofDayNumber_parts number
  have hcentury : (year + 400 * cycle) / 4 = year / 4 + 100 * cycle ∧
      (year + 400 * cycle) / 100 = year / 100 + 4 * cycle ∧
      (year + 400 * cycle) / 400 = cycle := by omega
  rw [heq]
  unfold daysBeforeMarch at hnumber
  unfold dayNumber daysBeforeMarch
  by_cases h : month < 10
  · have hmarch : ¬ (month + 3).toNat ≤ 2 := by omega
    have hback : (((month + 3).toNat + 9) % 12 : Nat) = month := by omega
    simp only [if_pos h, if_neg hmarch, hback, Int.add_zero]
    omega
  · have hmarch : (month - 9).toNat ≤ 2 := by omega
    have hback : (((month - 9).toNat + 9) % 12 : Nat) = month := by omega
    simp only [if_neg h, if_pos hmarch, hback, Int.add_sub_cancel]
    omega

/-- The month and the day of the month have two digits. -/
theorem ofDayNumber_bounds (number : Int) :
    (1 ≤ (ofDayNumber number).month ∧ (ofDayNumber number).month ≤ 12) ∧
      1 ≤ (ofDayNumber number).day ∧ (ofDayNumber number).day ≤ 31 := by
  obtain ⟨cycle, year, month, day, -, hmonth, hday, -, -, heq⟩ := ofDayNumber_parts number
  rw [heq]
  unfold daysFromMarch at hday
  by_cases h : month < 10
  · simp only [if_pos h]
    omega
  · simp only [if_neg h]
    omega

/-- Which days are before the first of January of a year that a cycle of leap years starts with. -/
theorem year_ofDayNumber_lt_iff (number k : Int) :
    (ofDayNumber number).year < 400 * k ↔ number + 719528 < 146097 * k := by
  obtain ⟨cycle, year, month, day, hyear, hmonth, hday, hnext, hnumber, heq⟩ :=
    ofDayNumber_parts number
  have hyears : daysBeforeMarch year = 365 * year + year / 4 - year / 100 ∧
      daysBeforeMarch (year + 1) ≤ 146097 := by
    unfold daysBeforeMarch
    omega
  have hcycle := Int.lt_of_lt_of_le hnext hyears.2
  clear hnext
  rw [hyears.1] at hcycle hnumber
  have hmonths : (0 ≤ daysFromMarch month + day ∧ daysFromMarch month + day ≤ 366) ∧
      (10 ≤ month ↔ 306 ≤ daysFromMarch month + day) := by
    unfold daysFromMarch at hday ⊢
    omega
  -- only January and February of the last year lie behind the turn of the cycle
  have hturn : year = 399 ∧ 10 ≤ month ↔
      146037 ≤ 365 * year + year / 4 - year / 100 + daysFromMarch month + day := by
    have hcentury : year / 100 = 0 ∨ year / 100 = 1 ∨ year / 100 = 2 ∨ year / 100 = 3 := by omega
    rcases hcentury with h | h | h | h <;> omega
  rw [heq]
  by_cases h : month < 10
  · simp only [if_pos h]
    omega
  · simp only [if_neg h]
    omega

/-- No date from the year 0 on is before its first day. -/
theorem le_dayNumber {date : Date} (hexists : date.Exists) (hyear : 0 ≤ date.year) :
    -719528 ≤ date.dayNumber := by
  obtain ⟨hfirst, hlast, hday, -⟩ := hexists
  unfold dayNumber daysBeforeMarch daysFromMarch
  by_cases h : date.month ≤ 2
  · have hmonth : ((date.month + 9) % 12 : Nat) = date.month + 9 := by omega
    simp only [if_pos h, hmonth]
    omega
  · have hmonth : ((date.month + 9) % 12 : Nat) = date.month - 3 := by omega
    simp only [if_neg h, hmonth]
    omega

/-! ## Months of a year -/

/-- The year after a first of March has a leap day exactly if it ends in a leap year. -/
theorem daysBeforeMarch_succ (year : Int) :
    daysBeforeMarch (year + 1) =
      daysBeforeMarch year + if isLeapYear (year + 1) then 366 else 365 := by
  unfold daysBeforeMarch isLeapYear
  simp only [Bool.and_eq_true, Bool.or_eq_true, decide_eq_true_eq, ne_eq, decide_not,
    Bool.not_eq_true', decide_eq_false_iff_not]
  split <;> omega

theorem isLeapYear_add_cycles (year cycle : Int) :
    isLeapYear (year + 400 * cycle) = isLeapYear year := by
  have h4 : (year + 400 * cycle) % 4 = year % 4 := by omega
  have h100 : (year + 400 * cycle) % 100 = year % 100 := by omega
  have h400 : (year + 400 * cycle) % 400 = year % 400 := by omega
  unfold isLeapYear
  rw [h4, h100, h400]

/-- All months but February are as long as the months counted from March. -/
theorem daysInMonth_eq {month : Int} (h : 0 ≤ month ∧ month < 11) (year : Int) :
    (daysInMonth year (if month < 10 then month + 3 else month - 9).toNat : Int) =
      daysFromMarch (month + 1) - daysFromMarch month := by
  have hmonths : month = 0 ∨ month = 1 ∨ month = 2 ∨ month = 3 ∨ month = 4 ∨ month = 5 ∨
      month = 6 ∨ month = 7 ∨ month = 8 ∨ month = 9 ∨ month = 10 := by omega
  rcases hmonths with h | h | h | h | h | h | h | h | h | h | h <;> rw [h] <;> rfl

/-- The calendar has the date of every day. -/
theorem exists_ofDayNumber (number : Int) : (ofDayNumber number).Exists := by
  obtain ⟨⟨hfirst, hlast⟩, hday, -⟩ := ofDayNumber_bounds number
  refine ⟨hfirst, hlast, hday, ?_⟩
  obtain ⟨cycle, year, month, day, hyear, hmonth, hrange, hnext, -, heq⟩ := ofDayNumber_parts number
  rw [heq]
  by_cases hfebruary : month = 11
  · have hleap : isLeapYear (year + 400 * cycle + 1) = isLeapYear (year + 1) := by
      rw [Int.add_right_comm, isLeapYear_add_cycles]
    have hmarch : daysFromMarch 11 = 337 := rfl
    subst hfebruary
    rw [daysBeforeMarch_succ, hmarch] at hnext
    show (day + 1).toNat ≤ if isLeapYear (year + 400 * cycle + 1) = true then 29 else 28
    rw [hleap]
    split at hnext
    · next hyear => rw [if_pos hyear]; omega
    · next hyear => rw [if_neg hyear]; omega
  · have hlength := daysInMonth_eq ⟨hmonth.1, by omega⟩
      (year + 400 * cycle + if month < 10 then 0 else 1)
    simp only
    omega

/-- The day after a date, by the calendar. -/
def next (date : Date) : Date :=
  if date.day < daysInMonth date.year date.month then { date with day := date.day + 1 }
  else if date.month < 12 then ⟨date.year, date.month + 1, 1⟩
  else ⟨date.year + 1, 1, 1⟩

/-- Day numbers count the days of the calendar. -/
theorem dayNumber_next {date : Date} (h : date.Exists) :
    date.next.dayNumber = date.dayNumber + 1 := by
  obtain ⟨hfirst, hlast, -, hlength⟩ := h
  obtain ⟨year, month, day⟩ := date
  simp only at hfirst hlast hlength
  by_cases hinside : day < daysInMonth year month
  · rw [next, if_pos hinside]
    unfold dayNumber
    simp only
    omega
  · obtain rfl : day = daysInMonth year month := by omega
    rw [next, if_neg hinside]
    by_cases hfebruary : month = 2
    · -- The years counted from March end with February, and so with the leap day.
      have hyears := daysBeforeMarch_succ (year - 1)
      rw [Int.sub_add_cancel] at hyears
      subst hfebruary
      simp [dayNumber, daysFromMarch, daysInMonth, hyears]
      split <;> omega
    · have hmonths : month = 1 ∨ month = 3 ∨ month = 4 ∨ month = 5 ∨ month = 6 ∨ month = 7 ∨
          month = 8 ∨ month = 9 ∨ month = 10 ∨ month = 11 ∨ month = 12 := by omega
      rcases hmonths with rfl | rfl | rfl | rfl | rfl | rfl | rfl | rfl | rfl | rfl | rfl
      all_goals
        simp [dayNumber, daysFromMarch, daysInMonth]
        omega

example : dayNumber ⟨1970, 1, 1⟩ = 0 := rfl

end TableQuery.Time.Date
