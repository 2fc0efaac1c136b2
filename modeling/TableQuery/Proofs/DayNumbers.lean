import Mathlib.Algebra.Order.Field.Power
import Mathlib.Algebra.Order.Field.Rat
import Mathlib.Tactic.FieldSimp
import Mathlib.Tactic.Linarith
import Mathlib.Tactic.NormNum
import Mathlib.Tactic.Positivity
import Mathlib.Tactic.Ring
import TableQuery.Database.JulianDay

/-!
# Day numbers

A moment is a number of milliseconds, but what the database compares is a number of days, the float
nearest to a quotient.  No moment is lost on this way.  A float is off by at most one part in
`2 ^ 53` of the quotient, two moments differ by at least one millisecond, and both together are less
than `2 ^ 53` milliseconds, so that the greater moment stays the greater number.

The values of floats are taken as rational numbers.  The grid on which a quotient is rounded is one
on which it has 53 binary digits, and a significand that is rounded up to 54 digits is carried into
the exponent.

## Main results

* `gridExponent_bounds` — on its grid a quotient has as many digits as asked for.
* `roundRatio_near` — a rounded quotient is off by one part in `2 ^ 53` at most.
* `Binary64.magnitude_encode` — a float has the value that was encoded.
* `Binary64.approximates_ofRatio` — a quotient and the float that is nearest to it.
* `JulianDay.compare_toDays` — day numbers compare as their moments do.
-/

namespace TableQuery.Numeral

/-! ## Rounding to an integer -/

/-- A quotient that is rounded to an integer is off by a half at most. -/
theorem abs_divNearestEven_sub_le (num : Nat) {den : Nat} (hden : 0 < den) :
    |(divNearestEven num den : ℚ) - num / den| ≤ 1 / 2 := by
  have hsplit := Nat.div_add_mod num den
  have hmod := Nat.mod_lt num hden
  have hbounds : 2 * (den * divNearestEven num den) ≤ 2 * num + den ∧
      2 * num ≤ 2 * (den * divNearestEven num den) + den := by
    unfold divNearestEven
    simp only
    split
    · omega
    · split
      · rw [Nat.mul_add, Nat.mul_one]
        omega
      · rcases Nat.mod_two_eq_zero_or_one (num / den) with heven | hodd
        · rw [heven, Nat.add_zero]
          omega
        · rw [hodd, Nat.mul_add, Nat.mul_one]
          omega
  have hlower : (2 : ℚ) * (den * divNearestEven num den) ≤ 2 * num + den := by
    exact_mod_cast hbounds.1
  have hupper : (2 : ℚ) * num ≤ 2 * (den * divNearestEven num den) + den := by
    exact_mod_cast hbounds.2
  have hpos : (0 : ℚ) < den := Nat.cast_pos.2 hden
  have hdifference : (divNearestEven num den : ℚ) - num / den =
      (den * divNearestEven num den - num) / den := by
    field_simp
  rw [hdifference, abs_div, abs_of_pos hpos, div_le_iff₀ hpos, abs_le]
  constructor <;> linarith

/-! ## Rounding to a grid -/

theorem scaleRatio_snd_pos (a : Nat) (e : Int) : 0 < (scaleRatio a e).2 := by
  unfold scaleRatio
  split
  · exact Nat.one_pos
  · exact Nat.two_pow_pos _

theorem scaleRatio_eq (a : Nat) (e : Int) :
    ((scaleRatio a e).1 : ℚ) / (scaleRatio a e).2 = a * 2 ^ e := by
  unfold scaleRatio
  split
  · next h =>
      obtain ⟨n, rfl⟩ := Int.eq_ofNat_of_zero_le h
      simp
  · next h =>
      obtain ⟨n, hn⟩ := Int.eq_ofNat_of_zero_le (show 0 ≤ -e by omega)
      obtain rfl : e = -(n : Int) := by omega
      simp [div_eq_mul_inv]

/-- How a quotient compares with a power of two on a grid. -/
theorem lt_scaleRatio_iff (num den digits : Nat) (e : Int) :
    num * (scaleRatio den e).2 < Nat.pow 2 digits * (scaleRatio den e).1 ↔
      (num : ℚ) < 2 ^ digits * 2 ^ e * den := by
  have hscale : (0 : ℚ) < (scaleRatio den e).2 := Nat.cast_pos.2 (scaleRatio_snd_pos _ _)
  have hscaled := scaleRatio_eq den e
  rw [div_eq_iff hscale.ne'] at hscaled
  have hright : (2 : ℚ) ^ digits * (scaleRatio den e).1 =
      2 ^ digits * 2 ^ e * den * (scaleRatio den e).2 := by
    rw [hscaled]
    ring
  rw [← mul_lt_mul_iff_left₀ hscale, ← hright]
  exact_mod_cast Iff.rfl

/-- The bounds of a number by its binary logarithm. -/
theorem two_zpow_log2 {n : Nat} (hn : 0 < n) :
    (2 : ℚ) ^ (n.log2 : Int) ≤ n ∧ (n : ℚ) < 2 ^ (n.log2 + 1 : Int) := by
  have hlower := Nat.log2_self_le hn.ne'
  have hupper := @Nat.lt_log2_self n
  constructor
  · exact_mod_cast hlower
  · exact_mod_cast hupper

section Grid

variable {num den : Nat} {least : Int}

/-- On its grid a quotient has as many digits as asked for, if the grid is not too fine. -/
theorem gridExponent_bounds (digits : Nat) (hnum : 0 < num) (hden : 0 < den)
    (hleast : least < num.log2 - den.log2 - digits) :
    let exponent := gridExponent (digits + 1) least num den
    (num.log2 - den.log2 - digits - 1 ≤ exponent ∧ exponent ≤ num.log2 - den.log2 - digits) ∧
      (2 : ℚ) ^ digits * 2 ^ exponent ≤ num / den ∧
      (num / den : ℚ) < 2 ^ (digits + 1) * 2 ^ exponent := by
  have hdenpos : (0 : ℚ) < den := Nat.cast_pos.2 hden
  obtain ⟨hnumlower, hnumupper⟩ := two_zpow_log2 hnum
  obtain ⟨hdenlower, hdenupper⟩ := two_zpow_log2 hden
  have hguess : (num.log2 : Int) - den.log2 - (digits + 1 : Nat) + 1 =
      num.log2 - den.log2 - digits := by omega
  simp only [gridExponent, hguess, Nat.add_sub_cancel]
  generalize hg : (num.log2 : Int) - den.log2 - digits = guess at hleast
  have htest := lt_scaleRatio_iff num den digits guess
  -- One unit of the guessed grid, in terms of the leading digits of both numbers.
  have hlead : (2 : ℚ) ^ (num.log2 : Int) = 2 ^ digits * 2 ^ guess * 2 ^ (den.log2 : Int) := by
    rw [← zpow_natCast 2 digits, ← zpow_add₀ two_ne_zero, ← zpow_add₀ two_ne_zero]
    congr 1
    omega
  have hunit : (0 : ℚ) < 2 ^ digits * 2 ^ guess := by positivity
  rw [zpow_add_one₀ two_ne_zero] at hnumupper hdenupper
  rw [hlead] at hnumlower hnumupper
  have hdenscaled := mul_le_mul_of_nonneg_left hdenlower hunit.le
  have hdenscaled' := mul_lt_mul_of_pos_left hdenupper hunit
  rw [le_div_iff₀ hdenpos, div_lt_iff₀ hdenpos, pow_succ]
  split
  · next hbelow =>
      rw [htest] at hbelow
      rw [max_eq_right (by omega), zpow_sub_one₀ two_ne_zero]
      refine ⟨by omega, ?_, ?_⟩ <;> linarith
  · next habove =>
      rw [htest, not_lt] at habove
      rw [max_eq_right (by omega)]
      refine ⟨by omega, habove, ?_⟩
      linarith

/-- A quotient that is rounded to 53 digits is off by one part in `2 ^ 53` at most. -/
theorem roundRatio_near (hnum : 0 < num) (hden : 0 < den)
    (hleast : least < num.log2 - den.log2 - 52) :
    let rounded := roundRatio 53 least num den
    (num.log2 - den.log2 - 53 ≤ rounded.2 ∧ rounded.2 ≤ num.log2 - den.log2 - 52) ∧
      (2 ^ 52 ≤ rounded.1 ∧ rounded.1 ≤ 2 ^ 53) ∧
      |(rounded.1 : ℚ) * 2 ^ rounded.2 - num / den| ≤ num / den / 2 ^ 53 := by
  obtain ⟨⟨hfloor, hceiling⟩, hlower, hupper⟩ := gridExponent_bounds 52 hnum hden hleast
  simp only [roundRatio]
  generalize gridExponent 53 least num den = exponent at hfloor hceiling hlower hupper ⊢
  have hunit : (0 : ℚ) < 2 ^ exponent := by positivity
  have hdenpos : (0 : ℚ) < den := Nat.cast_pos.2 hden
  have hscale : (0 : ℚ) < (scaleRatio den exponent).2 := Nat.cast_pos.2 (scaleRatio_snd_pos _ _)
  have hscaled := scaleRatio_eq den exponent
  have hfirst : (0 : ℚ) < (scaleRatio den exponent).1 := by
    rw [div_eq_iff hscale.ne'] at hscaled
    rw [hscaled]
    positivity
  have hquotient : ((num * (scaleRatio den exponent).2 : Nat) : ℚ) / (scaleRatio den exponent).1 =
      num / den / 2 ^ exponent := by
    rw [Nat.cast_mul, ← div_div_eq_mul_div, hscaled, div_div]
  have hnear := abs_divNearestEven_sub_le (num * (scaleRatio den exponent).2)
    (Nat.cast_pos.1 hfirst)
  rw [hquotient] at hnear
  generalize divNearestEven _ _ = significand at hnear ⊢
  rw [← le_div_iff₀ hunit] at hlower
  rw [← div_lt_iff₀ hunit] at hupper
  have hvalue : (num / den : ℚ) = num / den / 2 ^ exponent * 2 ^ exponent :=
    (div_mul_cancel₀ _ hunit.ne').symm
  generalize (num / den / 2 ^ exponent : ℚ) = quotient at hnear hlower hupper hvalue
  obtain ⟨hbelow, habove⟩ := abs_le.1 hnear
  have hleast : (2 : ℚ) ^ 52 < significand + 1 := by linarith
  have hgreatest : (significand : ℚ) < 2 ^ 53 + 1 := by
    rw [← show (52 + 1 : Nat) = 53 from rfl]
    linarith
  refine ⟨⟨by omega, by omega⟩, ⟨?_, ?_⟩, ?_⟩
  · exact Nat.lt_succ_iff.1 (by exact_mod_cast hleast)
  · exact Nat.lt_succ_iff.1 (by exact_mod_cast hgreatest)
  · rw [hvalue, ← sub_mul, abs_mul, abs_of_pos hunit, mul_div_right_comm]
    refine mul_le_mul_of_nonneg_right ?_ hunit.le
    linarith

end Grid

/-! ## Values of floats -/

namespace Binary64

/-- The value of a finite float without its sign. -/
def magnitude (x : Binary64) : ℚ := x.significand * 2 ^ x.exponent

theorem ratio_eq (x : Binary64) : (x.ratio.1 : ℚ) / x.ratio.2 = x.magnitude :=
  scaleRatio_eq x.significand x.exponent

/-- The value of a float of full precision, by the two fields of its bits. -/
theorem magnitude_of_bits {x : Binary64} {field fraction : Nat}
    (hbits : x.bits.toNat = field * 2 ^ 52 + fraction) (hfraction : fraction < 2 ^ 52)
    (hfield : 1 ≤ field) (hfield' : field < 2047) :
    x.isFinite = true ∧ x.isNegative = false ∧
      x.magnitude = (2 ^ 52 + fraction : Nat) * 2 ^ (field - 1075 : Int) := by
  have hexponentField : x.exponentField = field := by
    simp only [exponentField, hbits, exponentUnit]
    omega
  have hfractionField : x.fraction = fraction := by
    simp only [Binary64.fraction, hbits, exponentUnit]
    omega
  have hpositive : x.isNegative = false := by
    simp only [isNegative, hbits, signBit, decide_eq_false_iff_not]
    omega
  have hsignificand : x.significand = 2 ^ 52 + fraction := by
    rw [significand, if_neg (by omega), hfractionField]
    rfl
  have hexponent : x.exponent = field - 1075 := by
    rw [exponent, hexponentField]
    omega
  refine ⟨?_, hpositive, by rw [magnitude, hsignificand, hexponent]⟩
  rw [isFinite, hexponentField]
  exact decide_eq_true (by omega)

/-- A significand of 53 digits is the value of a float, and so is one that is carried to 54. -/
theorem magnitude_encode {significand : Nat} {exponent : Int} (hlower : 2 ^ 52 ≤ significand)
    (hupper : significand ≤ 2 ^ 53) (hleast : -1074 ≤ exponent) (hgreatest : exponent ≤ 970) :
    let x := withSign false (encode significand exponent)
    x.isFinite = true ∧ x.isNegative = false ∧ x.magnitude = significand * 2 ^ exponent := by
  obtain ⟨place, hplace⟩ := Int.eq_ofNat_of_zero_le (show 0 ≤ exponent + 1074 by omega)
  obtain rfl : exponent = place - 1074 := by omega
  have hencode : encode significand (place - 1074) = place * 2 ^ 52 + significand := by
    rw [encode, if_neg (by unfold exponentUnit; omega), min_eq_right]
    · unfold exponentUnit
      omega
    · unfold infinityBits exponentUnit
      omega
  have hbits : (withSign false (encode significand (place - 1074))).bits.toNat =
      place * 2 ^ 52 + significand := by
    rw [hencode, withSign, if_neg Bool.false_ne_true, UInt64.toNat_ofNat']
    exact Nat.mod_eq_of_lt (by omega)
  generalize withSign false (encode significand (place - 1074)) = x at hbits
  rcases Nat.lt_or_ge significand (2 ^ 53) with hshort | hlong
  · obtain ⟨fraction, rfl⟩ := Nat.exists_eq_add_of_le hlower
    have hfields : x.bits.toNat = (place + 1) * 2 ^ 52 + fraction := by
      rw [hbits]
      ring
    obtain ⟨hfinite, hpositive, hvalue⟩ :=
      magnitude_of_bits hfields (by omega) (by omega) (by omega)
    refine ⟨hfinite, hpositive, ?_⟩
    have hexponent : ((place + 1 : Nat) : Int) - 1075 = place - 1074 := by omega
    rw [hvalue, hexponent]
  · obtain rfl : significand = 2 ^ 53 := Nat.le_antisymm hupper hlong
    have hfields : x.bits.toNat = (place + 2) * 2 ^ 52 + 0 := by
      rw [hbits]
      ring
    obtain ⟨hfinite, hpositive, hvalue⟩ :=
      magnitude_of_bits hfields (by omega) (by omega) (by omega)
    refine ⟨hfinite, hpositive, ?_⟩
    have hexponent : ((place + 2 : Nat) : Int) - 1075 = place - 1074 + 1 := by omega
    rw [hvalue, hexponent, zpow_add_one₀ two_ne_zero]
    push_cast
    ring

/-- `x.Approximates q` holds if a float is no less than zero and is off from `q` by one part in
`2 ^ 53` at most. -/
structure Approximates (x : Binary64) (q : ℚ) : Prop where
  finite : x.isFinite = true
  nonneg : x.isNegative = false
  near : |x.magnitude - q| ≤ q / 2 ^ 53

/-- The float that is nearest to a quotient approximates it. -/
theorem approximates_ofRatio {num den : Nat} (hnum : num < 2 ^ 64) (hden : 0 < den)
    (hden' : den < 2 ^ 64) : (ofRatio false num den).Approximates (num / den) := by
  rcases Nat.eq_zero_or_pos num with rfl | hpos
  · have hsignificand : (withSign false 0).significand = 0 := by decide
    rw [ofRatio, if_pos rfl]
    refine ⟨by decide, by decide, ?_⟩
    simp [magnitude, hsignificand]
  · have hlogNum : num.log2 < 64 := (Nat.log2_lt hpos.ne').2 hnum
    have hlogDen : den.log2 < 64 := (Nat.log2_lt hden.ne').2 hden'
    obtain ⟨⟨hfloor, hceiling⟩, ⟨hlower, hupper⟩, hnear⟩ :=
      roundRatio_near hpos hden (show (-1074 : Int) < num.log2 - den.log2 - 52 by omega)
    rw [ofRatio, if_neg hpos.ne']
    generalize roundRatio 53 (-1074) num den = rounded at hfloor hceiling hlower hupper hnear ⊢
    obtain ⟨hfinite, hnonneg, hvalue⟩ := magnitude_encode hlower hupper
      (show -1074 ≤ rounded.2 by omega) (show rounded.2 ≤ 970 by omega)
    exact ⟨hfinite, hnonneg, hvalue ▸ hnear⟩

section Order

variable {x y : Binary64}

/-- Floats that are no less than zero compare by their values. -/
theorem compare_of_magnitude_lt (hx : x.isFinite = true) (hx' : x.isNegative = false)
    (hy : y.isFinite = true) (hy' : y.isNegative = false) (h : x.magnitude < y.magnitude) :
    x.compare y = .lt ∧ y.compare x = .gt := by
  rw [← ratio_eq, ← ratio_eq, div_lt_div_iff₀ (Nat.cast_pos.2 (scaleRatio_snd_pos _ _))
    (Nat.cast_pos.2 (scaleRatio_snd_pos _ _))] at h
  have hless : (x.ratio.1 : Int) * y.ratio.2 < y.ratio.1 * x.ratio.2 := by
    exact_mod_cast h
  simp only [compare, hx, hy, signedRatio, hx', hy', Bool.false_eq_true, if_false]
  exact ⟨Int.compare_eq_lt.2 hless, Int.compare_eq_gt.2 hless⟩

/-- Floats compare as the multiples of a unit that they approximate, if these are small enough for
one unit to be more than what both floats are off. -/
theorem Approximates.compare_of_lt {a b den : Nat} (hx : x.Approximates (a / den))
    (hy : y.Approximates (b / den)) (hden : 0 < den) (hlt : a < b) (hsmall : a + b < 2 ^ 53) :
    x.compare y = .lt ∧ y.compare x = .gt := by
  refine compare_of_magnitude_lt hx.finite hx.nonneg hy.finite hy.nonneg ?_
  have hdenpos : (0 : ℚ) < den := Nat.cast_pos.2 hden
  have hunit : (a : ℚ) + 1 ≤ b := by exact_mod_cast hlt
  have hsum : (a + b : ℚ) < 2 ^ 53 := by exact_mod_cast hsmall
  have hgap : (a + b : ℚ) / den / 2 ^ 53 < (b - a) / den := by
    rw [div_right_comm]
    refine div_lt_div_of_pos_right ?_ hdenpos
    rw [div_lt_iff₀ (by positivity)]
    linarith
  have hupper := (abs_le.1 hx.near).2
  have hlower := (abs_le.1 hy.near).1
  rw [add_div, add_div, sub_div] at hgap
  linarith

end Order

end Binary64

end TableQuery.Numeral

namespace TableQuery.JulianDay

open Numeral

/-- Moments in range, as numbers of days, compare as they do in milliseconds. -/
theorem compare_toDays {a b : Int} (ha : 0 ≤ a) (ha' : a ≤ last) (hb : 0 ≤ b) (hb' : b ≤ last) :
    (toDays a).compare (toDays b) = compare a b := by
  obtain ⟨m, rfl⟩ := Int.eq_ofNat_of_zero_le ha
  obtain ⟨n, rfl⟩ := Int.eq_ofNat_of_zero_le hb
  unfold last at ha' hb'
  have hnear : ∀ k : Nat, k < 2 ^ 52 → (toDays k).Approximates (k / dayLength.toNat) :=
    fun k hk => Binary64.approximates_ofRatio (by omega) (by decide) (by decide)
  have hm := hnear m (by omega)
  have hn := hnear n (by omega)
  rcases Nat.lt_trichotomy m n with hlt | rfl | hgt
  · rw [(hm.compare_of_lt hn (by decide) hlt (by omega)).1, Int.compare_eq_lt.2 (by omega)]
  · simp only [Binary64.compare, hm.finite, Std.compare_self]
  · rw [(hn.compare_of_lt hm (by decide) hgt (by omega)).2, Int.compare_eq_gt.2 (by omega)]

end TableQuery.JulianDay
