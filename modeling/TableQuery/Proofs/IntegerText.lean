import Mathlib.Algebra.Group.Int.Defs
import Mathlib.Algebra.Group.Nat.Defs
import TableQuery.Numeral.Integer
import TableQuery.Proofs.Checked

/-!
# Texts of integers

Reading an integer goes through its digits once, from the left, and gives up as soon as their value
is out of range.  Nothing is lost by that, since further digits do not make a number less.  So what
is read is exactly what is written: an optional sign and one or more digits, as many zeros as one
likes among them at the start, whose signed value is one of 64 bits.

## Main results

* `readDigits_eq_ok_iff` — digits are read if their value does not exceed the limit.
* `readInt64_eq_ok_iff` — which texts are read as which integers.
-/

namespace TableQuery.Numeral

/-! ## Digits -/

/-- Further digits do not make a number less. -/
theorem le_ofDigitChars (digits : List Char) (value : Nat) :
    value ≤ Nat.ofDigitChars 10 digits value := by
  induction digits generalizing value with
  | nil => exact Nat.le_of_eq Nat.ofDigitChars_nil.symm
  | cons c rest ih =>
      rw [Nat.ofDigitChars_cons]
      have hrest := ih (10 * value + (c.toNat - '0'.toNat))
      omega

/-- Digits are read as the number that they denote, if that does not exceed the limit. -/
theorem readDigits_eq_ok_iff {limit value result : Nat} {overflow : IntegerFault}
    {digits : List Char} (hvalue : value ≤ limit) :
    readDigits limit overflow value digits = .ok result ↔
      (∀ c ∈ digits, c.isDigit = true) ∧
        Nat.ofDigitChars 10 digits value = result ∧ result ≤ limit := by
  induction digits generalizing value with
  | nil =>
      rw [readDigits, Nat.ofDigitChars_nil, Except.ok.injEq]
      constructor
      · rintro rfl
        exact ⟨fun _ h => absurd h List.not_mem_nil, rfl, hvalue⟩
      · exact fun h => h.2.1
  | cons c rest ih =>
      have hstep : 10 * value + (c.toNat - '0'.toNat) = value * 10 + digitValue c := by
        unfold digitValue
        omega
      rw [readDigits, Nat.ofDigitChars_cons, hstep, List.forall_mem_cons]
      by_cases hdigit : c.isDigit = true
      · rw [if_pos hdigit, and_iff_right hdigit]
        by_cases hlimit : limit < value * 10 + digitValue c
        · -- The digits that are left cannot bring the value back into range.
          have hrest := le_ofDigitChars rest (value * 10 + digitValue c)
          rw [if_pos hlimit]
          constructor
          · intro h
            cases h
          · rintro ⟨-, hresult, hle⟩
            omega
        · rw [if_neg hlimit]
          exact ih (Nat.le_of_not_lt hlimit)
      · rw [if_neg hdigit]
        constructor
        · intro h
          cases h
        · exact fun h => absurd h.1.1 hdigit

/-! ## Integers -/

/-- A sign that may stand before digits, and the factor that it stands for. -/
inductive Sign : List Char → Int → Prop where
  | missing : Sign [] 1
  | plus : Sign ['+'] 1
  | minus : Sign ['-'] (-1)

/-- `Writes chars value` holds if the characters are an optional sign and one or more digits, whose
signed value is `value`. -/
def Writes (chars : List Char) (value : Int) : Prop :=
  ∃ sign factor digits, Sign sign factor ∧ digits ≠ [] ∧ (∀ c ∈ digits, c.isDigit = true) ∧
    chars = sign ++ digits ∧ value = factor * Nat.ofDigitChars 10 digits 0

/-- The greatest number that may be written after a sign. -/
def signedLimit : Int → Nat
  | .negSucc _ => greatestInt64 + 1
  | .ofNat _ => greatestInt64

/-- Digits after a sign are read if their signed value is in range. -/
theorem readSigned_eq_ok_iff {sign digits : List Char} {factor : Int} (hsign : Sign sign factor)
    {signed : Nat → Int} (hsigned : ∀ value : Nat, signed value = factor * value)
    {overflow : IntegerFault} {n : Int64} :
    (readDigits (signedLimit factor) overflow 0 digits >>= fun value =>
        Except.ok (Int64.ofInt (signed value))) = .ok n ↔
      (∀ c ∈ digits, c.isDigit = true) ∧ n.toInt = factor * Nat.ofDigitChars 10 digits 0 := by
  have hlimit : ∀ value : Nat, value ≤ signedLimit factor ↔
      -2 ^ 63 ≤ factor * value ∧ factor * value < 2 ^ 63 := by
    intro value
    cases hsign with
    | missing | plus =>
        show value ≤ 9223372036854775807 ↔ _
        omega
    | minus =>
        show value ≤ 9223372036854775807 + 1 ↔ _
        omega
  rw [Checked.bind_eq_ok_iff]
  constructor
  · rintro ⟨value, hread, hn⟩
    obtain ⟨hdigits, rfl, hle⟩ := (readDigits_eq_ok_iff (Nat.zero_le _)).1 hread
    obtain ⟨hmin, hmax⟩ := (hlimit _).1 hle
    rw [← Except.ok.inj hn, hsigned]
    exact ⟨hdigits, Int64.toInt_ofInt_of_le hmin hmax⟩
  · rintro ⟨hdigits, hn⟩
    have hle := (hlimit _).2 (hn ▸ (⟨n.le_toInt, n.toInt_lt⟩ : _ ∧ _))
    refine ⟨_, (readDigits_eq_ok_iff (Nat.zero_le _)).2 ⟨hdigits, rfl, hle⟩, ?_⟩
    rw [hsigned, ← hn, Int64.ofInt_toInt]

/-- A text is read as an integer of 64 bits exactly if it writes that integer. -/
theorem readInt64_eq_ok_iff {chars : List Char} {n : Int64} :
    readInt64 chars = .ok n ↔ Writes chars n.toInt := by
  have hfactor : ∀ value : Nat, (value : Int) = 1 * value := fun value => (Int.one_mul _).symm
  have hminus : ∀ value : Nat, -(value : Int) = -1 * value := fun value => by omega
  constructor
  · intro h
    unfold readInt64 at h
    split at h
    · cases h
    · cases h
    · cases h
    · next digits hne =>
      obtain ⟨hdigits, hn⟩ := (readSigned_eq_ok_iff .plus hfactor).1 h
      exact ⟨_, _, digits, .plus, hne, hdigits, rfl, hn⟩
    · next digits hne =>
      obtain ⟨hdigits, hn⟩ := (readSigned_eq_ok_iff .minus hminus).1 h
      exact ⟨_, _, digits, .minus, hne, hdigits, rfl, hn⟩
    · next hne _ _ _ _ =>
      obtain ⟨hdigits, hn⟩ := (readSigned_eq_ok_iff .missing hfactor).1 h
      exact ⟨_, _, chars, .missing, hne, hdigits, rfl, hn⟩
  · rintro ⟨sign, factor, digits, hsign, hne, hdigits, rfl, hn⟩
    obtain ⟨c, rest, rfl⟩ := List.exists_cons_of_ne_nil hne
    cases hsign with
    | plus => exact (readSigned_eq_ok_iff .plus hfactor).2 ⟨hdigits, hn⟩
    | minus => exact (readSigned_eq_ok_iff .minus hminus).2 ⟨hdigits, hn⟩
    | missing =>
        -- A digit is no sign.
        have hdigit := hdigits c List.mem_cons_self
        have hplus : c ≠ '+' := by
          rintro rfl
          exact absurd hdigit (by decide)
        have hminus : c ≠ '-' := by
          rintro rfl
          exact absurd hdigit (by decide)
        have hread : readInt64 (c :: rest) = readDigits greatestInt64 .tooLarge 0 (c :: rest) >>=
            fun value => .ok (Int64.ofInt value) := by
          refine readInt64.eq_6 _ (by simp) ?_ ?_ ?_ ?_ <;> simp [hplus, hminus]
        rw [List.nil_append, hread]
        exact (readSigned_eq_ok_iff .missing hfactor).2 ⟨hdigits, hn⟩

end TableQuery.Numeral
