import Mathlib.Data.String.Basic

/-!
# The order of octets

Names ascend by their code points here, while a reader of the written names sees octets.  UTF-8 is
made so that both orders are one: of two characters the greater one has the greater octets, and
neither has octets that start those of the other.

## Main results

* `encode_append_lt` — two different characters decide, whatever follows them.
* `lt_iff_octets_lt` — texts compare as their octets do.
-/

namespace TableQuery.Text

/-- The octets of a text in UTF-8. -/
def octets (text : String) : List UInt8 := text.toUTF8.data.toList

theorem octets_eq_flatMap (text : String) :
    octets text = text.toList.flatMap String.utf8EncodeChar := by
  rw [octets, String.toUTF8_eq_toByteArray, ← String.utf8Encode_toList, List.utf8Encode,
    List.toList_data_toByteArray]

/-! ## Characters -/

theorem octet_lt_iff {m n : Nat} (hm : m < 256) (hn : n < 256) :
    UInt8.ofNat m < UInt8.ofNat n ↔ m < n := by
  rw [UInt8.lt_iff_toNat_lt, UInt8.toNat_ofNat_of_lt' hm, UInt8.toNat_ofNat_of_lt' hn]

theorem octet_eq_iff {m n : Nat} (hm : m < 256) (hn : n < 256) :
    UInt8.ofNat m = UInt8.ofNat n ↔ m = n := by
  rw [← UInt8.toNat_inj, UInt8.toNat_ofNat_of_lt' hm, UInt8.toNat_ofNat_of_lt' hn]

/-- The last digit of a number in base 64 decides where the others are the same. -/
theorem lt_iff_digits_lt (m n : Nat) :
    m < n ↔ m / 64 < n / 64 ∨ m / 64 = n / 64 ∧ m % 64 < n % 64 := by
  omega

/-- Octets compare as the first characters do that differ, whatever follows these. -/
theorem encode_append_lt {a b : Char} (h : a < b) (rest rest' : List UInt8) :
    String.utf8EncodeChar a ++ rest < String.utf8EncodeChar b ++ rest' := by
  have hlt : a.val.toNat < b.val.toNat := UInt32.lt_iff_toNat_lt.1 (Char.lt_def.1 h)
  have hmax : b.val.toNat < 0x110000 := by
    rcases b.valid with hlow | ⟨-, hhigh⟩
    · omega
    · exact hhigh
  unfold String.utf8EncodeChar
  generalize a.val.toNat = m at hlt ⊢
  generalize b.val.toNat = n at hlt hmax ⊢
  have hlast := lt_iff_digits_lt m n
  have hthird := lt_iff_digits_lt (m / 64) (n / 64)
  have hsecond := lt_iff_digits_lt (m / 4096) (n / 4096)
  rw [Nat.div_div_eq_div_mul, Nat.div_div_eq_div_mul] at hthird hsecond
  have hm : m / 262144 % 8 = m / 262144 := Nat.mod_eq_of_lt (by omega)
  have hn : n / 262144 % 8 = n / 262144 := Nat.mod_eq_of_lt (by omega)
  simp only [hm, hn]
  -- one goal for each pair of lengths; the first octet tells the lengths apart
  repeat' split
  all_goals
    simp (disch := omega) only [List.cons_append, List.nil_append, List.cons_lt_cons_iff,
      octet_lt_iff, octet_eq_iff]
    omega

/-! ## Texts -/

theorem flatMap_encode_lt {s t : List Char} (h : s < t) :
    s.flatMap String.utf8EncodeChar < t.flatMap String.utf8EncodeChar := by
  induction h with
  | @nil c rest =>
      rw [List.flatMap_nil, List.flatMap_cons]
      cases hc : String.utf8EncodeChar c with
      | nil => exact absurd hc String.utf8EncodeChar_ne_nil
      | cons octet octets => exact List.nil_lt_cons octet _
  | rel hlt => exact encode_append_lt hlt _ _
  | cons _ ih => exact List.append_left_lt ih

/-- Texts compare as their octets do. -/
theorem lt_iff_octets_lt {s t : String} : s < t ↔ octets s < octets t := by
  rw [octets_eq_flatMap, octets_eq_flatMap, String.lt_iff_toList_lt]
  refine ⟨flatMap_encode_lt, fun h => ?_⟩
  by_contra hnot
  rcases lt_or_eq_of_le (not_lt.1 hnot) with hlt | heq
  · exact List.lt_asymm h (flatMap_encode_lt hlt)
  · rw [heq] at h
    exact List.lt_irrefl _ h

end TableQuery.Text
