/-!
# Reading octets as UTF-8

A sequence of octets read as text. Where the octets are not UTF-8, each longest run that could
still have started a character is replaced by one U+FFFD, so reading never fails and never skips
an octet silently.

## Main definitions

* `Lead`: what the first octet of a character promises about the octets after it.
* `decodeLossy`: the text of a sequence of octets.
-/

namespace TableQuery.Text.Utf8

/-- What a first octet promises: its payload, how many octets follow, and the range of the next
one. Every later octet lies in `0x80 … 0xbf`. -/
structure Lead where
  /-- The bits of the code point that the octet holds. -/
  payload : Nat
  /-- How many octets complete the character. -/
  owed : Nat
  /-- The least octet that may come next. -/
  low : Nat
  /-- The greatest octet that may come next. -/
  high : Nat

/-- The promise of a first octet, or nothing where no character starts with it. -/
def Lead.ofOctet? (octet : Nat) : Option Lead :=
  if octet ≤ 0x7f then some ⟨octet, 0, 0x80, 0xbf⟩
  else if 0xc2 ≤ octet && octet ≤ 0xdf then some ⟨octet - 0xc0, 1, 0x80, 0xbf⟩
  else if octet = 0xe0 then some ⟨0, 2, 0xa0, 0xbf⟩
  else if octet = 0xed then some ⟨0xd, 2, 0x80, 0x9f⟩
  else if 0xe1 ≤ octet && octet ≤ 0xef then some ⟨octet - 0xe0, 2, 0x80, 0xbf⟩
  else if octet = 0xf0 then some ⟨0, 3, 0x90, 0xbf⟩
  else if 0xf1 ≤ octet && octet ≤ 0xf3 then some ⟨octet - 0xf0, 3, 0x80, 0xbf⟩
  else if octet = 0xf4 then some ⟨4, 3, 0x80, 0x8f⟩
  else none

/-- Completes a character from the octets after its first: the code point when all owed octets
are there, and the octets that remain. -/
def complete : Lead → List Nat → Option Nat × List Nat
  | ⟨payload, 0, _, _⟩, octets => (some payload, octets)
  | ⟨_, _ + 1, _, _⟩, [] => (none, [])
  | ⟨payload, owed + 1, low, high⟩, octet :: rest =>
    if low ≤ octet && octet ≤ high then
      complete ⟨payload * 64 + (octet - 0x80), owed, 0x80, 0xbf⟩ rest
    else (none, octet :: rest)
termination_by _ octets => octets.length

/-- Completing a character never adds octets. -/
theorem length_complete_le (lead : Lead) (octets : List Nat) :
    (complete lead octets).2.length ≤ octets.length := by
  fun_induction complete lead octets with
  | case1 => simp
  | case2 => simp
  | case3 payload owed low high octet rest _ ih => simp only [List.length_cons]; omega
  | case4 => simp

/-- The characters of a sequence of octets, U+FFFD for each run that is not UTF-8. -/
def decodeChars : List Nat → List Char
  | [] => []
  | octet :: rest =>
    match Lead.ofOctet? octet with
    | none => '\ufffd' :: decodeChars rest
    | some lead =>
      have := length_complete_le lead rest
      match (complete lead rest).1 with
      | some code => Char.ofNat code :: decodeChars (complete lead rest).2
      | none => '\ufffd' :: decodeChars (complete lead rest).2
termination_by octets => octets.length
decreasing_by all_goals simp only [List.length_cons]; omega

/-- The text of a sequence of octets, U+FFFD for each run that is not UTF-8. -/
def decodeLossy (octets : List UInt8) : String :=
  String.ofList (decodeChars (octets.map UInt8.toNat))

end TableQuery.Text.Utf8
