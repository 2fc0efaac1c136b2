import TableQuery.Page
import TableQuery.Proofs.IntegerText

/-!
# Cursors

A cursor is an offset written in decimal digits.  Reading one is more generous than writing: blanks
around it are ignored, and whatever writes an integer will do, so long as this is an offset that a
query can have.  A cursor that was written is read as its offset, and the window after the row
there starts at the next one; after the last offset there is none.

Offsets are counted as natural numbers where pages are walked.  `Int64.ofNat` is exact below
`2 ^ 63`, and there the saturating sum is the sum, cut off at the greatest integer.

## Main results

* `decodeCursor_eq_ok_iff`, `decodeCursor_eq_error_iff` — what is read as an offset, what is not.
* `PageWindow.after_encodeCursor` — the window after a row.
* `cursors_denote_offsets` — cursors are read back, and what else is read.
* `saturatingAdd_ofNat`, `saturatingAdd_lt_ofNat_iff` — sums of offsets.
-/

namespace TableQuery

/-! ## Texts with blanks around them -/

namespace Text

/-- Characters of a class are cut off around others that neither start nor end with one. -/
theorem trim_append_of_ends {p : Char → Bool} {before chars after : List Char}
    (hbefore : ∀ c ∈ before, p c = true) (hhead : ∀ c ∈ chars.head?, p c = false)
    (hlast : ∀ c ∈ chars.getLast?, p c = false) (hafter : ∀ c ∈ after, p c = true) :
    (((before ++ chars ++ after).dropWhile p).reverse.dropWhile p).reverse = chars := by
  have hkeep : ∀ cs rest : List Char, cs ≠ [] → (∀ c ∈ cs.head?, p c = false) →
      (cs ++ rest).dropWhile p = cs ++ rest := by
    intro cs rest hne hcs
    obtain ⟨c, cs, rfl⟩ := List.exists_cons_of_ne_nil hne
    rw [List.cons_append, List.dropWhile_cons_of_neg]
    rw [hcs c rfl]
    exact Bool.false_ne_true
  rw [List.append_assoc, List.dropWhile_append_of_pos hbefore]
  cases chars with
  | nil =>
      have hnil : after.dropWhile p = [] := by
        rw [← List.append_nil after, List.dropWhile_append_of_pos hafter, List.dropWhile_nil]
      rw [List.nil_append, hnil]
      rfl
  | cons c rest =>
      have hreverse : ∀ d ∈ (c :: rest).reverse.head?, p d = false := by
        rw [List.head?_reverse]
        exact hlast
      have hne : (c :: rest).reverse ≠ [] := by simp
      have hinner := hkeep _ [] hne hreverse
      rw [List.append_nil] at hinner
      rw [hkeep _ _ (List.cons_ne_nil c rest) hhead, List.reverse_append,
        List.dropWhile_append_of_pos fun d hd => hafter d (List.mem_reverse.1 hd), hinner,
        List.reverse_reverse]

/-- Characters of a class around others are cut off, and nothing else. -/
theorem trim_append {p : Char → Bool} {before chars after : List Char}
    (hbefore : ∀ c ∈ before, p c = true) (hchars : ∀ c ∈ chars, p c = false)
    (hafter : ∀ c ∈ after, p c = true) :
    (((before ++ chars ++ after).dropWhile p).reverse.dropWhile p).reverse = chars :=
  trim_append_of_ends hbefore (fun c hc => hchars c (List.mem_of_mem_head? hc))
    (fun c hc => hchars c (List.mem_of_mem_getLast? hc)) hafter

/-- Characters among which none is of a class keep both of their ends when it is cut off there. -/
theorem trim_eq_self {p : Char → Bool} {chars : List Char} (h : ∀ c ∈ chars, p c = false) :
    ((chars.dropWhile p).reverse.dropWhile p).reverse = chars := by
  have hnone : ∀ c ∈ ([] : List Char), p c = true := fun _ hc => absurd hc List.not_mem_nil
  have htrim := trim_append hnone h hnone
  rwa [List.nil_append, List.append_nil] at htrim

/-- Only blank characters are stripped off. -/
theorem exists_strip (chars : List Char) :
    ∃ before after, chars = before ++ strip chars ++ after ∧
      (∀ c ∈ before, isBlank c = true) ∧ ∀ c ∈ after, isBlank c = true := by
  have htaken : ∀ cs : List Char, ∀ c ∈ cs.takeWhile isBlank, isBlank c = true :=
    fun cs => List.all_eq_true.1 List.all_takeWhile
  refine ⟨chars.takeWhile isBlank,
    ((chars.dropWhile isBlank).reverse.takeWhile isBlank).reverse, ?_, htaken chars, ?_⟩
  · rw [strip, List.append_assoc, ← List.reverse_append, List.takeWhile_append_dropWhile,
      List.reverse_reverse, List.takeWhile_append_dropWhile]
  · exact fun c hc => htaken _ c (List.mem_reverse.1 hc)

theorem isDigit_range {c : Char} (h : c.isDigit = true) : 48 ≤ c.toNat ∧ c.toNat ≤ 57 := by
  simp only [Char.isDigit, Bool.and_eq_true, decide_eq_true_eq, UInt32.le_iff_toNat_le,
    ge_iff_le] at h
  exact h

theorem isBlank_of_isDigit {c : Char} (h : c.isDigit = true) : isBlank c = false := by
  have hrange := isDigit_range h
  rw [Bool.eq_false_iff]
  intro hblank
  simp only [isBlank, Bool.or_eq_true, Bool.and_eq_true, decide_eq_true_eq] at hblank
  omega

end Text

namespace Numeral

/-- What writes an integer has no blanks in it. -/
theorem Writes.not_blank {chars : List Char} {value : Int} (h : Writes chars value) :
    ∀ c ∈ chars, Text.isBlank c = false := by
  obtain ⟨sign, factor, digits, hsign, -, hdigits, rfl, -⟩ := h
  refine List.forall_mem_append.2 ⟨?_, fun c hc => Text.isBlank_of_isDigit (hdigits c hc)⟩
  cases hsign with
  | missing => exact fun _ hc => absurd hc List.not_mem_nil
  | plus => exact List.forall_mem_singleton.2 rfl
  | minus => exact List.forall_mem_singleton.2 rfl

theorem writes_toDigits (n : Nat) : Writes (Nat.toDigits 10 n) n := by
  refine ⟨[], 1, Nat.toDigits 10 n, .missing, Nat.toDigits_ne_nil, ?_, rfl, ?_⟩
  · exact fun c hc => Nat.isDigit_of_mem_toDigits (by decide) (by decide) hc
  · rw [Nat.ofDigitChars_ten_toDigits, Int.one_mul]

end Numeral

/-! ## Reading -/

/-- `CursorDenotes cursor offset` holds if a text writes an integer, with blanks around it. -/
def CursorDenotes (cursor : String) (offset : Int) : Prop :=
  ∃ before chars after, cursor.toList = before ++ chars ++ after ∧
    (∀ c ∈ before, Text.isBlank c = true) ∧ (∀ c ∈ after, Text.isBlank c = true) ∧
    Numeral.Writes chars offset

theorem cursorDenotes_iff_writes_strip {cursor : String} {offset : Int} :
    CursorDenotes cursor offset ↔ Numeral.Writes (Text.strip cursor.toList) offset := by
  constructor
  · rintro ⟨before, chars, after, hcursor, hbefore, hafter, hwrites⟩
    have hstrip : Text.strip cursor.toList = chars := by
      rw [hcursor]
      exact Text.trim_append hbefore hwrites.not_blank hafter
    rwa [hstrip]
  · intro hwrites
    obtain ⟨before, after, hcursor, hbefore, hafter⟩ := Text.exists_strip cursor.toList
    exact ⟨before, _, after, hcursor, hbefore, hafter, hwrites⟩

/-- A text is read as an offset exactly if it denotes this offset. -/
theorem decodeCursor_eq_ok_iff {cursor : String} {offset : Int64} :
    decodeCursor cursor = .ok offset ↔
      CursorDenotes cursor offset.toInt ∧ 0 ≤ offset.toInt := by
  rw [cursorDenotes_iff_writes_strip, ← Numeral.readInt64_eq_ok_iff, decodeCursor]
  cases Numeral.readInt64 (Text.strip cursor.toList) with
  | error fault => simp
  | ok n =>
      show (if 0 ≤ n then Except.ok n else .error (QueryError.invalidCursor cursor)) = _ ↔ _
      rw [Except.ok.injEq]
      by_cases hpos : 0 ≤ n
      · rw [if_pos hpos, Except.ok.injEq]
        rw [Int64.le_iff_toInt_le, Int64.toInt_zero] at hpos
        constructor
        · rintro rfl
          exact ⟨rfl, hpos⟩
        · exact And.left
      · rw [if_neg hpos]
        rw [Int64.le_iff_toInt_le, Int64.toInt_zero] at hpos
        constructor
        · exact fun h => (nomatch h)
        · rintro ⟨rfl, h⟩
          exact absurd h hpos

/-- A text is refused exactly if it denotes no offset that a query can have. -/
theorem decodeCursor_eq_error_iff {cursor : String} {error : QueryError} :
    decodeCursor cursor = .error error ↔
      (∀ offset, CursorDenotes cursor offset → offset < 0 ∨ Int64.maxValue.toInt < offset) ∧
        error = .invalidCursor cursor := by
  constructor
  · intro h
    refine ⟨fun offset hdenotes => ?_, ?_⟩
    · -- an offset in range would be read
      by_contra hrange
      have hint : (Int64.ofInt offset).toInt = offset := by
        rw [Int64.toInt_maxValue] at hrange
        exact Int64.toInt_ofInt_of_le (by omega) (by omega)
      have hread : decodeCursor cursor = .ok (Int64.ofInt offset) := by
        rw [decodeCursor_eq_ok_iff, hint]
        exact ⟨hdenotes, by omega⟩
      rw [h] at hread
      cases hread
    · unfold decodeCursor at h
      split at h
      · split at h
        · cases h
        · exact (Except.error.inj h).symm
      · exact (Except.error.inj h).symm
  · rintro ⟨hnone, rfl⟩
    unfold decodeCursor
    cases hread : Numeral.readInt64 (Text.strip cursor.toList) with
    | error fault => rfl
    | ok n =>
        have hdenotes := cursorDenotes_iff_writes_strip.2 (Numeral.readInt64_eq_ok_iff.1 hread)
        have hneg : ¬ 0 ≤ n := by
          rw [Int64.le_iff_toInt_le, Int64.toInt_zero]
          have hmax := n.toInt_le
          have hrange := hnone _ hdenotes
          omega
        exact if_neg hneg

/-! ## Reading back -/

theorem eq_ofNat_of_nonneg {offset : Int64} (h : 0 ≤ offset.toInt) :
    offset = Int64.ofNat offset.toInt.toNat := by
  have hlt := offset.toInt_lt
  apply Int64.toInt_inj.1
  rw [Int64.toInt_ofNat_of_lt (by omega)]
  omega

/-- A cursor that was written is read as its offset. -/
theorem decodeCursor_encodeCursor {n : Nat} (h : n < 2 ^ 63) :
    decodeCursor (encodeCursor (Int64.ofNat n)) = .ok (Int64.ofNat n) := by
  have hint : (Int64.ofNat n).toInt = n := Int64.toInt_ofNat_of_lt h
  have hchars : (encodeCursor (Int64.ofNat n)).toList = [] ++ Nat.toDigits 10 n ++ [] := by
    unfold encodeCursor
    rw [hint, List.nil_append, List.append_nil]
    exact Nat.toList_repr
  have hnone : ∀ c ∈ ([] : List Char), Text.isBlank c = true :=
    fun _ hc => absurd hc List.not_mem_nil
  rw [decodeCursor_eq_ok_iff, hint]
  exact ⟨⟨_, _, _, hchars, hnone, hnone, Numeral.writes_toDigits n⟩, Int.natCast_nonneg n⟩

theorem decodeCursor_encodeCursor_of_nonneg {offset : Int64} (h : 0 ≤ offset.toInt) :
    decodeCursor (encodeCursor offset) = .ok offset := by
  have hlt := offset.toInt_lt
  rw [eq_ofNat_of_nonneg h]
  exact decodeCursor_encodeCursor (by omega)

/-- The window after the row at an offset starts at the next one. -/
theorem PageWindow.after_encodeCursor {n : Nat} (h : n + 1 < 2 ^ 63) (limit : Int64) :
    PageWindow.after (encodeCursor (Int64.ofNat n)) limit =
      .ok { skip := Int64.ofNat (n + 1), limit } := by
  have hne : Int64.ofNat n ≠ Int64.maxValue := by
    intro heq
    have hint := congrArg Int64.toInt heq
    rw [Int64.toInt_ofNat_of_lt (by omega), Int64.toInt_maxValue] at hint
    omega
  have hsucc : Int64.ofNat n + 1 = Int64.ofNat (n + 1) := by
    rw [Int64.ofNat_add]
    rfl
  unfold after
  rw [decodeCursor_encodeCursor (by omega)]
  show (if Int64.ofNat n = Int64.maxValue then _ else _) = _
  rw [if_neg hne, hsucc]
  rfl

/-- There is no window after the row at the last offset. -/
theorem PageWindow.after_encodeCursor_maxValue (limit : Int64) :
    PageWindow.after (encodeCursor Int64.maxValue) limit =
      .error (.invalidCursor (encodeCursor Int64.maxValue)) := by
  have hread := decodeCursor_encodeCursor (n := 2 ^ 63 - 1) (by decide)
  have hmax : Int64.ofNat (2 ^ 63 - 1) = Int64.maxValue := by decide
  rw [hmax] at hread
  unfold after
  rw [hread]
  rfl

/-- Cursors denote offsets.  One that was written is read as its offset, and the window after it
starts at the next offset, unless there is none.  Any text is read as an offset exactly if it
denotes this offset: blanks around it apart, it is an optional sign and one or more digits whose
signed value is the offset, which is not negative.  All other texts are refused, and the error holds
them as they are. -/
theorem cursors_denote_offsets :
    (∀ offset : Int64, 0 ≤ offset →
      decodeCursor (encodeCursor offset) = .ok offset ∧
      ∀ limit,
        (offset < Int64.maxValue → (offset + 1).toInt = offset.toInt + 1 ∧
          PageWindow.after (encodeCursor offset) limit = .ok { skip := offset + 1, limit }) ∧
        (offset = Int64.maxValue → PageWindow.after (encodeCursor offset) limit =
          .error (.invalidCursor (encodeCursor offset)))) ∧
    ∀ cursor,
      (∀ offset, decodeCursor cursor = .ok offset ↔
        CursorDenotes cursor offset.toInt ∧ 0 ≤ offset.toInt) ∧
      ∀ error, decodeCursor cursor = .error error ↔
        (∀ value, CursorDenotes cursor value → value < 0 ∨ Int64.maxValue.toInt < value) ∧
          error = .invalidCursor cursor := by
  refine ⟨fun offset hpos => ?_, fun cursor =>
    ⟨fun offset => decodeCursor_eq_ok_iff, fun error => decodeCursor_eq_error_iff⟩⟩
  rw [Int64.le_iff_toInt_le, Int64.toInt_zero] at hpos
  have hlt := offset.toInt_lt
  refine ⟨decodeCursor_encodeCursor_of_nonneg hpos, fun limit => ⟨fun hmax => ?_, ?_⟩⟩
  · obtain ⟨n, hn, rfl⟩ : ∃ n : Nat, n < 2 ^ 63 ∧ offset = Int64.ofNat n :=
      ⟨_, by omega, eq_ofNat_of_nonneg hpos⟩
    rw [Int64.lt_iff_toInt_lt, Int64.toInt_ofNat_of_lt hn, Int64.toInt_maxValue] at hmax
    have hsucc : Int64.ofNat n + 1 = Int64.ofNat (n + 1) := by
      rw [Int64.ofNat_add]
      rfl
    rw [hsucc, Int64.toInt_ofNat_of_lt hn, Int64.toInt_ofNat_of_lt (by omega)]
    exact ⟨by omega, PageWindow.after_encodeCursor (by omega) limit⟩
  · rintro hmax
    rw [hmax]
    exact PageWindow.after_encodeCursor_maxValue limit

/-- The window after an offset, and a text with a sign, zeros and blanks that is read. -/
theorem cursors_denote_offsets_padded :
    (0 : Int64) ≤ 41 ∧ (41 : Int64) < Int64.maxValue ∧
      PageWindow.after (encodeCursor 41) 5 = .ok { skip := 42, limit := 5 } ∧
      CursorDenotes "\u2003+0041\n" 41 ∧ decodeCursor "\u2003+0041\n" = .ok 41 := by
  have hdenotes : CursorDenotes "\u2003+0041\n" 41 :=
    ⟨['\u2003'], ['+', '0', '0', '4', '1'], ['\n'], rfl, List.all_eq_true.1 rfl,
      List.all_eq_true.1 rfl, ['+'], 1, ['0', '0', '4', '1'], .plus, by decide,
      List.all_eq_true.1 rfl, rfl, by decide⟩
  obtain ⟨hwritten, hread⟩ := cursors_denote_offsets
  obtain ⟨-, hafter⟩ := hwritten 41 (by decide)
  refine ⟨by decide, by decide, ((hafter 5).1 (by decide)).2, hdenotes, ?_⟩
  exact ((hread _).1 41).2 ⟨hdenotes, by decide⟩

/-! ## Arithmetic of offsets -/

theorem toInt_min (a b : Int64) : (min a b).toInt = min a.toInt b.toInt := by
  show (if a ≤ b then a else b).toInt = _
  by_cases h : a ≤ b
  · rw [if_pos h]
    rw [Int64.le_iff_toInt_le] at h
    omega
  · rw [if_neg h]
    rw [Int64.le_iff_toInt_le] at h
    omega

theorem toInt_max (a b : Int64) : (max a b).toInt = max a.toInt b.toInt := by
  show (if a ≤ b then b else a).toInt = _
  by_cases h : a ≤ b
  · rw [if_pos h]
    rw [Int64.le_iff_toInt_le] at h
    omega
  · rw [if_neg h]
    rw [Int64.le_iff_toInt_le] at h
    omega

/-- The value of a saturating sum. -/
theorem toInt_saturatingAdd (a b : Int64) :
    (saturatingAdd a b).toInt = max (-2 ^ 63) (min (a.toInt + b.toInt) (2 ^ 63 - 1)) := by
  have hmin := Int64.toInt_minValue
  have hmax := Int64.toInt_maxValue
  unfold saturatingAdd Int64.ofIntClamp
  split
  · split
    · rw [Int64.toInt_ofIntLE]
      omega
    · omega
  · omega

/-- Offsets whose sum is in range are added. -/
theorem saturatingAdd_ofNat {m n : Nat} (h : m + n < 2 ^ 63) :
    saturatingAdd (Int64.ofNat m) (Int64.ofNat n) = Int64.ofNat (m + n) := by
  apply Int64.toInt_inj.1
  rw [toInt_saturatingAdd, Int64.toInt_ofNat_of_lt (by omega), Int64.toInt_ofNat_of_lt (by omega),
    Int64.toInt_ofNat_of_lt h]
  omega

/-- Cutting a sum off above does not change how it compares with a number in range. -/
theorem saturatingAdd_lt_iff {a b c : Int64} (h : 0 ≤ a.toInt) :
    saturatingAdd a b < c ↔ a.toInt + b.toInt < c.toInt := by
  have hlower := b.le_toInt
  have hupper := c.toInt_lt
  rw [Int64.lt_iff_toInt_lt, toInt_saturatingAdd]
  omega

theorem saturatingAdd_lt_ofNat_iff {m size n : Nat} (hm : m < 2 ^ 63) (hsize : size < 2 ^ 63)
    (hn : n < 2 ^ 63) :
    saturatingAdd (Int64.ofNat m) (Int64.ofNat size) < Int64.ofNat n ↔ m + size < n := by
  have hint := Int64.toInt_ofNat_of_lt hm
  rw [saturatingAdd_lt_iff (by omega), hint, Int64.toInt_ofNat_of_lt hsize,
    Int64.toInt_ofNat_of_lt hn]
  omega

end TableQuery
