/-!
# Patterns

Matching a text against a pattern, in which `%` stands for any run of characters and `_` for any
one character. Every other character stands for itself, an ASCII letter for both of its cases.
There is no way to write a `%` that stands for itself. A text ends at its first null character.

What a pattern means is said by `likeChars`, which tries every run for every `%`. The test itself
gives up sooner: once what follows a `%` has reached the end of the text in vain, no longer run
for an earlier `%` can help.

## Main definitions

* `likeChars`: what a pattern means, with `likeChars_run`.
* `Scan`, `scan`: the test on characters, with `scan_eq_found_iff`.
* `like`: the test on texts.
-/

namespace TableQuery

/-- Whether two characters are the same up to the case of an ASCII letter. -/
def sameLetter (a b : Char) : Bool := a.toLower = b.toLower

/-- Whether a character of a pattern other than `%` stands for a character. -/
def standsFor (p c : Char) : Bool := p = '_' || sameLetter p c

/-- Whether characters match a pattern. -/
def likeChars : List Char → List Char → Bool
  | [], chars => chars.isEmpty
  | p :: pattern, [] => p = '%' && likeChars pattern []
  | p :: pattern, c :: rest =>
    if p = '%' then likeChars pattern (c :: rest) || likeChars (p :: pattern) rest
    else standsFor p c && likeChars pattern rest
termination_by pattern chars => pattern.length + chars.length

/-- A run may be of any length, so some rest of the characters has to match what follows it. -/
theorem likeChars_run {pattern chars : List Char} :
    likeChars ('%' :: pattern) chars = true ↔
      ∃ rest, rest <:+ chars ∧ likeChars pattern rest = true := by
  induction chars with
  | nil => simp [likeChars]
  | cons c rest ih =>
    simp only [likeChars, if_true, Bool.or_eq_true, ih, List.suffix_cons_iff]
    constructor
    · rintro (h | ⟨tail, hTail, h⟩)
      · exact ⟨c :: rest, .inl rfl, h⟩
      · exact ⟨tail, .inr hTail, h⟩
    · rintro ⟨tail, rfl | hTail, h⟩
      · exact .inl h
      · exact .inr ⟨tail, hTail, h⟩

/-! ## The test -/

/-- What the test of characters against a pattern finds. -/
inductive Scan where
  /-- They match. -/
  | found
  /-- They do not match. -/
  | missed
  /-- They do not match, nor do they after any number of them is left out at the start. -/
  | exhausted
  deriving DecidableEq, Repr

/-- Tests characters against a pattern. -/
def scan : List Char → List Char → Scan
  | [], [] => .found
  | [], _ :: _ => .missed
  | p :: pattern, [] =>
    if p = '%' && scan pattern [] = .found then .found else .exhausted
  | p :: pattern, c :: rest =>
    if p = '%' then
      match scan pattern (c :: rest) with
      | .missed => scan (p :: pattern) rest
      | result => result
    else if standsFor p c then scan pattern rest
    else .missed
termination_by pattern chars => pattern.length + chars.length

/-- What the test finds is right: characters that match are found, and where it says `exhausted` no
rest of the characters matches. -/
theorem scan_spec (pattern chars : List Char) :
    (scan pattern chars = .found ↔ likeChars pattern chars = true) ∧
      (scan pattern chars = .exhausted →
        ∀ rest, rest <:+ chars → likeChars pattern rest = false) := by
  fun_induction scan pattern chars with
  | case1 => simp [likeChars]
  | case2 c rest => simp [likeChars]
  | case3 p pattern h ih =>
    simp only [Bool.and_eq_true, decide_eq_true_eq] at h
    simp [likeChars, h.1, ih.1.1 h.2]
  | case4 p pattern h ih =>
    have hNo : likeChars (p :: pattern) [] = false := by
      simp only [Bool.and_eq_true, decide_eq_true_eq, not_and, ih.1, Bool.not_eq_true] at h
      simpa [likeChars] using h
    refine ⟨by simp [hNo], fun _ rest hRest => ?_⟩
    rw [List.suffix_nil.1 hRest, hNo]
  | case5 pattern c rest hMissed ihHere ihLater =>
    have hHere : likeChars pattern (c :: rest) = false := by
      simpa [hMissed] using ihHere.1
    have hStep : likeChars ('%' :: pattern) (c :: rest) = likeChars ('%' :: pattern) rest := by
      simp [likeChars, hHere]
    refine ⟨by rw [hStep]; exact ihLater.1, fun h tail hTail => ?_⟩
    rcases List.suffix_cons_iff.1 hTail with rfl | hTail
    · rw [hStep]
      exact ihLater.2 h rest (List.suffix_refl rest)
    · exact ihLater.2 h tail hTail
  | case6 pattern c rest hResult ih =>
    constructor
    · constructor
      · intro h
        simp [likeChars, ih.1.1 h]
      · intro h
        obtain ⟨tail, hTail, h⟩ := likeChars_run.1 h
        cases hScan : scan pattern (c :: rest) with
        | found => rfl
        | missed => exact absurd hScan hResult
        | exhausted => simp [ih.2 hScan tail hTail] at h
    · intro h rest' hRest
      rw [← Bool.not_eq_true, likeChars_run]
      rintro ⟨tail, hTail, hLike⟩
      simp [ih.2 h tail (hTail.trans hRest)] at hLike
  | case7 p pattern c rest hP hC ih =>
    refine ⟨by simpa [likeChars, hP, hC] using ih.1, fun h tail hTail => ?_⟩
    cases tail with
    | nil => simp [likeChars, hP]
    | cons d tail =>
      have hSuffix : tail <:+ rest := by
        rcases List.suffix_cons_iff.1 hTail with hEq | hTail
        · exact (List.cons.inj hEq).2 ▸ List.suffix_refl rest
        · exact (List.suffix_cons d tail).trans hTail
      simp [likeChars, hP, ih.2 h tail hSuffix]
  | case8 p pattern c rest hP hC => simp [likeChars, hP, hC]

/-- The test finds exactly what matches. -/
theorem scan_eq_found_iff {pattern chars : List Char} :
    scan pattern chars = .found ↔ likeChars pattern chars = true :=
  (scan_spec pattern chars).1

/-- The characters of a text up to its first null character. -/
def untilNull (text : String) : List Char := text.toList.takeWhile (· ≠ '\x00')

/-- Whether a text matches a pattern. -/
def like (pattern text : String) : Bool := scan (untilNull pattern) (untilNull text) = .found

theorem like_eq_likeChars (pattern text : String) :
    like pattern text = likeChars (untilNull pattern) (untilNull text) := by
  rw [Bool.eq_iff_iff, like, decide_eq_true_iff, scan_eq_found_iff]

end TableQuery
