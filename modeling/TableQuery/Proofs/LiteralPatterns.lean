import Mathlib.Data.List.TakeWhile
import TableQuery.Proofs.SingleOperators

/-!
# Pattern operators and their texts

A pattern operator asks whether its text stands in the text of a column: anywhere, at its start, or
at its end, up to the case of ASCII letters.  The text becomes part of a pattern as it is, so a `%`
or a `_` in it stands for other characters than itself, and a null character ends the pattern.  What
comes out is therefore a search for a part that fits the text as a pattern, and this is a search for
the text itself exactly if none of these characters is in it.

## Main results

* `likeChars_append` — matching two patterns one after the other.
* `likeChars_iff_of_literal` — without `%` and `_` a pattern fits itself only.
* `Filter.pattern_operators_literal_iff` — when pattern operators take their text literally.
-/

namespace TableQuery

/-! ## Patterns in parts -/

/-- Characters match two patterns one after the other if they split into matches of each. -/
theorem likeChars_append {first second chars : List Char} :
    likeChars (first ++ second) chars = true ↔
      ∃ front back, chars = front ++ back ∧ likeChars first front = true ∧
        likeChars second back = true := by
  induction first generalizing chars with
  | nil => simp [likeChars]
  | cons p first ih =>
      by_cases hp : p = '%'
      · subst hp
        rw [List.cons_append, likeChars_run]
        simp only [ih, likeChars_run]
        constructor
        · rintro ⟨_, ⟨skipped, rfl⟩, front, back, rfl, hfirst, hsecond⟩
          exact ⟨skipped ++ front, back, (List.append_assoc ..).symm,
            ⟨front, List.suffix_append .., hfirst⟩, hsecond⟩
        · rintro ⟨_, back, rfl, ⟨front, ⟨skipped, rfl⟩, hfirst⟩, hsecond⟩
          exact ⟨front ++ back, ⟨skipped, (List.append_assoc ..).symm⟩, front, back, rfl, hfirst,
            hsecond⟩
      · cases chars with
        | nil => simp [likeChars, hp]
        | cons c chars =>
            simp only [List.cons_append, likeChars, if_neg hp, Bool.and_eq_true, ih]
            constructor
            · rintro ⟨hc, front, back, rfl, hfirst, hsecond⟩
              exact ⟨c :: front, back, rfl, by simp [likeChars, hp, hc, hfirst], hsecond⟩
            · rintro ⟨front, back, heq, hfirst, hsecond⟩
              cases front with
              | nil => simp [likeChars, hp] at hfirst
              | cons d front =>
                  obtain ⟨rfl, rfl⟩ := List.cons.inj heq
                  simp only [likeChars, if_neg hp, Bool.and_eq_true] at hfirst
                  exact ⟨hfirst.1, front, back, rfl, hfirst.2, hsecond⟩

/-- A last `%` matches whatever is left. -/
theorem likeChars_append_run {pattern chars : List Char} :
    likeChars (pattern ++ ['%']) chars = true ↔
      ∃ front, front <+: chars ∧ likeChars pattern front = true := by
  have hrun : ∀ back, likeChars ['%'] back = true := by
    intro back
    rw [likeChars_run]
    exact ⟨[], List.nil_suffix, by simp [likeChars]⟩
  rw [likeChars_append]
  constructor
  · rintro ⟨front, back, rfl, hfront, -⟩
    exact ⟨front, List.prefix_append .., hfront⟩
  · rintro ⟨front, ⟨back, rfl⟩, hfront⟩
    exact ⟨front, back, rfl, hfront, hrun back⟩

/-! ## Texts up to a null character -/

theorem untilNull_eq_toList {text : String} (h : '\x00' ∉ text.toList) :
    untilNull text = text.toList := by
  rw [untilNull, List.takeWhile_eq_self_iff]
  exact fun c hc => decide_eq_true (ne_of_mem_of_not_mem hc h)

theorem not_mem_untilNull (text : String) : '\x00' ∉ untilNull text := by
  intro h
  rw [untilNull] at h
  simpa using List.mem_takeWhile_imp h

/-- A `%` after a text counts only if no null character is before it. -/
theorem exists_untilNull_append_run (text : String) :
    ∃ tail, (tail = [] ∨ tail = ['%']) ∧ untilNull (text ++ "%") = untilNull text ++ tail := by
  by_cases h : '\x00' ∈ text.toList
  · refine ⟨[], .inl rfl, ?_⟩
    rw [untilNull, String.toList_append, List.takeWhile_append, if_neg, List.append_nil, untilNull]
    intro hlength
    have hwhole := (List.takeWhile_prefix _).eq_of_length hlength
    exact not_mem_untilNull text (by rwa [untilNull, hwhole])
  · have happend : '\x00' ∉ (text ++ "%").toList := by simpa using h
    refine ⟨['%'], .inr rfl, ?_⟩
    rw [untilNull_eq_toList happend, untilNull_eq_toList h, String.toList_append]
    rfl

/-! ## Literal patterns -/

/-- Characters up to the case of ASCII letters. -/
def foldCase (chars : List Char) : List Char := chars.map Char.toLower

/-- A pattern without `%` and `_` matches itself only, up to the case of ASCII letters. -/
theorem likeChars_iff_of_literal {pattern chars : List Char}
    (h : ∀ c ∈ pattern, c ≠ '%' ∧ c ≠ '_') :
    likeChars pattern chars = true ↔ foldCase pattern = foldCase chars := by
  induction pattern generalizing chars with
  | nil => cases chars <;> simp [likeChars, foldCase]
  | cons p pattern ih =>
      obtain ⟨⟨hrun, hone⟩, hrest⟩ := List.forall_mem_cons.1 h
      cases chars with
      | nil => simp [likeChars, hrun, foldCase]
      | cons c chars =>
          simp only [likeChars, if_neg hrun, Bool.and_eq_true, ih hrest, standsFor, sameLetter,
            hone, decide_false, Bool.false_or, decide_eq_true_eq, foldCase, List.map_cons,
            List.cons.injEq]

/-- A character that no pattern reads in another way, in place of `%` and `_`. -/
def plainChar (c : Char) : Char := if c = '%' || c = '_' then 'x' else c

/-- Every pattern matches itself with other characters in place of `%` and `_`. -/
theorem likeChars_map_plainChar (pattern : List Char) :
    likeChars pattern (pattern.map plainChar) = true := by
  induction pattern with
  | nil => simp [likeChars]
  | cons p pattern ih =>
      by_cases hp : p = '%'
      · subst hp
        rw [likeChars_run]
        exact ⟨_, List.suffix_cons _ _, ih⟩
      · have hone : standsFor p (plainChar p) = true := by
          by_cases hone : p = '_' <;> simp [standsFor, plainChar, sameLetter, hp, hone]
        simp [likeChars, hp, hone, ih]

/-- Only the character itself becomes `%`, `_` or null in lower case. -/
theorem eq_of_toLower_eq {c d : Char} (hd : d = '%' ∨ d = '_' ∨ d = '\x00')
    (h : c.toLower = d) : c = d := by
  unfold Char.toLower at h
  split at h
  · next hupper =>
      have hval := congrArg Char.val h
      rcases hd with rfl | rfl | rfl <;> grind
  · exact h

/-! ## Operators -/

namespace Pattern

/-- Where an operator looks for its text: anywhere, at the start, or at the end. -/
def Finds (p : Pattern) (part chars : List Char) : Prop :=
  match p with
  | contains | notContains => part <:+: chars
  | startsWith | notStartsWith => part <+: chars
  | endsWith | notEndsWith => part <:+ chars

/-- What an operator says of characters, if its text stands for itself up to case. -/
def Says (p : Pattern) (text chars : List Char) : Prop :=
  if p.isNegated then ¬ p.Finds (foldCase text) (foldCase chars)
  else p.Finds (foldCase text) (foldCase chars)

variable {p : Pattern} {text value : String}

theorem Finds.mem {part chars : List Char} {c : Char} (h : p.Finds part chars) (hc : c ∈ part) :
    c ∈ chars := by
  cases p with
  | contains => exact List.IsInfix.subset h hc
  | notContains => exact List.IsInfix.subset h hc
  | startsWith => exact List.IsPrefix.subset h hc
  | notStartsWith => exact List.IsPrefix.subset h hc
  | endsWith => exact List.IsSuffix.subset h hc
  | notEndsWith => exact List.IsSuffix.subset h hc

/-- A text is found up to case exactly if a part that is the same up to case is found. -/
theorem finds_foldCase_iff {part chars : List Char} :
    p.Finds (foldCase part) (foldCase chars) ↔
      ∃ found, p.Finds found chars ∧ foldCase part = foldCase found := by
  cases p with
  | contains => exact List.infix_map_iff
  | notContains => exact List.infix_map_iff
  | startsWith => exact List.prefix_map_iff
  | notStartsWith => exact List.prefix_map_iff
  | endsWith => exact List.suffix_map_iff
  | notEndsWith => exact List.suffix_map_iff

/-- The pattern of an operator fits a text exactly if a part of it, in the place that the operator
has it, fits the operator's text. -/
theorem like_apply_iff (h : '\x00' ∉ text.toList) :
    like (p.apply text) value = true ↔
      ∃ part, p.Finds part (untilNull value) ∧ likeChars text.toList part = true := by
  have hwhole : untilNull (p.apply text) = (p.apply text).toList := by
    refine untilNull_eq_toList fun hnull => h ?_
    cases p <;> simpa [apply] using hnull
  have hanywhere : likeChars ('%' :: (text.toList ++ ['%'])) (untilNull value) = true ↔
      ∃ part, part <:+: untilNull value ∧ likeChars text.toList part = true := by
    simp only [likeChars_run, likeChars_append_run, List.infix_iff_prefix_suffix]
    constructor
    · rintro ⟨tail, htail, part, hpart, h⟩
      exact ⟨part, ⟨tail, hpart, htail⟩, h⟩
    · rintro ⟨part, ⟨tail, hpart, htail⟩, h⟩
      exact ⟨tail, htail, part, hpart, h⟩
  rw [like_eq_likeChars, hwhole]
  cases p
  case contains | notContains => simpa [apply, Finds] using hanywhere
  case startsWith | notStartsWith =>
    simpa [apply, Finds] using likeChars_append_run
  case endsWith | notEndsWith =>
    simpa [apply, Finds] using likeChars_run

/-- Without `%`, `_` and null in its text, an operator finds its text. -/
theorem like_apply_iff_of_literal (htext : ∀ c ∈ text.toList, c ≠ '%' ∧ c ≠ '_' ∧ c ≠ '\x00')
    (hvalue : '\x00' ∉ value.toList) :
    like (p.apply text) value = true ↔ p.Finds (foldCase text.toList) (foldCase value.toList) := by
  have hnull : '\x00' ∉ text.toList := fun h => (htext _ h).2.2 rfl
  rw [like_apply_iff hnull, untilNull_eq_toList hvalue, finds_foldCase_iff]
  refine exists_congr fun part => and_congr_right fun _ => ?_
  exact likeChars_iff_of_literal fun c hc => ⟨(htext c hc).1, (htext c hc).2.1⟩

/-- The operator's text up to a null character, with another character for `%` and `_`. -/
def plainText (text : String) : String := String.ofList ((untilNull text).map plainChar)

theorem plainText_plain {c : Char} (hc : c ∈ (plainText text).toList) :
    c ≠ '%' ∧ c ≠ '_' ∧ c ≠ '\x00' := by
  rw [plainText, String.toList_ofList] at hc
  obtain ⟨d, hd, rfl⟩ := List.mem_map.1 hc
  have hnull : d ≠ '\x00' := ne_of_mem_of_not_mem hd (not_mem_untilNull text)
  unfold plainChar
  split
  · decide
  · next hplain => simpa [hnull] using hplain

/-- The pattern of every operator fits its plain text. -/
theorem like_apply_plainText : like (p.apply text) (plainText text) = true := by
  have hwhole : untilNull (plainText text) = (untilNull text).map plainChar := by
    rw [untilNull_eq_toList fun h => (plainText_plain h).2.2 rfl, plainText, String.toList_ofList]
  have hplain := likeChars_map_plainChar (untilNull text)
  have hstart : likeChars (untilNull (text ++ "%")) ((untilNull text).map plainChar) = true := by
    obtain ⟨tail, htail, happend⟩ := exists_untilNull_append_run text
    have hnothing : likeChars tail [] = true := by rcases htail with rfl | rfl <;> simp [likeChars]
    rw [happend, likeChars_append]
    exact ⟨_, [], (List.append_nil _).symm, hplain, hnothing⟩
  have hany : ∀ tail : String, untilNull ("%" ++ tail) = '%' :: untilNull tail := by
    intro tail
    simp [untilNull]
  rw [like_eq_likeChars, hwhole]
  cases p
  case startsWith | notStartsWith => exact hstart
  case endsWith | notEndsWith =>
    rw [apply, hany, likeChars_run]
    exact ⟨_, List.suffix_rfl, hplain⟩
  case contains | notContains =>
    rw [apply, String.append_assoc, hany, likeChars_run]
    exact ⟨_, List.suffix_rfl, hstart⟩

/-- A text with `%`, `_` or null is not found in its plain text. -/
theorem not_finds_plainText {c : Char} (hc : c ∈ text.toList)
    (hspecial : c = '%' ∨ c = '_' ∨ c = '\x00') :
    ¬ p.Finds (foldCase text.toList) (foldCase (plainText text).toList) := by
  intro h
  have hfold : c.toLower = c := by rcases hspecial with rfl | rfl | rfl <;> decide
  obtain ⟨d, hd, hdc⟩ := List.mem_map.1 (h.mem (List.mem_map.2 ⟨c, hc, hfold⟩))
  obtain rfl := eq_of_toLower_eq hspecial hdc
  obtain ⟨hrun, hone, hnull⟩ := plainText_plain hd
  exact hspecial.elim hrun fun hspecial => hspecial.elim hone hnull

end Pattern

/-! ## Leaves -/

namespace Filter

variable {name : String} {p : Pattern} {text value : String} {scope : Scope}

/-- A leaf of one pattern operator, without case flags, matches a text as its pattern does. -/
theorem matches_pattern_iff (hname : isIdentifier name.toList = true)
    (hcell : (scope name).cell = .text value) :
    ((Demand.pattern p (.text text)).leaf name fun _ => false).Matches scope ↔
      if p.isNegated then ¬ like (p.apply text) value = true
      else like (p.apply text) value = true := by
  have hlike : ((OperatorSet.ofFlags fun _ => false).likeAtom ⟨name, hname⟩ p text).truth scope =
      if p.isNegated then some (!like (p.apply text) value)
      else some (like (p.apply text) value) := by
    have hcells : likeCells (scope name).cell (.text (p.apply text)) =
        some (like (p.apply text) value) := by
      rw [hcell]
      rfl
    show ((Formula.like _ _).negateIf p.isNegated).truth scope = _
    split
    · next h =>
        rw [h]
        exact congrArg Truth.not hcells
    · next h =>
        rw [Bool.eq_false_iff.2 h]
        exact hcells
  have hatom : (OperatorSet.ofFlags fun _ => false).patternAtom ⟨name, hname⟩ p (.text text) =
      .ok ((OperatorSet.ofFlags fun _ => false).likeAtom ⟨name, hname⟩ p text) :=
    OperatorSet.patternAtom_eq_ok_iff.2 ⟨text, rfl, rfl⟩
  rw [matches_demand_iff_of_valid hname]
  simp only [OperatorSet.atomOf?, hatom, Except.map, Except.ok.injEq, exists_eq_left',
    Atom.truthOf?, Option.elim_some, hlike]
  split <;> simp

/-- A pattern operator takes its text literally, for every text of a column without null characters,
exactly if there is no `%`, no `_` and no null character in its own.  In general, as long as its
text has no null character, it looks for a part that fits this text as a pattern, up to the first
null character of the column. -/
theorem pattern_operators_literal_iff (hname : isIdentifier name.toList = true) (p : Pattern)
    (text : String) :
    ((∀ (scope : Scope) (value : String), (scope name).cell = .text value →
        '\x00' ∉ value.toList →
        (((Demand.pattern p (.text text)).leaf name fun _ => false).Matches scope ↔
          p.Says text.toList value.toList)) ↔
      ∀ c ∈ text.toList, c ≠ '%' ∧ c ≠ '_' ∧ c ≠ '\x00') ∧
    ('\x00' ∉ text.toList → ∀ (scope : Scope) (value : String), (scope name).cell = .text value →
      (((Demand.pattern p (.text text)).leaf name fun _ => false).Matches scope ↔
        (p.isNegated = false ↔
          ∃ part, p.Finds part (untilNull value) ∧ likeChars text.toList part = true))) := by
  refine ⟨⟨fun hliteral c hc => ?_, fun htext scope value hcell hvalue => ?_⟩,
    fun hnull scope value hcell => ?_⟩
  · -- The plain text fits the pattern, but the text itself is not found in it.
    by_contra hspecial
    simp only [ne_eq, not_and_or, not_not] at hspecial
    have hvalue : '\x00' ∉ (Pattern.plainText text).toList :=
      fun h => (Pattern.plainText_plain h).2.2 rfl
    have hsame := hliteral (fun _ => { cell := .text (Pattern.plainText text) }) _ rfl hvalue
    have hfinds := Pattern.not_finds_plainText (p := p) hc hspecial
    rw [matches_pattern_iff hname rfl, Pattern.Says] at hsame
    split at hsame
    · exact hsame.2 hfinds Pattern.like_apply_plainText
    · exact hfinds (hsame.1 Pattern.like_apply_plainText)
  · rw [matches_pattern_iff hname hcell, Pattern.Says,
      Pattern.like_apply_iff_of_literal htext hvalue]
  · rw [matches_pattern_iff hname hcell, ← Pattern.like_apply_iff hnull]
    cases p.isNegated <;> simp

/-- A part of a text in letters of the other case. -/
theorem pattern_operators_literal_iff_part :
    let row : Scope := fun _ => { cell := .text "Lord of the rINGs" }
    let leaf : Filter := (Demand.pattern .contains (.text "Ring")).leaf "title" fun _ => false
    (∀ c ∈ "Ring".toList, c ≠ '%' ∧ c ≠ '_' ∧ c ≠ '\x00') ∧
      Pattern.contains.Says "Ring".toList "Lord of the rINGs".toList ∧ leaf.Matches row ∧
      ∃ part, part <:+: untilNull "Lord of the rINGs" ∧ likeChars "Ring".toList part = true := by
  intro row leaf
  have htext : ∀ c ∈ "Ring".toList, c ≠ '%' ∧ c ≠ '_' ∧ c ≠ '\x00' := by simp
  have hsays : Pattern.contains.Says "Ring".toList "Lord of the rINGs".toList := by
    show foldCase "Ring".toList <:+: foldCase "Lord of the rINGs".toList
    decide +kernel
  obtain ⟨hliteral, hparts⟩ :=
    @pattern_operators_literal_iff "title" (by decide) .contains "Ring"
  have hmatches : leaf.Matches row := (hliteral.2 htext row _ rfl (by decide)).2 hsays
  have hnull : '\x00' ∉ "Ring".toList := fun h => (htext _ h).2.2 rfl
  exact ⟨htext, hsays, hmatches, ((hparts hnull row _ rfl).1 hmatches).1 rfl⟩

/-- `50% o` is found in `500 off` and `a_` at the start of `axb`, and `axb` is taken to end with
`_b`. -/
theorem pattern_operators_read_wildcards :
    let row (value : String) : Scope := fun _ => { cell := .text value }
    let leaf (p : Pattern) (text : String) : Filter :=
      (Demand.pattern p (.text text)).leaf "name" fun _ => false
    ((leaf .contains "50% o").Matches (row "500 off") ∧
      ¬ Pattern.contains.Says "50% o".toList "500 off".toList) ∧
    ((leaf .startsWith "a_").Matches (row "axb") ∧
      ¬ Pattern.startsWith.Says "a_".toList "axb".toList) ∧
    ¬ (leaf .notEndsWith "_b").Matches (row "axb") ∧
      Pattern.notEndsWith.Says "_b".toList "axb".toList := by
  intro row leaf
  refine ⟨⟨?_, ?_⟩, ⟨?_, ?_⟩, ?_, ?_⟩
  · exact (matches_pattern_iff (by decide) rfl).2 (by decide +kernel)
  · show ¬ foldCase "50% o".toList <:+: foldCase "500 off".toList
    decide +kernel
  · exact (matches_pattern_iff (by decide) rfl).2 (by decide +kernel)
  · show ¬ foldCase "a_".toList <+: foldCase "axb".toList
    decide +kernel
  · rw [matches_pattern_iff (by decide) rfl]
    decide +kernel
  · show ¬ foldCase "_b".toList <:+ foldCase "axb".toList
    decide +kernel

end Filter

end TableQuery
