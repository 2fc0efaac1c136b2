import Mathlib.Data.List.Basic
import TableQuery.Proofs.Checked
import TableQuery.Sql.Token

/-!
# Tokens of texts that are put together

A condition is written by putting texts one after another, and read by cutting the whole text into
pieces, each as long as possible.  Where two texts meet, the pieces stay those of the two texts only
if the second one starts with a character that ends every piece.  A space, a comma and a closing
parenthesis do.

## Main results

* `tokens_append` — the pieces of a text that is continued.
-/

namespace TableQuery.Sql

/-! ## Where pieces end -/

/-- Whether a character ends every piece before it. -/
def isDelimiter (c : Char) : Bool := c = ' ' || c = ',' || c = ')'

/-- Whether a text ends the last piece of any text that it follows. -/
def Delimits (rest : List Char) : Prop := ∀ c ∈ rest.head?, isDelimiter c = true

theorem delimits_nil : Delimits [] := nofun

theorem delimits_of_head {chars : List Char} (h : chars.head?.any isDelimiter = true) :
    Delimits chars := by
  intro c hc
  rw [Option.mem_def.1 hc] at h
  exact h

/-- A text that starts with a delimiter, such as a separator. -/
theorem delimits_append {s : String} (h : s.toList.head?.any isDelimiter = true) (t : String) :
    Delimits (s ++ t).toList := by
  refine delimits_of_head ?_
  rw [String.toList_append]
  cases hchars : s.toList with
  | nil =>
      rw [hchars] at h
      cases h
  | cons d chars =>
      rw [hchars] at h
      exact h

theorem isDelimiter_cases {c : Char} (h : isDelimiter c = true) : c = ' ' ∨ c = ',' ∨ c = ')' := by
  simpa [isDelimiter, or_assoc] using h

section Characters

variable {rest : List Char}

theorem Delimits.head_eq_false (h : Delimits rest) {p : Char → Bool}
    (hp : p ' ' = false ∧ p ',' = false ∧ p ')' = false) : ∀ c ∈ rest.head?, p c = false := by
  intro c hc
  rcases isDelimiter_cases (h c hc) with rfl | rfl | rfl
  · exact hp.1
  · exact hp.2.1
  · exact hp.2.2

/-- A continued text starts as the text does, unless it starts with a delimiter. -/
theorem Delimits.head?_append_eq_some_iff (h : Delimits rest) {c : Char}
    (hc : isDelimiter c = false) (s : List Char) :
    (s ++ rest).head? = some c ↔ s.head? = some c := by
  cases s with
  | cons d s => rfl
  | nil =>
      refine ⟨fun hhead => ?_, fun hhead => nomatch hhead⟩
      rw [h c hhead] at hc
      cases hc

theorem Delimits.append_ne_cons (h : Delimits rest) {c : Char} (hc : isDelimiter c = false)
    {s : List Char} (hs : ∀ tail, s = c :: tail → False) :
    ∀ tail, s ++ rest = c :: tail → False := by
  intro tail heq
  have hhead := (h.head?_append_eq_some_iff hc s).1 (by rw [heq]; rfl)
  obtain ⟨tail', htail'⟩ := List.head?_eq_some_iff.1 hhead
  exact hs tail' htail'

theorem takeWhile_append_of_head {p : Char → Bool} (h : ∀ c ∈ rest.head?, p c = false)
    (s : List Char) : (s ++ rest).takeWhile p = s.takeWhile p := by
  induction s with
  | nil =>
      cases rest with
      | nil => rfl
      | cons c rest => simp [h c rfl]
  | cons c s ih => simp only [List.cons_append, List.takeWhile_cons, ih]

theorem dropWhile_append_of_head {p : Char → Bool} (h : ∀ c ∈ rest.head?, p c = false)
    (s : List Char) : (s ++ rest).dropWhile p = s.dropWhile p ++ rest := by
  induction s with
  | nil =>
      cases rest with
      | nil => rfl
      | cons c rest => simp [h c rfl]
  | cons c s ih =>
      simp only [List.cons_append, List.dropWhile_cons, ih]
      split <;> rfl

/-! ## Numbers -/

theorem digitCount_append (h : Delimits rest) (s : List Char) :
    digitCount (s ++ rest) = digitCount s := by
  rw [digitCount, takeWhile_append_of_head (h.head_eq_false (by decide)), digitCount]

theorem digitCount_le (s : List Char) : digitCount s ≤ s.length :=
  (List.takeWhile_sublist _).length_le

theorem exponentLength_append (h : Delimits rest) (s : List Char) :
    exponentLength (s ++ rest) = exponentLength s := by
  cases s with
  | nil =>
      cases rest with
      | nil => rfl
      | cons c rest =>
          rcases isDelimiter_cases (h c rfl) with rfl | rfl | rfl <;> simp [exponentLength]
  | cons c s =>
      have hplus := h.head?_append_eq_some_iff (c := '+') (by decide) s
      have hminus := h.head?_append_eq_some_iff (c := '-') (by decide) s
      simp only [List.cons_append, exponentLength, hplus, hminus]
      have hdrop : ∀ n ≤ s.length, digitCount ((s ++ rest).drop n) = digitCount (s.drop n) := by
        intro n hn
        rw [List.drop_append_of_le_length hn, digitCount_append h]
      split
      · next hsign =>
          have hlength : 1 ≤ s.length := by
            cases s with
            | nil => simp at hsign
            | cons d s => simp
          rw [hdrop 1 hlength]
      · rw [hdrop 0 (Nat.zero_le _)]

theorem exponentLength_le (s : List Char) : exponentLength s ≤ s.length := by
  cases s with
  | nil => exact Nat.le_refl _
  | cons c s =>
      have hdigits : ∀ n, 0 < digitCount (s.drop n) →
          1 + n + digitCount (s.drop n) ≤ s.length + 1 :=
        fun n hpos => by
          have hle := digitCount_le (s.drop n)
          rw [List.length_drop] at hle
          omega
      simp only [exponentLength, List.length_cons]
      generalize (if s.head? = some '+' || s.head? = some '-' then 1 else 0) = signed
      split
      · next hexponent =>
          simp only [Bool.and_eq_true, decide_eq_true_eq] at hexponent
          exact hdigits signed hexponent.2
      · exact Nat.zero_le _

/-- How long the digits and the point are that a text starts with. -/
theorem numberLength_append (h : Delimits rest) (s : List Char) :
    numberLength (s ++ rest) = numberLength s ∧ numberLength s ≤ s.length := by
  have hwhole := digitCount_le s
  have hpoint : ((s ++ rest).drop (digitCount s)).head? = some '.' ↔
      (s.drop (digitCount s)).head? = some '.' := by
    rw [List.drop_append_of_le_length hwhole]
    exact h.head?_append_eq_some_iff (by decide) _
  simp only [numberLength, digitCount_append h, hpoint]
  split
  · next hhead =>
      have hlength : digitCount s + 1 ≤ s.length := by
        rw [List.head?_drop] at hhead
        exact (List.getElem?_eq_some_iff.1 hhead).1
      have hfraction := digitCount_le (s.drop (digitCount s + 1))
      rw [List.length_drop] at hfraction
      rw [List.drop_append_of_le_length hlength, digitCount_append h,
        List.drop_append_of_le_length (by omega), exponentLength_append h]
      have hexponent := exponentLength_le
        (s.drop (digitCount s + 1 + digitCount (s.drop (digitCount s + 1))))
      rw [List.length_drop] at hexponent
      exact ⟨rfl, by omega⟩
  · rw [List.drop_append_of_le_length hwhole, exponentLength_append h]
    have hexponent := exponentLength_le (s.drop (digitCount s))
    rw [List.length_drop] at hexponent
    exact ⟨rfl, by omega⟩

theorem startsNumber_append (h : Delimits rest) (c : Char) (s : List Char) :
    startsNumber (c :: (s ++ rest)) = startsNumber (c :: s) := by
  by_cases hpoint : c = '.'
  · subst hpoint
    cases s with
    | cons d s => rfl
    | nil =>
        cases rest with
        | nil => rfl
        | cons d rest => rcases isDelimiter_cases (h d rfl) with rfl | rfl | rfl <;> rfl
  · rw [startsNumber.eq_2 _ _ fun _ _ heq _ => hpoint heq,
      startsNumber.eq_2 _ _ fun _ _ heq _ => hpoint heq]

/-! ## Quoted texts and signs -/

/-- A quoted text ends where it ended before the text was continued. -/
theorem takeQuoted_append (h : Delimits rest) {quote : Char} (hquote : isDelimiter quote = false)
    {s text after : List Char} (hs : takeQuoted quote s = some (text, after)) :
    takeQuoted quote (s ++ rest) = some (text, after ++ rest) := by
  fun_induction takeQuoted quote s generalizing text after with
  | case1 => cases hs
  | case2 tail ih =>
      obtain ⟨⟨inner, left⟩, hinner, heq⟩ := Option.map_eq_some_iff.1 hs
      simp only [Prod.mk.injEq] at heq
      simp [takeQuoted, ih hinner, heq]
  | case3 d tail hne =>
      obtain ⟨rfl, rfl⟩ := Prod.mk.inj (Option.some.inj hs)
      simp [takeQuoted, hne]
  | case4 =>
      obtain ⟨rfl, rfl⟩ := Prod.mk.inj (Option.some.inj hs)
      cases rest with
      | nil => simp [takeQuoted]
      | cons d rest =>
          have hne : d ≠ quote := by
            rintro rfl
            rw [h d rfl] at hquote
            cases hquote
          simp [takeQuoted, hne]
  | case5 c tail hne ih =>
      obtain ⟨⟨inner, left⟩, hinner, heq⟩ := Option.map_eq_some_iff.1 hs
      simp only [Prod.mk.injEq] at heq
      rw [List.cons_append, takeQuoted.eq_def]
      simp [hne, ih hinner, heq]

theorem signAt_append (h : Delimits rest) {s : List Char} {sign : String × Nat}
    (hs : signAt s = some sign) :
    signAt (s ++ rest) = some sign ∧ 0 < sign.2 ∧ sign.2 ≤ s.length := by
  have heq := fun tail => h.append_ne_cons (c := '=') (by decide) (s := tail)
  have hgt := fun tail => h.append_ne_cons (c := '>') (by decide) (s := tail)
  revert hs
  fun_cases signAt s with
  | case6 tail h1 =>
      rintro ⟨⟩
      exact ⟨signAt.eq_6 _ (heq _ h1), by simp⟩
  | case7 tail h1 h2 =>
      rintro ⟨⟩
      exact ⟨signAt.eq_7 _ (heq _ h1) (hgt _ h2), by simp⟩
  | case8 tail h1 =>
      rintro ⟨⟩
      exact ⟨signAt.eq_8 _ (heq _ h1), by simp⟩
  | case15 => exact fun hs => nomatch hs
  | _ =>
      rintro ⟨⟩
      exact ⟨rfl, by simp⟩

end Characters

/-! ## One piece after another -/

section Pieces

variable {c : Char} {s rest : List Char}

theorem tokens_of_space (hspace : Cell.isSpace c = true) : tokens (c :: s) = tokens s := by
  rw [tokens, if_pos hspace]

theorem tokens_of_word (hspace : ¬ Cell.isSpace c = true) (hword : isWordStart c = true) :
    tokens (c :: s) = (tokens (s.dropWhile isWordRest)).map
      (.word (String.ofList (c :: s.takeWhile isWordRest)) :: ·) := by
  rw [tokens, if_neg hspace, if_pos hword]

theorem tokens_of_number (hspace : ¬ Cell.isSpace c = true) (hword : ¬ isWordStart c = true)
    (hnumber : startsNumber (c :: s) = true) {cell : Cell}
    (hcell : Cell.numberOfChars? ((c :: s).take (numberLength (c :: s))) = some cell)
    (hend : (s.drop (numberLength (c :: s) - 1)).takeWhile isWordRest = []) :
    tokens (c :: s) =
      (tokens (s.drop (numberLength (c :: s) - 1))).map (.value cell :: ·) := by
  rw [tokens, if_neg hspace, if_neg hword, if_pos hnumber]
  simp only [hcell, hend]

theorem tokens_of_placeholder : tokens ('?' :: s) = (tokens s).map (.placeholder :: ·) := by
  have hnumber : ¬ startsNumber ('?' :: s) = true := by
    rw [startsNumber.eq_2 _ _ fun _ _ heq => absurd heq (by decide)]
    decide
  rw [tokens, if_neg (by decide), if_neg (by decide), if_neg hnumber, if_pos rfl]

theorem tokens_of_quoted (hspace : ¬ Cell.isSpace c = true) (hword : ¬ isWordStart c = true)
    (hnumber : ¬ startsNumber (c :: s) = true) (hplaceholder : ¬ c = '?')
    (hquote : (decide (c = apostrophe) || decide (c = '"')) = true) {text after : List Char}
    (htext : takeQuoted c s = some (text, after)) :
    tokens (c :: s) = (tokens after).map
      ((if c = '"' then .name (String.ofList text)
        else .value (.text (String.ofList text))) :: ·) := by
  rw [tokens, if_neg hspace, if_neg hword, if_neg hnumber, if_neg hplaceholder, if_pos hquote]
  split
  · next text' after' heq =>
      obtain ⟨rfl, rfl⟩ := Prod.mk.inj (Option.some.inj (heq.symm.trans htext))
      rfl
  · next heq =>
      rw [heq] at htext
      cases htext

theorem tokens_of_sign (hspace : ¬ Cell.isSpace c = true) (hword : ¬ isWordStart c = true)
    (hnumber : ¬ startsNumber (c :: s) = true) (hplaceholder : ¬ c = '?')
    (hquote : ¬ (decide (c = apostrophe) || decide (c = '"')) = true) {text : String} {length : Nat}
    (hsign : signAt (c :: s) = some (text, length)) :
    tokens (c :: s) = (tokens (s.drop (length - 1))).map (.sign text :: ·) := by
  rw [tokens, if_neg hspace, if_neg hword, if_neg hnumber, if_neg hplaceholder, if_neg hquote]
  simp only [hsign]

/-- One more piece before a continued text. -/
theorem map_cons_append {token : Token} {after : List Char} {ts : List Token}
    (hs : (tokens after).map (token :: ·) = .ok ts)
    (ih : ∀ {us : List Token}, tokens after = .ok us →
      tokens (after ++ rest) = (tokens rest).map (us ++ ·)) :
    (tokens (after ++ rest)).map (token :: ·) = (tokens rest).map (ts ++ ·) := by
  obtain ⟨us, hus, rfl⟩ := Checked.map_eq_ok_iff.1 hs
  rw [ih hus]
  cases tokens rest <;> rfl

/-- The pieces of a text that is continued are its own and then those of what follows. -/
theorem tokens_append (h : Delimits rest) {ts : List Token} (hs : tokens s = .ok ts) :
    tokens (s ++ rest) = (tokens rest).map (ts ++ ·) := by
  have hwordRest : ∀ c ∈ rest.head?, isWordRest c = false :=
    h.head_eq_false (by decide)
  fun_induction tokens s generalizing ts with
  | case1 =>
      obtain rfl := Except.ok.inj hs
      rw [List.nil_append]
      cases tokens rest <;> rfl
  | case2 c s hspace ih => exact (tokens_of_space hspace).trans (ih hs)
  | case3 c s hspace hword _ ih =>
      rw [List.cons_append, tokens_of_word hspace hword, takeWhile_append_of_head hwordRest,
        dropWhile_append_of_head hwordRest]
      exact map_cons_append hs ih
  | case4 c s hspace hword hnumber length after cell hend hcell =>
      rename_i ih
      obtain ⟨hlength, hle⟩ := numberLength_append h (c :: s)
      rw [List.cons_append] at hlength
      have hafter : (s ++ rest).drop (numberLength (c :: (s ++ rest)) - 1) = after ++ rest := by
        rw [hlength, List.drop_append_of_le_length]
        exact Nat.sub_le_of_le_add hle
      rw [List.cons_append, tokens_of_number hspace hword, hafter]
      · exact map_cons_append hs ih
      · rwa [startsNumber_append h]
      · rw [hlength, ← List.cons_append, List.take_append_of_le_length hle]
        exact hcell
      · rwa [hafter, takeWhile_append_of_head hwordRest]
  | case6 s _ _ _ ih => exact tokens_of_placeholder.trans (map_cons_append hs ih)
  | case7 c s hspace hword hnumber hplaceholder hquote text after htext _ token =>
      rename_i ih
      have hne : isDelimiter c = false := by
        simp only [Bool.or_eq_true, decide_eq_true_eq] at hquote
        rcases hquote with rfl | rfl <;> decide
      rw [List.cons_append, tokens_of_quoted hspace hword (by rwa [startsNumber_append h])
        hplaceholder hquote (takeQuoted_append h hne htext)]
      exact map_cons_append hs ih
  | case9 c s hspace hword hnumber hplaceholder hquote text length hsign ih =>
      obtain ⟨hsign', hpos, hle⟩ := signAt_append h hsign
      rw [List.cons_append] at hsign' ⊢
      rw [tokens_of_sign hspace hword (by rwa [startsNumber_append h]) hplaceholder hquote hsign',
        List.drop_append_of_le_length (Nat.sub_le_of_le_add hle)]
      exact map_cons_append hs ih
  | case5 | case8 | case10 => cases hs

end Pieces

end TableQuery.Sql
