import Mathlib
import TableQuery.Proofs.AtomText
import TableQuery.Proofs.TokenText
import TableQuery.Sql.Reader

/-!
# The tokens of conditions

What the reader of conditions sees of a condition: the pieces of its text, with the values in the
place of their placeholders.  The text of an atomic condition is a term, an operator and bound
values, and so are its tokens.

## Main results

* `Sql.Lexed` — the tokens of a text with values.
* `Sql.Lexed.append` — the tokens of two texts, one after the other.
* `Atom.lexed` — the tokens of an atomic condition.
-/

namespace TableQuery

namespace Sql

/-! ## Values in the place of placeholders -/

theorem bind_cons_of_ne {token : Token} (h : token ≠ .placeholder) (ts : List Token)
    (vs : List Operand) : bind (token :: ts) vs = token :: bind ts vs := by
  cases token with
  | placeholder => exact absurd rfl h
  | _ => cases vs <;> rfl

theorem bind_of_not_mem {ts : List Token} (h : .placeholder ∉ ts) (vs : List Operand) :
    bind ts vs = ts := by
  induction ts with
  | nil => rw [bind]
  | cons token ts ih =>
      rw [List.mem_cons, not_or] at h
      rw [bind_cons_of_ne (Ne.symm h.1), ih h.2]

/-- Texts with as many placeholders as values take their values apart from each other. -/
theorem bind_append {ts us : List Token} {vs ws : List Operand}
    (h : ts.count .placeholder = vs.length) :
    bind (ts ++ us) (vs ++ ws) = bind ts vs ++ bind us ws := by
  induction ts generalizing vs with
  | nil =>
      obtain rfl := List.length_eq_zero_iff.1 h.symm
      rw [bind, List.nil_append, List.nil_append, List.nil_append]
  | cons token ts ih =>
      by_cases htoken : token = .placeholder
      · subst htoken
        rw [List.count_cons_self] at h
        cases vs with
        | nil => cases h
        | cons v vs =>
            rw [List.cons_append, List.cons_append, bind, bind, List.cons_append,
              ih (Nat.succ.inj h)]
      · rw [List.count_cons_of_ne htoken] at h
        rw [List.cons_append, bind_cons_of_ne htoken, bind_cons_of_ne htoken, List.cons_append,
          ih h]

/-- `Lexed s vs ts` holds if `ts` are the pieces of the text `s` with the values `vs` in the place
of its placeholders, of which there are as many. -/
def Lexed (s : String) (vs : List Operand) (ts : List Token) : Prop :=
  ∃ us, tokens s.toList = .ok us ∧ us.count .placeholder = vs.length ∧ bind us vs = ts

/-- A text is read by its tokens. -/
theorem Lexed.readFormula_eq {F : Type} {s : String} {vs : List Operand} {ts : List Token}
    (h : Lexed s vs ts) (d : Dialect F) : readFormula d s vs = formulaOf d ts := by
  obtain ⟨us, hus, -, rfl⟩ := h
  rw [readFormula, hus]
  rfl

/-! ## Texts one after the other -/

section Texts

variable {s t : String} {vs ws : List Operand} {ts us : List Token}

theorem lexed_of_tokens (h : tokens s.toList = .ok ts) (hts : .placeholder ∉ ts) :
    Lexed s [] ts :=
  ⟨ts, h, List.count_eq_zero.2 hts, bind_of_not_mem hts _⟩

theorem lexed_nil : Lexed "" [] [] := lexed_of_tokens (by rw [String.toList_empty, tokens]) nofun

theorem lexed_placeholder (v : Operand) : Lexed "?" [v] [.value (.ofOperand v)] := by
  refine ⟨[.placeholder], ?_, rfl, by rw [bind, bind]⟩
  show tokens ['?'] = _
  rw [tokens_of_placeholder, tokens]
  rfl

/-- Two texts of which the second one starts with a delimiter. -/
theorem Lexed.append (hs : Lexed s vs ts) (ht : Lexed t ws us) (hdelimits : Delimits t.toList) :
    Lexed (s ++ t) (vs ++ ws) (ts ++ us) := by
  obtain ⟨ss, hss, hvs, rfl⟩ := hs
  obtain ⟨tt, htt, hws, rfl⟩ := ht
  refine ⟨ss ++ tt, ?_, ?_, bind_append hvs⟩
  · rw [String.toList_append, tokens_append hdelimits hss, htt]
    rfl
  · rw [List.count_append, List.length_append, hvs, hws]

/-- A text after which the pieces of another one are its own. -/
theorem Lexed.after {token : Token} (hne : token ≠ .placeholder) (ht : Lexed t ws us)
    (h : tokens (s.toList ++ t.toList) = (tokens t.toList).map (token :: ·)) :
    Lexed (s ++ t) ws (token :: us) := by
  obtain ⟨tt, htt, hws, rfl⟩ := ht
  refine ⟨token :: tt, ?_, ?_, ?_⟩
  · rw [String.toList_append, h, htt]
    rfl
  · rw [List.count_cons_of_ne hne, hws]
  · exact bind_cons_of_ne hne tt ws

theorem Lexed.space (ht : Lexed t ws us) : Lexed (" " ++ t) ws us := by
  obtain ⟨tt, htt, hws, rfl⟩ := ht
  refine ⟨tt, ?_, hws, rfl⟩
  rw [String.toList_append]
  exact (tokens_of_space (by decide)).trans htt

theorem startsNumber_eq_false {c : Char} (hc : c ≠ '.' ∧ c.isDigit = false) (chars : List Char) :
    ¬ startsNumber (c :: chars) = true := by
  rw [startsNumber.eq_2 _ _ fun _ _ heq _ => hc.1 heq, hc.2]
  exact Bool.false_ne_true

theorem Lexed.open (ht : Lexed t ws us) : Lexed ("(" ++ t) ws (.sign "(" :: us) :=
  ht.after (by simp) (tokens_of_sign (by decide) (by decide)
    (startsNumber_eq_false (by decide) _) (by decide) (by decide) (signAt.eq_9 _))

theorem Lexed.comma (ht : Lexed t ws us) : Lexed (", " ++ t) ws (.sign "," :: us) := by
  have h : Lexed ("," ++ (" " ++ t)) ws (.sign "," :: us) :=
    ht.space.after (by simp) (tokens_of_sign (by decide) (by decide)
      (startsNumber_eq_false (by decide) _) (by decide) (by decide) (signAt.eq_11 _))
  rwa [← String.append_assoc] at h

theorem lexed_close : Lexed ")" [] [.sign ")"] := lexed_of_tokens (by cbv) (by simp)

/-- A text in parentheses. -/
theorem Lexed.parentheses (hs : Lexed s vs ts) :
    Lexed ("(" ++ s ++ ")") vs (.sign "(" :: (ts ++ [.sign ")"])) := by
  have h := (hs.append lexed_close (delimits_of_head (by decide))).open
  rwa [List.append_nil, ← String.append_assoc] at h

/-- What starts a word is neither a space nor a digit. -/
theorem not_isSpace_of_isWordStart {c : Char} (h : isWordStart c = true) :
    ¬ Cell.isSpace c = true ∧ ¬ c.isDigit = true := by
  have hstart : ∀ n < 58, isWordStart (Char.ofNat n) = false := by decide
  have hlarge : 58 ≤ c.toNat := by
    by_contra hsmall
    have hc := hstart c.toNat (by omega)
    rw [Char.ofNat_toNat, h] at hc
    cases hc
  have hspace : Cell.isSpace c = true → c.toNat ≤ 32 := by
    intro hc
    rw [Cell.isSpace, Bool.or_eq_true, Bool.and_eq_true, decide_eq_true_eq, decide_eq_true_eq,
      decide_eq_true_eq] at hc
    rcases hc with rfl | ⟨-, hc⟩
    · decide
    · exact Nat.le_trans hc (by decide)
  have hdigit : c.isDigit = true → c.toNat ≤ 57 := by
    intro hc
    rw [Char.isDigit, Bool.and_eq_true, decide_eq_true_eq, decide_eq_true_eq] at hc
    exact hc.2
  constructor
  · intro hc
    have hle := hspace hc
    omega
  · intro hc
    have hle := hdigit hc
    omega

/-- A word before something that does not continue it. -/
theorem tokens_word_append {w chars : List Char} (hw : isWord w = true)
    (h : ∀ c ∈ chars.head?, isWordRest c = false) :
    tokens (w ++ chars) = (tokens chars).map (.word (String.ofList w) :: ·) := by
  cases w with
  | nil => cases hw
  | cons c w =>
      obtain ⟨hstart, hrest⟩ := Bool.and_eq_true_iff.1 hw
      have hall : ∀ d ∈ w, isWordRest d = true := List.all_eq_true.1 hrest
      rw [List.cons_append, tokens_of_word (not_isSpace_of_isWordStart hstart).1 hstart,
        takeWhile_append_of_head h, dropWhile_append_of_head h, List.takeWhile_eq_self_iff.2 hall,
        List.dropWhile_eq_nil_iff.2 hall, List.nil_append]

/-- A function with its argument. -/
theorem Lexed.call (hs : Lexed s vs ts) (w : String) (hw : isWord w.toList = true) :
    Lexed (w ++ "(" ++ s ++ ")") vs (.word w :: .sign "(" :: (ts ++ [.sign ")"])) := by
  rw [show w ++ "(" ++ s ++ ")" = w ++ ("(" ++ s ++ ")") by simp only [String.append_assoc]]
  refine hs.parentheses.after (by simp) ?_
  rw [tokens_word_append hw, String.ofList_toList]
  intro c hc
  rw [String.toList_append, String.toList_append] at hc
  obtain rfl := Option.some.inj hc
  decide

/-- A number of one digit. -/
theorem lexed_digit {c : Char} {cell : Cell} (hspace : ¬ Cell.isSpace c = true)
    (hword : ¬ isWordStart c = true) (hdigit : c.isDigit = true ∧ c ≠ '.')
    (hcell : Cell.numberOfChars? [c] = some cell) :
    Lexed (String.ofList [c]) [] [.value cell] := by
  have hnumber : startsNumber [c] = true := by
    rw [startsNumber.eq_2 _ _ fun _ _ heq _ => hdigit.2 heq]
    exact hdigit.1
  have hlength : numberLength [c] = 1 := by
    simp [numberLength, digitCount, hdigit.1, exponentLength]
  refine lexed_of_tokens ?_ (by simp)
  rw [String.toList_ofList, tokens_of_number hspace hword hnumber (by rw [hlength]; exact hcell)
    (by simp), List.drop_nil, tokens]
  rfl

end Texts

/-! ## Names -/

/-- The tokens of a name: one word, or two with a point between them. -/
def nameTokens (name : String) : List Token :=
  match name.toList.splitOn '.' with
  | [table, column] => [.word (String.ofList table), .sign ".", .word (String.ofList column)]
  | _ => [.word name]

end Sql

open Sql

/-- An identifier is a word, or two words with a point between them. -/
theorem Identifier.tokens_cases (identifier : Identifier) :
    (isWord identifier.name.toList = true ∧ nameTokens identifier.name = [.word identifier.name]) ∨
      ∃ table column : String, isWord table.toList = true ∧ isWord column.toList = true ∧
        identifier.name = table ++ ("." ++ column) ∧
        nameTokens identifier.name = [.word table, .sign ".", .word column] := by
  have hvalid := identifier.valid
  have hjoin : ['.'].intercalate (identifier.name.toList.splitOn '.') = identifier.name.toList :=
    List.intercalate_splitOn '.'
  rw [isIdentifier] at hvalid
  rw [nameTokens]
  split at hvalid
  · next word hsplit =>
      rw [hsplit, List.intercalate_singleton] at hjoin
      refine .inl ⟨hjoin ▸ hvalid, ?_⟩
      rw [hsplit]
  · next table column hsplit =>
      rw [hsplit, List.intercalate_cons_cons, List.intercalate_singleton] at hjoin
      obtain ⟨htable, hcolumn⟩ := Bool.and_eq_true_iff.1 hvalid
      refine .inr ⟨String.ofList table, String.ofList column, ?_, ?_, ?_, ?_⟩
      · rwa [String.toList_ofList]
      · rwa [String.toList_ofList]
      · refine String.toList_injective ?_
        rw [← hjoin]
        simp
      · rw [hsplit]
  · exact absurd hvalid Bool.false_ne_true

namespace Sql

theorem lexed_word {w : String} (hw : isWord w.toList = true) : Lexed w [] [.word w] := by
  have h : Lexed (w ++ "") [] [.word w] := by
    refine lexed_nil.after (by simp) ?_
    rw [tokens_word_append hw fun _ hc => absurd hc (by simp), String.ofList_toList]
  rwa [String.append_empty] at h

theorem lexed_name (identifier : Identifier) :
    Lexed identifier.name [] (nameTokens identifier.name) := by
  rcases identifier.tokens_cases with ⟨hword, htokens⟩ |
    ⟨table, column, htable, hcolumn, hname, htokens⟩
  · rw [htokens]
    exact lexed_word hword
  · have hpoint : Lexed ("." ++ column) [] [.sign ".", .word column] := by
      refine (lexed_word hcolumn).after (by simp) ?_
      show tokens ('.' :: column.toList) = _
      cases hchars : column.toList with
      | nil =>
          rw [hchars] at hcolumn
          cases hcolumn
      | cons c rest =>
          rw [hchars] at hcolumn
          have hdigit : ¬ startsNumber ('.' :: c :: rest) = true :=
            (not_isSpace_of_isWordStart (Bool.and_eq_true_iff.1 hcolumn).1).2
          exact tokens_of_sign (by decide) (by decide) hdigit (by decide) (by decide)
            (signAt.eq_12 _)
    rw [htokens, hname]
    refine hpoint.after (by simp) ?_
    rw [tokens_word_append htable, String.ofList_toList]
    intro c hc
    rw [String.toList_append] at hc
    obtain rfl := Option.some.inj hc
    decide

/-- The tokens of an expression in a form. -/
def formTokens (form : Form) (ts : List Token) : List Token :=
  match form with
  | .plain => ts
  | .lower => .word "lower" :: .sign "(" :: (ts ++ [.sign ")"])
  | .upper => .word "upper" :: .sign "(" :: (ts ++ [.sign ")"])
  | .julianDay => .word "julianday" :: .sign "(" :: (ts ++ [.sign ")"])

theorem Lexed.wrap {s : String} {vs : List Operand} {ts : List Token} (hs : Lexed s vs ts)
    (form : Form) : Lexed (form.wrap s) vs (formTokens form ts) := by
  cases form with
  | plain => exact hs
  | lower => exact hs.call "lower" (by decide)
  | upper => exact hs.call "upper" (by decide)
  | julianDay => exact hs.call "julianday" (by decide)

end Sql

/-! ## Terms and bound values -/

/-- The tokens of a term. -/
def Term.tokens (term : Term) : List Token := formTokens term.form (nameTokens term.column.name)

/-- The tokens of a bound value. -/
def Bound.tokens (bound : Bound) : List Token :=
  formTokens bound.form [.value (.ofOperand bound.value)]

theorem Term.lexed (term : Term) : Lexed term.sql [] term.tokens :=
  (lexed_name term.column).wrap term.form

theorem Bound.lexed (bound : Bound) : Lexed bound.sql [bound.value] bound.tokens :=
  (lexed_placeholder bound.value).wrap bound.form

/-- The tokens of a list, with a comma between two items. -/
def listTokens : List Bound → List Token
  | [] => []
  | [bound] => bound.tokens
  | bound :: next :: bounds => bound.tokens ++ .sign "," :: listTokens (next :: bounds)

theorem lexed_list (bounds : List Bound) :
    Lexed (", ".intercalate (bounds.map Bound.sql)) (bounds.map Bound.value)
      (listTokens bounds) := by
  induction bounds with
  | nil => exact lexed_nil
  | cons bound bounds ih =>
      cases bounds with
      | nil =>
          rw [List.map_cons, List.map_nil, String.intercalate_singleton]
          exact bound.lexed
      | cons next bounds =>
          rw [List.map_cons, List.map_cons, String.intercalate_cons_cons, String.append_assoc]
          exact bound.lexed.append ih.comma (delimits_append (by decide) _)

/-! ## Atoms -/

/-- The keyword of a negated operator. -/
def negationTokens (negated : Bool) : List Token := if negated then [.word "NOT"] else []

namespace Atom

/-- The tokens of an atomic condition. -/
def tokens : Atom → List Token
  | compare term comparator bound => term.tokens ++ .sign comparator.sql :: bound.tokens
  | like term negated bound =>
    term.tokens ++ (negationTokens negated ++ .word "LIKE" :: bound.tokens)
  | among term negated bounds =>
    term.tokens ++ (negationTokens negated ++ .word "IN" :: .sign "(" ::
      (listTokens bounds ++ [.sign ")"]))
  | null term negated => term.tokens ++ .word "IS" :: (negationTokens negated ++ [.word "NULL"])
  | never => [.value (.integer 1), .sign "=", .value (.integer 0)]

/-- A term before an operator and what is compared with it. -/
theorem lexed_operation (term : Term) {s o t : String} {vs : List Operand} {ts us : List Token}
    (ho : Sql.tokens o.toList = .ok ts) (hts : .placeholder ∉ ts)
    (hdelimits : o.toList.head?.any isDelimiter = true) (ht : Lexed t vs us)
    (hs : s = term.sql ++ (o ++ " " ++ t)) : Lexed s vs (term.tokens ++ (ts ++ us)) := by
  have hoperation := (lexed_of_tokens ho hts).append ht.space (delimits_append (by decide) _)
  rw [hs, String.append_assoc]
  exact term.lexed.append hoperation (delimits_append hdelimits _)

theorem lexed (a : Atom) : Lexed a.sql a.values a.tokens := by
  cases a with
  | compare term comparator bound =>
      have htokens : Sql.tokens (" " ++ comparator.sql).toList = .ok [.sign comparator.sql] := by
        cases comparator <;> cbv
      refine lexed_operation term htokens (by simp) (by cases comparator <;> decide) bound.lexed ?_
      simp only [sql, String.append_assoc]
  | like term negated bound =>
      have hsql : (like term negated bound).sql =
          term.sql ++ ((if negated then " NOT LIKE" else " LIKE") ++ " " ++ bound.sql) := by
        cases negated <;> exact String.append_assoc
      have htokens : Sql.tokens (if negated then " NOT LIKE" else " LIKE").toList =
          .ok (negationTokens negated ++ [.word "LIKE"]) := by
        cases negated <;> cbv
      have h := lexed_operation term htokens (by cases negated <;> decide)
        (by cases negated <;> decide) bound.lexed hsql
      rwa [List.append_assoc] at h
  | among term negated bounds =>
      have hsql : (among term negated bounds).sql = term.sql ++
          ((if negated then " NOT IN" else " IN") ++ " " ++
            ("(" ++ ", ".intercalate (bounds.map Bound.sql) ++ ")")) := by
        cases negated with
        | false =>
            show term.sql ++ (" IN" ++ " " ++ "(") ++ _ ++ ")" = term.sql ++ (" IN" ++ " " ++ _)
            simp only [String.append_assoc]
        | true =>
            show term.sql ++ (" NOT IN" ++ " " ++ "(") ++ _ ++ ")" =
              term.sql ++ (" NOT IN" ++ " " ++ _)
            simp only [String.append_assoc]
      have htokens : Sql.tokens (if negated then " NOT IN" else " IN").toList =
          .ok (negationTokens negated ++ [.word "IN"]) := by
        cases negated <;> cbv
      have h := lexed_operation term htokens (by cases negated <;> decide)
        (by cases negated <;> decide) (lexed_list bounds).parentheses hsql
      rwa [List.append_assoc] at h
  | null term negated =>
      have htokens : Sql.tokens (if negated then " IS NOT NULL" else " IS NULL").toList =
          .ok (.word "IS" :: (negationTokens negated ++ [.word "NULL"])) := by
        cases negated <;> cbv
      have hdelimits : Delimits (if negated then " IS NOT NULL" else " IS NULL").toList := by
        cases negated <;> exact delimits_of_head (by decide)
      exact term.lexed.append (lexed_of_tokens htokens (by cases negated <;> decide)) hdelimits
  | never =>
      have hone : Lexed "1" [] [.value (.integer 1)] :=
        lexed_digit (by decide) (by decide) (by decide) rfl
      have hzero : Lexed "0" [] [.value (.integer 0)] :=
        lexed_digit (by decide) (by decide) (by decide) rfl
      have hequal : Lexed " =" [] [.sign "="] := lexed_of_tokens (by cbv) (by simp)
      exact hone.append (hequal.append hzero.space (delimits_of_head (by decide)))
        (delimits_of_head (by decide))

end Atom

end TableQuery
