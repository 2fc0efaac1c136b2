import TableQuery.Proofs.ConditionTokens
import TableQuery.Proofs.ReadingComparisons

/-!
# Atomic conditions are units

The tokens of an atomic condition are those of a term, and of an operator with what the term is
compared with.  Of these only the name of the column is given from outside.  If no word of the name
is a keyword, the term is read as a value and the condition is a unit.  Otherwise the database
refuses the condition wherever it stands: it stalls.  Which token it stalls at depends on the form
of the term and on the word that is a keyword, `NOT` being the one that a formula may start with.

Nothing of this depends on the comparisons that only trusted texts have.  It is so in all languages
that have those of the standard one and refuse the same names (`Sql.Dialect.Extends`), whatever else
they read: calculations, other functions, further operators.

## Main results

* `Sql.Subject` — tokens that a comparison may begin with, read as a value.
* `Sql.listOf?_listTokens` — the items of a list.
* `Sql.Operation` — the tokens of an operator.
* `Sql.Dialect.Extends`, `Sql.extends_standard` — languages with more comparisons.
* `Atom.standsAlone` — an atomic condition is a unit, or it stalls.
-/

namespace TableQuery

namespace Sql

/-! ## Values -/

/-- Whether a value goes on with a token after its first word. -/
def continuesValue (token : Token) : Bool := token = .sign "(" || token = .sign "."

/-- `ReadsValue ts s` holds if the tokens are read as the value `s`, whatever follows that does not
continue them. -/
def ReadsValue (ts : List Token) (s : Scalar) : Prop :=
  ∀ rest : List Token, rest.head?.any continuesValue = false →
    readScalar (ts ++ rest) = some (s, rest)

theorem readsValue_value (cell : Cell) : ReadsValue [.value cell] (.value cell) :=
  fun rest _ => readScalar.eq_5 cell rest

theorem readsValue_word {w : String} {s : Scalar} (h : wordScalar? w = some s) :
    ReadsValue [.word w] s := by
  intro rest hrest
  show readScalar (.word w :: rest) = _
  rw [readScalar.eq_3, h]
  · rfl
  · rintro rest' rfl
    cases hrest
  · rintro column rest' rfl
    cases hrest

theorem readsValue_qualified {t c : String} {s : Scalar} (h : qualifiedScalar? t c = some s) :
    ReadsValue [.word t, .sign ".", .word c] s := by
  intro rest _
  show readScalar (.word t :: .sign "." :: .word c :: rest) = _
  rw [readScalar.eq_2, h]
  rfl

/-- A value in a form is read as its value in that form. -/
theorem ReadsValue.form {ts : List Token} {s : Scalar} (h : ReadsValue ts s) (form : Form) :
    ReadsValue (formTokens form ts) (form.apply s) := by
  have hclose : ∀ rest,
      readScalar (ts ++ Token.sign ")" :: rest) = some (s, Token.sign ")" :: rest) :=
    fun _ => h _ rfl
  have hcall : ∀ w function, function? w = some function →
      ReadsValue (Token.word w :: Token.sign "(" :: (ts ++ [Token.sign ")"])) (function s) := by
    intro w function hfunction rest _
    show readScalar (Token.word w :: Token.sign "(" :: (ts ++ [Token.sign ")"] ++ rest)) = _
    rw [List.append_assoc, List.singleton_append, readScalar.eq_1, hfunction, hclose]
    rfl
  cases form with
  | plain => exact h
  | lower => exact hcall "lower" .lower rfl
  | upper => exact hcall "upper" .upper rfl
  | julianDay => exact hcall "julianday" .julianDay rfl

theorem ReadsValue.scalarOf?_eq {ts : List Token} {s : Scalar} (h : ReadsValue ts s) :
    scalarOf? ts = some s := by
  have hread := h [] rfl
  rw [List.append_nil] at hread
  rw [scalarOf?, hread]

theorem balanced_of_mayBegin {token : Token} (h : mayBegin token = true) : Balanced [token] := by
  rw [mayBegin, Bool.and_eq_true, Bool.and_eq_true, Bool.not_eq_true', decide_eq_true_eq] at h
  exact balanced_token h.1.1 h.2

/-- `Subject ts s` holds if a comparison may begin with the tokens, which are read as `s`. -/
structure Subject (ts : List Token) (s : Scalar) : Prop where
  begins : ts.head?.any mayBegin = true
  balanced : Balanced ts
  reads : ReadsValue ts s

/-- A value in a form is also one that a comparison may begin with. -/
theorem Subject.form {ts : List Token} {s : Scalar} (h : Subject ts s) (form : Form) :
    Subject (formTokens form ts) (form.apply s) := by
  have hcall : ∀ w, mayBegin (.word w) = true →
      Balanced (Token.word w :: Token.sign "(" :: (ts ++ [Token.sign ")"])) :=
    fun w hw => (balanced_of_mayBegin hw).append h.balanced.parentheses
  refine ⟨?_, ?_, h.reads.form form⟩
  · cases form with
    | plain => exact h.begins
    | _ => rfl
  · cases form with
    | plain => exact h.balanced
    | lower => exact hcall "lower" rfl
    | upper => exact hcall "upper" rfl
    | julianDay => exact hcall "julianday" rfl

theorem subject_value (cell : Cell) : Subject [.value cell] (.value cell) :=
  ⟨rfl, balanced_of_mayBegin rfl, readsValue_value cell⟩

end Sql

open Sql

theorem Bound.subject (bound : Bound) : Subject bound.tokens bound.scalar :=
  (subject_value (.ofOperand bound.value)).form bound.form

namespace Sql

/-! ## Lists -/

/-- A bound value is one part of a list. -/
theorem splitCommas_bound (bound : Bound) :
    splitCommas 0 bound.tokens = [bound.tokens] ∧
      ∀ rest, splitCommas 0 (bound.tokens ++ Token.sign "," :: rest) =
        bound.tokens :: splitCommas 0 rest := by
  unfold Bound.tokens
  cases bound.form <;> simp [formTokens, splitCommas]

theorem splitCommas_listTokens {bounds : List Bound} (h : bounds ≠ []) :
    splitCommas 0 (listTokens bounds) = bounds.map Bound.tokens := by
  induction bounds with
  | nil => exact absurd rfl h
  | cons bound bounds ih =>
      cases bounds with
      | nil => exact (splitCommas_bound bound).1
      | cons next bounds =>
          rw [listTokens, (splitCommas_bound bound).2, ih (List.cons_ne_nil _ _)]
          rfl

theorem mapM_scalarOf? (bounds : List Bound) :
    (bounds.map Bound.tokens).mapM scalarOf? = some (bounds.map Bound.scalar) := by
  induction bounds with
  | nil => rfl
  | cons bound bounds ih =>
      rw [List.map_cons, List.mapM_cons, bound.subject.reads.scalarOf?_eq, ih]
      rfl

theorem listOf?_listTokens (bounds : List Bound) :
    listOf? (Token.sign "(" :: (listTokens bounds ++ [Token.sign ")"])) =
      some (bounds.map Bound.scalar) := by
  cases bounds with
  | nil => rfl
  | cons bound bounds =>
      have hne : listTokens (bound :: bounds) ≠ [] := by
        intro hnil
        have hsplit := splitCommas_listTokens (List.cons_ne_nil bound bounds)
        rw [hnil, splitCommas, List.map_cons, List.cons.injEq] at hsplit
        have hread := bound.subject.reads.scalarOf?_eq
        rw [← hsplit.1] at hread
        cases hread
      rw [listOf?.eq_2, List.getLast?_concat, if_pos rfl, List.dropLast_concat,
        splitCommas_listTokens (List.cons_ne_nil bound bounds), mapM_scalarOf?]
      intro heq
      exact hne (List.append_left_eq_self.1 heq)

/-! ## Names -/

/-- No function has the name of a keyword. -/
theorem function?_of_isReserved {w : String} (h : isReserved w = true) : function? w = none := by
  have hlength : ∀ s ∈ reserved, s.toList.length ≠ 5 ∧ s.toList.length ≠ 9 := by decide
  have hw := hlength _ (List.contains_iff_mem.1 h)
  rw [String.toList_ofList, List.length_map] at hw
  have hlower : ∀ s, String.ofList (w.toList.map Char.toLower) = s →
      s.toList.length = w.toList.length := by
    rintro _ rfl
    rw [String.toList_ofList, List.length_map]
  rw [function?]
  split
  · next heq => exact absurd (hlower _ heq).symm hw.1
  · next heq => exact absurd (hlower _ heq).symm hw.1
  · next heq => exact absurd (hlower _ heq).symm hw.2
  · rfl

/-- No value starts with a keyword. -/
theorem readScalar_of_isReserved {w : String} (h : isReserved w = true) (us : List Token) :
    readScalar (.word w :: us) = none := by
  have hqualified : ∀ column, qualifiedScalar? w column = none := fun column => by
    rw [qualifiedScalar?, h, Bool.true_or, if_pos rfl]
  have hword : wordScalar? w = none := if_pos h
  by_cases hopen : ∃ rest, us = .sign "(" :: rest
  · obtain ⟨rest, rfl⟩ := hopen
    rw [readScalar.eq_1, function?_of_isReserved h]
    rfl
  by_cases hpoint : ∃ column rest, us = .sign "." :: .word column :: rest
  · obtain ⟨column, rest, rfl⟩ := hpoint
    rw [readScalar.eq_2, hqualified]
    rfl
  · rw [readScalar.eq_3, hword]
    · rfl
    · exact fun rest heq => hopen ⟨rest, heq⟩
    · exact fun column rest heq => hpoint ⟨column, rest, heq⟩

/-- What is not reserved is no keyword of the joins. -/
theorem mayBegin_word {w : String} (h : isReserved w = false) : mayBegin (.word w) = true := by
  have hkeyword : ∀ keyword ∈ reserved, (Token.word w).isKeyword keyword = false := by
    intro keyword hmem
    refine decide_eq_false fun heq => ?_
    rw [isReserved, Option.some.inj heq, List.contains_iff_mem.2 hmem] at h
    cases h
  simp [mayBegin, endsComparison, hkeyword "AND" (by decide), hkeyword "OR" (by decide),
    hkeyword "BETWEEN" (by decide), hkeyword "NOT" (by decide)]

/-- Where a parenthesis is open, other tokens leave it so. -/
theorem depthAfter?_succ {ts : List Token} (h : ∀ t ∈ ts, t ≠ .sign "(" ∧ t ≠ .sign ")")
    (depth : Nat) : depthAfter? (depth + 1) ts = some (depth + 1) := by
  induction ts with
  | nil => rfl
  | cons token ts ih =>
      obtain ⟨⟨hopen, hclose⟩, hts⟩ := List.forall_mem_cons.1 h
      rw [depthAfter?, if_neg (by simp), if_neg hopen, if_neg hclose]
      exact ih hts

/-- Whether the tokens of a name cannot be read: a keyword is one of its words. -/
inductive Unreadable : List Token → Prop where
  | word {w : String} (h : isReserved w = true) : Unreadable [.word w]
  | table {table column : String} (h : isReserved table = true) :
      Unreadable [.word table, .sign ".", .word column]
  | column {table column : String} (htable : isReserved table = false)
      (h : isReserved column = true) : Unreadable [.word table, .sign ".", .word column]

end Sql

/-- A name is read as a value, unless a keyword is one of its words. -/
theorem Identifier.subject_or_unreadable (identifier : Identifier) :
    (∃ s, Subject (nameTokens identifier.name) s) ∨ Unreadable (nameTokens identifier.name) := by
  rcases identifier.tokens_cases with ⟨-, htokens⟩ | ⟨table, column, -, -, -, htokens⟩
  · rw [htokens]
    cases hreserved : isReserved identifier.name with
    | true => exact .inr (.word hreserved)
    | false =>
        have hbegins := mayBegin_word hreserved
        refine .inl ?_
        have hword : ∃ s, wordScalar? identifier.name = some s := by
          rw [wordScalar?, hreserved]
          simp only [Bool.false_eq_true, if_false]
          split <;> exact ⟨_, rfl⟩
        obtain ⟨s, hs⟩ := hword
        exact ⟨s, hbegins, balanced_of_mayBegin hbegins, readsValue_word hs⟩
  · rw [htokens]
    cases htable : isReserved table with
    | true => exact .inr (.table htable)
    | false =>
        cases hcolumn : isReserved column with
        | true => exact .inr (.column htable hcolumn)
        | false =>
            have hbegins := mayBegin_word htable
            have hpoint : Balanced [.sign "."] := balanced_token rfl (by decide)
            have hscalar : qualifiedScalar? table column =
                some (.column (table ++ "." ++ column)) := by
              rw [qualifiedScalar?, htable, hcolumn]
              rfl
            have hrest := hpoint.append (balanced_of_mayBegin (mayBegin_word hcolumn))
            exact .inl ⟨_, hbegins, (balanced_of_mayBegin hbegins).append hrest,
              readsValue_qualified hscalar⟩

namespace Sql

theorem Unreadable.readScalar_eq {ts : List Token} (h : Unreadable ts) (us : List Token) :
    readScalar (ts ++ us) = none := by
  cases h with
  | word h => exact readScalar_of_isReserved h _
  | table h => exact readScalar_of_isReserved h _
  | @column table column htable h =>
      show readScalar (.word table :: .sign "." :: .word column :: us) = none
      rw [readScalar.eq_2, qualifiedScalar?, h, Bool.or_true, if_pos rfl]
      rfl

theorem Unreadable.readScalar_form {ts : List Token} (h : Unreadable ts) (form : Form)
    (us : List Token) : readScalar (formTokens form ts ++ us) = none := by
  have hcall : ∀ w function, function? w = some function →
      readScalar (Token.word w :: Token.sign "(" :: (ts ++ [Token.sign ")"]) ++ us) = none := by
    intro w function hfunction
    show readScalar (Token.word w :: Token.sign "(" :: (ts ++ [Token.sign ")"] ++ us)) = none
    rw [List.append_assoc, readScalar.eq_1, h.readScalar_eq, hfunction]
    rfl
  cases form with
  | plain => exact h.readScalar_eq us
  | lower => exact hcall "lower" _ rfl
  | upper => exact hcall "upper" _ rfl
  | julianDay => exact hcall "julianday" _ rfl

theorem Unreadable.depthAfter?_eq {ts : List Token} (h : Unreadable ts) :
    depthAfter? 1 ts = some 1 := by
  cases h with
  | _ => exact depthAfter?_succ (by simp) 0

/-! ## Languages -/

/-- Whether a sign stands behind a name: a point, or a comparator. -/
def followsName (text : String) : Bool := text = "." || (comparator? text).isSome

/-- `d.Extends` holds if a language has all comparisons of the standard one, and none of its own
that begins with a name that cannot be read, with a sign that stands behind a name, or with
nothing. -/
structure Dialect.Extends {F : Type} (d : Dialect F) : Prop where
  reads : ∀ {ts f}, readPredicate ts = some f → ∃ g, d.comparison ts = some g
  refuses_nil : d.comparison [] = none
  refuses_name : ∀ {ts}, Unreadable ts → ∀ form us, d.comparison (formTokens form ts ++ us) = none
  refuses_sign : ∀ {text}, followsName text = true → ∀ us, d.comparison (.sign text :: us) = none
  refuses_point : ∀ table, d.comparison [.word table, .sign "."] = none

theorem readPredicate_of_readScalar {ts : List Token} (h : readScalar ts = none) :
    readPredicate ts = none := by
  rw [readPredicate, h]
  rfl

theorem extends_standard : Dialect.standard.Extends where
  reads h := ⟨_, h⟩
  refuses_nil := rfl
  refuses_name h form us := readPredicate_of_readScalar (h.readScalar_form form us)
  refuses_sign h us := by
    refine readPredicate_of_readScalar (readScalar.eq_8 _ nofun nofun nofun nofun nofun ?_ ?_)
    · rintro _ _ heq
      obtain ⟨rfl⟩ := (List.cons.inj heq).1
      cases h
    · rintro _ _ heq
      obtain ⟨rfl⟩ := (List.cons.inj heq).1
      cases h
  refuses_point table := by
    show readPredicate [.word table, .sign "."] = none
    rw [readPredicate, readScalar.eq_3 _ _ (by simp) (by simp)]
    cases wordScalar? table <;> rfl

/-! ## Operators -/

/-- `Unstartable ts` holds if no formula can start with the tokens: after any number of `NOT` there
is another keyword, or a sign that stands behind a name. -/
inductive Unstartable : List Token → Prop where
  | sign {text : String} {ts : List Token} (h : followsName text = true) :
      Unstartable (.sign text :: ts)
  | keyword {w : String} {ts : List Token} (h : isReserved w = true)
      (hnot : (Token.word w).isKeyword "NOT" = false) : Unstartable (.word w :: ts)
  | negation {w : String} {ts : List Token} (hnot : (Token.word w).isKeyword "NOT" = true)
      (h : Unstartable ts) : Unstartable (.word w :: ts)

/-- Nothing that starts with a keyword can be read, whatever follows it. -/
theorem unstartable_of_isReserved {w : String} {ts : List Token} (h : isReserved w = true)
    (hts : Unstartable ts) : Unstartable (.word w :: ts) := by
  cases hnot : (Token.word w).isKeyword "NOT" with
  | true => exact .negation hnot hts
  | false => exact .keyword h hnot

/-- `Operation ts` holds for the tokens of an operator with what a value is compared with. -/
structure Operation (ts : List Token) : Prop where
  balanced : Balanced ts
  unstartable : Unstartable ts
  head : ts.head?.any continuesValue = false
  reads : ∀ s, ∃ f, readOperator s ts = some f

section Operators

variable {F : Type} {d : Dialect F} {ts ops : List Token}

/-- No formula comes of a comparison whose first token cannot be read, however it goes on. -/
theorem conclude_ne_of_first {token : Token} {outer : List (Frame F)} (hd : d.Extends)
    (hread : ∀ us, d.comparison (token :: us) = none) (hnot : token.isKeyword "NOT" = false)
    (hopen : token ≠ .sign "(") (disjunction conjunction : Option F) (negations : Nat)
    (us : List Token) (f : F) :
    conclude d (token :: us)
      ({ start disjunction conjunction with negations := negations }, outer) ≠ .ok f := by
  have hfirst := @step_of_unreadable F d
    { start disjunction conjunction with negations := negations } outer token rfl
    (fun _ => ⟨hnot, hopen⟩) hd.refuses_nil
  rcases hfirst with hstep | ⟨inRange, hstep⟩
  · exact conclude_cons_of_none hstep us f
  · rw [conclude_cons hstep]
    exact conclude_of_unreadable rfl (List.cons_ne_nil _ _) (fun k => hread _) f

/-- No formula comes of tokens that no formula starts with. -/
theorem Unstartable.conclude_ne {outer : List (Frame F)} (h : Unstartable ts) (hd : d.Extends)
    (disjunction conjunction : Option F) (negations : Nat) (us : List Token) (f : F) :
    conclude d (ts ++ us)
      ({ start disjunction conjunction with negations := negations }, outer) ≠ .ok f := by
  induction h generalizing negations with
  | sign h =>
      refine conclude_ne_of_first hd (hd.refuses_sign h) rfl ?_ _ _ _ _ f
      rintro ⟨⟩
      cases h
  | keyword h hnot =>
      exact conclude_ne_of_first hd (hd.refuses_name (.word h) .plain) hnot nofun _ _ _ _ f
  | @negation w ts hnot _ ih =>
      have hkeywords : (Token.word w).isKeyword "AND" = false ∧
          (Token.word w).isKeyword "OR" = false := by
        simp only [Token.isKeyword, decide_eq_true_eq, decide_eq_false_iff_not] at hnot ⊢
        rw [hnot]
        decide
      have hstep : step d ({ start disjunction conjunction with negations := negations }, outer)
          (.word w) =
            some ({ start disjunction conjunction with negations := negations + 1 }, outer) := by
        simp [step, start, hkeywords.1, hkeywords.2, hnot, Frame.isFresh]
      rw [List.cons_append, conclude_cons hstep]
      exact ih (negations + 1)

theorem Unstartable.stalls (h : Unstartable ts) (hd : d.Extends) : Stalls d ts :=
  fun disjunction conjunction _ us f => h.conclude_ne hd disjunction conjunction 0 us f

/-- A value with an operator is a unit. -/
theorem Subject.settles {s : Scalar} (h : Subject ts s) (hops : Operation ops) (hd : d.Extends) :
    ∃ f, Settles d (ts ++ ops) f := by
  obtain ⟨f, hf⟩ := hops.reads s
  have hread : readPredicate (ts ++ ops) = some f := by
    rw [readPredicate, h.reads ops hops.head]
    exact hf
  obtain ⟨g, hg⟩ := hd.reads hread
  refine ⟨g, settles_of_balanced ?_ (h.balanced.append hops.balanced) hg⟩
  have hbegins := h.begins
  cases ts with
  | nil => cases hbegins
  | cons token ts => exact hbegins

/-- No formula comes of a comparison whose first tokens cannot be read, whatever follows them. -/
theorem stalls_of_unreadable {token : Token} {rest : List Token} {depth : Nat}
    (hbegins : mayBegin token = true) (hts : depthAfter? 0 ts = some depth)
    (h : ∀ us k, d.comparison (token :: ts ++ (rest ++ us).take k) = none) :
    Stalls d (token :: ts ++ rest) := by
  intro disjunction conjunction outer us f
  rw [List.append_assoc, conclude_append (run_start hbegins hts disjunction conjunction)]
  refine conclude_of_unreadable rfl (by simp) (fun k => ?_) f
  show d.comparison ((token :: ts).reverse.reverse ++ (rest ++ us).take k) = none
  rw [List.reverse_reverse]
  exact h us k

theorem Unreadable.stalls_plain (h : Unreadable ts) (hops : Unstartable ops) (hd : d.Extends) :
    Stalls d (ts ++ ops) := by
  cases h with
  | word h => exact (unstartable_of_isReserved h hops).stalls hd
  | table h => exact (unstartable_of_isReserved h (.sign rfl)).stalls hd
  | @column table column htable h =>
      have hpoint : depthAfter? 0 [.sign "."] = some 0 := rfl
      have hread : ∀ us k, d.comparison
          (Token.word table :: [Token.sign "."] ++ (Token.word column :: ops ++ us).take k) =
            none := by
        intro us k
        cases k with
        | zero => exact hd.refuses_point table
        | succ k => exact hd.refuses_name (.column htable h) .plain _
      show Stalls d (Token.word table :: [Token.sign "."] ++ Token.word column :: ops)
      exact stalls_of_unreadable (mayBegin_word htable) hpoint hread

/-- A name that cannot be read stalls before an operator. -/
theorem Unreadable.stalls (h : Unreadable ts) (hops : Operation ops) (form : Form)
    (hd : d.Extends) : Stalls d (formTokens form ts ++ ops) := by
  have hclosed : depthAfter? 0 (Token.sign "(" :: (ts ++ [Token.sign ")"])) = some 0 := by
    show depthAfter? 1 (ts ++ [Token.sign ")"]) = some 0
    rw [depthAfter?_append, h.depthAfter?_eq]
    rfl
  have hcall : ∀ w, mayBegin (.word w) = true →
      (∀ us,
        d.comparison (Token.word w :: Token.sign "(" :: (ts ++ [Token.sign ")"]) ++ us) = none) →
        Stalls d (Token.word w :: Token.sign "(" :: (ts ++ [Token.sign ")"]) ++ ops) :=
    fun w hw hread => stalls_of_unreadable hw hclosed fun us k => hread _
  cases form with
  | plain => exact h.stalls_plain hops.unstartable hd
  | lower => exact hcall "lower" rfl (hd.refuses_name h .lower)
  | upper => exact hcall "upper" rfl (hd.refuses_name h .upper)
  | julianDay => exact hcall "julianday" rfl (hd.refuses_name h .julianDay)

/-- A term with an operator is a unit, or it stalls. -/
theorem standsAlone_operation (term : Term) (hops : Operation ops) (hd : d.Extends) :
    StandsAlone d (term.tokens ++ ops) := by
  rcases term.column.subject_or_unreadable with ⟨s, hs⟩ | hunreadable
  · exact .inl ((hs.form term.form).settles hops hd)
  · exact .inr (hunreadable.stalls hops term.form hd)

end Operators

/-! ## Atomic conditions -/

theorem balanced_listTokens (bounds : List Bound) : Balanced (listTokens bounds) := by
  induction bounds with
  | nil => exact balanced_nil
  | cons bound bounds ih =>
      cases bounds with
      | nil => exact bound.subject.balanced
      | cons next bounds =>
          have hcomma : Balanced [.sign ","] := balanced_token rfl (by simp)
          exact bound.subject.balanced.append (hcomma.append ih)

theorem operation_compare (comparator : Comparator) {ts : List Token} {s : Scalar}
    (h : Subject ts s) : Operation (.sign comparator.sql :: ts) where
  balanced := by
    have hsign : Balanced [.sign comparator.sql] := by
      cases comparator <;> exact balanced_token rfl (by decide)
    exact hsign.append h.balanced
  unstartable := .sign (by cases comparator <;> rfl)
  head := by cases comparator <;> rfl
  reads := by
    intro subject
    have hcomparator : comparator? comparator.sql = some comparator := by cases comparator <;> rfl
    refine ⟨.compare subject comparator s, ?_⟩
    rw [readOperator, hcomparator, h.reads.scalarOf?_eq]
    rfl

/-- An operator that is a keyword, and may be negated. -/
theorem operation_keyword {keyword : String} (hkeyword : keyword = "LIKE" ∨ keyword = "IN")
    (negated : Bool) {ts : List Token} (hbalanced : Balanced ts)
    (h : ∀ subject, ∃ f, readWordOperator subject keyword ts = some f) :
    Operation (negationTokens negated ++ Token.word keyword :: ts) where
  balanced := by
    have hword : Balanced [.word keyword] := by
      rcases hkeyword with rfl | rfl <;> exact balanced_token rfl (by simp)
    have hnegation : Balanced (negationTokens negated) := by
      cases negated with
      | false => exact balanced_nil
      | true => exact balanced_token rfl (by simp)
    exact hnegation.append (hword.append hbalanced)
  unstartable := by
    have hword : Unstartable (.word keyword :: ts) := by
      rcases hkeyword with rfl | rfl <;> exact .keyword rfl rfl
    cases negated with
    | false => exact hword
    | true => exact .negation rfl hword
  head := by cases negated <;> rfl
  reads := by
    intro subject
    obtain ⟨f, hf⟩ := h subject
    have hread : readOperator subject (.word keyword :: ts) = some f := by
      rcases hkeyword with rfl | rfl <;> exact hf
    cases negated with
    | false => exact ⟨f, hread⟩
    | true =>
        refine ⟨.not f, ?_⟩
        have hmap : readOperator subject (.word "NOT" :: .word keyword :: ts) =
            (readWordOperator subject keyword ts).map .not := by
          rcases hkeyword with rfl | rfl <;> rfl
        show readOperator subject (.word "NOT" :: .word keyword :: ts) = _
        rw [hmap, hf]
        rfl

theorem operation_like (negated : Bool) (bound : Bound) :
    Operation (negationTokens negated ++ Token.word "LIKE" :: bound.tokens) := by
  refine operation_keyword (.inl rfl) negated bound.subject.balanced fun subject => ?_
  refine ⟨.like subject bound.scalar, ?_⟩
  show (scalarOf? bound.tokens).map (Formula.like subject) = _
  rw [bound.subject.reads.scalarOf?_eq]
  rfl

theorem operation_among (negated : Bool) (bounds : List Bound) :
    Operation (negationTokens negated ++ Token.word "IN" :: Token.sign "(" ::
      (listTokens bounds ++ [Token.sign ")"])) := by
  have hlist := (balanced_listTokens bounds).parentheses
  refine operation_keyword (.inr rfl) negated hlist fun subject => ?_
  refine ⟨.among subject (bounds.map Bound.scalar), ?_⟩
  show (listOf? _).map (Formula.among subject) = _
  rw [listOf?_listTokens]
  rfl

theorem operation_null (negated : Bool) :
    Operation (Token.word "IS" :: (negationTokens negated ++ [Token.word "NULL"])) where
  balanced := by
    have hword : ∀ w, endsComparison (.word w) = false → Balanced [.word w] :=
      fun w hw => balanced_token hw (by simp)
    cases negated with
    | false => exact (hword "IS" rfl).append (hword "NULL" rfl)
    | true => exact (hword "IS" rfl).append ((hword "NOT" rfl).append (hword "NULL" rfl))
  unstartable := .keyword rfl rfl
  head := by cases negated <;> rfl
  reads := by
    intro subject
    cases negated <;> exact ⟨_, rfl⟩

end Sql

/-- In a language that extends the standard one, an atomic condition is a unit, or it stalls. -/
theorem Atom.standsAlone {F : Type} {d : Dialect F} (hd : d.Extends) (a : Atom) :
    StandsAlone d a.tokens := by
  cases a with
  | compare term comparator bound =>
      exact standsAlone_operation term (operation_compare comparator bound.subject) hd
  | like term negated bound =>
      exact standsAlone_operation term (operation_like negated bound) hd
  | among term negated bounds =>
      exact standsAlone_operation term (operation_among negated bounds) hd
  | null term negated => exact standsAlone_operation term (operation_null negated) hd
  | never =>
      exact .inl ((subject_value (.integer 1)).settles
        (operation_compare .equal (subject_value (.integer 0))) hd)

end TableQuery
