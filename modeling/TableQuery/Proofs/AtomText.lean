import Mathlib.Data.List.Basic
import TableQuery.Proofs.FilterTree

/-!
# Texts of atoms

The text of an atom is a term, a space, the words of an operator, and placeholders.  None of these
pieces can be mistaken for a longer or another one: a term has no space in it, no operator is
written like the start of another, and a placeholder shows its form.  So the atoms are a prefix
code: where the text of one stands at the start of a text, together with its values at the start
of the values, no other atom does.

## Main results

* `Term.isTermChar_of_mem` — which characters a term is made of.
* `Operator.sql_append_inj` — operators are a prefix code.
* `Atom.sql_append_inj` — so are atoms, by their texts and values.
-/

namespace TableQuery

/-! ## Identifiers -/

theorem all_of_isWord {chars : List Char} (h : isWord chars = true) :
    ∀ c ∈ chars, isWordRest c = true := by
  cases chars with
  | nil => simp
  | cons c rest =>
      simp only [isWord, Bool.and_eq_true, List.all_eq_true] at h
      have hstart : isWordRest c = true := by
        have h1 := h.1
        simp only [isWordStart, isWordRest, Char.isAlphanum, Bool.or_eq_true] at h1 ⊢
        tauto
      intro d hd
      rcases List.mem_cons.1 hd with rfl | hd
      · exact hstart
      · exact h.2 d hd

/-- The characters of an identifier are those of words, and points. -/
theorem Identifier.isWordRest_of_mem (identifier : Identifier) {c : Char}
    (hc : c ∈ identifier.name.toList) : isWordRest c = true ∨ c = '.' := by
  have hvalid := identifier.valid
  rw [isIdentifier] at hvalid
  have hjoin : ['.'].intercalate (identifier.name.toList.splitOn '.') = identifier.name.toList :=
    List.intercalate_splitOn '.'
  split at hvalid
  · next word hsplit =>
      rw [hsplit, List.intercalate_singleton] at hjoin
      exact .inl (all_of_isWord hvalid c (hjoin ▸ hc))
  · next first second hsplit =>
      rw [hsplit, List.intercalate_cons_cons, List.intercalate_singleton] at hjoin
      rw [← hjoin] at hc
      simp only [Bool.and_eq_true] at hvalid
      simp only [List.mem_append, List.mem_singleton] at hc
      rcases hc with (hc | hc) | hc
      · exact .inl (all_of_isWord hvalid.1 c hc)
      · exact .inr hc
      · exact .inl (all_of_isWord hvalid.2 c hc)
  · simp at hvalid

/-- An identifier is its name. -/
theorem Identifier.eq_of_name_eq {i j : Identifier} (h : i.name = j.name) : i = j := by
  obtain ⟨name, _⟩ := i
  obtain ⟨name', _⟩ := j
  subst h
  rfl

/-- No identifier is the number at the start of the condition that no row meets. -/
theorem Identifier.name_ne_one (identifier : Identifier) : identifier.name ≠ "1" := by
  intro h
  have hvalid := identifier.valid
  rw [h] at hvalid
  revert hvalid
  decide

/-! ## Terms -/

/-- Whether a character can stand in the text of a term: in a name, or around it. -/
def isTermChar (c : Char) : Bool := isWordRest c || c = '.' || c = '(' || c = ')'

/-- What stands around a wrapped text are characters of terms. -/
theorem Form.mem_wrap {form : Form} {s : String} {c : Char} (hc : c ∈ (form.wrap s).toList) :
    c ∈ s.toList ∨ isTermChar c = true := by
  have hwrapped : ∀ opening : String, opening.toList.all isTermChar = true →
      c ∈ (opening ++ s ++ ")").toList → c ∈ s.toList ∨ isTermChar c = true := by
    intro opening hopening hmem
    rw [String.toList_append, String.toList_append] at hmem
    rcases List.mem_append.1 hmem with hmem | hmem
    · rcases List.mem_append.1 hmem with hmem | hmem
      · exact .inr (List.all_eq_true.1 hopening c hmem)
      · exact .inl hmem
    · obtain rfl : c = ')' := List.mem_singleton.1 hmem
      exact .inr (by decide)
  cases form with
  | plain => exact .inl hc
  | lower => exact hwrapped "lower(" (by decide) hc
  | upper => exact hwrapped "upper(" (by decide) hc
  | julianDay => exact hwrapped "julianday(" (by decide) hc

/-- A term has no character but those of its column and of the function around it. -/
theorem Term.isTermChar_of_mem (term : Term) {c : Char} (hc : c ∈ term.sql.toList) :
    isTermChar c = true := by
  rcases Form.mem_wrap hc with hname | hchar
  · rcases term.column.isWordRest_of_mem hname with h | h <;> simp [isTermChar, h]
  · exact hchar

theorem Term.not_mem_sql (term : Term) {c : Char} (h : isTermChar c = false) :
    c ∉ term.sql.toList := by
  intro hc
  rw [term.isTermChar_of_mem hc] at h
  exact Bool.noConfusion h

/-- A wrapped expression shows its form, since the expression itself opens no parenthesis. -/
theorem Form.wrap_inj {f g : Form} {s t : String} (hs : '(' ∉ s.toList) (ht : '(' ∉ t.toList)
    (h : f.wrap s = g.wrap t) : f = g ∧ s = t := by
  have hchars := congrArg String.toList h
  cases f <;> cases g <;> simp only [wrap, String.toList_append] at hchars
  case plain.plain => exact ⟨rfl, h⟩
  case lower.lower => simpa [wrap] using h
  case upper.upper => simpa [wrap] using h
  case julianDay.julianDay => simpa [wrap] using h
  case plain.lower | plain.upper | plain.julianDay => simp [hchars] at hs
  case lower.plain | upper.plain | julianDay.plain => simp [← hchars] at ht
  all_goals simp at hchars

/-- A term shows its column and its form. -/
theorem Term.sql_inj {s t : Term} (h : s.sql = t.sql) : s = t := by
  have hparen : ∀ column : Identifier, '(' ∉ column.name.toList := by
    intro column hc
    rcases column.isWordRest_of_mem hc with hc | hc
    · exact absurd hc (by decide)
    · exact absurd hc (by decide)
  obtain ⟨hform, hname⟩ := Form.wrap_inj (hparen _) (hparen _) h
  obtain ⟨column, form⟩ := s
  obtain ⟨column', form'⟩ := t
  have hcolumn : column = column' := Identifier.eq_of_name_eq hname
  rw [hcolumn, show form = form' from hform]

theorem Term.sql_ne_one (term : Term) : term.sql ≠ "1" := by
  intro h
  rw [sql] at h
  cases hform : term.form <;> rw [hform] at h
  case plain => exact term.column.name_ne_one h
  all_goals
    have hchars := congrArg String.toList h
    simp [Form.wrap] at hchars

/-! ## Placeholders -/

/-- A list is written as its first item and then, each after a separator, the others. -/
theorem toList_intercalate_cons (separator item : String) (items : List String) :
    (separator.intercalate (item :: items)).toList =
      item.toList ++ items.flatMap fun next => separator.toList ++ next.toList := by
  induction items generalizing item with
  | nil => simp
  | cons next items ih =>
      rw [String.intercalate_cons_cons, String.toList_append, String.toList_append, ih next,
        List.flatMap_cons, List.append_assoc, List.append_assoc]

/-- The characters of a list are those of its items and of the separator. -/
theorem mem_intercalate {separator : String} {items : List String} {c : Char}
    (hc : c ∈ (separator.intercalate items).toList) :
    c ∈ separator.toList ∨ ∃ item ∈ items, c ∈ item.toList := by
  cases items with
  | nil => exact absurd hc List.not_mem_nil
  | cons item items =>
      rw [toList_intercalate_cons] at hc
      rcases List.mem_append.1 hc with hc | hc
      · exact .inr ⟨item, List.mem_cons_self, hc⟩
      · obtain ⟨next, hnext, hc⟩ := List.mem_flatMap.1 hc
        rcases List.mem_append.1 hc with hc | hc
        · exact .inl hc
        · exact .inr ⟨next, List.mem_cons_of_mem item hnext, hc⟩

/-- The placeholder of a bound value ends where its form says. -/
theorem Bound.sql_append_inj {b c : Bound} {x y : List Char}
    (h : b.sql.toList ++ x = c.sql.toList ++ y) : b.form = c.form ∧ x = y := by
  obtain ⟨v, f⟩ := b
  obtain ⟨w, g⟩ := c
  cases f <;> cases g
  case plain.plain | lower.lower | upper.upper | julianDay.julianDay =>
    simpa [sql, Form.wrap] using h
  all_goals simp [sql, Form.wrap] at h

/-- No placeholder starts like what closes a list of them. -/
theorem Bound.sql_append_ne (b : Bound) (x y : List Char) : b.sql.toList ++ x ≠ ')' :: y := by
  obtain ⟨v, f⟩ := b
  cases f <;> simp [sql, Form.wrap]

/-- The further placeholders of a list, each after a comma. -/
def furtherBounds (bounds : List Bound) : List Char :=
  bounds.flatMap fun bound => ", ".toList ++ bound.sql.toList

/-- Further placeholders show how many they are and their forms. -/
theorem furtherBounds_append_inj {bs cs : List Bound} {x y : List Char}
    (h : furtherBounds bs ++ ')' :: x = furtherBounds cs ++ ')' :: y) :
    bs.map Bound.form = cs.map Bound.form ∧ x = y := by
  induction bs generalizing cs with
  | nil =>
      cases cs with
      | nil => simpa [furtherBounds] using h
      | cons c cs => simp [furtherBounds] at h
  | cons b bs ih =>
      cases cs with
      | nil => simp [furtherBounds] at h
      | cons c cs =>
          simp only [furtherBounds, List.flatMap_cons, List.append_assoc] at h
          obtain ⟨hform, hrest⟩ := Bound.sql_append_inj (List.append_cancel_left h)
          obtain ⟨hforms, htail⟩ := ih hrest
          exact ⟨by rw [List.map_cons, List.map_cons, hform, hforms], htail⟩

/-- The placeholders of a list show how many they are and their forms. -/
theorem Bound.list_append_inj {bs cs : List Bound} {x y : List Char}
    (h : (", ".intercalate (bs.map Bound.sql)).toList ++ ')' :: x =
      (", ".intercalate (cs.map Bound.sql)).toList ++ ')' :: y) :
    bs.map Bound.form = cs.map Bound.form ∧ x = y := by
  have hlist : ∀ (b : Bound) (bs : List Bound),
      (", ".intercalate ((b :: bs).map Bound.sql)).toList = b.sql.toList ++ furtherBounds bs := by
    intro b bs
    rw [List.map_cons, toList_intercalate_cons, List.flatMap_map, furtherBounds]
  cases bs with
  | nil =>
      cases cs with
      | nil => simpa using h
      | cons c cs =>
          rw [hlist, List.append_assoc] at h
          exact absurd h.symm (by simpa using c.sql_append_ne _ _)
  | cons b bs =>
      cases cs with
      | nil =>
          rw [hlist, List.append_assoc] at h
          exact absurd h (by simpa using b.sql_append_ne _ _)
      | cons c cs =>
          rw [hlist, hlist, List.append_assoc, List.append_assoc] at h
          obtain ⟨hform, hrest⟩ := Bound.sql_append_inj h
          obtain ⟨hforms, htail⟩ := furtherBounds_append_inj hrest
          exact ⟨by rw [List.map_cons, List.map_cons, hform, hforms], htail⟩

/-- Bound values are given by their forms and their values. -/
theorem Bound.list_ext {bs cs : List Bound} (hforms : bs.map form = cs.map form)
    (hvalues : bs.map value = cs.map value) : bs = cs := by
  induction bs generalizing cs with
  | nil => exact (List.map_eq_nil_iff.1 hforms.symm).symm
  | cons b bs ih =>
      cases cs with
      | nil => simp at hforms
      | cons c cs =>
          rw [List.map_cons, List.map_cons, List.cons.injEq] at hforms hvalues
          obtain ⟨value, form⟩ := b
          obtain ⟨value', form'⟩ := c
          obtain ⟨rfl, hforms⟩ := hforms
          obtain ⟨rfl, hvalues⟩ := hvalues
          rw [ih hforms hvalues]

/-! ## Operators -/

/-- The words between the term of an atom and its placeholders. -/
inductive Operator where
  | compare (comparator : Comparator)
  | like (negated : Bool)
  | among (negated : Bool)
  | null (negated : Bool)
  deriving DecidableEq

namespace Operator

/-- How an operator is written. -/
def sql : Operator → String
  | compare comparator => comparator.sql ++ " "
  | like negated => if negated then "NOT LIKE " else "LIKE "
  | among negated => if negated then "NOT IN (" else "IN ("
  | null negated => if negated then "IS NOT NULL" else "IS NULL"

/-- All operators. -/
def all : List Operator :=
  [compare .equal, compare .notEqual, compare .less, compare .lessEqual, compare .greater,
    compare .greaterEqual, like false, like true, among false, among true, null false, null true]

theorem mem_all (operator : Operator) : operator ∈ all := by
  cases operator with
  | compare comparator => cases comparator <;> decide
  | like negated => cases negated <;> decide
  | among negated => cases negated <;> decide
  | null negated => cases negated <;> decide

/-- No operator is written like the start of another one. -/
theorem eq_of_startsWith {o p : Operator} (h : o.sql.toList <+: p.sql.toList) : o = p := by
  have hall : ∀ o ∈ all, ∀ p ∈ all, o.sql.toList <+: p.sql.toList → o = p := by decide
  exact hall o o.mem_all p p.mem_all h

/-- An operator ends where its words say. -/
theorem sql_append_inj {o p : Operator} {x y : List Char}
    (h : o.sql.toList ++ x = p.sql.toList ++ y) : o = p ∧ x = y := by
  have hop : o = p := by
    rcases List.prefix_or_prefix_of_prefix (List.prefix_append _ x)
      (h ▸ List.prefix_append _ y) with hprefix | hprefix
    · exact eq_of_startsWith hprefix
    · exact (eq_of_startsWith hprefix).symm
  subst hop
  exact ⟨rfl, List.append_cancel_left h⟩

end Operator

/-! ## Atoms -/

namespace Atom

/-- The words of an atom: its term, its operator and its placeholders. -/
theorem toList_sql (a : Atom) :
    a.sql.toList = match a with
      | compare term comparator bound =>
        term.sql.toList ++ ' ' :: ((Operator.compare comparator).sql.toList ++ bound.sql.toList)
      | like term negated bound =>
        term.sql.toList ++ ' ' :: ((Operator.like negated).sql.toList ++ bound.sql.toList)
      | among term negated bounds =>
        term.sql.toList ++ ' ' :: ((Operator.among negated).sql.toList ++
          ((", ".intercalate (bounds.map Bound.sql)).toList ++ [')']))
      | null term negated =>
        term.sql.toList ++ ' ' :: (Operator.null negated).sql.toList
      | never => "1".toList ++ ' ' :: "= 0".toList := by
  cases a with
  | compare term comparator bound => simp [sql, Operator.sql]
  | like term negated bound => cases negated <;> simp [sql, Operator.sql]
  | among term negated bounds => cases negated <;> simp [sql, Operator.sql]
  | null term negated => cases negated <;> simp [sql, Operator.sql]
  | never => simp [sql]

/-- Two texts whose first words agree up to the first space have the same first word. -/
theorem firstWord_inj {s t x y : List Char} (hs : ' ' ∉ s) (ht : ' ' ∉ t)
    (h : s ++ ' ' :: x = t ++ ' ' :: y) : s = t ∧ x = y := by
  have hword : ∀ u z : List Char, ' ' ∉ u → (u ++ ' ' :: z).takeWhile (· ≠ ' ') = u := by
    intro u z hu
    have hinside : ∀ c ∈ u, decide (c ≠ ' ') = true := by
      intro c hc
      simp only [ne_eq, decide_eq_true_eq]
      rintro rfl
      exact hu hc
    rw [List.takeWhile_append_of_pos hinside]
    simp
  have heq : s = t := by rw [← hword s x hs, ← hword t y ht, h]
  subst heq
  exact ⟨rfl, (List.cons.inj (List.append_cancel_left h)).2⟩

/-- The words of a term and an operator show both. -/
theorem words_inj {s t : Term} {o p : Operator} {x y : List Char}
    (h : s.sql.toList ++ ' ' :: (o.sql.toList ++ x) = t.sql.toList ++ ' ' :: (p.sql.toList ++ y)) :
    s = t ∧ o = p ∧ x = y := by
  obtain ⟨hterm, hrest⟩ :=
    firstWord_inj (s.not_mem_sql (by decide)) (t.not_mem_sql (by decide)) h
  obtain ⟨hoperator, htail⟩ := Operator.sql_append_inj hrest
  exact ⟨Term.sql_inj (String.toList_injective hterm), hoperator, htail⟩

/-- An atom ends where its text says, and its text and values show which atom it is. -/
theorem sql_append_inj {a b : Atom} {x y : List Char} {us vs : List Operand}
    (h : a.sql.toList ++ x = b.sql.toList ++ y) (hvalues : a.values ++ us = b.values ++ vs) :
    a = b := by
  have hone : ∀ (term : Term) (x y : List Char),
      term.sql.toList ++ ' ' :: x ≠ "1".toList ++ ' ' :: y := by
    intro term x y h
    obtain ⟨hword, -⟩ := firstWord_inj (term.not_mem_sql (by decide)) (by decide) h
    exact term.sql_ne_one (String.toList_injective hword)
  rw [toList_sql, toList_sql] at h
  cases a <;> cases b <;> simp only [List.append_assoc, List.cons_append] at h
  case never.never => rfl
  case never.compare | never.like | never.among | never.null => exact absurd h.symm (hone _ _ _)
  case compare.never | like.never | among.never | null.never => exact absurd h (hone _ _ _)
  all_goals
    obtain ⟨rfl, hoperator, hrest⟩ := words_inj h
    cases hoperator
  case compare.compare term comparator b c =>
    obtain ⟨v, f⟩ := b
    obtain ⟨w, g⟩ := c
    obtain ⟨hform, -⟩ := Bound.sql_append_inj hrest
    simp_all [values]
  case like.like term negated b c =>
    obtain ⟨v, f⟩ := b
    obtain ⟨w, g⟩ := c
    obtain ⟨hform, -⟩ := Bound.sql_append_inj hrest
    simp_all [values]
  case among.among term negated bs cs =>
    obtain ⟨hforms, -⟩ := Bound.list_append_inj hrest
    have hlength : (bs.map Bound.value).length = (cs.map Bound.value).length := by
      simpa using congrArg List.length hforms
    have hlist : bs = cs := Bound.list_ext hforms (List.append_inj_left hvalues hlength)
    rw [hlist]
  case null.null => rfl
end Atom

end TableQuery
