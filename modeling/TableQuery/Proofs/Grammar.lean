import TableQuery.Database.Formula
import TableQuery.Proofs.AtomText

/-!
# The grammar of joined conditions

How SQL reads a text that joins atomic conditions: parentheses bind tightest, then `AND`, then
`OR`.  The atomic conditions are the units of the reading; a unit stands for its text together with
the values of its placeholders.

The grammar is stated as a relation, so that it says nothing about how a reader works.  What makes
it usable is that it is unambiguous: a text with values is read in one way only.  The proof is the
usual one for a grammar by levels.  Two readings at the same level that start at the same place
also end at the same place, as long as neither is followed by a word that would continue it.

## Main results

* `Reads` — the grammar.
* `Reads.unique` — a text with values is read as one expression only.
-/

namespace TableQuery

/-- Two truth values joined. -/
def Junction.truth : Junction → Truth → Truth → Truth
  | all => Truth.and
  | any => Truth.or

namespace Sql

/-- What a text that joins atomic conditions says. -/
inductive Expression where
  | atom (a : Atom)
  | joined (junction : Junction) (left right : Expression)

/-- The truth value of an expression where those of the atomic conditions are given. -/
def Expression.truth (value : Atom → Truth) : Expression → Truth
  | atom a => value a
  | joined junction left right => junction.truth (left.truth value) (right.truth value)

/-- How tightly the parts of a text hang together. -/
inductive Level where
  /-- Parts joined by `OR`. -/
  | disjunction
  /-- Parts joined by `AND`. -/
  | conjunction
  /-- An atomic condition, or anything in parentheses. -/
  | primary

/-- `Reads level s vs e` holds if SQL reads the text `s`, whose placeholders have the values `vs`,
as the expression `e` at a level of the grammar. -/
inductive Reads : Level → String → List Operand → Expression → Prop where
  | atom (a : Atom) : Reads .primary a.sql a.values (.atom a)
  | parentheses {s : String} {vs : List Operand} {e : Expression}
      (h : Reads .disjunction s vs e) : Reads .primary ("(" ++ s ++ ")") vs e
  | primary {s : String} {vs : List Operand} {e : Expression}
      (h : Reads .primary s vs e) : Reads .conjunction s vs e
  | and {s t : String} {vs ws : List Operand} {e f : Expression}
      (hs : Reads .primary s vs e) (ht : Reads .conjunction t ws f) :
      Reads .conjunction (s ++ " AND " ++ t) (vs ++ ws) (.joined .all e f)
  | conjunction {s : String} {vs : List Operand} {e : Expression}
      (h : Reads .conjunction s vs e) : Reads .disjunction s vs e
  | or {s t : String} {vs ws : List Operand} {e f : Expression}
      (hs : Reads .conjunction s vs e) (ht : Reads .disjunction t ws f) :
      Reads .disjunction (s ++ " OR " ++ t) (vs ++ ws) (.joined .any e f)

/-! ## The grammar is unambiguous -/

/-- Whether a text may follow a complete part of a level: it does not continue that part. -/
def Level.EndsBefore : Level → List Char → Prop
  | primary, _ => True
  | conjunction, x => ¬ " AND ".toList <+: x
  | disjunction, x => ¬ " AND ".toList <+: x ∧ ¬ " OR ".toList <+: x

theorem Level.endsBefore_nil (level : Level) : level.EndsBefore [] := by
  cases level <;> simp [EndsBefore]

theorem Level.endsBefore_paren (level : Level) (x : List Char) : level.EndsBefore (')' :: x) := by
  cases level <;> simp [EndsBefore]

end Sql

/-- No atom starts with a parenthesis. -/
theorem Atom.sql_append_ne (a : Atom) (x y : List Char) : a.sql.toList ++ x ≠ '(' :: y := by
  have hterm : ∀ (term : Term) (x : List Char), term.sql.toList ++ ' ' :: x ≠ '(' :: y := by
    intro term x h
    rw [Term.sql] at h
    cases hform : term.form <;> rw [hform] at h
    case plain =>
      cases hname : term.column.name.toList with
      | nil => simp [Form.wrap, hname] at h
      | cons c rest =>
          simp only [Form.wrap, hname, List.cons_append, List.cons.injEq] at h
          have hmem : '(' ∈ term.column.name.toList := by rw [hname, h.1]; exact List.mem_cons_self
          exact absurd (term.column.isWordRest_of_mem hmem) (by decide)
    all_goals simp [Form.wrap] at h
  rw [toList_sql]
  cases a <;> simp only [List.append_assoc, List.cons_append]
  case never => simp
  all_goals exact hterm _ _

namespace Sql

/-- Readings of one level that start at the same place end at the same place, and read the same. -/
theorem Reads.unique_of_append {level : Level} {s : String} {vs : List Operand} {e : Expression}
    (h : Reads level s vs e) :
    ∀ {s' : String} {vs' : List Operand} {e' : Expression} {x x' : List Char}
      {us us' : List Operand}, Reads level s' vs' e' → level.EndsBefore x → level.EndsBefore x' →
      s.toList ++ x = s'.toList ++ x' → vs ++ us = vs' ++ us' →
      e = e' ∧ x = x' ∧ us = us' := by
  induction h with
  | atom a =>
      intro s' vs' e' x x' us us' h' _ _ htext hvalues
      cases h' with
      | atom b =>
          obtain rfl := Atom.sql_append_inj htext hvalues
          exact ⟨rfl, List.append_cancel_left htext, List.append_cancel_left hvalues⟩
      | parentheses h' =>
          simp only [String.toList_append, List.append_assoc] at htext
          exact absurd htext (a.sql_append_ne _ _)
  | parentheses h ih =>
      intro s' vs' e' x x' us us' h' _ _ htext hvalues
      cases h' with
      | atom b =>
          simp only [String.toList_append, List.append_assoc] at htext
          exact absurd htext.symm (b.sql_append_ne _ _)
      | parentheses h' =>
          simp only [String.toList_append, List.append_assoc] at htext
          obtain ⟨he, hx, hus⟩ := ih h' (Level.endsBefore_paren _ x) (Level.endsBefore_paren _ x')
            (List.append_cancel_left htext) hvalues
          exact ⟨he, (List.cons.inj hx).2, hus⟩
  | primary h ih =>
      intro s' vs' e' x x' us us' h' hend hend' htext hvalues
      cases h' with
      | primary h' => exact ih h' trivial trivial htext hvalues
      | and hs ht =>
          simp only [String.toList_append, List.append_assoc] at htext hvalues
          obtain ⟨-, hx, -⟩ := ih hs trivial trivial htext hvalues
          exact absurd (hx ▸ List.prefix_append _ _) hend
  | and hs ht ihs iht =>
      intro s' vs' e' x x' us us' h' hend hend' htext hvalues
      simp only [String.toList_append, List.append_assoc] at htext hvalues
      cases h' with
      | primary h' =>
          obtain ⟨-, hx, -⟩ := ihs h' trivial trivial htext hvalues
          exact absurd (hx ▸ List.prefix_append _ _) hend'
      | and hs' ht' =>
          simp only [String.toList_append, List.append_assoc] at htext hvalues
          obtain ⟨rfl, hx, hus⟩ := ihs hs' trivial trivial htext hvalues
          obtain ⟨rfl, hx, hus⟩ := iht ht' hend hend' (List.append_cancel_left hx) hus
          exact ⟨rfl, hx, hus⟩
  | conjunction h ih =>
      intro s' vs' e' x x' us us' h' hend hend' htext hvalues
      cases h' with
      | conjunction h' => exact ih h' hend.1 hend'.1 htext hvalues
      | or hs ht =>
          simp only [String.toList_append, List.append_assoc] at htext hvalues
          obtain ⟨-, hx, -⟩ := ih hs hend.1 (by simp [Level.EndsBefore]) htext hvalues
          exact absurd (hx ▸ List.prefix_append _ _) hend.2
  | or hs ht ihs iht =>
      intro s' vs' e' x x' us us' h' hend hend' htext hvalues
      simp only [String.toList_append, List.append_assoc] at htext hvalues
      cases h' with
      | conjunction h' =>
          obtain ⟨-, hx, -⟩ := ihs h' (by simp [Level.EndsBefore]) hend'.1 htext hvalues
          exact absurd (hx ▸ List.prefix_append _ _) hend'.2
      | or hs' ht' =>
          simp only [String.toList_append, List.append_assoc] at htext hvalues
          obtain ⟨rfl, hx, hus⟩ := ihs hs' (by simp [Level.EndsBefore])
            (by simp [Level.EndsBefore]) htext hvalues
          obtain ⟨rfl, hx, hus⟩ := iht ht' hend hend' (List.append_cancel_left hx) hus
          exact ⟨rfl, hx, hus⟩

/-- A text with values is read as one expression only. -/
theorem Reads.unique {level : Level} {s : String} {vs : List Operand} {e e' : Expression}
    (h : Reads level s vs e) (h' : Reads level s vs e') : e = e' := by
  have htext : s.toList ++ [] = s.toList ++ [] := rfl
  have hvalues : vs ++ [] = vs ++ [] := rfl
  obtain ⟨he, -, -⟩ :=
    h.unique_of_append h' level.endsBefore_nil level.endsBefore_nil htext hvalues
  exact he

end Sql

end TableQuery
