import TableQuery.Proofs.AtomText

/-!
# Placeholders in texts

A value is bound to a placeholder by its position only, so a text and a list of values that were
put together separately have to agree at every position.  Here a text is cut into *parts*, atomic
conditions as they are written, and what stands between them.  If no placeholder stands between
parts, and each part has as many of them as values, then the placeholders of the text are those of
the parts one after another, and each of them stands in the part that contributed its value.

## Main results

* `Atom.count_placeholder` — an atom has as many placeholders as values.
* `Sewn` — a text is made of parts, with no placeholder between them.
* `Sewn.aligned` — what follows for each position.
-/

namespace TableQuery

/-! ## Placeholders of atoms -/

/-- A bound value has one placeholder. -/
theorem Bound.count_placeholder (b : Bound) : b.sql.toList.count '?' = 1 := by
  obtain ⟨value, form⟩ := b
  show (form.wrap "?").toList.count '?' = 1
  cases form <;> decide

/-- A term has no placeholder. -/
theorem Term.count_placeholder (term : Term) : term.sql.toList.count '?' = 0 := by
  rw [List.count_eq_zero]
  exact term.not_mem_sql (by decide)

theorem Comparator.count_placeholder (c : Comparator) : c.sql.toList.count '?' = 0 := by
  cases c <;> decide

/-- A list of bound values has a placeholder for each of them. -/
theorem count_placeholder_intercalate (bounds : List Bound) :
    (", ".intercalate (bounds.map Bound.sql)).toList.count '?' = bounds.length := by
  cases bounds with
  | nil => decide
  | cons b bounds =>
      rw [List.map_cons, toList_intercalate_cons, List.count_append, b.count_placeholder]
      induction bounds with
      | nil => rfl
      | cons c bounds ih =>
          have hseparator : ", ".toList.count '?' = 0 := by decide
          rw [List.map_cons, List.flatMap_cons, List.count_append, List.count_append, hseparator,
            c.count_placeholder]
          simp only [List.length_cons] at ih ⊢
          omega

/-- An atom has as many placeholders as values. -/
theorem Atom.count_placeholder (a : Atom) : a.sql.toList.count '?' = a.values.length := by
  cases a with
  | compare term comparator bound =>
      have hspace : " ".toList.count '?' = 0 := by decide
      simp only [sql, String.toList_append, List.count_append, term.count_placeholder,
        comparator.count_placeholder, bound.count_placeholder, hspace]
      rfl
  | like term negated bound =>
      have hoperator : (if negated then " NOT LIKE " else " LIKE ").toList.count '?' = 0 := by
        cases negated <;> decide
      simp only [sql, String.toList_append, List.count_append, term.count_placeholder,
        bound.count_placeholder, hoperator]
      rfl
  | among term negated bounds =>
      have hoperator : (if negated then " NOT IN (" else " IN (").toList.count '?' = 0 := by
        cases negated <;> decide
      have hclose : ")".toList.count '?' = 0 := by decide
      simp only [sql, String.toList_append, List.count_append, term.count_placeholder,
        count_placeholder_intercalate, hoperator, hclose, values, List.length_map]
      omega
  | null term negated =>
      have hoperator : (if negated then " IS NOT NULL" else " IS NULL").toList.count '?' = 0 := by
        cases negated <;> decide
      simp only [sql, String.toList_append, List.count_append, term.count_placeholder, hoperator]
      rfl
  | never => decide

/-! ## Parts of a text -/

/-- An atomic condition as it is written, with the values of its placeholders. -/
structure Part where
  text : String
  values : List Operand

/-- An atom as a part. -/
def Part.ofAtom (a : Atom) : Part := ⟨a.sql, a.values⟩

/-- A part with as many placeholders as values. -/
def Part.Balanced (part : Part) : Prop := part.text.toList.count '?' = part.values.length

theorem Part.balanced_ofAtom (a : Atom) : (Part.ofAtom a).Balanced := a.count_placeholder

/-- `Sewn text parts` holds if a text is made of parts, in their order, with no placeholder between
them or at its ends. -/
inductive Sewn : List Char → List Part → Prop where
  | glue {x : List Char} (hglue : '?' ∉ x) : Sewn x []
  | part {x y : List Char} {parts : List Part} (part : Part) (hglue : '?' ∉ x)
      (hrest : Sewn y parts) : Sewn (x ++ (part.text.toList ++ y)) (part :: parts)

namespace Sewn

theorem nil : Sewn [] [] := .glue List.not_mem_nil

/-- A part alone. -/
theorem single (p : Part) : Sewn p.text.toList [p] := by
  have h := Sewn.part p List.not_mem_nil nil
  rw [List.nil_append, List.append_nil] at h
  exact h

theorem glue_append {x y : List Char} {parts : List Part} (hx : '?' ∉ x) (hy : Sewn y parts) :
    Sewn (x ++ y) parts := by
  cases hy with
  | glue hglue => exact .glue (List.not_mem_append hx hglue)
  | part p hglue hrest =>
      rw [← List.append_assoc]
      exact .part p (List.not_mem_append hx hglue) hrest

/-- Texts made of parts, one after the other. -/
theorem append {x y : List Char} {parts parts' : List Part} (hx : Sewn x parts)
    (hy : Sewn y parts') : Sewn (x ++ y) (parts ++ parts') := by
  induction hx with
  | glue hglue => exact hy.glue_append hglue
  | part p hglue _ ih =>
      rw [List.append_assoc, List.append_assoc]
      exact .part p hglue ih

theorem append_glue {x y : List Char} {parts : List Part} (hx : Sewn x parts) (hy : '?' ∉ y) :
    Sewn (x ++ y) parts := by
  have h := hx.append (.glue hy)
  rw [List.append_nil] at h
  exact h

end Sewn

/-! ## Positions -/

/-- `Aligned text values parts` holds if a text has as many placeholders as there are values, the
values are those of the parts one after another, and for every `k` the `k`-th placeholder stands in
the part that contributed the `k`-th value: as its `j`-th placeholder, where the value is the
`j`-th of the part, behind the values of the parts before it. -/
structure Aligned (text : List Char) (values : List Operand) (parts : List Part) : Prop where
  count : text.count '?' = values.length
  values_eq : values = parts.flatMap Part.values
  belongs : ∀ (k : Nat) (value : Operand), values[k]? = some value →
    ∃ (before after : List Part) (part : Part) (left right start rest : List Char),
      parts = before ++ part :: after ∧ text = left ++ (part.text.toList ++ right) ∧
        part.text.toList = start ++ '?' :: rest ∧ (left ++ start).count '?' = k ∧
        (before.flatMap Part.values).length + start.count '?' = k ∧
        part.values[start.count '?']? = some value

/-- Where a character stands. -/
theorem exists_split_of_lt_count {chars : List Char} {k : Nat} (h : k < chars.count '?') :
    ∃ start rest, chars = start ++ '?' :: rest ∧ start.count '?' = k := by
  induction chars generalizing k with
  | nil => exact absurd h (Nat.not_lt_zero k)
  | cons c chars ih =>
      by_cases hc : c = '?'
      · subst hc
        rw [List.count_cons_self] at h
        cases k with
        | zero => exact ⟨[], chars, rfl, rfl⟩
        | succ k =>
            obtain ⟨start, rest, rfl, hcount⟩ := ih (Nat.lt_of_succ_lt_succ h)
            exact ⟨'?' :: start, rest, rfl, by rw [List.count_cons_self, hcount]⟩
      · rw [List.count_cons_of_ne hc] at h
        obtain ⟨start, rest, rfl, hcount⟩ := ih h
        exact ⟨c :: start, rest, rfl, by rw [List.count_cons_of_ne hc, hcount]⟩

/-- A text made of balanced parts is aligned with their values. -/
theorem Sewn.aligned {text : List Char} {parts : List Part} (h : Sewn text parts)
    (hbalanced : ∀ part ∈ parts, part.Balanced) :
    Aligned text (parts.flatMap Part.values) parts := by
  induction h with
  | glue hglue =>
      refine ⟨List.count_eq_zero.2 hglue, rfl, ?_⟩
      intro k value hvalue
      exact absurd hvalue (by simp)
  | @part x y parts p hglue _ ih =>
      have hp : p.text.toList.count '?' = p.values.length := hbalanced p List.mem_cons_self
      have hx : x.count '?' = 0 := List.count_eq_zero.2 hglue
      obtain ⟨hcount, -, hbelongs⟩ := ih fun q hq => hbalanced q (List.mem_cons_of_mem p hq)
      refine ⟨?_, rfl, ?_⟩
      · rw [List.count_append, List.count_append, hx, hp, hcount, List.flatMap_cons,
          List.length_append]
        omega
      · intro k value hvalue
        rw [List.flatMap_cons] at hvalue
        by_cases hk : k < p.values.length
        · -- the placeholder stands in the first part
          obtain ⟨start, rest, hsplit, hstart⟩ := exists_split_of_lt_count (hp ▸ hk)
          rw [List.getElem?_append_left hk] at hvalue
          refine ⟨[], parts, p, x, y, start, rest, rfl, rfl, hsplit, ?_, ?_, ?_⟩
          · rw [List.count_append, hx, hstart, Nat.zero_add]
          · rw [hstart]
            exact Nat.zero_add k
          · rw [hstart]
            exact hvalue
        · -- it stands in one of the others
          rw [List.getElem?_append_right (Nat.le_of_not_lt hk)] at hvalue
          obtain ⟨before, after, q, left, right, start, rest, rfl, rfl, hsplit, hleft, hbefore,
            hq⟩ := hbelongs _ value hvalue
          refine ⟨p :: before, after, q, x ++ (p.text.toList ++ left), right, start, rest, rfl, ?_,
            hsplit, ?_, ?_, hq⟩
          · simp only [List.append_assoc]
          · rw [List.count_append] at hleft ⊢
            rw [List.count_append, List.count_append, hx, hp]
            omega
          · rw [List.flatMap_cons, List.length_append]
            omega

end TableQuery
