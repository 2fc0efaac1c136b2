/-!
# Parts of texts

Whether characters occur one after another inside others.

## Main definitions

* `occursIn`: the test, with `occursIn_iff`.
-/

namespace TableQuery.Text

/-- Whether some characters occur one after another in others. -/
def occursIn (part : List Char) : List Char → Bool
  | [] => part.isEmpty
  | c :: rest => part.isPrefixOf (c :: rest) || occursIn part rest

/-- What occurs has something before it and something after it. -/
theorem occursIn_iff {part whole : List Char} :
    occursIn part whole = true ↔ ∃ before after, whole = before ++ part ++ after := by
  induction whole with
  | nil =>
    constructor
    · intro h
      exact ⟨[], [], by simpa [occursIn] using h⟩
    · rintro ⟨before, after, h⟩
      have : part = [] := by
        have := (List.append_eq_nil_iff.1 h.symm).1
        exact (List.append_eq_nil_iff.1 this).2
      simp [occursIn, this]
  | cons c rest ih =>
    simp only [occursIn, Bool.or_eq_true, ih, List.isPrefixOf_iff_prefix]
    constructor
    · rintro (⟨after, h⟩ | ⟨before, after, h⟩)
      · exact ⟨[], after, by simp [h]⟩
      · exact ⟨c :: before, after, by simp [h]⟩
    · rintro ⟨before, after, h⟩
      match before, h with
      | [], h => exact .inl ⟨after, by simpa using h.symm⟩
      | b :: before, h =>
        simp only [List.cons_append, List.cons.injEq] at h
        exact .inr ⟨before, after, h.2⟩

end TableQuery.Text
