/-!
# Entries by name

Lists of named entries in ascending order of their names, each name once. Two such lists with the
same entries are the same list, so they serve where entries have no order of their own. Names
are ordered by their code points, which is also the order of their UTF-8 octets.

## Main definitions

* `Ascending`: the names ascend strictly.
* `insert`: adds or replaces an entry.
-/

namespace TableQuery.Keyed

variable {α : Type}

/-- The names ascend strictly. -/
def Ascending (entries : List (String × α)) : Prop :=
  entries.Pairwise fun a b => a.1 < b.1

/-- Adds an entry at its place, or replaces the entry of the same name. -/
def insert (name : String) (value : α) : List (String × α) → List (String × α)
  | [] => [(name, value)]
  | entry :: rest =>
    if name < entry.1 then (name, value) :: entry :: rest
    else if name = entry.1 then (name, value) :: rest
    else entry :: insert name value rest

/-- The entries of a list of pairs, of which a later one replaces an earlier one of its name. -/
def ofList (pairs : List (String × α)) : List (String × α) :=
  pairs.foldl (fun entries pair => insert pair.1 pair.2 entries) []

/-- Looking a name up tries the entries in turn. -/
theorem lookup_cons_eq_if (name : String) (entry : String × α) (rest : List (String × α)) :
    (entry :: rest).lookup name = if name = entry.1 then some entry.2 else rest.lookup name := by
  obtain ⟨key, value⟩ := entry
  by_cases h : name = key
  · simp [h]
  · simp [List.lookup_cons, beq_false_of_ne h, h]

@[simp] theorem lookup_insert_self (name : String) (value : α) (entries : List (String × α)) :
    (insert name value entries).lookup name = some value := by
  induction entries with
  | nil => simp [insert]
  | cons entry rest ih =>
    simp only [insert]
    split
    · simp
    · split
      · simp
      · next hNe => simp [lookup_cons_eq_if, hNe, ih]

@[simp] theorem lookup_insert_of_ne {name other : String} (value : α)
    (entries : List (String × α)) (hNe : other ≠ name) :
    (insert name value entries).lookup other = entries.lookup other := by
  induction entries with
  | nil => simp [insert, lookup_cons_eq_if, hNe]
  | cons entry rest ih =>
    simp only [insert]
    split
    · simp [lookup_cons_eq_if, hNe]
    · split
      · next hEq => simp [lookup_cons_eq_if, ← hEq, hNe]
      · simp [lookup_cons_eq_if, ih]

theorem mem_insert {name : String} {value : α} {entries : List (String × α)} {entry : String × α}
    (h : entry ∈ insert name value entries) : entry = (name, value) ∨ entry ∈ entries := by
  induction entries with
  | nil => simpa [insert] using h
  | cons first rest ih =>
    simp only [insert] at h
    split at h
    · simpa using h
    · split at h
      · rcases List.mem_cons.1 h with h | h
        · exact .inl h
        · exact .inr (List.mem_cons_of_mem _ h)
      · rcases List.mem_cons.1 h with h | h
        · exact .inr (h ▸ List.mem_cons_self)
        · exact (ih h).imp_right (List.mem_cons_of_mem _)

/-- Inserting keeps the names ascending. -/
theorem Ascending.insert {entries : List (String × α)} (h : Ascending entries) (name : String)
    (value : α) : Ascending (Keyed.insert name value entries) := by
  induction entries with
  | nil => simp [Keyed.insert, Ascending]
  | cons entry rest ih =>
    have hRest : Ascending rest := (List.pairwise_cons.1 h).2
    have hFirst := (List.pairwise_cons.1 h).1
    simp only [Keyed.insert]
    split
    · next hLt =>
      refine List.pairwise_cons.2 ⟨?_, h⟩
      intro other hOther
      rcases List.mem_cons.1 hOther with rfl | hOther
      · exact hLt
      · exact String.lt_trans hLt (hFirst other hOther)
    · next hNotLt =>
      split
      · next hEq => exact List.pairwise_cons.2 ⟨fun other hOther => hEq ▸ hFirst other hOther, hRest⟩
      · next hNe =>
        refine List.pairwise_cons.2 ⟨?_, ih hRest⟩
        intro other hOther
        rcases mem_insert hOther with rfl | hOther
        · exact Decidable.byContradiction fun hNot =>
            hNe (String.le_antisymm hNot hNotLt)
        · exact hFirst other hOther

end TableQuery.Keyed
