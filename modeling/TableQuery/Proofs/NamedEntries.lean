import Mathlib.Data.List.Nodup
import Mathlib.Data.List.Sort
import TableQuery.Keyed

/-!
# Looking up named entries

Objects are lists of named entries, and wherever one is read, its entries are looked up by name.  If
each name occurs once, an entry is found exactly if it is there, so the order of the entries is of
no account, and sorting them by name, as `Keyed.ofList` does, loses nothing.

## Main results

* `lookup_eq_some_iff_mem` — an entry is found exactly if it is there.
* `lookup_filterMap` — what is found after entries are changed or left out one by one.
* `lookup_ofList` — sorting entries by name keeps what is found.
* `Ascending.ext` — sorted entries are the same if the same is found in them.
-/

namespace TableQuery.Keyed

variable {α : Type} {name : String} {entries : List (String × α)}

theorem lookup_eq_none_iff_not_mem : entries.lookup name = none ↔ name ∉ entries.map Prod.fst := by
  rw [List.lookup_eq_none_iff]
  simp only [bne_iff_ne, List.mem_map, not_exists, not_and]
  exact forall₂_congr fun _ _ => ne_comm

/-- An entry that is found is there. -/
theorem mem_of_lookup_eq_some {value : α} (h : entries.lookup name = some value) :
    (name, value) ∈ entries := by
  obtain ⟨before, after, rfl, -⟩ := List.lookup_eq_some_iff.1 h
  exact List.mem_append_right before List.mem_cons_self

theorem lookup_isSome_iff_mem :
    (entries.lookup name).isSome = true ↔ name ∈ entries.map Prod.fst := by
  rw [← not_iff_not, ← lookup_eq_none_iff_not_mem, Bool.not_eq_true, Option.isSome_eq_false_iff,
    Option.isNone_iff_eq_none]

/-- Where each name occurs once, an entry is found exactly if it is there. -/
theorem lookup_eq_some_iff_mem (hnames : (entries.map Prod.fst).Nodup) {value : α} :
    entries.lookup name = some value ↔ (name, value) ∈ entries := by
  refine ⟨mem_of_lookup_eq_some, fun hmem => ?_⟩
  induction entries with
  | nil => exact absurd hmem List.not_mem_nil
  | cons entry rest ih =>
      obtain ⟨hentry, hrest⟩ := List.nodup_cons.1 hnames
      rw [lookup_cons_eq_if]
      rcases List.mem_cons.1 hmem with rfl | hmem
      · rw [if_pos rfl]
      · have hne : name ≠ entry.1 := by
          rintro rfl
          exact hentry (List.mem_map.2 ⟨_, hmem, rfl⟩)
        rw [if_neg hne]
        exact ih hrest hmem

/-- Entries that are changed or left out one by one are found as if what is found were changed. -/
theorem lookup_filterMap {β : Type} (change : String → α → Option β)
    (hnames : (entries.map Prod.fst).Nodup) :
    (entries.filterMap fun entry => (change entry.1 entry.2).map (entry.1, ·)).lookup name =
      (entries.lookup name).bind (change name) := by
  induction entries with
  | nil => rfl
  | cons entry rest ih =>
      obtain ⟨hentry, hrest⟩ := List.nodup_cons.1 hnames
      rw [lookup_cons_eq_if]
      cases hchange : change entry.1 entry.2 with
      | none =>
          rw [List.filterMap_cons_none (by rw [hchange]; rfl), ih hrest]
          by_cases hname : name = entry.1
          · rw [if_pos hname, hname, lookup_eq_none_iff_not_mem.2 hentry, Option.bind_some, hchange]
            rfl
          · rw [if_neg hname]
      | some value =>
          rw [List.filterMap_cons_some (by rw [hchange]; rfl), lookup_cons_eq_if, ih hrest]
          by_cases hname : name = entry.1
          · rw [if_pos hname, if_pos hname, hname, Option.bind_some, hchange]
          · rw [if_neg hname, if_neg hname]

/-! ## Entries by name -/

/-- Names that ascend are different ones. -/
theorem Ascending.nodup (h : Ascending entries) : (entries.map Prod.fst).Nodup := by
  rw [List.Nodup, List.pairwise_map]
  refine List.Pairwise.imp ?_ h
  intro a b hlt heq
  exact String.lt_irrefl b.1 (heq ▸ hlt)

/-- Sorted entries in which every look-up finds the same are the same. -/
theorem Ascending.ext {entries' : List (String × α)} (h : Ascending entries)
    (h' : Ascending entries') (hlookup : ∀ name, entries.lookup name = entries'.lookup name) :
    entries = entries' := by
  let before (a b : String × α) : Prop := a.1 < b.1
  have : Std.Antisymm before := ⟨fun _ _ hab hba => absurd hba (String.lt_asymm hab)⟩
  have : Std.Irrefl before := ⟨fun a => String.lt_irrefl a.1⟩
  refine List.Pairwise.eq_of_mem_iff (r := before) h h' ?_
  rintro ⟨name, value⟩
  rw [← lookup_eq_some_iff_mem h.nodup, ← lookup_eq_some_iff_mem h'.nodup, hlookup]

/-- Of two entries of one name the later one stands, at the same place. -/
theorem insert_insert (name : String) (value value' : α) (entries : List (String × α)) :
    insert name value' (insert name value entries) = insert name value' entries := by
  induction entries with
  | nil => simp [insert]
  | cons entry rest ih =>
      by_cases hlt : name < entry.1
      · simp [insert, hlt]
      · by_cases heq : name = entry.1
        · simp [insert, heq]
        · simp [insert, hlt, heq, ih]

theorem ascending_ofList (pairs : List (String × α)) : Ascending (ofList pairs) := by
  suffices hfold : ∀ entries : List (String × α), Ascending entries →
      Ascending (pairs.foldl (fun entries pair => insert pair.1 pair.2 entries) entries) from
    hfold [] List.Pairwise.nil
  induction pairs with
  | nil => exact fun _ h => h
  | cons pair pairs ih => exact fun entries h => ih _ (h.insert pair.1 pair.2)

theorem nodup_ofList (pairs : List (String × α)) : ((ofList pairs).map Prod.fst).Nodup :=
  (ascending_ofList pairs).nodup

/-- Sorting brings in no entries. -/
theorem mem_of_mem_ofList {pairs : List (String × α)} {entry : String × α}
    (h : entry ∈ ofList pairs) : entry ∈ pairs := by
  suffices hfold : ∀ entries : List (String × α),
      entry ∈ pairs.foldl (fun entries pair => insert pair.1 pair.2 entries) entries →
        entry ∈ pairs ∨ entry ∈ entries from
    (hfold [] h).resolve_right List.not_mem_nil
  clear h
  induction pairs with
  | nil => exact fun _ h => .inr h
  | cons pair pairs ih =>
      intro entries h
      rcases ih _ h with h | h
      · exact .inl (List.mem_cons_of_mem pair h)
      · rcases mem_insert h with rfl | h
        · exact .inl List.mem_cons_self
        · exact .inr h

/-- Entries of different names are found after they are sorted as before. -/
theorem lookup_ofList {pairs : List (String × α)} (hnames : (pairs.map Prod.fst).Nodup)
    (name : String) : (ofList pairs).lookup name = pairs.lookup name := by
  suffices hfold : ∀ entries : List (String × α),
      (pairs.foldl (fun entries pair => insert pair.1 pair.2 entries) entries).lookup name =
        (pairs.lookup name).or (entries.lookup name) from
    (hfold []).trans (Option.or_none)
  induction pairs with
  | nil => exact fun _ => rfl
  | cons pair pairs ih =>
      obtain ⟨hpair, hpairs⟩ := List.nodup_cons.1 hnames
      intro entries
      rw [List.foldl_cons, ih hpairs, lookup_cons_eq_if]
      by_cases hname : name = pair.1
      · rw [if_pos hname, hname, lookup_eq_none_iff_not_mem.2 hpair, lookup_insert_self]
        rfl
      · rw [if_neg hname, lookup_insert_of_ne _ _ hname]

/-- Sorting brings in no names. -/
theorem mem_names_ofList {pairs : List (String × α)} (hnames : (pairs.map Prod.fst).Nodup) :
    name ∈ (ofList pairs).map Prod.fst ↔ name ∈ pairs.map Prod.fst := by
  rw [← lookup_isSome_iff_mem, ← lookup_isSome_iff_mem, lookup_ofList hnames]

end TableQuery.Keyed
