import TableQuery.GraphQL.Selection
import TableQuery.Projection

/-!
# Repeated fields of a selection

A client may write a field several times at one place, and what it selects there is what any of
the occurrences selects.  The tree of requested fields is built by replacing: the last occurrence
of a name stands in it, and what only earlier ones select is lost.  A path added to a tree, by
contrast, goes into the subtree that is there.

So the tree holds a chain of names exactly if the client selects it through last occurrences, and
it holds all that the client selects exactly if, along the last occurrences, no earlier one selects
more than the last one of its name.

## Main results

* `Selects`, `LastSelects` — what a client selects, and what it selects through last occurrences.
* `dive_ofSelection_isSome_iff` — which chains are in the tree.
* `LastCovers` — when the tree loses nothing.
* `ofSelection_keeps_last_occurrences` — all of this together, with the columns that are marked.
-/

namespace TableQuery

namespace GraphQL

/-! ## What is selected -/

/-- `Selects fields chain` holds if a client that selects `fields` selects the last name of `chain`
below the ones before it, through any occurrences of them. -/
inductive Selects : List SelectedField → List String → Prop where
  | nil {fields : List SelectedField} : Selects fields []
  | cons {fields selections : List SelectedField} {name : String} {chain : List String}
      (hmem : .field name selections ∈ fields) (h : Selects selections chain) :
      Selects fields (name :: chain)

/-- What is selected on the last field of a name. -/
def lastNamed? (name : String) : List SelectedField → Option (List SelectedField)
  | [] => none
  | .field other selections :: rest =>
      (lastNamed? name rest).or (if other = name then some selections else none)

/-- `LastSelects fields chain` holds if the client selects `chain` through last occurrences. -/
inductive LastSelects : List SelectedField → List String → Prop where
  | nil {fields : List SelectedField} : LastSelects fields []
  | cons {fields last : List SelectedField} {name : String} {chain : List String}
      (hlast : lastNamed? name fields = some last) (h : LastSelects last chain) :
      LastSelects fields (name :: chain)

/-- `LastCovers fields` holds if whatever a field selects is also selected on the last one of its
name, at the top and inside of the last ones. -/
inductive LastCovers : List SelectedField → Prop where
  | intro {fields : List SelectedField}
      (hcovers : ∀ name selections last, .field name selections ∈ fields →
        lastNamed? name fields = some last → ∀ chain, Selects selections chain → Selects last chain)
      (hinside : ∀ name last, lastNamed? name fields = some last → LastCovers last) :
      LastCovers fields

theorem mem_of_lastNamed? {name : String} {fields last : List SelectedField}
    (h : lastNamed? name fields = some last) : .field name last ∈ fields := by
  induction fields with
  | nil => cases h
  | cons field rest ih =>
      obtain ⟨other, selections⟩ := field
      rw [lastNamed?] at h
      cases hrest : lastNamed? name rest with
      | some found =>
          rw [hrest, Option.some_or] at h
          obtain rfl := Option.some.inj h
          exact List.mem_cons_of_mem _ (ih hrest)
      | none =>
          rw [hrest, Option.none_or] at h
          by_cases hname : other = name
          · rw [if_pos hname] at h
            obtain rfl := Option.some.inj h
            rw [hname]
            exact List.mem_cons_self
          · rw [if_neg hname] at h
            cases h

/-- A name that occurs has a last occurrence. -/
theorem exists_lastNamed? {name : String} {fields selections : List SelectedField}
    (h : .field name selections ∈ fields) : ∃ last, lastNamed? name fields = some last := by
  induction fields with
  | nil => exact absurd h List.not_mem_nil
  | cons field rest ih =>
      obtain ⟨other, others⟩ := field
      rw [lastNamed?]
      cases hrest : lastNamed? name rest with
      | some found => exact ⟨found, Option.some_or⟩
      | none =>
          rcases List.mem_cons.1 h with heq | hmem
          · obtain ⟨rfl, rfl⟩ := SelectedField.field.inj heq
            exact ⟨selections, by rw [Option.none_or, if_pos rfl]⟩
          · obtain ⟨found, hfound⟩ := ih hmem
            rw [hrest] at hfound
            cases hfound

/-- A chain is selected through the last field of its first name. -/
theorem lastSelects_cons_iff {name : String} {fields last : List SelectedField}
    (h : lastNamed? name fields = some last) (chain : List String) :
    LastSelects fields (name :: chain) ↔ LastSelects last chain := by
  constructor
  · intro hselects
    cases hselects with
    | cons hlast hchain =>
        rw [h] at hlast
        obtain rfl := Option.some.inj hlast
        exact hchain
  · exact .cons h

/-- What is selected through last occurrences is selected. -/
theorem LastSelects.selects {fields : List SelectedField} {chain : List String}
    (h : LastSelects fields chain) : Selects fields chain := by
  induction h with
  | nil => exact .nil
  | cons hlast _ ih => exact .cons (mem_of_lastNamed? hlast) ih

/-- Induction over nested fields: what holds of some fields if it holds of the selections of each
of them holds of all. -/
@[elab_as_elim]
theorem selection_induction {motive : List SelectedField → Prop}
    (step : ∀ fields, (∀ name selections, .field name selections ∈ fields → motive selections) →
      motive fields)
    (fields : List SelectedField) : motive fields := by
  refine step fields ?_
  refine @SelectedField.rec_1 (fun field => ∀ name selections, field = .field name selections →
    motive selections) (fun fields => ∀ name selections, .field name selections ∈ fields →
    motive selections) ?_ ?_ ?_ fields
  · rintro name selections h _ _ ⟨⟩
    exact step selections h
  · intro name selections h
    exact absurd h List.not_mem_nil
  · intro field rest hfield hrest name selections h
    rcases List.mem_cons.1 h with heq | hmem
    · exact hfield name selections heq.symm
    · exact hrest name selections hmem

/-- Everything is selected through last occurrences exactly if these cover the others. -/
theorem forall_lastSelects_iff (fields : List SelectedField) :
    (∀ chain, Selects fields chain → LastSelects fields chain) ↔ LastCovers fields := by
  constructor
  · induction fields using selection_induction with
    | step fields ih =>
        intro h
        refine .intro ?_ ?_
        · intro name selections last hmem hlast chain hchain
          have hselects := h (name :: chain) (.cons hmem hchain)
          rw [lastSelects_cons_iff hlast] at hselects
          exact hselects.selects
        · intro name last hlast
          have hmem := mem_of_lastNamed? hlast
          refine ih name last hmem fun chain hchain => ?_
          have hselects := h (name :: chain) (.cons hmem hchain)
          rw [lastSelects_cons_iff hlast] at hselects
          exact hselects
  · intro hcovers chain
    induction chain generalizing fields with
    | nil => exact fun _ => .nil
    | cons name chain ih =>
        intro hselects
        obtain ⟨hbelow, hinside⟩ := hcovers
        cases hselects with
        | cons hmem hchain =>
            obtain ⟨last, hlast⟩ := exists_lastNamed? hmem
            exact .cons hlast
              (ih last (hinside name last hlast) (hbelow name _ last hmem hlast chain hchain))

end GraphQL

open GraphQL

/-! ## The tree -/

namespace RequestedFields

/-- Adding fields replaces the subtree of each name by that of its last field. -/
theorem get?_addSelection (fields : List SelectedField) (tree : RequestedFields) (name : String) :
    (addSelection fields tree).get? name =
      ((lastNamed? name fields).map ofSelection).or (tree.get? name) := by
  induction fields generalizing tree with
  | nil => rfl
  | cons field rest ih =>
      obtain ⟨other, selections⟩ := field
      rw [addSelection, ih, lastNamed?]
      cases hrest : lastNamed? name rest with
      | some found => rfl
      | none =>
          show (tree.insert other (ofSelection selections)).get? name = _
          by_cases hname : other = name
          · rw [if_pos hname, hname, get?_insert_self]
            rfl
          · rw [if_neg hname, get?_insert_of_ne _ _ (Ne.symm hname)]
            rfl

theorem get?_ofSelection (fields : List SelectedField) (name : String) :
    (ofSelection fields).get? name = (lastNamed? name fields).map ofSelection := by
  unfold ofSelection
  rw [get?_addSelection, get?_empty, Option.or_none]
  rfl

/-- The tree holds the chains that are selected through last occurrences. -/
theorem dive_ofSelection_isSome_iff (fields : List SelectedField) (chain : List String) :
    ((ofSelection fields).dive chain).isSome = true ↔ LastSelects fields chain := by
  induction chain generalizing fields with
  | nil => exact ⟨fun _ => .nil, fun _ => rfl⟩
  | cons name chain ih =>
      rw [dive_cons, get?_ofSelection]
      cases hlast : lastNamed? name fields with
      | none =>
          constructor
          · intro h
            exact Bool.noConfusion h
          · intro h
            cases h with
            | cons hlast' _ =>
                rw [hlast] at hlast'
                cases hlast'
      | some last =>
          show ((ofSelection last).dive chain).isSome = true ↔ _
          rw [ih last, lastSelects_cons_iff hlast]

/-- Going down a chain goes down its start first. -/
theorem dive_append (tree : RequestedFields) (chain chain' : List String) :
    tree.dive (chain ++ chain') = (tree.dive chain).bind (dive chain') := by
  induction chain generalizing tree with
  | nil => rfl
  | cons name chain ih =>
      rw [List.cons_append, dive_cons, dive_cons]
      cases tree.get? name with
      | none => rfl
      | some subtree => exact ih subtree

end RequestedFields

/-! ## Columns -/

open ProjectedField RequestedFields

/-- A field is marked exactly if it was, or if a name of it is below the path of items. -/
theorem Projection.isSelected_markConnection {projection : Projection} {index : Nat}
    {field : ProjectedField} (h : projection.field? index = some field)
    (requested : RequestedFields) :
    (projection.markConnection requested).isSelected index = true ↔
      field.selected = true ∨ ∃ name ∈ aliasNames field.aliases,
        (requested.dive (connectionPath ++ [name])).isSome = true := by
  unfold markConnection
  cases hdive : requested.dive connectionPath with
  | none =>
      show projection.isSelected index = true ↔ _
      unfold isSelected
      rw [h]
      simp [dive_append, hdive]
  | some node =>
      have hname : ∀ name, requested.dive (connectionPath ++ [name]) = node.get? name := by
        intro name
        rw [dive_append, hdive]
        exact Option.bind_fun_some (node.get? name)
      show (projection.markRequested node).isSelected index = true ↔ _
      rw [isSelected_markRequested, h]
      simp only [Option.any_some, Bool.or_eq_true, isRequested, List.any_eq_true, contains, hname]

/-- What the tree of a selection keeps.  Of the chains that a client selects it holds those that go
through last occurrences, and all of them exactly if these cover the others; a column is marked
exactly if it was, or if the client selects a name of it below the path of items through last
occurrences. -/
theorem ofSelection_keeps_last_occurrences (fields : List SelectedField) :
    (∀ chain, ((ofSelection fields).dive chain).isSome = true ↔ LastSelects fields chain) ∧
      ((∀ chain, Selects fields chain → ((ofSelection fields).dive chain).isSome = true) ↔
        LastCovers fields) ∧
      ∀ (projection : Projection) (index : Nat) (field : ProjectedField),
        projection.field? index = some field →
          ((projection.markConnection (ofSelection fields)).isSelected index = true ↔
            field.selected = true ∨ ∃ name ∈ aliasNames field.aliases,
              LastSelects fields (Projection.connectionPath ++ [name])) := by
  refine ⟨dive_ofSelection_isSome_iff fields, ?_, ?_⟩
  · rw [← forall_lastSelects_iff]
    exact forall_congr' fun chain => imp_congr_right fun _ =>
      dive_ofSelection_isSome_iff fields chain
  · intro projection index field h
    rw [Projection.isSelected_markConnection h]
    simp only [dive_ofSelection_isSome_iff]

/-- A second field of a name hides what the first one selects: the title of the items is selected,
but it is not in the tree, and its column is not marked. -/
theorem ofSelection_loses_repeated_field :
    let fields : List SelectedField :=
      [.field "edges" [.field "node" [.field "title" []]], .field "edges" [.field "cursor" []]]
    Selects fields ["edges", "node", "title"] ∧
      ((ofSelection fields).dive ["edges", "node", "title"]).isSome = false ∧
      ((Projection.ofColumns ["title"]).markConnection (ofSelection fields)).selectedColumns =
        [] := by
  intro fields
  refine ⟨?_, by decide, by decide⟩
  exact .cons List.mem_cons_self (.cons List.mem_cons_self (.cons List.mem_cons_self .nil))

end TableQuery
