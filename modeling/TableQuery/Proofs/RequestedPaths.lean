import TableQuery.Proofs.NamedEntries
import TableQuery.Proofs.OctetOrder
import TableQuery.Proofs.RepeatedFields

/-!
# Trees of dotted paths

A dotted path adds a chain of names to a tree of requested fields, and each name goes into the
subtree that is there.  What a tree holds is seen by going down chains of names: after a path is
added these are the chains that were there before and the starts of the path, and below any other
chain nothing has changed.

A tree is no more than the chains that it holds.  So trees of the same paths are the same tree, in
whatever order and however often the paths are given, and a path that is there already changes
nothing.

## Main results

* `dive_insertNames_of_start`, `dive_insertNames_of_not_start` — one path, chain by chain.
* `isSome_dive_ofPaths_iff` — the chains of a tree of paths.
* `Ordered.ext` — trees that hold the same chains are the same.
* `requested_paths_exact` — all of this together, with the order of the names.
-/

namespace TableQuery

/-- The names written in a text are what stands between separators, stripped, where that is not
empty. -/
theorem Text.parts_eq_filter (separator : Char) (text : String) :
    parts separator text =
      ((text.toList.splitOn separator).map fun part => String.ofList (strip part)).filter
        (· ≠ "") := by
  have hempty : ∀ part : List Char, (!part.isEmpty) = decide (String.ofList part ≠ "") := by
    intro part
    cases part <;> simp [← String.toList_inj]
  rw [parts, partsOf, List.filter_map, List.filter_map, List.map_map]
  simp only [Function.comp_def, hempty]

namespace RequestedFields

variable {tree : RequestedFields}

/-! ## Chains -/

theorem contains_iff_mem_names (tree : RequestedFields) (name : String) :
    tree.contains name = true ↔ name ∈ tree.names :=
  Keyed.lookup_isSome_iff_mem

theorem isSome_dive_singleton (tree : RequestedFields) (name : String) :
    (tree.dive [name]).isSome = tree.contains name := by
  rw [dive_cons, contains]
  cases tree.get? name <;> rfl

/-- The tree of no fields holds the empty chain only. -/
theorem dive_empty (chain : List String) :
    empty.dive chain = if chain = [] then some empty else none := by
  cases chain <;> rfl

/-- A tree holds the starts of what it holds. -/
theorem isSome_dive_of_start {chain names : List String} (hstart : chain <+: names)
    (h : (tree.dive names).isSome = true) : (tree.dive chain).isSome = true := by
  obtain ⟨rest, rfl⟩ := hstart
  rw [dive_append] at h
  cases hdive : tree.dive chain with
  | none =>
      rw [hdive] at h
      exact h
  | some subtree => rfl

/-! ## Adding a path -/

/-- Below a start of an added chain stands what was there, with the rest of the chain added. -/
theorem dive_insertNames_of_start (chain rest : List String) (tree : RequestedFields) :
    (insertNames (chain ++ rest) tree).dive chain =
      some (insertNames rest ((tree.dive chain).getD empty)) := by
  induction chain generalizing tree with
  | nil => rfl
  | cons name chain ih =>
      rw [List.cons_append, insertNames, dive_cons, get?_insert_self, dive_cons]
      show (insertNames (chain ++ rest) ((tree.get? name).getD empty)).dive chain = _
      rw [ih]
      cases tree.get? name with
      | some subtree => rfl
      | none =>
          rw [Option.getD_none, dive_empty]
          split <;> rfl

/-- Below any other chain nothing changes. -/
theorem dive_insertNames_of_not_start {chain names : List String} (h : ¬ chain <+: names)
    (tree : RequestedFields) : (insertNames names tree).dive chain = tree.dive chain := by
  induction names generalizing chain tree with
  | nil => rfl
  | cons name names ih =>
      cases chain with
      | nil => exact absurd List.nil_prefix h
      | cons first chain =>
          rw [insertNames, dive_cons, dive_cons]
          by_cases hname : first = name
          · rw [List.cons_prefix_cons, not_and] at h
            have hchain := h hname
            rw [hname, get?_insert_self]
            show (insertNames names ((tree.get? name).getD empty)).dive chain = _
            rw [ih hchain]
            cases tree.get? name with
            | some subtree => rfl
            | none =>
                have hne : chain ≠ [] := by
                  rintro rfl
                  exact hchain List.nil_prefix
                rw [Option.getD_none, dive_empty, if_neg hne]
                rfl
          · rw [get?_insert_of_ne _ _ hname]

theorem isSome_dive_insertNames_iff (names chain : List String) (tree : RequestedFields) :
    ((insertNames names tree).dive chain).isSome = true ↔
      (tree.dive chain).isSome = true ∨ chain <+: names := by
  by_cases h : chain <+: names
  · obtain ⟨rest, rfl⟩ := h
    rw [dive_insertNames_of_start]
    simp
  · rw [dive_insertNames_of_not_start h]
    simp [h]

/-- A chain that is added twice is there once. -/
theorem insertNames_insertNames (names : List String) (tree : RequestedFields) :
    insertNames names (insertNames names tree) = insertNames names tree := by
  induction names generalizing tree with
  | nil => rfl
  | cons name names ih =>
      rw [insertNames, insertNames, get?_insert_self, Option.getD_some, ih]
      exact congrArg node (Keyed.insert_insert _ _ _ _)

/-! ## Trees of paths -/

theorem isSome_dive_foldl_iff (paths chain : List String) (tree : RequestedFields) :
    ((paths.foldl insertPath tree).dive chain).isSome = true ↔
      (tree.dive chain).isSome = true ∨ ∃ path ∈ paths, chain <+: pathNames path := by
  induction paths generalizing tree with
  | nil => simp
  | cons path paths ih =>
      rw [List.foldl_cons, ih, insertPath, isSome_dive_insertNames_iff, List.exists_mem_cons_iff,
        or_assoc]

/-- A tree of paths holds the starts of the paths; the empty chain is in every tree. -/
theorem isSome_dive_ofPaths_iff (paths chain : List String) :
    ((ofPaths paths).dive chain).isSome = true ↔
      chain = [] ∨ ∃ path ∈ paths, chain <+: pathNames path := by
  rw [ofPaths, isSome_dive_foldl_iff, dive_empty]
  by_cases h : chain = [] <;> simp [h]

/-! ## Order -/

/-- `tree.Ordered` holds if the names ascend at every node of a tree. -/
inductive Ordered : RequestedFields → Prop where
  | node {children : List (String × RequestedFields)} (hnames : Keyed.Ascending children)
      (hchildren : ∀ child ∈ children, Ordered child.2) : Ordered (.node children)

theorem Ordered.ascending (h : tree.Ordered) : Keyed.Ascending tree.children := by
  cases h with
  | node hnames _ => exact hnames

theorem Ordered.child (h : tree.Ordered) {child : String × RequestedFields}
    (hchild : child ∈ tree.children) : child.2.Ordered := by
  cases h with
  | node _ hchildren => exact hchildren child hchild

theorem Ordered.get? (h : tree.Ordered) {name : String} {subtree : RequestedFields}
    (hget : tree.get? name = some subtree) : subtree.Ordered :=
  h.child (Keyed.mem_of_lookup_eq_some hget)

theorem ordered_empty : empty.Ordered :=
  .node List.Pairwise.nil fun _ h => absurd h List.not_mem_nil

theorem Ordered.insert (h : tree.Ordered) (name : String) {subtree : RequestedFields}
    (hsubtree : subtree.Ordered) : (tree.insert name subtree).Ordered := by
  refine .node (h.ascending.insert name subtree) fun child hchild => ?_
  rcases Keyed.mem_insert hchild with rfl | hchild
  · exact hsubtree
  · exact h.child hchild

theorem Ordered.insertNames (h : tree.Ordered) (names : List String) :
    (insertNames names tree).Ordered := by
  induction names generalizing tree with
  | nil => exact h
  | cons name names ih =>
      refine h.insert name (ih ?_)
      cases hget : tree.get? name with
      | none => exact ordered_empty
      | some subtree => exact h.get? hget

/-- Trees of paths are ordered. -/
theorem ordered_ofPaths (paths : List String) : (ofPaths paths).Ordered := by
  suffices hfold : ∀ tree : RequestedFields, tree.Ordered →
      (paths.foldl insertPath tree).Ordered from
    hfold empty ordered_empty
  induction paths with
  | nil => exact fun _ h => h
  | cons path paths ih => exact fun tree h => ih _ (h.insertNames (pathNames path))

theorem Ordered.subtree (h : tree.Ordered) {chain : List String} {subtree : RequestedFields}
    (hdive : tree.dive chain = some subtree) : subtree.Ordered := by
  induction chain generalizing tree with
  | nil => exact Option.some.inj hdive ▸ h
  | cons name chain ih =>
      obtain ⟨child, hget, hdive⟩ := Option.bind_eq_some_iff.1 hdive
      exact ih (h.get? hget) hdive

theorem Ordered.addSelection (h : tree.Ordered) (fields : List GraphQL.SelectedField) :
    (addSelection fields tree).Ordered := by
  induction fields using GraphQL.selection_induction generalizing tree with
  | step fields ih =>
      induction fields generalizing tree with
      | nil => exact h
      | cons field rest ihRest =>
          obtain ⟨name, selections⟩ := field
          refine ihRest (fun name' selections' hmem => ih name' selections' ?_) ?_
          · exact List.mem_cons_of_mem _ hmem
          · exact h.insert name (ih name selections List.mem_cons_self ordered_empty)

/-- Ordered trees that hold the same chains are the same tree. -/
theorem Ordered.ext {tree' : RequestedFields} (h : tree.Ordered) (h' : tree'.Ordered)
    (hdive : ∀ chain, (tree.dive chain).isSome = true ↔ (tree'.dive chain).isSome = true) :
    tree = tree' := by
  induction h generalizing tree' with
  | @node children hnames hchildren ih =>
      obtain ⟨children'⟩ := tree'
      refine congrArg RequestedFields.node (hnames.ext h'.ascending fun name => ?_)
      have hname : ∀ chain, (((RequestedFields.node children).get? name).bind (dive chain)).isSome =
          true ↔ (((RequestedFields.node children').get? name).bind (dive chain)).isSome = true :=
        fun chain => hdive (name :: chain)
      show (RequestedFields.node children).get? name = (RequestedFields.node children').get? name
      cases hget : (RequestedFields.node children).get? name with
      | none =>
          cases hget' : (RequestedFields.node children').get? name with
          | none => rfl
          | some subtree' =>
              rw [hget, hget'] at hname
              exact absurd ((hname []).2 rfl) Bool.false_ne_true
      | some subtree =>
          cases hget' : (RequestedFields.node children').get? name with
          | none =>
              rw [hget, hget'] at hname
              exact absurd ((hname []).1 rfl) Bool.false_ne_true
          | some subtree' =>
              rw [hget, hget'] at hname
              exact congrArg some
                (ih _ (Keyed.mem_of_lookup_eq_some hget) (h'.get? hget') hname)

/-- A path that an ordered tree holds changes nothing. -/
theorem Ordered.insertPath_eq_self (h : tree.Ordered) {path : String}
    (hpath : (tree.dive (pathNames path)).isSome = true) : tree.insertPath path = tree := by
  refine (h.insertNames (pathNames path)).ext h fun chain => ?_
  rw [isSome_dive_insertNames_iff, or_iff_left_of_imp fun hstart =>
    isSome_dive_of_start hstart hpath]

/-- The names of an ordered tree ascend by their octets. -/
theorem Ordered.names_ascend (h : tree.Ordered) :
    tree.names.Pairwise fun a b => Text.octets a < Text.octets b := by
  rw [names, List.pairwise_map]
  exact h.ascending.imp fun hlt => Text.lt_iff_octets_lt.1 hlt

/-- A tree of requested fields holds the starts of the paths that are added to it and nothing else.

* After a path is added a chain is in the tree if it was there or is a start of the path, and below
  every chain that is no start of it the tree is as it was.
* A tree of paths holds the starts of the paths.  It is the same for the same paths, in whatever
  order and however often they are given, and a path that was added once changes nothing.
* The names of a tree that any operation makes are in order: each child is named once, and the names
  ascend by their octets. -/
theorem requested_paths_exact :
    (∀ path, pathNames path = ((path.toList.splitOn '.').map fun part =>
      String.ofList (Text.strip part)).filter (· ≠ "")) ∧
    (∀ (tree : RequestedFields) (path : String) (chain : List String),
      (((tree.insertPath path).dive chain).isSome = true ↔
        (tree.dive chain).isSome = true ∨ chain <+: pathNames path) ∧
      (¬ chain <+: pathNames path → (tree.insertPath path).dive chain = tree.dive chain)) ∧
    (∀ paths chain, ((ofPaths paths).dive chain).isSome = true ↔
      chain = [] ∨ ∃ path ∈ paths, chain <+: pathNames path) ∧
    (∀ paths paths', (∀ path, path ∈ paths ↔ path ∈ paths') → ofPaths paths = ofPaths paths') ∧
    (∀ (tree : RequestedFields) (path : String),
      (tree.insertPath path).insertPath path = tree.insertPath path) ∧
    (∀ paths, ∀ path ∈ paths, (ofPaths paths).insertPath path = ofPaths paths) ∧
    ((∀ paths, (ofPaths paths).Ordered) ∧ (∀ fields, (ofSelection fields).Ordered) ∧
      ∀ tree : RequestedFields, tree.Ordered → (∀ path, (tree.insertPath path).Ordered) ∧
        (∀ name subtree, subtree.Ordered → (tree.insert name subtree).Ordered) ∧
        ∀ chain subtree, tree.dive chain = some subtree → subtree.Ordered) ∧
    ∀ tree : RequestedFields, tree.Ordered →
      (∀ name, name ∈ tree.names ↔ (tree.dive [name]).isSome = true) ∧
      tree.names.Pairwise fun a b => Text.octets a < Text.octets b := by
  refine ⟨Text.parts_eq_filter '.', fun tree path chain => ⟨?_, fun hstart => ?_⟩,
    isSome_dive_ofPaths_iff, fun paths paths' hpaths => ?_, fun tree path => ?_,
    fun paths path hpath => ?_, ⟨ordered_ofPaths, fun fields => ?_, fun tree htree => ?_⟩,
    fun tree htree => ⟨fun name => ?_, htree.names_ascend⟩⟩
  · exact isSome_dive_insertNames_iff (pathNames path) chain tree
  · exact dive_insertNames_of_not_start hstart tree
  · refine (ordered_ofPaths paths).ext (ordered_ofPaths paths') fun chain => ?_
    simp only [isSome_dive_ofPaths_iff, hpaths]
  · exact insertNames_insertNames (pathNames path) tree
  · refine (ordered_ofPaths paths).insertPath_eq_self ?_
    exact (isSome_dive_ofPaths_iff paths _).2 (.inr ⟨path, hpath, List.prefix_rfl⟩)
  · exact ordered_empty.addSelection fields
  · exact ⟨fun path => htree.insertNames (pathNames path), fun name _ => htree.insert name,
      fun _ _ => htree.subtree⟩
  · rw [isSome_dive_singleton, contains_iff_mem_names]

/-- Three paths with blanks and empty parts, of which two meet below `edges.node`: another order with
a repetition gives the same tree, a path that is there changes nothing, and one that is not leaves
the items as they are. -/
theorem requested_paths_exact_shared_start :
    let tree := ofPaths ["edges.node.year", " edges . node .. title ", "pageInfo"]
    let node := (tree.insertPath "edges.cursor").dive ["edges", "node"]
    ofPaths ["pageInfo", " edges . node .. title ", "edges.node.year", "pageInfo"] = tree ∧
      tree.insertPath "pageInfo" = tree ∧ node = tree.dive ["edges", "node"] ∧
      node.map names = some ["title", "year"] ∧
      ∀ subtree, node = some subtree → (subtree.dive ["title"]).isSome = true ∧
        subtree.names.Pairwise fun a b => Text.octets a < Text.octets b := by
  intro tree node
  obtain ⟨-, hinsert, -, hsame, -, hagain, ⟨hpaths, -, hkeep⟩, hnames⟩ := requested_paths_exact
  obtain ⟨-, hother⟩ := hinsert tree "edges.cursor" ["edges", "node"]
  obtain ⟨hkeepPath, -, hkeepSubtree⟩ := hkeep tree (hpaths _)
  obtain ⟨-, -, hsubtree⟩ := hkeep _ (hkeepPath "edges.cursor")
  have hnode : node.map names = some ["title", "year"] := by decide
  refine ⟨hsame _ _ (by simp [or_comm, or_left_comm]), hagain _ _ (by decide),
    hother (by decide), hnode, fun subtree hsubtreeOf => ?_⟩
  obtain ⟨hmem, hascend⟩ := hnames subtree (hsubtree _ _ hsubtreeOf)
  refine ⟨(hmem "title").1 ?_, hascend⟩
  rw [hsubtreeOf, Option.map_some] at hnode
  rw [Option.some.inj hnode]
  exact List.mem_cons_self

end RequestedFields

end TableQuery
