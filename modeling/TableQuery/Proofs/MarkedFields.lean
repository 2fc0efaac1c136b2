import TableQuery.Proofs.CountAndData
import TableQuery.Proofs.RequestedPaths

/-!
# Marked fields

A projection lists the columns that may be returned, and what a client asks for is marked in it.
Marking sets marks and nothing else: it is decided field by field from the aliases alone, so the
order in which trees are marked does not count, and marking again changes nothing.

A walk over the indices that reads each field of the projection and sets its mark there ends in the
same projection, although it changes what it reads: what has been passed is marked, what is ahead is
as it was.

## Main results

* `field?_foldl_markAt` — the walk after any number of steps.
* `Projection.Marks` — marking exactly the fields that a client asks for.
* `Request.sql_of_build` — the columns that the query of a plan names.
* `marking_exact` — all of this together.
-/

namespace TableQuery

namespace ProjectedField

/-- The names of a list of aliases are what stands between commas, stripped, where that is neither
empty nor the sign for no name. -/
theorem aliasNames_eq_filter (aliases : String) :
    aliasNames aliases =
      (((aliases.toList.splitOn ',').map fun part => String.ofList (Text.strip part)).filter
        (· ≠ "")).filter (· ≠ "-") := by
  rw [aliasNames, Text.parts_eq_filter]
  rfl

theorem isRequested_iff (requested : RequestedFields) (field : ProjectedField) :
    field.isRequested requested = true ↔
      ∃ name ∈ aliasNames field.aliases, name ∈ requested.names := by
  simp only [isRequested, List.any_eq_true, RequestedFields.contains_iff_mem_names]

theorem mark_mark (requested : RequestedFields) (field : ProjectedField) :
    (field.mark requested).mark requested = field.mark requested := by
  simp only [mark, ProjectedField.mk.injEq, true_and]
  show ((field.selected || _) || field.isRequested requested) = _
  rw [Bool.or_assoc, Bool.or_self]

theorem mark_comm (requested requested' : RequestedFields) (field : ProjectedField) :
    (field.mark requested).mark requested' = (field.mark requested').mark requested := by
  simp only [mark, ProjectedField.mk.injEq, true_and]
  show ((field.selected || field.isRequested requested) || field.isRequested requested') =
    ((field.selected || field.isRequested requested') || field.isRequested requested)
  rw [Bool.or_right_comm]

end ProjectedField

namespace Projection

open ProjectedField

variable {projection : Projection}

/-! ## Walking over the indices -/

theorem ext_field? {projection' : Projection}
    (h : ∀ index, projection.field? index = projection'.field? index) :
    projection = projection' := by
  obtain ⟨fields⟩ := projection
  obtain ⟨fields'⟩ := projection'
  exact congrArg Projection.mk (List.ext_getElem? h)

/-- One step of a walk: the field at an index is marked if a client asks for it. -/
def markAt (requested : RequestedFields) (projection : Projection) (index : Nat) : Projection :=
  match projection.field? index with
  | some field =>
    if field.isRequested requested then projection.setSelected index true else projection
  | none => projection

theorem field?_setSelected (projection : Projection) (place index : Nat) (selected : Bool) :
    (projection.setSelected place selected).field? index =
      if index = place then (projection.field? index).map fun field => { field with selected }
      else projection.field? index := by
  rw [field?, setSelected, List.getElem?_modify]
  by_cases hplace : index = place
  · simp only [if_pos hplace, if_pos hplace.symm]
    rfl
  · simp only [if_neg hplace, if_neg (Ne.symm hplace)]
    exact Option.map_id_apply

/-- A step marks the field at its index and leaves the others as they are. -/
theorem field?_markAt (requested : RequestedFields) (projection : Projection) (place index : Nat) :
    (projection.markAt requested place).field? index =
      if index = place then (projection.field? index).map (mark requested)
      else projection.field? index := by
  unfold markAt
  cases hfield : projection.field? place with
  | none =>
      by_cases hplace : index = place
      · rw [if_pos hplace, hplace, hfield]
        rfl
      · rw [if_neg hplace]
  | some field =>
      by_cases hrequested : field.isRequested requested = true
      · simp only [if_pos hrequested, field?_setSelected]
        by_cases hplace : index = place
        · rw [if_pos hplace, if_pos hplace, hplace, hfield, Option.map_some, Option.map_some, mark,
            hrequested, Bool.or_true]
        · rw [if_neg hplace, if_neg hplace]
      · simp only [if_neg hrequested]
        by_cases hplace : index = place
        · rw [if_pos hplace, hplace, hfield, Option.map_some, mark,
            Bool.eq_false_iff.2 hrequested, Bool.or_false]
        · rw [if_neg hplace]

/-- After some steps the fields that have been passed are marked, and those ahead are as they
were. -/
theorem field?_foldl_markAt (requested : RequestedFields) (projection : Projection)
    (steps index : Nat) :
    ((List.range steps).foldl (markAt requested) projection).field? index =
      if index < steps then (projection.field? index).map (mark requested)
      else projection.field? index := by
  induction steps with
  | zero => rfl
  | succ steps ih =>
      rw [List.range_succ, List.foldl_append, List.foldl_cons, List.foldl_nil, field?_markAt, ih]
      by_cases hplace : index = steps
      · rw [if_pos hplace, if_neg (by omega), if_pos (by omega)]
      · rw [if_neg hplace]
        by_cases hlt : index < steps
        · rw [if_pos hlt, if_pos (by omega)]
        · rw [if_neg hlt, if_neg (by omega)]

theorem field?_markRequested (requested : RequestedFields) (projection : Projection)
    (index : Nat) : (projection.markRequested requested).field? index =
      (projection.field? index).map (mark requested) :=
  List.getElem?_map

/-- The walk over all indices marks what a client asks for. -/
theorem foldl_markAt_eq (requested : RequestedFields) (projection : Projection) :
    (List.range projection.fields.length).foldl (markAt requested) projection =
      projection.markRequested requested := by
  refine ext_field? fun index => ?_
  rw [field?_foldl_markAt, field?_markRequested]
  by_cases hlt : index < projection.fields.length
  · rw [if_pos hlt]
  · rw [if_neg hlt, field?, List.getElem?_eq_none (by omega)]
    rfl

/-! ## What marking does -/

/-- `before.Marks wanted after` holds if `after` is `before` with a mark at every field one of whose
names is wanted. -/
structure Marks (wanted : String → Prop) (before after : Projection) : Prop where
  size : after.fields.length = before.fields.length
  kept : ∀ index, (after.field? index).map (fun field => (field.column, field.aliases)) =
    (before.field? index).map fun field => (field.column, field.aliases)
  selected : ∀ index, after.isSelected index = true ↔ before.isSelected index = true ∨
    ∃ field, before.field? index = some field ∧ ∃ name ∈ aliasNames field.aliases, wanted name

theorem Marks.imp {wanted wanted' : String → Prop} {after : Projection}
    (h : projection.Marks wanted after) (hwanted : ∀ name, wanted name ↔ wanted' name) :
    projection.Marks wanted' after := by
  obtain rfl : wanted = wanted' := funext fun name => propext (hwanted name)
  exact h

theorem marks_markRequested (projection : Projection) (requested : RequestedFields) :
    projection.Marks (· ∈ requested.names) (projection.markRequested requested) := by
  refine ⟨length_fields_markRequested projection requested, fun index => ?_, fun index => ?_⟩
  · rw [field?_markRequested, Option.map_map]
    rfl
  · rw [isSelected_markRequested, isSelected]
    cases projection.field? index with
    | none => simp
    | some field =>
        simp only [Option.any_some, Bool.or_eq_true, isRequested_iff, Option.some.injEq,
          exists_eq_left']

/-- A name is below the path of items exactly if it is a name of the items. -/
theorem isSome_dive_connection {requested node : RequestedFields}
    (h : requested.dive connectionPath = some node) (name : String) :
    (requested.dive (connectionPath ++ [name])).isSome = true ↔ name ∈ node.names := by
  rw [RequestedFields.dive_append, h, Option.bind_some, RequestedFields.isSome_dive_singleton,
    RequestedFields.contains_iff_mem_names]

theorem markConnection_of_some {requested node : RequestedFields}
    (h : requested.dive connectionPath = some node) (projection : Projection) :
    projection.markConnection requested = projection.markRequested node := by
  rw [markConnection, h]

theorem markConnection_of_none {requested : RequestedFields}
    (h : requested.dive connectionPath = none) (projection : Projection) :
    projection.markConnection requested = projection := by
  rw [markConnection, h]

theorem marks_markConnection (projection : Projection) (requested : RequestedFields) :
    projection.Marks (fun name => (requested.dive (connectionPath ++ [name])).isSome = true)
      (projection.markConnection requested) := by
  cases hdive : requested.dive connectionPath with
  | some node =>
      rw [markConnection_of_some hdive]
      exact (projection.marks_markRequested node).imp fun name =>
        (isSome_dive_connection hdive name).symm
  | none =>
      have hnone : ∀ name, requested.dive (connectionPath ++ [name]) = none := fun name => by
        rw [RequestedFields.dive_append, hdive, Option.bind_none]
      rw [markConnection_of_none hdive]
      exact ⟨rfl, fun _ => rfl, fun index => by simp [hnone]⟩

/-! ## Marking several trees -/

theorem markRequested_markRequested (projection : Projection) (requested : RequestedFields) :
    (projection.markRequested requested).markRequested requested =
      projection.markRequested requested := by
  refine ext_field? fun index => ?_
  simp only [field?_markRequested, Option.map_map, Function.comp_def, mark_mark]

theorem markRequested_comm (projection : Projection) (requested requested' : RequestedFields) :
    (projection.markRequested requested).markRequested requested' =
      (projection.markRequested requested').markRequested requested := by
  refine ext_field? fun index => ?_
  simp only [field?_markRequested, Option.map_map, Function.comp_def, mark_comm requested]

theorem markConnection_markConnection (projection : Projection) (requested : RequestedFields) :
    (projection.markConnection requested).markConnection requested =
      projection.markConnection requested := by
  cases hdive : requested.dive connectionPath with
  | none => simp only [markConnection_of_none hdive]
  | some node => simp only [markConnection_of_some hdive, markRequested_markRequested]

theorem markConnection_comm (projection : Projection) (requested requested' : RequestedFields) :
    (projection.markConnection requested).markConnection requested' =
      (projection.markConnection requested').markConnection requested := by
  cases hdive : requested.dive connectionPath with
  | none => simp only [markConnection_of_none hdive]
  | some node =>
      simp only [markConnection_of_some hdive]
      cases hdive' : requested'.dive connectionPath with
      | none => simp only [markConnection_of_none hdive']
      | some node' => simp only [markConnection_of_some hdive', markRequested_comm _ node]

/-! ## Columns -/

/-- The selected columns are those at the marked indices, in the order of the indices. -/
theorem selectedColumns_eq_filterMap (projection : Projection) :
    projection.selectedColumns = (List.range projection.fields.length).filterMap fun index =>
      if projection.isSelected index then (projection.field? index).map column else none := by
  obtain ⟨fields⟩ := projection
  induction fields with
  | nil => rfl
  | cons field fields ih =>
      rw [List.length_cons, List.range_succ_eq_map, List.filterMap_cons, List.filterMap_map]
      have hrest : (Projection.mk fields).selectedColumns = List.filterMap ((fun index =>
          if (Projection.mk (field :: fields)).isSelected index then
            ((Projection.mk (field :: fields)).field? index).map column else none) ∘ Nat.succ)
          (List.range fields.length) := ih
      rw [← hrest]
      cases hselected : field.selected with
      | true => simp [selectedColumns, isSelected, field?, hselected]
      | false => simp [selectedColumns, isSelected, field?, hselected]

end Projection

/-- The columns that a query is asked for are those it is written with. -/
theorem Select.columnsSql_of_withColumns {query select : Select} {columns : List String}
    (h : query.withColumns columns = .ok select) : select.columnsSql = columnsText columns := by
  obtain ⟨names, hnames, rfl⟩ := withColumns_eq_ok_iff.1 h
  rw [columnsText, ← Identifier.map_name_of_mapM hnames, List.isEmpty_map]
  rfl

/-- The query of a plan names the columns of its request; none stand for all. -/
theorem Request.sql_of_build {request : Request} {plan : Plan} (h : request.build = .ok plan) :
    ∃ rest, plan.select.sql = "SELECT " ++ columnsText request.columns ++ " FROM " ++ rest := by
  obtain ⟨-, _, _, _, select, -, -, -, hselect, rfl⟩ := build_eq_ok_iff.1 h
  rw [← Select.columnsSql_of_withColumns hselect]
  exact ⟨_, by simp only [Select.sql, String.append_assoc]; rfl⟩

namespace Projection

open ProjectedField

/-- Marking a projection, whatever is marked in it already.

* A field is marked afterwards exactly if it was or if one of its names is a child of the tree;
  where the tree of a connection is given, if one of its names is below `edges.node`.  Columns and
  aliases stay, in number and in order.
* A walk over the indices that reads and marks one field after the other comes to the same.
* Marking again changes nothing, no mark is removed, and the order of two trees does not count.
* The selected columns are those at the marked indices, in order, and where there are none, the
  query of a request asks for all. -/
theorem marking_exact (projection : Projection) (requested : RequestedFields) :
    (∀ aliases, aliasNames aliases =
      (((aliases.toList.splitOn ',').map fun part => String.ofList (Text.strip part)).filter
        (· ≠ "")).filter (· ≠ "-")) ∧
    projection.Marks (· ∈ requested.names) (projection.markRequested requested) ∧
    projection.Marks (fun name => (requested.dive ["edges", "node", name]).isSome = true)
      (projection.markConnection requested) ∧
    (requested.dive ["edges", "node"] = none → projection.markConnection requested = projection) ∧
    (List.range projection.fields.length).foldl (markAt requested) projection =
      projection.markRequested requested ∧
    ((projection.markRequested requested).markRequested requested =
        projection.markRequested requested ∧
      (projection.markConnection requested).markConnection requested =
        projection.markConnection requested) ∧
    (∀ index, projection.isSelected index = true →
      (projection.markRequested requested).isSelected index = true ∧
        (projection.markConnection requested).isSelected index = true) ∧
    (∀ requested', (projection.markRequested requested).markRequested requested' =
        (projection.markRequested requested').markRequested requested ∧
      (projection.markConnection requested).markConnection requested' =
        (projection.markConnection requested').markConnection requested) ∧
    projection.selectedColumns = ((List.range projection.fields.length).filterMap fun index =>
      if projection.isSelected index then (projection.field? index).map column else none) ∧
    ∀ (request : Request) (plan : Plan), (request.projection projection).build = .ok plan →
      ∃ rest, plan.select.sql = "SELECT " ++ (if projection.selectedColumns = [] then "*" else
        ", ".intercalate projection.selectedColumns) ++ " FROM " ++ rest := by
  have hmarked := projection.marks_markRequested requested
  have hconnection := projection.marks_markConnection requested
  refine ⟨aliasNames_eq_filter, hmarked, hconnection, (markConnection_of_none · projection),
    foldl_markAt_eq requested projection,
    ⟨projection.markRequested_markRequested requested,
      projection.markConnection_markConnection requested⟩, fun index hselected => ?_,
    fun requested' => ⟨projection.markRequested_comm requested requested',
      projection.markConnection_comm requested requested'⟩,
    projection.selectedColumns_eq_filterMap, fun request plan h => ?_⟩
  · exact ⟨(hmarked.selected index).2 (.inl hselected),
      (hconnection.selected index).2 (.inl hselected)⟩
  · obtain ⟨rest, hsql⟩ := Request.sql_of_build h
    refine ⟨rest, hsql.trans ?_⟩
    simp only [columnsText, List.isEmpty_iff]
    rfl

/-- Three columns of which two are asked for, one by its second alias and one by an alias among
blanks and empty ones; the sign for no name asks for nothing.  Before they are marked the query asks
for all columns, and a tree without items marks nothing. -/
theorem marking_exact_films :
    let films : Projection :=
      ((({} : Projection).withAliases "title" "title,Title").withAliases "year"
        "-, releaseYear ,").withAliases "secret" "-"
    let requested := RequestedFields.ofPaths ["Title", "releaseYear.digits", "-"]
    let marked := films.markRequested requested
    let request : Request := { table := "films" }
    marked.isSelected 1 = true ∧ marked.isSelected 2 = false ∧
      (marked.markRequested requested).isSelected 1 = true ∧
      films.markConnection requested = films ∧
      (∃ plan rest, (request.projection films).build = .ok plan ∧
        plan.select.sql = "SELECT * FROM " ++ rest) ∧
      ∃ plan rest, (request.projection marked).build = .ok plan ∧
        plan.select.sql = "SELECT title, year FROM " ++ rest := by
  intro films requested marked request
  obtain ⟨-, -, -, hnone, -, -, -, -, -, hsql⟩ := marking_exact films requested
  obtain ⟨-, -, -, -, -, -, hkept, -, -, hsqlMarked⟩ := marking_exact marked requested
  have hyear : marked.isSelected 1 = true := by decide
  have hall : films.selectedColumns = [] := by decide
  obtain ⟨plan, hplan⟩ : ∃ plan, (request.projection films).build = .ok plan := by
    rw [Request.projection, hall]
    show ∃ plan, Request.build { table := "films", columns := [] } = .ok plan
    exact ⟨_, rfl⟩
  have hcolumns : marked.selectedColumns = ["title", "year"] := by decide
  obtain ⟨plan', hplan'⟩ : ∃ plan, (request.projection marked).build = .ok plan := by
    rw [Request.projection, hcolumns]
    show ∃ plan, Request.build { table := "films", columns := ["title", "year"] } = .ok plan
    exact ⟨_, rfl⟩
  obtain ⟨rest, hrest⟩ := hsql request plan hplan
  obtain ⟨rest', hrest'⟩ := hsqlMarked request plan' hplan'
  refine ⟨hyear, by decide, (hkept 1 hyear).1, hnone (by decide), ⟨plan, rest, hplan, hrest⟩,
    plan', rest', hplan', ?_⟩
  rw [hrest', hcolumns]
  rfl

end Projection

end TableQuery
