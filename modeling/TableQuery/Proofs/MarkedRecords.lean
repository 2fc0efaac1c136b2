import TableQuery.Proofs.MarkedFields
import TableQuery.Proofs.ProjectionDeclarations

/-!
# Records that choose columns

A record of a declared type holds its marks in fields of its own, among others that mark nothing,
while a projection holds columns, aliases and marks side by side.  The plan leads from an index to
the field that holds the mark.  As long as no two fields have the same name, a mark is set in that
field alone, so a record and the projection with the columns of its plan agree at every index, and
go on to do so whatever is marked in both.

What is kept by each step is one relation (`MarkedRecord.Tracks`).  Marking is made of setting marks
at one index after the other, so the relation is shown for that, and carried over to everything
else.

## Main results

* `Tracks.setSelected` — setting the mark at an index.
* `Tracks.apply`, `Tracks.run` — one step, and any steps.
* `MarkedRecord.declared_projections_agree` — declared projections and those made by hand.
-/

namespace TableQuery

/-- What is done to a projection. -/
inductive MarkStep where
  /-- The columns are marked that a client asks for. -/
  | requested (tree : RequestedFields)
  /-- The columns are marked that a client asks for of the items of a page. -/
  | connection (tree : RequestedFields)
  /-- The mark at an index is set or taken away. -/
  | set (index : Nat) (selected : Bool)

namespace Projection

variable {projection : Projection}

/-- The projection after a step. -/
def apply (projection : Projection) : MarkStep → Projection
  | .requested tree => projection.markRequested tree
  | .connection tree => projection.markConnection tree
  | .set index selected => projection.setSelected index selected

/-- The projection after some steps. -/
def run (projection : Projection) (steps : List MarkStep) : Projection := steps.foldl apply projection

theorem isSelected_setSelected (projection : Projection) (place index : Nat) (selected : Bool) :
    (projection.setSelected place selected).isSelected index =
      if index = place then (projection.field? index).isSome && selected
      else projection.isSelected index := by
  rw [isSelected, field?_setSelected]
  by_cases hplace : index = place
  · rw [if_pos hplace, if_pos hplace]
    cases projection.field? index <;> rfl
  · rw [if_neg hplace, if_neg hplace]
    rfl

/-- Past the end nothing is set. -/
theorem setSelected_of_none {place : Nat} (h : projection.field? place = none)
    (selected : Bool) : projection.setSelected place selected = projection := by
  refine ext_field? fun index => ?_
  rw [field?_setSelected]
  by_cases hplace : index = place
  · rw [if_pos hplace, hplace, h]
    rfl
  · rw [if_neg hplace]

/-- The column and the aliases at each index. -/
def columns (projection : Projection) : List (String × String) :=
  projection.fields.map fun field => (field.column, field.aliases)

theorem getElem?_columns (projection : Projection) (index : Nat) :
    projection.columns[index]? =
      (projection.field? index).map fun field => (field.column, field.aliases) :=
  List.getElem?_map

theorem columns_setSelected (projection : Projection) (place : Nat) (selected : Bool) :
    (projection.setSelected place selected).columns = projection.columns := by
  refine List.ext_getElem? fun index => ?_
  rw [getElem?_columns, getElem?_columns, field?_setSelected]
  by_cases hplace : index = place
  · rw [if_pos hplace, Option.map_map]
    rfl
  · rw [if_neg hplace]

end Projection

namespace MarkedRecord

variable {start record : MarkedRecord} {projection : Projection}

/-- The record after a step. -/
def apply (record : MarkedRecord) : MarkStep → MarkedRecord
  | .requested tree => record.markRequested tree
  | .connection tree => record.markConnection tree
  | .set index selected => record.setSelected index selected

/-- The record after some steps. -/
def run (record : MarkedRecord) (steps : List MarkStep) : MarkedRecord := steps.foldl apply record

/-- One step of a walk: the column at an index is chosen if a client asks for it. -/
def markAt (requested : RequestedFields) (record : MarkedRecord) (index : Nat) : MarkedRecord :=
  match record.field? index with
  | some (_, aliases) =>
    if (ProjectedField.aliasNames aliases).any requested.contains then
      record.setSelected index true
    else record
  | none => record

/-! ## Flags of a record -/

theorem lookup_setFlag_of_ne {name other : String} (h : other ≠ name) (selected : Bool)
    (values : List (String × MarkedValue)) :
    (setFlag name selected values).lookup other = values.lookup other := by
  induction values with
  | nil => rfl
  | cons entry values ih =>
      rw [setFlag, List.map_cons, Keyed.lookup_cons_eq_if, Keyed.lookup_cons_eq_if]
      by_cases hentry : entry.1 = name
      · rw [if_pos hentry, if_neg h, if_neg (hentry ▸ h)]
        exact ih
      · rw [if_neg hentry]
        exact congrArg (ite _ _) ih

/-- A flag that is there is set. -/
theorem lookup_setFlag_self {name : String} {values : List (String × MarkedValue)}
    {value : MarkedValue} (h : values.lookup name = some value) (selected : Bool) :
    (setFlag name selected values).lookup name = some (.flag selected) := by
  induction values with
  | nil => cases h
  | cons entry values ih =>
      rw [setFlag, List.map_cons, Keyed.lookup_cons_eq_if]
      rw [Keyed.lookup_cons_eq_if] at h
      by_cases hentry : name = entry.1
      · rw [if_pos hentry.symm, if_pos rfl]
      · rw [if_neg hentry] at h
        rw [if_neg (Ne.symm hentry), if_neg hentry]
        exact ih h

/-! ## Records and projections -/

/-- `start.Tracks record projection` holds if a record differs from where it started in the flags of
its plan only, whose fields have different names, and agrees with a projection: both have the same
columns with the same aliases, and the flag of each field is the mark at its index. -/
structure Tracks (start record : MarkedRecord) (projection : Projection) : Prop where
  plan : record.plan = start.plan
  names : (start.plan.marks.map MarkField.name).Nodup
  columns : projection.columns = start.plan.marks.map fun mark => (mark.column, mark.aliases)
  flags : ∀ index mark, start.plan.marks[index]? = some mark →
    record.values.lookup mark.name = some (.flag (projection.isSelected index))
  others : ∀ name, name ∉ start.plan.marks.map MarkField.name →
    record.values.lookup name = start.values.lookup name

/-- `record.Agrees projection` holds if nothing that a projection is asked tells a record from it. -/
structure Agrees (record : MarkedRecord) (projection : Projection) : Prop where
  size : record.size = projection.fields.length
  field? : ∀ index, record.field? index =
    (projection.field? index).map fun field => (field.column, field.aliases)
  isSelected : ∀ index, record.isSelected index = projection.isSelected index
  selectedColumns : record.selectedColumns = projection.selectedColumns

namespace Tracks

theorem size_eq (h : start.Tracks record projection) :
    record.size = projection.fields.length := by
  have hlength := congrArg List.length h.columns
  rw [Projection.columns, List.length_map, List.length_map] at hlength
  rw [size, h.plan, hlength]

theorem field?_eq (h : start.Tracks record projection) (index : Nat) :
    record.field? index =
      (projection.field? index).map fun field => (field.column, field.aliases) := by
  rw [field?, h.plan, ← List.getElem?_map, ← h.columns, Projection.getElem?_columns]

theorem field?_eq_none_iff (h : start.Tracks record projection) (index : Nat) :
    projection.field? index = none ↔ start.plan.marks[index]? = none := by
  have hfield := h.field?_eq index
  rw [field?, h.plan] at hfield
  rw [← Option.map_eq_none_iff, ← hfield, Option.map_eq_none_iff]

theorem isSelected_eq (h : start.Tracks record projection) (index : Nat) :
    record.isSelected index = projection.isSelected index := by
  rw [isSelected, h.plan]
  cases hmark : start.plan.marks[index]? with
  | none =>
      rw [Projection.isSelected, (h.field?_eq_none_iff index).2 hmark]
      rfl
  | some mark =>
      rw [Option.any_some, h.flags index mark hmark]
      simp

/-- The chosen columns are read off the indices. -/
theorem selectedColumns_eq (h : start.Tracks record projection) :
    record.selectedColumns = projection.selectedColumns := by
  rw [projection.selectedColumns_eq_filterMap, selectedColumns, h.size_eq]
  refine List.filterMap_congr fun index _ => ?_
  rw [h.isSelected_eq, h.field?_eq, Option.map_map]
  rfl

theorem agrees (h : start.Tracks record projection) : record.Agrees projection :=
  ⟨h.size_eq, h.field?_eq, h.isSelected_eq, h.selectedColumns_eq⟩

/-! ## Steps -/

/-- A mark is set in the field at its index alone, since the names of fields differ. -/
theorem setSelected (h : start.Tracks record projection) (place : Nat) (selected : Bool) :
    start.Tracks (record.setSelected place selected) (projection.setSelected place selected) := by
  cases hplace : start.plan.marks[place]? with
  | none =>
      have hrecord : record.setSelected place selected = record := by
        rw [MarkedRecord.setSelected, h.plan, hplace]
      rw [hrecord, Projection.setSelected_of_none ((h.field?_eq_none_iff place).2 hplace)]
      exact h
  | some mark =>
      have hrecord : record.setSelected place selected =
          { record with values := setFlag mark.name selected record.values } := by
        rw [MarkedRecord.setSelected, h.plan, hplace]
      have hsome : (projection.field? place).isSome = true := by
        rw [Option.isSome_iff_ne_none, ne_eq, h.field?_eq_none_iff, hplace]
        exact Option.some_ne_none mark
      rw [hrecord]
      refine ⟨h.plan, h.names, (projection.columns_setSelected place selected).trans h.columns,
        fun index other hother => ?_, fun name hname => ?_⟩
      · rw [Projection.isSelected_setSelected]
        by_cases hindex : index = place
        · subst hindex
          obtain rfl := Option.some.inj (hplace.symm.trans hother)
          rw [if_pos rfl, hsome, Bool.true_and]
          exact lookup_setFlag_self (h.flags index mark hplace) selected
        · have hne : other.name ≠ mark.name := by
            intro heq
            refine hindex ((List.getElem?_inj ?_ h.names).1 ?_)
            · rw [List.length_map]
              exact (List.getElem?_eq_some_iff.1 hother).1
            · rw [List.getElem?_map, List.getElem?_map, hother, hplace, Option.map_some,
                Option.map_some, heq]
          rw [if_neg hindex]
          exact (lookup_setFlag_of_ne hne selected _).trans (h.flags index other hother)
      · have hne : name ≠ mark.name := fun heq =>
          hname (heq ▸ List.mem_map_of_mem (List.mem_of_getElem? hplace))
        exact (lookup_setFlag_of_ne hne selected _).trans (h.others name hname)

/-- One step of a walk over the indices marks the same in both. -/
theorem markAt (h : start.Tracks record projection) (requested : RequestedFields) (index : Nat) :
    start.Tracks (record.markAt requested index) (projection.markAt requested index) := by
  rw [MarkedRecord.markAt, h.field?_eq, Projection.markAt]
  cases projection.field? index with
  | none => exact h
  | some field =>
      show start.Tracks (if (ProjectedField.aliasNames field.aliases).any requested.contains then _
        else _) (if field.isRequested requested then _ else _)
      rw [ProjectedField.isRequested]
      split
      · exact h.setSelected index true
      · exact h

theorem foldl_markAt (h : start.Tracks record projection) (requested : RequestedFields)
    (indices : List Nat) :
    start.Tracks (indices.foldl (MarkedRecord.markAt requested) record)
      (indices.foldl (Projection.markAt requested) projection) := by
  induction indices generalizing record projection with
  | nil => exact h
  | cons index indices ih => exact ih (h.markAt requested index)

/-- A record is marked index by index, and so comes to what marking does to a projection. -/
theorem markRequested (h : start.Tracks record projection) (requested : RequestedFields) :
    start.Tracks (record.markRequested requested) (projection.markRequested requested) := by
  rw [← Projection.foldl_markAt_eq, ← h.size_eq]
  exact h.foldl_markAt requested (List.range record.size)

theorem markConnection (h : start.Tracks record projection) (requested : RequestedFields) :
    start.Tracks (record.markConnection requested) (projection.markConnection requested) := by
  rw [MarkedRecord.markConnection, Projection.markConnection]
  cases requested.dive Projection.connectionPath with
  | none => exact h
  | some node => exact h.markRequested node

theorem apply (h : start.Tracks record projection) (step : MarkStep) :
    start.Tracks (record.apply step) (projection.apply step) := by
  cases step with
  | requested tree => exact h.markRequested tree
  | connection tree => exact h.markConnection tree
  | set index selected => exact h.setSelected index selected

/-- What a step keeps, any steps keep. -/
theorem run (h : start.Tracks record projection) (steps : List MarkStep) :
    start.Tracks (record.run steps) (projection.run steps) := by
  induction steps generalizing record projection with
  | nil => exact h
  | cons step steps ih => exact ih (h.apply step)

end Tracks

end MarkedRecord

/-! ## Declared projections -/

/-- The projection that is made by hand for a declaration: with each tagged field in its order, the
column that it marks and its aliases. -/
def Declaration.projection (declaration : Declaration) : Projection :=
  (declaration.fields.filter FieldDeclaration.isTagged).foldl
    (fun projection field => projection.withAliases field.markedColumn field.markedAliases) {}

namespace Declaration

theorem fields_foldl_withAliases (fields : List FieldDeclaration) (projection : Projection) :
    (fields.foldl (fun projection field =>
        projection.withAliases field.markedColumn field.markedAliases) projection).fields =
      projection.fields ++ fields.map fun field =>
        { column := field.markedColumn, aliases := field.markedAliases } := by
  induction fields generalizing projection with
  | nil => exact (List.append_nil _).symm
  | cons field fields ih =>
      rw [List.foldl_cons, ih, List.map_cons, Projection.withAliases, List.append_assoc]
      rfl

variable {declaration : Declaration}

theorem fields_projection : declaration.projection.fields =
    (declaration.fields.filter FieldDeclaration.isTagged).map fun field =>
      { column := field.markedColumn, aliases := field.markedAliases } :=
  fields_foldl_withAliases _ {}

theorem columns_projection : declaration.projection.columns =
    (ProjectionPlan.ofFields declaration.fields).marks.map fun mark =>
      (mark.column, mark.aliases) := by
  rw [Projection.columns, fields_projection, ProjectionPlan.ofFields, List.map_map, List.map_map]
  rfl

/-- A plan makes the same projection. -/
theorem projection_of_plan {plan : ProjectionPlan}
    (h : ProjectionPlan.ofDeclaration declaration = .ok plan) :
    plan.projection = declaration.projection := by
  rw [(ProjectionPlan.ofDeclaration_eq_ok_iff.1 h).2, ProjectionPlan.projection,
    ProjectionPlan.ofFields, List.foldl_map]
  rfl

/-- Nothing is marked at first. -/
theorem isSelected_projection (index : Nat) : declaration.projection.isSelected index = false := by
  rw [Projection.isSelected, Projection.field?, fields_projection, List.getElem?_map]
  cases (declaration.fields.filter FieldDeclaration.isTagged)[index]? <;> rfl

end Declaration

namespace MarkedRecord

variable {declaration : Declaration} {record : MarkedRecord}

/-- `record.Unmarked declaration` holds if no tagged field of a record has its flag set; what other
fields hold does not count. -/
def Unmarked (declaration : Declaration) (record : MarkedRecord) : Prop :=
  ∀ field ∈ declaration.fields, field.isTagged = true →
    record.values.lookup field.name = some (.flag false)

/-- The record that is made from a plan is unmarked. -/
theorem unmarked_ofPlan {plan : ProjectionPlan}
    (h : ProjectionPlan.ofDeclaration declaration = .ok plan) :
    (ofPlan plan).Unmarked declaration := by
  intro field hfield htagged
  obtain rfl := (ProjectionPlan.ofDeclaration_eq_ok_iff.1 h).2
  have hmem : field.name ∈ (ofPlan (.ofFields declaration.fields)).values.map Prod.fst := by
    rw [ofPlan, ProjectionPlan.ofFields, List.map_map, List.map_map]
    exact List.mem_map_of_mem (List.mem_filter.2 ⟨hfield, htagged⟩)
  obtain ⟨value, hvalue⟩ := Option.isSome_iff_exists.1 (Keyed.lookup_isSome_iff_mem.2 hmem)
  obtain ⟨mark, -, hentry⟩ := List.mem_map.1 (Keyed.mem_of_lookup_eq_some hvalue)
  rw [hvalue, ← (Prod.mk.inj hentry).2]

theorem tracks_start (hplan : ProjectionPlan.ofDeclaration declaration = .ok record.plan)
    (hnames : (declaration.fields.map FieldDeclaration.name).Nodup)
    (hunmarked : record.Unmarked declaration) :
    record.Tracks record declaration.projection := by
  have hmarks := (ProjectionPlan.ofDeclaration_eq_ok_iff.1 hplan).2
  have hmarkNames : record.plan.marks.map MarkField.name =
      (declaration.fields.filter FieldDeclaration.isTagged).map FieldDeclaration.name := by
    rw [hmarks, ProjectionPlan.ofFields, List.map_map]
    rfl
  refine ⟨rfl, ?_, ?_, fun index mark hmark => ?_, fun _ _ => rfl⟩
  · rw [hmarkNames]
    exact hnames.sublist (List.filter_sublist.map FieldDeclaration.name)
  · rw [hmarks]
    exact Declaration.columns_projection
  · rw [hmarks] at hmark
    obtain ⟨field, hfield, rfl⟩ := List.mem_map.1 (List.mem_of_getElem? hmark)
    obtain ⟨hfield, htagged⟩ := List.mem_filter.1 hfield
    rw [Declaration.isSelected_projection]
    exact hunmarked field hfield htagged

/-- A field that is not tagged marks no column, since no other field has its name. -/
theorem name_not_mem_marks (hplan : ProjectionPlan.ofDeclaration declaration = .ok record.plan)
    (hnames : (declaration.fields.map FieldDeclaration.name).Nodup) {field : FieldDeclaration}
    (hfield : field ∈ declaration.fields) (htagged : field.isTagged = false) :
    field.name ∉ record.plan.marks.map MarkField.name := by
  rw [(ProjectionPlan.ofDeclaration_eq_ok_iff.1 hplan).2, ProjectionPlan.ofFields, List.map_map]
  intro hmem
  obtain ⟨other, hother, hname⟩ := List.mem_map.1 hmem
  obtain ⟨hother, htaggedOther⟩ := List.mem_filter.1 hother
  obtain rfl := List.inj_on_of_nodup_map hnames hother hfield hname
  rw [htagged] at htaggedOther
  cases htaggedOther

/-- Which declarations give records that choose columns, and how these records behave.

* A declaration gives a plan exactly if it is a record of named fields, all keys of its attributes
  are aliases or columns that are not empty, and all tagged fields are flags.  So where the keys
  have the texts they need, it is refused for its shape, for an unknown key, for an empty column or
  for a tagged field that is no flag, and for nothing else.
* Whatever is done to a record without marks and to the projection that is made by hand for the
  tagged fields, with the last column and the last aliases of each or its name, they agree in
  everything that a projection is asked, at every index; and what the other fields of the record
  hold stays as it is.  As this holds for all steps, it holds after each of them. -/
theorem declared_projections_agree (declaration : Declaration) :
    ((∃ plan, ProjectionPlan.ofDeclaration declaration = .ok plan) ↔
      declaration.shape = .record ∧ ∀ field ∈ declaration.fields, field.IsProjectionField) ∧
    ((∀ field ∈ declaration.fields, field.HasTexts) →
      ((∃ error, ProjectionPlan.ofDeclaration declaration = .error error) ↔
        declaration.shape ≠ .record ∨ ∃ field ∈ declaration.fields,
          (∃ key ∈ field.keys .projection, key.key ≠ "alias" ∧ key.key ≠ "column") ∨
          (∃ key ∈ field.keys .projection, key.key = "column" ∧ key.value = some (.text "")) ∨
          (field.isTagged = true ∧ Text.trim field.type ≠ "bool"))) ∧
    ∀ record : MarkedRecord, ProjectionPlan.ofDeclaration declaration = .ok record.plan →
      (declaration.fields.map FieldDeclaration.name).Nodup → record.Unmarked declaration →
      ∀ steps : List MarkStep,
        (record.run steps).Agrees (declaration.projection.run steps) ∧
        ∀ field ∈ declaration.fields, field.isTagged = false →
          (record.run steps).values.lookup field.name = record.values.lookup field.name := by
  refine ⟨⟨fun ⟨_, h⟩ => (ProjectionPlan.ofDeclaration_eq_ok_iff.1 h).1,
    fun h => ⟨_, ProjectionPlan.ofDeclaration_eq_ok_iff.2 ⟨h, rfl⟩⟩⟩,
    ProjectionPlan.exists_ofDeclaration_eq_error_iff, fun record hplan hnames hunmarked steps => ?_⟩
  have htracks := (tracks_start hplan hnames hunmarked).run steps
  exact ⟨htracks.agrees, fun field hfield htagged =>
    htracks.others field.name (name_not_mem_marks hplan hnames hfield htagged)⟩

/-- A declaration with two fields that mark nothing, one of them a flag, between three that do: one
is known by its name alone, one is given aliases twice, and one has a column of another name. -/
def filmFields : List FieldDeclaration :=
  [⟨"note", "String", [⟨"doc", none⟩]⟩,
    ⟨"id", "bool", [⟨"projection", some []⟩]⟩,
    ⟨"shown", "bool", []⟩,
    ⟨"title", "bool",
      [⟨"projection", some [⟨"alias", some (.text "film")⟩, ⟨"column", some (.text "f.title")⟩]⟩,
        ⟨"projection", some [⟨"alias", some (.text "title, name")⟩]⟩]⟩,
    ⟨"year", "bool", [⟨"projection", some [⟨"column", some (.text "release_year")⟩]⟩]⟩]

/-- A record of that type after two trees of a client, a mark that is taken away and one that is set
past the end.  A declaration is refused whose tagged field may be missing. -/
theorem declared_projections_agree_films :
    let record : MarkedRecord :=
      { plan := ⟨[⟨"id", "id", "id"⟩, ⟨"title", "f.title", "title, name"⟩,
          ⟨"year", "release_year", "year"⟩]⟩
        values := [("note", .other "new"), ("id", .flag false), ("shown", .flag true),
          ("title", .flag false), ("year", .flag false)] }
    let steps : List MarkStep :=
      [.requested (RequestedFields.ofPaths ["name", "year.digits", "film", "-"]), .set 2 false,
        .set 3 true, .connection (RequestedFields.ofPaths ["edges.node.id"])]
    ProjectionPlan.ofDeclaration { fields := filmFields } = .ok record.plan ∧
      (filmFields.map FieldDeclaration.name).Nodup ∧
      record.Unmarked { fields := filmFields } ∧
      (record.run steps).Agrees (Declaration.projection { fields := filmFields } |>.run steps) ∧
      (record.run steps).selectedColumns = ["id", "f.title"] ∧
      (record.run steps).values.lookup "shown" = some (.flag true) ∧
      ∃ error, ProjectionPlan.ofDeclaration { fields :=
        [⟨"rank", "Option<bool>", [⟨"projection", some [⟨"alias", some (.text "r")⟩]⟩]⟩] } =
          .error error := by
  intro record steps
  have hplan : ProjectionPlan.ofDeclaration { fields := filmFields } = .ok record.plan := by rfl
  have hnames : (filmFields.map FieldDeclaration.name).Nodup := by decide
  have hunmarked : record.Unmarked { fields := filmFields } := by
    simp only [Unmarked]
    decide
  obtain ⟨-, -, hrecords⟩ := declared_projections_agree { fields := filmFields }
  obtain ⟨hagrees, hothers⟩ := hrecords record hplan hnames hunmarked steps
  refine ⟨hplan, hnames, hunmarked, hagrees, hagrees.selectedColumns.trans (by decide),
    hothers ⟨"shown", "bool", []⟩ (by simp [filmFields]) rfl, ?_⟩
  refine ((declared_projections_agree _).2.1 (List.forall_mem_singleton.2 ⟨by decide, ?_⟩)).2
    (.inr ⟨_, List.mem_singleton_self _, .inr (.inr ⟨rfl, by decide⟩)⟩)
  exact List.forall_mem_singleton.2 fun _ => ⟨"r", rfl⟩

end MarkedRecord

end TableQuery
