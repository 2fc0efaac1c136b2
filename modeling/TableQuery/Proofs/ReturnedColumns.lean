import TableQuery.CommandLine.Run
import TableQuery.Proofs.JsonFields
import TableQuery.Proofs.MarkedFields
import TableQuery.Proofs.PageEdges
import TableQuery.Proofs.SplicedNames

/-!
# Returned columns

Whoever asks for a page names the columns to return by paths, of which the first names count.  On
the way from the paths to the rows stand the tree of the paths, the marks of the projection, the
columns of the query, the database, which finds columns by their names up to the case of letters,
and an object that has each name once.  Where the columns are named by words and their names differ
by more than case, nothing is lost or added on this way.

The projection knows the columns that the database lists, and it lists no computed ones.  A computed
column is therefore never returned by its name; if it is asked for alone, all columns are returned,
as if nothing had been asked for.  What is asked for is what is returned exactly where no computed
column is asked for.

The columns are chosen last, so that plans for different columns differ in their columns only.  The
database picks, orders and cuts its rows without looking at the columns that it returns.

## Main results

* `Projection.selectedColumns_ofTable` — the columns of a table that paths select.
* `Table.returned_eq` — what the database returns for them.
* `Table.shows_iff_of_computed` — which paths a computed column tells apart.
* `Plan.rows_of_fetch` — the rows of a plan, whatever its columns are.
* `returned_columns_exact` — the rows that a query answers with, for all columns asked for.
-/

namespace TableQuery

/-! ## Words -/

/-- No character of a word is blank. -/
theorem Text.isBlank_of_isWordRest {c : Char} (h : isWordRest c = true) : isBlank c = false := by
  obtain ⟨hlow, hhigh⟩ := isTermChar_range (show isTermChar c = true by simp [isTermChar, h])
  have hspace : c.toNat ≠ 32 := by
    intro hc
    have hc' : c = ' ' := by rw [← Char.ofNat_toNat c, hc]
    rw [hc'] at h
    exact absurd h (by decide)
  rw [Bool.eq_false_iff]
  intro hblank
  simp only [isBlank, Bool.or_eq_true, Bool.and_eq_true, decide_eq_true_eq] at hblank
  omega

section Word

variable {separator : Char} {word : String}

theorem splitOn_of_isWord (hword : isWord word.toList = true)
    (hseparator : isWordRest separator = false) :
    word.toList.splitOn separator = [word.toList] := by
  have hsingle : ∀ part ∈ [word.toList], separator ∉ part := by
    intro part hpart hmem
    obtain rfl := List.mem_singleton.1 hpart
    rw [all_of_isWord hword separator hmem] at hseparator
    cases hseparator
  simpa using List.splitOn_intercalate separator hsingle (List.cons_ne_nil _ _)

/-- A word is the only name in itself, whatever separates names. -/
theorem Text.parts_of_isWord (hword : isWord word.toList = true)
    (hseparator : isWordRest separator = false) : parts separator word = [word] := by
  have hstrip : strip word.toList = word.toList :=
    trim_eq_self fun c hc => isBlank_of_isWordRest (all_of_isWord hword c hc)
  have hne : word ≠ "" := by
    rintro rfl
    cases hword
  rw [parts_eq_filter, splitOn_of_isWord hword hseparator]
  simp [hstrip, hne]

theorem ProjectedField.aliasNames_of_isWord (hword : isWord word.toList = true) :
    aliasNames word = [word] := by
  have hne : word ≠ "-" := by
    rintro rfl
    exact absurd hword (by decide)
  rw [aliasNames, Text.parts_of_isWord hword (by decide)]
  simp [ignoredAlias, hne]

theorem splitName_of_isWord (hword : isWord word.toList = true) :
    splitName word = (none, word) := by
  rw [splitName, splitOn_of_isWord hword (by decide)]

theorem isIdentifier_of_isWord (hword : isWord word.toList = true) :
    isIdentifier word.toList = true := by
  rw [isIdentifier, splitOn_of_isWord hword (by decide)]
  exact hword

end Word

/-! ## Columns that are asked for -/

/-- The first name of a path: the first stretch between points that is not blank, stripped. -/
def RequestedFields.firstName? (path : String) : Option String :=
  (((path.toList.splitOn '.').map fun part => String.ofList (Text.strip part)).filter
    (· ≠ "")).head?

/-- A tree of paths has the first names of its paths below its root. -/
theorem RequestedFields.contains_ofPaths (paths : List String) (name : String) :
    (ofPaths paths).contains name = true ↔ ∃ path ∈ paths, firstName? path = some name := by
  have hfirst : ∀ path, [name] <+: pathNames path ↔ firstName? path = some name := by
    intro path
    rw [firstName?, ← Text.parts_eq_filter]
    show [name] <+: pathNames path ↔ (pathNames path).head? = some name
    cases pathNames path with
    | nil => simp
    | cons first rest =>
        rw [List.singleton_prefix_cons_iff, List.head?_cons, Option.some.injEq]
        exact eq_comm
  rw [← isSome_dive_singleton, isSome_dive_ofPaths_iff]
  simp only [hfirst, List.cons_ne_nil, false_or]

/-- Whether one of some paths asks for a column. -/
def Column.isAskedBy (paths : List String) (column : Column) : Bool :=
  paths.any fun path => RequestedFields.firstName? path = some column.name

/-- The name of a column asks for it. -/
theorem Column.isAskedBy_self {column : Column} (h : isWord column.name.toList = true) :
    column.isAskedBy [column.name] = true := by
  have hparts : Text.parts '.' column.name = [column.name] := Text.parts_of_isWord h (by decide)
  rw [Text.parts_eq_filter] at hparts
  have hfirst : RequestedFields.firstName? column.name = some column.name := by
    rw [RequestedFields.firstName?, hparts]
    rfl
  simp [isAskedBy, hfirst]

theorem Column.isAskedBy_eq (paths : List String) (column : Column) :
    column.isAskedBy paths = (RequestedFields.ofPaths paths).contains column.name := by
  rw [Bool.eq_iff_iff, RequestedFields.contains_ofPaths, isAskedBy, List.any_eq_true]
  simp only [decide_eq_true_eq]

/-- The columns that are selected of a table are those that are asked for. -/
theorem Projection.selectedColumns_ofTable {columns : List Column}
    (hwords : ∀ column ∈ columns, isWord column.name.toList = true) (paths : List String) :
    ((ofTable columns).markRequested (.ofPaths paths)).selectedColumns =
      (columns.filter (Column.isAskedBy paths)).map Column.name := by
  rw [selectedColumns, markRequested, ofTable, ofColumns, List.map_map, List.map_map,
    List.filter_map, List.map_map]
  show List.map Column.name (columns.filter fun column =>
    (ProjectedField.aliasNames column.name).any (RequestedFields.ofPaths paths).contains) = _
  refine congrArg _ (List.filter_congr fun column hcolumn => ?_)
  rw [ProjectedField.aliasNames_of_isWord (hwords column hcolumn), Column.isAskedBy_eq]
  simp

/-! ## Columns of a table -/

/-- `table.HasPlainNames` holds if every column of a table, stored or computed, is named by a word
and no two columns have the same name, as names are compared in a database. -/
structure Table.HasPlainNames (table : Table) : Prop where
  words : ∀ column ∈ table.allColumns, isWord column.name.toList = true
  distinct : table.allColumns.Pairwise fun a b => sameName a.name b.name = false

namespace Table

variable {table : Table}

theorem mem_allColumns_of_stored {column : Column} (h : column ∈ table.columns) :
    column ∈ table.allColumns := List.mem_append_left _ h

theorem mem_allColumns_of_computed {column : ComputedColumn} (h : column ∈ table.computed) :
    column.toColumn ∈ table.allColumns := List.mem_append_right _ (List.mem_map_of_mem h)

/-- The stored columns stand first among all columns. -/
theorem mem_zipIdx_of_stored {entry : Column × Nat} (h : entry ∈ table.columns.zipIdx) :
    entry ∈ table.allColumns.zipIdx := by
  rw [allColumns, List.zipIdx_append]
  exact List.mem_append_left _ h

/-- The columns that are shown where some paths are asked for, with their places: the stored ones
that are asked for, or all columns if there are none. -/
def shownColumns (table : Table) (paths : List String) : List (Column × Nat) :=
  let asked := table.columns.zipIdx.filter fun entry => entry.1.isAskedBy paths
  if asked.isEmpty then table.allColumns.zipIdx else asked

theorem column?_of_mem (h : table.HasPlainNames) {entry : Column × Nat}
    (hentry : entry ∈ table.allColumns.zipIdx) :
    table.column? entry.1.name = some (ColumnReference.declared entry.2 entry.1) := by
  obtain ⟨before, after, hsplit⟩ := List.append_of_mem hentry
  have hdistinct : table.allColumns.zipIdx.Pairwise fun a b =>
      sameName a.1.name b.1.name = false := by
    have hcolumns := h.distinct
    rw [← List.zipIdx_map_fst 0 table.allColumns, List.pairwise_map] at hcolumns
    exact hcolumns
  have hfind : table.allColumns.zipIdx.find? (fun other => sameName other.1.name entry.1.name) =
      some entry := by
    refine List.find?_eq_some_iff_append.2 ⟨decide_eq_true rfl, before, after, hsplit, ?_⟩
    intro other hother
    rw [hsplit] at hdistinct
    rw [(List.pairwise_append.1 hdistinct).2.2 other hother entry List.mem_cons_self]
    rfl
  have hword := h.words entry.1 (List.fst_mem_of_mem_zipIdx hentry)
  simp only [column?, splitName_of_isWord hword, hfind, Option.all_none, if_true]

theorem resolve_of_mem (h : table.HasPlainNames) {entry : Column × Nat}
    (hentry : entry ∈ table.allColumns.zipIdx) :
    table.resolve entry.1.name = .ok (.declared entry.2 entry.1) := by
  rw [resolve, column?_of_mem h hentry]

/-- Columns that are picked with their places are the columns that are picked. -/
theorem map_fst_filter_zipIdx (columns : List Column) (p : Column → Bool) :
    (columns.zipIdx.filter fun entry => p entry.1).map Prod.fst = columns.filter p := by
  conv_rhs => rw [← List.zipIdx_map_fst 0 columns, List.filter_map]
  rfl

theorem map_fst_shownColumns (table : Table) (paths : List String) :
    (table.shownColumns paths).map Prod.fst =
      if (table.columns.filter (Column.isAskedBy paths)).isEmpty then table.allColumns
      else table.columns.filter (Column.isAskedBy paths) := by
  rw [shownColumns, ← map_fst_filter_zipIdx table.columns (Column.isAskedBy paths),
    List.isEmpty_map]
  split
  · exact List.zipIdx_map_fst 0 table.allColumns
  · rfl

/-- A query for the stored columns that are asked for returns the columns that are shown. -/
theorem returned_eq (h : table.HasPlainNames) {query : Select} {paths : List String}
    (hcolumns : query.columns.map Identifier.name =
      (table.columns.filter (Column.isAskedBy paths)).map Column.name) :
    Database.returned table query = .ok ((table.shownColumns paths).map fun entry =>
      .declared entry.2 entry.1) := by
  rw [← map_fst_filter_zipIdx, List.map_map] at hcolumns
  have hempty : query.columns.isEmpty =
      (table.columns.zipIdx.filter fun entry => entry.1.isAskedBy paths).isEmpty := by
    rw [← List.isEmpty_map, hcolumns, List.isEmpty_map]
  rw [Database.returned, shownColumns, hempty]
  split
  · rfl
  · have hresolve : query.columns.mapM (fun column => table.resolve column.name) =
        (query.columns.map Identifier.name).mapM table.resolve :=
      (List.mapM_map (f := Identifier.name) (g := table.resolve)).symm
    rw [hresolve, hcolumns, Checked.mapM_eq_ok_iff, List.forall₂_map_left_iff,
      List.forall₂_map_right_iff, List.forall₂_same]
    exact fun entry hentry =>
      resolve_of_mem h (mem_zipIdx_of_stored (List.mem_of_mem_filter hentry))

end Table

/-! ## Requests for other columns -/

theorem Identifier.exists_mapM_check {names : List String}
    (h : ∀ name ∈ names, isIdentifier name.toList = true) :
    ∃ identifiers, names.mapM check = .ok identifiers := by
  refine Checked.fault?_eq_none_iff.1 ?_
  rw [Checked.fault?_mapM, List.findSome?_eq_none_iff]
  exact fun name hname => Checked.fault?_eq_none_iff.2 ⟨_, check_of_valid (h name hname)⟩

namespace Request

variable {request : Request} {projection : Projection} {plan : Plan}

/-- The query of a plan has the columns that are selected. -/
theorem map_name_columns_of_build (h : (request.projection projection).build = .ok plan) :
    plan.select.columns.map Identifier.name = projection.selectedColumns := by
  obtain ⟨-, _, _, _, select, -, -, -, hselect, rfl⟩ := build_eq_ok_iff.1 h
  obtain ⟨names, hnames, rfl⟩ := Select.withColumns_eq_ok_iff.1 hselect
  exact Identifier.map_name_of_mapM hnames

/-- A plan for other columns is the same but for its columns. -/
theorem build_projection (h : (request.projection projection).build = .ok plan)
    (projection' : Projection)
    (hnames : ∀ name ∈ projection'.selectedColumns, isIdentifier name.toList = true) :
    ∃ columns, (request.projection projection').build =
      .ok { plan with select := { plan.select with columns } } := by
  obtain ⟨hfailure, table, count, order, select, htable, hcount, horder, hselect, rfl⟩ :=
    build_eq_ok_iff.1 h
  obtain ⟨names, -, rfl⟩ := Select.withColumns_eq_ok_iff.1 hselect
  obtain ⟨columns, hcolumns⟩ := Identifier.exists_mapM_check hnames
  exact ⟨columns, build_eq_ok_iff.2 ⟨hfailure, table, count, order, _, htable, hcount, horder,
    Select.withColumns_eq_ok_iff.2 ⟨columns, hcolumns, rfl⟩, rfl⟩⟩

/-- Without hooks a plan is over the table of its request. -/
theorem table_of_build (h : request.build = .ok plan) (hhooks : request.hooks = []) :
    plan.select.table.name = request.table := by
  obtain ⟨-, table, count, order, select, htable, hcount, -, hselect, rfl⟩ := build_eq_ok_iff.1 h
  obtain ⟨names, -, rfl⟩ := Select.withColumns_eq_ok_iff.1 hselect
  rw [hhooks] at hcount
  obtain rfl := Except.ok.inj hcount
  obtain ⟨name, hname, htable⟩ := Checked.bind_eq_ok_iff.1 htable
  obtain rfl := Except.ok.inj htable
  exact Identifier.name_of_check hname

end Request

/-! ## Pages of rows -/

theorem Page.ofItems_map {α β : Type} (change : α → β) (items : List α) (window : PageWindow)
    (total : Int64) : ofItems (items.map change) window total =
      (ofItems items window total).map change := by
  have hedges : edgesFrom window 0 (items.map change) =
      (edgesFrom window 0 items).map fun edge => ⟨change edge.node, edge.cursor⟩ := by
    rw [edgesFrom_eq_zipIdx, edgesFrom_eq_zipIdx, List.zipIdx_map, List.map_map, List.map_map]
    rfl
  rw [ofItems, hedges, List.length_map]
  rfl

theorem Page.toJson_map {α β : Type} (change : α → β) (node : β → Json) (page : Page α) :
    (page.map change).toJson node = page.toJson (node ∘ change) := by
  rw [toJson, toJson, map, List.map_map]
  rfl

theorem mem_of_mem_windowOf {α : Type} {limit offset : Option Int64} {rows : List α} {row : α}
    (h : row ∈ windowOf limit offset rows) : row ∈ rows := by
  unfold windowOf at h
  cases limit with
  | none => exact List.mem_of_mem_drop h
  | some limit =>
      by_cases hlimit : limit < 0
      · simp only [if_pos hlimit] at h
        exact List.mem_of_mem_drop h
      · simp only [if_neg hlimit] at h
        exact List.mem_of_mem_drop (List.mem_of_mem_take h)

theorem Table.mem_of_rowsOf {table : Table} {query : Select} {rows : List Row}
    (h : table.rowsOf query = .ok rows) {row : Row} (hrow : row ∈ rows) : row ∈ table.rows := by
  obtain ⟨formula, -, h⟩ := Checked.bind_eq_ok_iff.1 h
  obtain ⟨_, -, h⟩ := Checked.bind_eq_ok_iff.1 h
  obtain rfl := Except.ok.inj h
  cases formula with
  | none => exact hrow
  | some formula => exact List.mem_of_mem_filter hrow

/-- The page of a plan shows rows of the table, and with other columns it shows the same rows. -/
theorem Plan.rows_of_fetch {plan : Plan} {database : Database} {table : Table}
    {page : Page Record} (htable : database.tableOf plan.select = .ok table)
    (h : plan.fetch database = .ok page) :
    ∃ rows : Page Row, (∀ row ∈ rows.nodes, row ∈ table.rows) ∧ ∀ columns references,
      Database.returned table { plan.select with columns } = .ok references →
        fetch { plan with select := { plan.select with columns } } database =
          .ok (rows.map (Row.record references)) := by
  obtain ⟨total, htotal, h⟩ := Checked.bind_eq_ok_iff.1 h
  obtain ⟨records, hrecords, -⟩ := Checked.bind_eq_ok_iff.1 h
  obtain ⟨table', -, rows, keys, htable', -, hrows, hkeys, -⟩ :=
    Database.select_eq_ok_iff.1 (ofDatabase_eq_ok_iff.1 hrecords)
  obtain rfl : table' = table := Except.ok.inj (htable'.symm.trans htable)
  refine ⟨.ofItems (windowOf plan.select.limit plan.select.offset
    (rows.mergeSort fun a b => (compareRows keys a b).isLE)) plan.window total, ?_, ?_⟩
  · intro row hrow
    rw [Page.nodes_ofItems] at hrow
    exact Table.mem_of_rowsOf hrows (List.mem_mergeSort.1 (mem_of_mem_windowOf hrow))
  · intro columns references hreferences
    rw [← Page.ofItems_map]
    exact Checked.bind_eq_ok_iff.2 ⟨total, htotal, Checked.bind_eq_ok_iff.2 ⟨_,
      ofDatabase_eq_ok_iff.2 (Database.select_eq_ok_iff.2
        ⟨table', references, rows, keys, htable', hreferences, hrows, hkeys, rfl⟩), rfl⟩⟩

/-! ## Answers -/

/-- The names of the fields of an object. -/
def Json.fieldNames : Json → List String
  | object fields => fields.map Prod.fst
  | _ => []

/-- The rows in the answer of a query. -/
def Json.nodes (answer : Json) : List Json :=
  match answer.field? "edges" with
  | some (list edges) => edges.filterMap (field? "node")
  | _ => []

theorem Json.field?_ofFields {fields : List (String × Json)} (h : (fields.map Prod.fst).Nodup)
    (name : String) : (ofFields fields).field? name = fields.lookup name :=
  Keyed.lookup_ofList h name

/-- The rows in a page are its nodes. -/
theorem Page.nodes_toJson {α : Type} (node : α → Json) (page : Page α) :
    (page.toJson node).nodes = page.nodes.map node := by
  have hedgeNames : ["node", "cursor"].Nodup := by decide
  have hpageNames : ["edges", "pageInfo"].Nodup := by decide
  have hedge : Json.field? "node" ∘ Edge.toJson node = some ∘ node ∘ Edge.node := by
    funext edge
    exact Json.field?_ofFields (by exact hedgeNames) "node"
  have hedges : (page.toJson node).field? "edges" =
      some (.list (page.edges.map (Edge.toJson node))) :=
    Json.field?_ofFields (by exact hpageNames) "edges"
  rw [Json.nodes, hedges]
  show (page.edges.map (Edge.toJson node)).filterMap (Json.field? "node") = _
  rw [List.filterMap_map, hedge, nodes, List.map_map, ← List.filterMap_eq_map]

namespace Table

variable {table : Table}

/-- A row by the columns that are shown. -/
def rowJson (table : Table) (paths : List String) (row : Row) : Json :=
  .ofFields ((table.shownColumns paths).map fun entry =>
    (entry.1.name, (row.cells[entry.2]?.getD .null).toJson))

/-- `table.Shows known paths name` holds if a column of a name is shown where some columns of a
table are known: it is one of these and asked for, or none of these is asked for and it is any
column. -/
def Shows (table : Table) (known : List Column) (paths : List String) (name : String) : Prop :=
  (∃ column ∈ known, column.isAskedBy paths = true ∧ column.name = name) ∨
    (∀ column ∈ known, column.isAskedBy paths = false) ∧
      ∃ column ∈ table.allColumns, column.name = name

instance (table : Table) (known : List Column) (paths : List String) (name : String) :
    Decidable (table.Shows known paths name) := inferInstanceAs (Decidable (_ ∨ _))

/-- The columns that are shown are those for which only the stored ones are known. -/
theorem mem_names_shownColumns_iff {paths : List String} {name : String} :
    name ∈ ((table.shownColumns paths).map Prod.fst).map Column.name ↔
      table.Shows table.columns paths name := by
  have hnone : (table.columns.filter (Column.isAskedBy paths)).isEmpty = true ↔
      ∀ column ∈ table.columns, column.isAskedBy paths = false := by
    rw [List.isEmpty_iff, List.filter_eq_nil_iff]
    simp only [Bool.not_eq_true]
  rw [map_fst_shownColumns, Shows, ← hnone]
  split
  · next h =>
      rw [hnone] at h
      have hasked : ¬ ∃ column ∈ table.columns, column.isAskedBy paths = true ∧
          column.name = name := by
        rintro ⟨column, hcolumn, hasked, -⟩
        rw [h column hcolumn] at hasked
        cases hasked
      rw [List.mem_map, or_iff_right hasked, and_iff_right (hnone.2 h)]
  · next h =>
      rw [or_iff_left fun hall => h hall.1]
      simp only [List.mem_map, List.mem_filter, and_assoc]

/-- What is asked for depends on the name of a column alone. -/
theorem isAskedBy_congr {a b : Column} (h : a.name = b.name) (paths : List String) :
    a.isAskedBy paths = b.isAskedBy paths := by
  rw [Column.isAskedBy, Column.isAskedBy, h]

/-- A stored column has no name of a computed one. -/
theorem name_ne_of_computed (h : table.HasPlainNames) {column : Column} {other : ComputedColumn}
    (hcolumn : column ∈ table.columns) (hother : other ∈ table.computed) :
    column.name ≠ other.name := by
  have hdistinct := (List.pairwise_append.1 h.distinct).2.2 column hcolumn _
    (List.mem_map_of_mem hother)
  rintro heq
  rw [heq, sameName, decide_eq_false_iff_not] at hdistinct
  exact hdistinct rfl

/-- It makes a difference that the computed columns are not known exactly if one of them is asked
for. -/
theorem shows_iff_of_computed (h : table.HasPlainNames) (hstored : table.columns ≠ [])
    (paths : List String) :
    (∀ name, table.Shows table.columns paths name ↔ table.Shows table.allColumns paths name) ↔
      ∀ column ∈ table.computed, column.isAskedBy paths = false := by
  constructor
  · intro hsame other hother
    by_contra hasked
    rw [Bool.not_eq_false] at hasked
    have hmem := mem_allColumns_of_computed hother
    rcases (hsame other.name).2 (.inl ⟨_, hmem, hasked, rfl⟩) with
      ⟨column, hcolumn, -, hname⟩ | ⟨hnone, -⟩
    · exact name_ne_of_computed h hcolumn hother hname
    · -- No stored column is asked for, so all are shown, but only what is asked for should be.
      obtain ⟨first, hfirst⟩ := List.exists_mem_of_ne_nil _ hstored
      rcases (hsame first.name).1 (.inr ⟨hnone, first, mem_allColumns_of_stored hfirst, rfl⟩) with
        ⟨column, -, hcolumn, hname⟩ | ⟨hall, -⟩
      · rw [isAskedBy_congr hname, hnone first hfirst] at hcolumn
        cases hcolumn
      · rw [hall _ hmem] at hasked
        cases hasked
  · intro hcomputed name
    have hasked : ∀ column ∈ table.allColumns, column.isAskedBy paths = true →
        column ∈ table.columns := by
      intro column hcolumn hasked
      rcases List.mem_append.1 hcolumn with hcolumn | hcolumn
      · exact hcolumn
      · obtain ⟨other, hother, rfl⟩ := List.mem_map.1 hcolumn
        rw [hcomputed other hother] at hasked
        cases hasked
    have hknown : (∃ column ∈ table.columns, column.isAskedBy paths = true ∧ column.name = name) ↔
        ∃ column ∈ table.allColumns, column.isAskedBy paths = true ∧ column.name = name := by
      constructor
      · rintro ⟨column, hcolumn, hpaths⟩
        exact ⟨column, mem_allColumns_of_stored hcolumn, hpaths⟩
      · rintro ⟨column, hcolumn, hpaths⟩
        exact ⟨column, hasked column hcolumn hpaths.1, hpaths⟩
    have hnone : (∀ column ∈ table.columns, column.isAskedBy paths = false) ↔
        ∀ column ∈ table.allColumns, column.isAskedBy paths = false := by
      constructor
      · intro hstored column hcolumn
        by_contra hpaths
        rw [Bool.not_eq_false] at hpaths
        rw [hstored column (hasked column hcolumn hpaths)] at hpaths
        cases hpaths
      · exact fun hall column hcolumn => hall column (mem_allColumns_of_stored hcolumn)
    rw [Shows, Shows, hknown, hnone]

theorem nodup_names_shownColumns (h : table.HasPlainNames) (paths : List String) :
    (((table.shownColumns paths).map Prod.fst).map Column.name).Nodup := by
  have hshown : ((table.shownColumns paths).map Prod.fst).Sublist table.allColumns := by
    rw [map_fst_shownColumns]
    split
    · exact List.Sublist.refl _
    · exact List.filter_sublist.trans (List.sublist_append_left _ _)
  refine List.pairwise_map.2 ((h.distinct.sublist hshown).imp fun {a b} hdistinct heq => ?_)
  rw [heq, sameName, decide_eq_false_iff_not] at hdistinct
  exact hdistinct rfl

/-- A row has the names of the columns that are shown. -/
theorem mem_fieldNames_rowJson_iff (h : table.HasPlainNames) {paths : List String} {row : Row}
    {name : String} :
    name ∈ (table.rowJson paths row).fieldNames ↔ table.Shows table.columns paths name := by
  have hnames : ((table.shownColumns paths).map fun entry =>
      (entry.1.name, (row.cells[entry.2]?.getD .null).toJson)).map Prod.fst =
        ((table.shownColumns paths).map Prod.fst).map Column.name := by
    rw [List.map_map, List.map_map]
    rfl
  rw [← mem_names_shownColumns_iff, ← hnames]
  refine Keyed.mem_names_ofList ?_
  rw [hnames]
  exact nodup_names_shownColumns h paths

end Table

namespace CommandLine

theorem refusing_eq_ok_iff {α : Type} {x : Except QueryError α} {a : α} :
    refusing x = .ok a ↔ x = .ok a := by
  cases x <;> simp [refusing]

/-- The request of some arguments, before its columns are chosen. -/
def requestOf (database : Database) (settings : Settings) (arguments : QueryArguments) :
    Except CommandFault Request := do
  let columns ← refusing (database.columns arguments.table)
  let registry ← refusing (Registry.ofColumns columns)
  let filter ← refusing (registry.parseFilter (← readOption .filter arguments.filter))
  let sort ← refusing (registry.parseSort (← readOption .sort arguments.sort))
  let window ← refusing arguments.window
  return (Request.ofTable arguments.table settings.limits).run
    [.page window, .filter (.ok filter), .sort sort]

variable {database : Database} {settings : Settings} {arguments : QueryArguments}

/-- A page comes of the request of the arguments and of the columns that are asked for. -/
theorem runQuery_eq_ok_iff {page : Page Record} :
    runQuery database settings arguments = .ok page ↔
      ∃ columns request plan, database.columns arguments.table = .ok columns ∧
        requestOf database settings arguments = .ok request ∧
        (request.projection ((Projection.ofTable columns).markRequested
          (.ofPaths arguments.fields))).build = .ok plan ∧
        plan.fetch database = .ok page := by
  simp only [runQuery, requestOf, Checked.bind_eq_ok_iff, refusing_eq_ok_iff]
  constructor
  · rintro ⟨columns, hcolumns, registry, hregistry, filterJson, hfilterJson, filter, hfilter,
      sortJson, hsortJson, sort, hsort, window, hwindow, plan, hplan, hpage⟩
    exact ⟨columns, _, plan, hcolumns, ⟨columns, hcolumns, registry, hregistry, filterJson,
      hfilterJson, filter, hfilter, sortJson, hsortJson, sort, hsort, window, hwindow, rfl⟩,
      hplan, hpage⟩
  · rintro ⟨columns, request, plan, hcolumns, ⟨columns', hcolumns', registry, hregistry,
      filterJson, hfilterJson, filter, hfilter, sortJson, hsortJson, sort, hsort, window, hwindow,
      hrequest⟩, hplan, hpage⟩
    obtain rfl : columns' = columns := Except.ok.inj (hcolumns'.symm.trans hcolumns)
    obtain rfl := Except.ok.inj hrequest
    exact ⟨columns', hcolumns, registry, hregistry, filterJson, hfilterJson, filter, hfilter,
      sortJson, hsortJson, sort, hsort, window, hwindow, plan, hplan, hpage⟩

/-- The request of some arguments is over their table and has no hooks. -/
theorem table_of_requestOf {request : Request} {projection : Projection} {plan : Plan}
    (h : requestOf database settings arguments = .ok request)
    (hbuild : (request.projection projection).build = .ok plan) :
    plan.select.table.name = arguments.table := by
  simp only [requestOf, Checked.bind_eq_ok_iff] at h
  obtain ⟨-, -, -, -, -, -, filter, -, -, -, sort, -, window, -, h⟩ := h
  obtain rfl := Except.ok.inj h
  obtain ⟨hfailure, -⟩ := Request.build_eq_ok_iff.1 hbuild
  refine (Request.table_of_build hbuild (Request.meets_run hfailure).hooks).trans ?_
  exact (Request.table_and_limits_run _ _).1

/-- Where a database lists columns for a table, they are the stored ones, and there are some. -/
theorem columns_of_table? {table : Table} (htable : database.table? arguments.table = some table)
    {columns : List Column} (h : database.columns arguments.table = .ok columns) :
    columns = table.columns ∧ table.columns ≠ [] := by
  obtain ⟨name, hname, h⟩ := Checked.bind_eq_ok_iff.1 h
  have hlisted : database.listedColumns arguments.table = table.columns := by
    rw [Database.listedColumns, htable]
    rfl
  simp only [Identifier.name_of_check hname, hlisted] at h
  split at h
  · cases h
  · split at h
    · cases h
    · next hsome => exact ⟨(Except.ok.inj h).symm, fun hnil => hsome (List.isEmpty_iff.2 hnil)⟩

theorem recordJson_record (table : Table) (paths : List String) :
    recordJson ∘ Row.record ((table.shownColumns paths).map fun entry =>
      .declared entry.2 entry.1) = table.rowJson paths := by
  funext row
  show Json.ofFields (((_ : List ColumnReference).map _).map _) = _
  rw [List.map_map, List.map_map]
  rfl

/-- Where a request has a plan for some columns, it has the same plan for the columns that any paths
ask for, and the database knows these columns. -/
theorem exists_build_ofPaths {table : Table} (hnames : table.HasPlainNames) {request : Request}
    {projection : Projection} {plan : Plan} (h : (request.projection projection).build = .ok plan)
    (fields : List String) :
    ∃ columns, (request.projection ((Projection.ofTable table.columns).markRequested
        (.ofPaths fields))).build = .ok { plan with select := { plan.select with columns } } ∧
      Database.returned table { plan.select with columns } =
        .ok ((table.shownColumns fields).map fun entry => .declared entry.2 entry.1) := by
  have hwords : ∀ column ∈ table.columns, isWord column.name.toList = true :=
    fun column hcolumn => hnames.words column (Table.mem_allColumns_of_stored hcolumn)
  have hselected := Projection.selectedColumns_ofTable hwords fields
  have hidentifiers : ∀ name ∈ ((Projection.ofTable table.columns).markRequested
      (.ofPaths fields)).selectedColumns, isIdentifier name.toList = true := by
    intro name hname
    rw [hselected] at hname
    obtain ⟨column, hcolumn, rfl⟩ := List.mem_map.1 hname
    exact isIdentifier_of_isWord (hwords column (List.mem_of_mem_filter hcolumn))
  obtain ⟨columns, hbuild⟩ := Request.build_projection h _ hidentifiers
  have hcolumns := (Request.map_name_columns_of_build hbuild).trans hselected
  exact ⟨columns, hbuild, Table.returned_eq hnames hcolumns⟩

/-- A query that is answered shows some rows of its table; with other paths it shows the same rows
by the columns that these ask for. -/
theorem exists_rows_of_run {table : Table} {answer : Json}
    (htable : database.table? arguments.table = some table) (hnames : table.HasPlainNames)
    (h : (Command.query arguments).run database settings = .ok answer) :
    table.columns ≠ [] ∧ ∃ rows : Page Row, (∀ row ∈ rows.nodes, row ∈ table.rows) ∧
      ∀ fields, (Command.query { arguments with fields }).run database settings =
        .ok (rows.toJson (table.rowJson fields)) := by
  obtain ⟨page, hpage, -⟩ := Checked.bind_eq_ok_iff.1 h
  obtain ⟨columns, request, plan, hcolumns, hrequest, hplan, hfetch⟩ := runQuery_eq_ok_iff.1 hpage
  obtain ⟨rfl, hstored⟩ := columns_of_table? htable hcolumns
  have htableOf : database.tableOf plan.select = .ok table := by
    rw [Database.tableOf, table_of_requestOf hrequest hplan, htable]
  obtain ⟨rows, hrows, hother⟩ := Plan.rows_of_fetch htableOf hfetch
  refine ⟨hstored, rows, hrows, fun fields => ?_⟩
  obtain ⟨names, hbuild, hreferences⟩ := exists_build_ofPaths hnames hplan fields
  have hquery : runQuery database settings { arguments with fields } = .ok _ :=
    runQuery_eq_ok_iff.2 ⟨table.columns, request, _, hcolumns, hrequest, hbuild,
      hother names _ hreferences⟩
  refine Checked.bind_eq_ok_iff.2 ⟨_, hquery, ?_⟩
  rw [Page.toJson_map, recordJson_record]
  rfl

/-- `AnswersWith table known paths answer` holds if every row in an answer has exactly the names of
the columns that are shown for some paths where some columns of a table are known. -/
def AnswersWith (table : Table) (known : List Column) (paths : List String) (answer : Json) :
    Prop :=
  ∀ node ∈ answer.nodes, ∀ name, name ∈ node.fieldNames ↔ table.Shows known paths name

theorem answersWith_stored {table : Table} (hnames : table.HasPlainNames) (rows : Page Row)
    (paths : List String) :
    AnswersWith table table.columns paths (rows.toJson (table.rowJson paths)) := by
  intro node hnode name
  rw [Page.nodes_toJson] at hnode
  obtain ⟨row, -, rfl⟩ := List.mem_map.1 hnode
  exact Table.mem_fieldNames_rowJson_iff hnames

/-- Rows are shown as if all columns were known exactly if no computed one is asked for, unless
there are no rows. -/
theorem answersWith_all_iff {table : Table} (hnames : table.HasPlainNames)
    (hstored : table.columns ≠ []) (rows : Page Row) (paths : List String) :
    AnswersWith table table.allColumns paths (rows.toJson (table.rowJson paths)) ↔
      rows.nodes = [] ∨ ∀ column ∈ table.computed, column.isAskedBy paths = false := by
  rw [← Table.shows_iff_of_computed hnames hstored, AnswersWith, Page.nodes_toJson]
  constructor
  · intro hall
    refine or_iff_not_imp_left.2 fun hrows name => ?_
    obtain ⟨row, hrow⟩ := List.exists_mem_of_ne_nil _ hrows
    have hnode := hall _ (List.mem_map_of_mem hrow) name
    rwa [Table.mem_fieldNames_rowJson_iff hnames] at hnode
  · rintro (hrows | hsame) node hnode name
    · rw [hrows] at hnode
      cases hnode
    · obtain ⟨row, -, rfl⟩ := List.mem_map.1 hnode
      rw [Table.mem_fieldNames_rowJson_iff hnames]
      exact hsame name

/-- A query over a table of plain names that is answered, whatever its filter, its sort and its page
are.

* Every row in the answer has exactly the names of the stored columns that are asked for, or of all
  columns if there are none.
* That is what was asked for exactly if no computed column is asked for, or there are no rows.  It
  is so for all paths exactly if all columns are stored, or there are no rows.
* Behind the answer stands a page of rows of the table.  What is answered for any other paths is the
  same page, with the same rows in the same order, the same cursors and the same account of the
  page; each row is shown by the columns that these paths ask for. -/
theorem returned_columns_exact {table : Table} {answer : Json}
    (htable : database.table? arguments.table = some table) (hnames : table.HasPlainNames)
    (h : (Command.query arguments).run database settings = .ok answer) :
    AnswersWith table table.columns arguments.fields answer ∧
    (AnswersWith table table.allColumns arguments.fields answer ↔
      answer.nodes = [] ∨ ∀ column ∈ table.computed, column.isAskedBy arguments.fields = false) ∧
    ((∀ fields other, (Command.query { arguments with fields }).run database settings = .ok other →
        AnswersWith table table.allColumns fields other) ↔
      answer.nodes = [] ∨ table.computed = []) ∧
    ∃ page : Page Row, (∀ row ∈ page.nodes, row ∈ table.rows) ∧
      ∀ fields other, (Command.query { arguments with fields }).run database settings = .ok other →
        other = page.toJson (table.rowJson fields) := by
  obtain ⟨hstored, page, hrows, hrun⟩ := exists_rows_of_run htable hnames h
  have hother : ∀ fields other,
      (Command.query { arguments with fields }).run database settings = .ok other →
        other = page.toJson (table.rowJson fields) :=
    fun fields other hok => Except.ok.inj (hok.symm.trans (hrun fields))
  have hnodes : answer.nodes = [] ↔ page.nodes = [] := by
    rw [hother _ _ h, Page.nodes_toJson, List.map_eq_nil_iff]
  obtain rfl := hother _ _ h
  refine ⟨answersWith_stored hnames page _, ?_, ?_, page, hrows, hother⟩
  · rw [hnodes]
    exact answersWith_all_iff hnames hstored page _
  · rw [hnodes]
    constructor
    · intro hall
      refine or_iff_not_imp_left.2 fun hsome => ?_
      refine List.eq_nil_iff_forall_not_mem.2 fun column hmem => ?_
      have hword := hnames.words _ (Table.mem_allColumns_of_computed hmem)
      rcases (answersWith_all_iff hnames hstored page _).1 (hall [column.name] _ (hrun _)) with
        hnone | hnone
      · exact hsome hnone
      · have hasked := Column.isAskedBy_self hword
        rw [hnone column hmem] at hasked
        cases hasked
    · intro hcomputed fields other hok
      rw [hother fields other hok, answersWith_all_iff hnames hstored]
      refine hcomputed.imp_right fun hnil column hmem => ?_
      rw [hnil] at hmem
      cases hmem

/-- Films with their years, the newest first; each title is there in small letters too. -/
def films : Table :=
  let table : Table :=
    { name := "films"
      columns := [⟨"created_at", "INTEGER"⟩, ⟨"title", "TEXT"⟩, ⟨"year", "INTEGER"⟩]
      computed := [⟨⟨"label", "TEXT"⟩, .lower (.column "title")⟩] }
  (table.insert [.integer 20, .text "Stalker", .integer 1979]).insert
    [.integer 10, .text "Solaris", .integer 1972]

/-- A query for all films, by the columns that some paths ask for. -/
def allFilms (fields : List String) : QueryArguments where
  table := "films"
  fields := fields

/-- All films are answered, whichever columns are asked for. -/
theorem exists_rows_films :
    ∃ rows : Page Row, rows.nodes.length = 2 ∧ ∀ fields,
      (Command.query (allFilms fields)).run { tables := [films] } {} =
        .ok (rows.toJson (films.rowJson fields)) := by
  obtain ⟨request, plan, hrequest, hplan, hcount, records, hselect, hlength⟩ :
      ∃ request plan, requestOf { tables := [films] } {} (allFilms []) = .ok request ∧
      (request.projection ((Projection.ofTable films.columns).markRequested
        (.ofPaths (allFilms []).fields))).build = .ok plan ∧
      Database.count { tables := [films] } plan.count = .ok 2 ∧
      ∃ records, Database.select { tables := [films] } plan.select = .ok records ∧
        records.length = 2 := by
    refine ⟨_, _, rfl, rfl, rfl, _,
      Database.select_eq_ok_iff.2 ⟨_, _, _, _, rfl, rfl, rfl, rfl, rfl⟩, ?_⟩
    rw [List.mergeSort_of_pairwise (by decide)]
    rfl
  have hfetch : plan.fetch { tables := [films] } = .ok (.ofItems records plan.window 2) :=
    Checked.bind_eq_ok_iff.2 ⟨2, ofDatabase_eq_ok_iff.2 hcount,
      Checked.bind_eq_ok_iff.2 ⟨_, ofDatabase_eq_ok_iff.2 hselect, rfl⟩⟩
  have hrun : (Command.query (allFilms [])).run { tables := [films] } {} = .ok _ :=
    Checked.bind_eq_ok_iff.2 ⟨_, runQuery_eq_ok_iff.2
      ⟨films.columns, request, plan, rfl, hrequest, hplan, hfetch⟩, rfl⟩
  obtain ⟨-, rows, -, hrows⟩ := exists_rows_of_run rfl ⟨by decide, by decide⟩ hrun
  refine ⟨rows, ?_, hrows⟩
  have hnodes := congrArg (List.length ∘ Json.nodes) (Except.ok.inj (hrun.symm.trans (hrows [])))
  simpa [Page.nodes_toJson, Page.nodes_ofItems, hlength] using hnodes.symm

/-- Two stored columns are shown of three, one by a path of several names and one among blanks and
points; the third path names no column. -/
theorem returned_columns_exact_films :
    ∃ answer, (Command.query (allFilms ["title.en", ". year .", "director"])).run
        { tables := [films] } {} = .ok answer ∧
      answer.nodes.length = 2 ∧
      ∀ node ∈ answer.nodes, "title" ∈ node.fieldNames ∧ "year" ∈ node.fieldNames ∧
        "created_at" ∉ node.fieldNames ∧ "label" ∉ node.fieldNames := by
  obtain ⟨rows, hlength, hrun⟩ := exists_rows_films
  obtain ⟨hnodes, -⟩ := returned_columns_exact rfl ⟨by decide, by decide⟩
    (hrun ["title.en", ". year .", "director"])
  refine ⟨_, hrun _, ?_, fun node hnode => ?_⟩
  · rw [Page.nodes_toJson, List.length_map, hlength]
  · simp only [hnodes node hnode]
    decide

/-- Where a computed column is asked for alone, all columns are shown; where it is asked for beside
a stored one, it is not shown. -/
theorem computed_columns_not_returned :
    (∃ answer, (Command.query (allFilms ["label"])).run { tables := [films] } {} = .ok answer ∧
      ∃ node ∈ answer.nodes, "title" ∈ node.fieldNames ∧
        ¬ films.Shows films.allColumns ["label"] "title") ∧
    ∃ answer, (Command.query (allFilms ["title", "label"])).run { tables := [films] } {} =
        .ok answer ∧
      ∃ node ∈ answer.nodes, "label" ∉ node.fieldNames ∧
        films.Shows films.allColumns ["title", "label"] "label" := by
  have hnames : films.HasPlainNames := ⟨by decide, by decide⟩
  obtain ⟨rows, hlength, hrun⟩ := exists_rows_films
  obtain ⟨row, hrow⟩ := List.exists_mem_of_ne_nil rows.nodes (by rintro h; simp [h] at hlength)
  have hnode : ∀ fields, films.rowJson fields row ∈ (rows.toJson (films.rowJson fields)).nodes := by
    intro fields
    rw [Page.nodes_toJson]
    exact List.mem_map_of_mem hrow
  refine ⟨⟨_, hrun _, _, hnode _, ?_, by decide⟩, ⟨_, hrun _, _, hnode _, ?_, by decide⟩⟩
  · rw [Table.mem_fieldNames_rowJson_iff hnames]
    decide
  · rw [Table.mem_fieldNames_rowJson_iff hnames]
    decide

end CommandLine

end TableQuery
