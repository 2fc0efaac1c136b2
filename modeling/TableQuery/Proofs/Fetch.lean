import TableQuery.Database.Execution
import TableQuery.Proofs.Checked

/-!
# What a plan fetches

A request is built into two queries over the same table with the same conditions.  The one that
counts has no window; the one that returns rows has the window of the request, and nothing else
depends on that window.  So the pages of a request are windows of one list, the rows that its
query has without a window, and each of them reports the length of that list.

## Main results

* `build_eq_ok_iff` — what a request is built into.
* `fetchPage_eq` — the page of a window is that window of the rows without one.
-/

namespace TableQuery

/-! ## Plans -/

/-- Choosing columns succeeds exactly if all of them are identifiers. -/
theorem Select.withColumns_eq_ok_iff {query result : Select} {columns : List String} :
    query.withColumns columns = .ok result ↔
      ∃ names, columns.mapM Identifier.check = .ok names ∧
        result = { query with columns := names } := by
  unfold withColumns
  rw [Checked.bind_eq_ok_iff]
  simp only [pure, Except.pure, Except.ok.injEq]
  exact exists_congr fun names => and_congr_right' eq_comm

/-- The query without its window. -/
def Select.unwindowed (query : Select) : Select := { query with limit := none, offset := none }

namespace Request

/-- The order of a request: the one that was asked for, or the default one. -/
def orderOf (request : Request) : Except QueryError Order :=
  match request.order with
  | some order => .ok order
  | none => Order.ofSpec none request.limits.defaultSort

/-- A request without a failure is built step by step. -/
theorem build_eq_of_failure_eq_none {request : Request} (h : request.failure = none) :
    request.build = (do
      let count ← runHooks request.hooks
        ((← Select.ofTable request.table).filter request.condition)
      let order ← request.orderOf
      let select ← count.withColumns request.columns
      let window := request.window.normalize request.limits
      return {
        window
        count
        select := ((select.orderBy order).withLimit window.limit).withOffset window.skip }) := by
  unfold build orderOf
  rw [h]
  cases request.order <;> rfl

/-- What a request is built into: the conditions and the hooks make the query that counts, and the
columns, the order and the window are added to it for the one that returns rows. -/
theorem build_eq_ok_iff {request : Request} {plan : Plan} :
    request.build = .ok plan ↔
      request.failure = none ∧
        ∃ table count order select, Select.ofTable request.table = .ok table ∧
          runHooks request.hooks (table.filter request.condition) = .ok count ∧
          request.orderOf = .ok order ∧ count.withColumns request.columns = .ok select ∧
          plan = {
            window := request.window.normalize request.limits
            count
            select := ((select.orderBy order).withLimit
              (request.window.normalize request.limits).limit).withOffset
                (request.window.normalize request.limits).skip } := by
  cases hfailure : request.failure with
  | some error =>
      have herror : request.build = .error error := by
        unfold build
        rw [hfailure]
        rfl
      simp [herror]
  | none =>
      rw [build_eq_of_failure_eq_none hfailure]
      simp only [Checked.bind_eq_ok_iff, pure, Except.pure, Except.ok.injEq, true_and]
      constructor
      · rintro ⟨table, htable, count, hcount, order, horder, select, hselect, rfl⟩
        exact ⟨table, count, order, select, htable, hcount, horder, hselect, rfl⟩
      · rintro ⟨table, count, order, select, htable, hcount, horder, hselect, rfl⟩
        exact ⟨table, htable, count, hcount, order, horder, select, hselect, rfl⟩

end Request

/-- The plan with another window. -/
def Plan.inWindow (plan : Plan) (window : PageWindow) : Plan where
  window := window
  count := plan.count
  select := (plan.select.withLimit window.limit).withOffset window.skip

/-- A request for another window has the same plan in that window. -/
theorem Request.build_page {request : Request} {plan : Plan} (h : request.build = .ok plan)
    (window : PageWindow) :
    (request.page window).build = .ok (plan.inWindow (window.normalize request.limits)) := by
  obtain ⟨hfailure, table, count, order, select, htable, hcount, horder, hselect, rfl⟩ :=
    build_eq_ok_iff.1 h
  exact build_eq_ok_iff.2
    ⟨hfailure, table, count, order, select, htable, hcount, horder, hselect, rfl⟩

/-- Both queries of a plan are over one table and have the same conditions. -/
theorem Plan.select_of_build {request : Request} {plan : Plan} (h : request.build = .ok plan) :
    plan.select.table = plan.count.table ∧ plan.select.conditions = plan.count.conditions := by
  obtain ⟨-, table, count, order, select, -, -, -, hselect, rfl⟩ := Request.build_eq_ok_iff.1 h
  obtain ⟨names, -, rfl⟩ := Select.withColumns_eq_ok_iff.1 hselect
  exact ⟨rfl, rfl⟩

/-! ## Running them -/

/-- The rows of a query depend on its conditions only. -/
theorem Table.rowsOf_congr {table : Table} {query query' : Select}
    (h : query.conditions = query'.conditions) : table.rowsOf query = table.rowsOf query' := by
  have hcondition : query.condition? = query'.condition? := by
    unfold Select.condition?
    rw [h]
  unfold rowsOf Select.formula?
  rw [hcondition]

/-- Changing rows one by one changes those of a window. -/
theorem windowOf_map {α β : Type} (limit offset : Option Int64) (f : α → β) (rows : List α) :
    windowOf limit offset (rows.map f) = (windowOf limit offset rows).map f := by
  unfold windowOf
  rw [← List.map_drop]
  cases limit with
  | none => rfl
  | some limit =>
      by_cases hlimit : limit < 0
      · simp only [if_pos hlimit]
      · simp only [if_neg hlimit]
        rw [← List.map_take]

namespace Database

variable {database : Database}

/-- What a query returns: its rows in its order, of which those of its window are shown by its
columns. -/
theorem select_eq_ok_iff {query : Select} {records : List Record} :
    database.select query = .ok records ↔
      ∃ table references rows keys, database.tableOf query = .ok table ∧
        returned table query = .ok references ∧ table.rowsOf query = .ok rows ∧
        sortKeys table query = .ok keys ∧
        records = (windowOf query.limit query.offset
          (rows.mergeSort fun a b => (compareRows keys a b).isLE)).map (Row.record references) := by
  unfold select
  simp only [Checked.bind_eq_ok_iff, pure, Except.pure, Except.ok.injEq]
  constructor
  · rintro ⟨table, htable, references, hreferences, rows, hrows, keys, hkeys, rfl⟩
    exact ⟨table, references, rows, keys, htable, hreferences, hrows, hkeys, rfl⟩
  · rintro ⟨table, references, rows, keys, htable, hreferences, hrows, hkeys, rfl⟩
    exact ⟨table, htable, references, hreferences, rows, hrows, keys, hkeys, rfl⟩

/-- A query with a window returns that window of what it returns without one. -/
theorem select_of_unwindowed {query : Select} {records : List Record}
    (h : database.select query.unwindowed = .ok records) :
    database.select query = .ok (windowOf query.limit query.offset records) := by
  obtain ⟨table, references, rows, keys, htable, hreferences, hrows, hkeys, rfl⟩ :=
    select_eq_ok_iff.1 h
  refine select_eq_ok_iff.2 ⟨table, references, rows, keys, htable, hreferences, hrows, hkeys, ?_⟩
  rw [windowOf_map]
  rfl

/-- A query counts as many rows as one over the same table with the same conditions returns without
a window. -/
theorem count_of_unwindowed {query count : Select} {records : List Record}
    (htable : query.table = count.table) (hconditions : query.conditions = count.conditions)
    (h : database.select query.unwindowed = .ok records) :
    database.count count = .ok (Int64.ofNat records.length) := by
  obtain ⟨table, references, rows, keys, htableOf, -, hrows, -, rfl⟩ := select_eq_ok_iff.1 h
  have hcountTable : database.tableOf count = .ok table := by
    unfold tableOf at htableOf ⊢
    rw [← htable]
    exact htableOf
  have hcountRows : table.rowsOf count = .ok rows := by
    rw [← Table.rowsOf_congr hconditions]
    exact hrows
  unfold Database.count
  rw [hcountTable]
  show (table.rowsOf count >>= _) = _
  rw [hcountRows]
  show Except.ok (Int64.ofNat rows.length) = _
  rw [List.length_map]
  show _ = Except.ok (Int64.ofNat (rows.mergeSort _).length)
  rw [List.length_mergeSort]

end Database

/-! ## Pages of a request -/

/-- The page of some rows that a window shows under limits. -/
def Page.ofRows {α : Type} (rows : List α) (limits : PageLimits) (window : PageWindow) : Page α :=
  .ofItems
    (windowOf (some (window.normalize limits).limit) (some (window.normalize limits).skip) rows)
    (window.normalize limits) (Int64.ofNat rows.length)

/-- The page that a request returns for a window. -/
def Request.fetchPage (request : Request) (database : Database) (window : PageWindow) :
    Except QueryError (Page Record) :=
  (request.page window).build >>= fun plan => plan.fetch database

/-- The page of a window is that window of the rows that the query returns without one, and it
reports how many these are. -/
theorem Request.fetchPage_eq {request : Request} {plan : Plan} {database : Database}
    {rows : List Record} (hplan : request.build = .ok plan)
    (hrows : database.select plan.select.unwindowed = .ok rows) (window : PageWindow) :
    request.fetchPage database window = .ok (.ofRows rows request.limits window) := by
  obtain ⟨htable, hconditions⟩ := Plan.select_of_build hplan
  have hcount := Database.count_of_unwindowed htable hconditions hrows
  have hselect : database.select (plan.inWindow (window.normalize request.limits)).select = _ :=
    Database.select_of_unwindowed hrows
  unfold fetchPage Plan.fetch
  rw [build_page hplan]
  show (ofDatabase (database.count plan.count) >>= _) = _
  rw [hcount]
  show (ofDatabase (database.select (plan.inWindow (window.normalize request.limits)).select) >>= _)
    = _
  rw [hselect]
  rfl

end TableQuery
