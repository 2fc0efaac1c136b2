import Mathlib.Algebra.Group.Nat.Defs
import TableQuery.Proofs.RequestCalls

/-!
# Counting and returning the same rows

A plan has two queries, and the page that comes of it is consistent only if both are about the same
rows.  Between the filter and the plan stand hooks, which are arbitrary: one may return a query over
another table, with its own columns, order and window.  What keeps the two queries together is that
the hooks run once, before the queries part, and that everything in which they differ is written
over afterwards.

## Main results

* `Request.shows_of_build` — both texts of a plan, by what was asked for and what the hooks left.
* `Request.count_eq_of_filter_narrows` — the query that counts depends on filters and hooks only.
* `Plan.fetch_eq_ok_iff` — a page is a window of the rows that the query has without one.
* `Request.count_and_data_agree` — all of this together.
-/

namespace TableQuery

/-! ## Texts -/

/-- The columns that a query is asked for, as they are written. -/
def columnsText (columns : List String) : String :=
  if columns.isEmpty then "*" else ", ".intercalate columns

/-- A window as it is written. -/
def PageWindow.text (window : PageWindow) : String :=
  " LIMIT " ++ toString window.limit.toInt ++
    if 0 < window.skip then " OFFSET " ++ toString window.skip.toInt else ""

/-- `plan.Shows wishes limits` holds if both texts of a plan name the same table and the same
conditions with the same values, and the text that returns rows has the columns, the order and the
window that were asked for. -/
structure Plan.Shows (plan : Plan) (wishes : Wishes) (limits : PageLimits) : Prop where
  window : plan.window = wishes.window.normalize limits
  values : plan.select.values = plan.count.values
  countSql : plan.count.countSql =
    "SELECT COUNT(*) FROM " ++ plan.count.table.name ++ plan.count.whereSql
  sql : plan.select.sql = "SELECT " ++ columnsText wishes.columns ++ " FROM " ++
    plan.count.table.name ++ plan.count.whereSql ++ " ORDER BY " ++
    ", ".intercalate ((SortSpec.keysOf wishes.spec limits.defaultSort).map SortKey.text) ++
    plan.window.text

namespace Request

variable {table : String} {limits : PageLimits} {calls : List Call} {plan : Plan}

/-- The text that returns rows has the table and the conditions of the one that counts; the rest of
it is what was asked for. -/
theorem shows_of_build (h : ((ofTable table limits).run calls).build = .ok plan) :
    plan.Shows (.ofCalls calls) limits := by
  obtain ⟨query, condition, order, columns, -, -, -, horder, hcolumns, hwindow, hselect⟩ :=
    build_run_eq_ok h
  have hnames : columns.map Identifier.name = (Wishes.ofCalls calls).columns :=
    Identifier.map_name_of_mapM hcolumns
  have hcolumnsSql : plan.select.columnsSql = columnsText (Wishes.ofCalls calls).columns := by
    rw [hselect, columnsText, ← hnames, List.isEmpty_map]
    rfl
  have htable : plan.select.table = plan.count.table := by rw [hselect]
  have hwhereSql : plan.select.whereSql = plan.count.whereSql := by
    rw [hselect]
    rfl
  have horderSql : plan.select.orderSql = " ORDER BY " ++
      ", ".intercalate ((SortSpec.keysOf (Wishes.ofCalls calls).spec limits.defaultSort).map
        SortKey.text) := by
    rw [← Order.sql_of_ofSpec horder, hselect]
    rfl
  have hwindowSql : plan.select.windowSql = plan.window.text := by
    rw [hselect]
    rfl
  refine ⟨hwindow, ?_, rfl, ?_⟩
  · rw [hselect]
    rfl
  · rw [Select.sql, hcolumnsSql, htable, hwhereSql, horderSql, hwindowSql, ← String.append_assoc]

end Request

/-! ## Calls that do not count -/

/-- Whether a call has a say in which rows a request is about: filters and hooks do. -/
def Request.Call.narrows : Request.Call → Bool
  | filter _ | compose _ => true
  | _ => false

/-- The filter and the hooks of some calls are those of the calls that have a say in them. -/
theorem Wishes.ofCalls_filter_narrows (calls : List Request.Call) :
    (Wishes.ofCalls (calls.filter Request.Call.narrows)).tree = (Wishes.ofCalls calls).tree ∧
      (Wishes.ofCalls (calls.filter Request.Call.narrows)).hooks =
        (Wishes.ofCalls calls).hooks := by
  suffices hfold : ∀ wishes wishes' : Wishes,
      wishes'.tree = wishes.tree → wishes'.hooks = wishes.hooks →
        ((calls.filter Request.Call.narrows).foldl note wishes').tree =
            (calls.foldl note wishes).tree ∧
          ((calls.filter Request.Call.narrows).foldl note wishes').hooks =
            (calls.foldl note wishes).hooks from hfold {} {} rfl rfl
  induction calls with
  | nil => exact fun _ _ htree hhooks => ⟨htree, hhooks⟩
  | cons call calls ih =>
      intro wishes wishes' htree hhooks
      cases call with
      | page | sort | projection => exact ih _ _ htree hhooks
      | filter tree =>
          cases tree with
          | ok tree => exact ih _ _ rfl hhooks
          | error error => exact ih _ _ htree hhooks
      | compose hook =>
          refine ih _ _ htree ?_
          show wishes'.hooks ++ [hook] = wishes.hooks ++ [hook]
          rw [hhooks]

namespace Request

variable {table : String} {limits limits' : PageLimits} {calls calls' : List Call}
  {plan plan' : Plan}

/-- The query that counts depends on filters and hooks only. -/
theorem count_eq_of_filter_narrows
    (hcalls : calls'.filter Call.narrows = calls.filter Call.narrows)
    (h : ((ofTable table limits).run calls).build = .ok plan)
    (h' : ((ofTable table limits').run calls').build = .ok plan') : plan'.count = plan.count := by
  obtain ⟨htree, hhooks⟩ := Wishes.ofCalls_filter_narrows calls
  obtain ⟨htree', hhooks'⟩ := Wishes.ofCalls_filter_narrows calls'
  rw [hcalls] at htree' hhooks'
  obtain ⟨query, condition, -, -, hquery, hcondition, hcount, -⟩ := build_run_eq_ok h
  obtain ⟨query', condition', -, -, hquery', hcondition', hcount', -⟩ := build_run_eq_ok h'
  obtain rfl : query' = query := Except.ok.inj (hquery'.symm.trans hquery)
  rw [← htree', htree] at hcondition'
  obtain rfl : condition' = condition := Except.ok.inj (hcondition'.symm.trans hcondition)
  rw [← hhooks', hhooks] at hcount'
  exact Except.ok.inj (hcount'.symm.trans hcount)

end Request

/-! ## Rows -/

namespace Database

variable {database : Database}

/-- What a query with a window returns is that window of what it returns without one. -/
theorem select_eq_ok_iff_unwindowed {query : Select} {records : List Record} :
    database.select query = .ok records ↔
      ∃ rows, database.select query.unwindowed = .ok rows ∧
        records = windowOf query.limit query.offset rows := by
  constructor
  · intro h
    obtain ⟨table, references, rows, keys, htable, hreferences, hrows, hkeys, -⟩ :=
      select_eq_ok_iff.1 h
    have hunwindowed : database.select query.unwindowed = .ok _ :=
      select_eq_ok_iff.2 ⟨table, references, rows, keys, htable, hreferences, hrows, hkeys, rfl⟩
    refine ⟨_, hunwindowed, ?_⟩
    exact Except.ok.inj (h.symm.trans (select_of_unwindowed hunwindowed))
  · rintro ⟨rows, hrows, rfl⟩
    exact select_of_unwindowed hrows

end Database

theorem ofDatabase_eq_ok_iff {α : Type} {x : Except DatabaseFault α} {a : α} :
    ofDatabase x = .ok a ↔ x = .ok a := by
  cases x <;> simp [ofDatabase]

namespace Plan

variable {request : Request} {plan : Plan} {database : Database} {page : Page Record}

/-- A plan has a page exactly if its query has rows without a window, and the page is the window of
them that the plan says. -/
theorem fetch_eq_ok_iff (h : request.build = .ok plan) :
    plan.fetch database = .ok page ↔
      ∃ rows, database.select plan.select.unwindowed = .ok rows ∧
        page = .ofItems (windowOf (some plan.window.limit) (some plan.window.skip) rows)
          plan.window (Int64.ofNat rows.length) := by
  obtain ⟨htable, hconditions⟩ := Plan.select_of_build h
  have hwindow : windowOf plan.select.limit plan.select.offset (α := Record) =
      windowOf (some plan.window.limit) (some plan.window.skip) := by
    obtain ⟨-, -, -, -, -, -, -, -, -, rfl⟩ := Request.build_eq_ok_iff.1 h
    rfl
  rw [fetch, Checked.bind_eq_ok_iff]
  constructor
  · rintro ⟨total, htotal, hpage⟩
    obtain ⟨records, hrecords, hpage⟩ := Checked.bind_eq_ok_iff.1 hpage
    obtain rfl := Except.ok.inj hpage
    rw [ofDatabase_eq_ok_iff] at htotal hrecords
    obtain ⟨rows, hrows, rfl⟩ := Database.select_eq_ok_iff_unwindowed.1 hrecords
    have hcount := Database.count_of_unwindowed htable hconditions hrows
    obtain rfl : total = Int64.ofNat rows.length := Except.ok.inj (htotal.symm.trans hcount)
    exact ⟨rows, hrows, by rw [hwindow]⟩
  · rintro ⟨rows, hrows, rfl⟩
    have hcount := Database.count_of_unwindowed htable hconditions hrows
    have hrecords := Database.select_of_unwindowed hrows
    rw [hwindow] at hrecords
    exact ⟨_, ofDatabase_eq_ok_iff.2 hcount,
      Checked.bind_eq_ok_iff.2 ⟨_, ofDatabase_eq_ok_iff.2 hrecords, rfl⟩⟩

end Plan

namespace Request

/-- Both queries of a plan are about the same rows, whatever calls made the request and whatever its
hooks are.

* Their texts name the same table and the same conditions, with the same values.  The columns, the
  order and the window of the one that returns rows are those that were asked for.
* Another request with the same filters and hooks, if it is built, counts by the same query.
* Over any database the plan has a page exactly if its query has rows without the window.  The page
  reports how many these are, and holds those of them that the window says; a limit below zero,
  which only limits can bring in, is none. -/
theorem count_and_data_agree {table : String} {limits : PageLimits} {calls : List Call}
    {plan : Plan} (h : ((ofTable table limits).run calls).build = .ok plan) :
    plan.Shows (.ofCalls calls) limits ∧
    (∀ (limits' : PageLimits) (calls' : List Call) (plan' : Plan),
      calls'.filter Call.narrows = calls.filter Call.narrows →
      ((ofTable table limits').run calls').build = .ok plan' →
        plan'.count.countSql = plan.count.countSql ∧ plan'.count.values = plan.count.values) ∧
    ∀ database : Database,
      (∀ page, plan.fetch database = .ok page →
        ∃ rows, database.select plan.select.unwindowed = .ok rows) ∧
      ∀ rows, database.select plan.select.unwindowed = .ok rows →
        ∃ page, plan.fetch database = .ok page ∧
          (rows.length < 2 ^ 63 → page.info.totalRecord.toInt = rows.length) ∧
          page.nodes = if plan.window.limit < 0 then rows.drop plan.window.skip.toInt.toNat
            else (rows.drop plan.window.skip.toInt.toNat).take plan.window.limit.toInt.toNat := by
  refine ⟨shows_of_build h, ?_, fun database => ⟨?_, ?_⟩⟩
  · intro limits' calls' plan' hcalls h'
    rw [count_eq_of_filter_narrows hcalls h h']
    exact ⟨rfl, rfl⟩
  · intro page hpage
    obtain ⟨rows, hrows, -⟩ := (Plan.fetch_eq_ok_iff h).1 hpage
    exact ⟨rows, hrows⟩
  · intro rows hrows
    refine ⟨_, (Plan.fetch_eq_ok_iff h).2 ⟨rows, hrows, rfl⟩, fun hlength => ?_, ?_⟩
    · exact Int64.toInt_ofNat_of_lt hlength
    · rw [Page.nodes_ofItems]
      rfl

/-- A hook that puts another table, other columns, another order and another window in place. -/
def archiveHook : Hook := fun query => .ok { query with
  table := ⟨"archive", by decide⟩
  columns := [⟨"secret", by decide⟩]
  order := some ⟨[]⟩
  limit := some 1
  offset := some 7 }

/-- A window, an order and a projection. -/
def titlesOnly : List Call :=
  [.page ⟨3, 5⟩, .sort (some (.one [⟨"title", some .ascending⟩])),
    .projection ⟨[⟨"title", "title", true⟩]⟩]

/-- The later films of a table, which a hook exchanges for another one. -/
def callsToArchive (further : List Call) : List Call :=
  [.compose archiveHook,
    .filter (.ok (some (.leaf "year" (.ofComparison .gte (.integer 2000)))))] ++ further

/-- Of the hook's query only the table is left; the window, the sort and the projection that are
asked for stand in the text, and the count does not see them. -/
theorem count_and_data_agree_archive :
    ∃ plan plan',
      ((ofTable "films" {}).run (callsToArchive [])).build = .ok plan ∧
      ((ofTable "films" {}).run (callsToArchive titlesOnly)).build = .ok plan' ∧
      plan'.count.countSql = plan.count.countSql ∧ plan'.count.values = [.integer 2000] ∧
      plan'.select.values = plan'.count.values ∧
      plan.count.countSql = "SELECT COUNT(*) FROM archive WHERE year >= ?" ∧
      plan.select.sql =
        "SELECT * FROM archive WHERE year >= ? ORDER BY created_at DESC LIMIT 10" ∧
      plan'.select.sql =
        "SELECT title FROM archive WHERE year >= ? ORDER BY title ASC LIMIT 5 OFFSET 3" := by
  obtain ⟨plan, hplan, hcountSql, hsql⟩ : ∃ plan,
      ((ofTable "films" {}).run (callsToArchive [])).build = .ok plan ∧
      plan.count.countSql = "SELECT COUNT(*) FROM archive WHERE year >= ?" ∧
      plan.select.sql =
        "SELECT * FROM archive WHERE year >= ? ORDER BY created_at DESC LIMIT 10" :=
    ⟨_, rfl, by decide, by decide⟩
  obtain ⟨plan', hplan', hvalues, hsql'⟩ : ∃ plan',
      ((ofTable "films" {}).run (callsToArchive titlesOnly)).build = .ok plan' ∧
      plan'.count.values = [.integer 2000] ∧
      plan'.select.sql =
        "SELECT title FROM archive WHERE year >= ? ORDER BY title ASC LIMIT 5 OFFSET 3" :=
    ⟨_, rfl, by decide, by decide⟩
  obtain ⟨-, hsame, -⟩ := count_and_data_agree hplan
  obtain ⟨hshows, -, -⟩ := count_and_data_agree hplan'
  obtain ⟨hsameCount, -⟩ := hsame {} (callsToArchive titlesOnly) plan' rfl hplan'
  exact ⟨plan, plan', hplan, hplan', hsameCount, hvalues, hshows.values, hcountSql, hsql, hsql'⟩

end Request

end TableQuery
