import TableQuery.Filter
import TableQuery.Page
import TableQuery.Projection
import TableQuery.Select

/-!
# Page requests

A request gathers what a page needs: its window, a filter, a sort, a projection, and hooks that
refine the query, for instance to the rows of a parent. Filters and sorts are compiled as they
come in. The first failure is kept and refuses the whole request when it is built, before any
hook runs.

## Main definitions

* `Request`: what has been gathered.
* `Request.page`, `filter`, `sort`, `projection`, `compose`: gathering.
* `Request.build`: the queries of the page.
-/

namespace TableQuery

/-- A refinement of a query; a failure is told by its cause. -/
def Hook := Select → Except String Select

/-- A refinement that fails with an error of a query. -/
def Hook.ofChecked (refine : Select → Except QueryError Select) : Hook := fun query =>
  match refine query with
  | .ok query => .ok query
  | .error error => .error error.message

/-- What has been gathered for a page. -/
structure Request where
  /-- The table. -/
  table : String
  /-- The limits and the order that apply where nothing else is said. -/
  limits : PageLimits := {}
  /-- The window that is asked for. -/
  window : PageWindow := {}
  /-- The condition of the last filter. -/
  condition : Option Condition := none
  /-- The order of the last sort. -/
  order : Option Order := none
  /-- The columns of the last projection. -/
  columns : List String := []
  /-- The refinements, in the order in which they apply. -/
  hooks : List Hook := []
  /-- The first failure. -/
  failure : Option QueryError := none

/-- The queries of a page. -/
structure Plan where
  /-- The window with the limits applied. -/
  window : PageWindow
  /-- The query whose rows are counted. -/
  count : Select
  /-- The query whose rows are returned. -/
  select : Select

namespace Request

/-! ## Gathering -/

/-- The request for another window. -/
def page (request : Request) (window : PageWindow) : Request := { request with window }

/-- The request with another filter; none leaves the query unfiltered. After a failure nothing
changes. -/
def filter (request : Request) (tree : Except QueryError (Option Filter)) : Request :=
  match request.failure with
  | some _ => request
  | none =>
    match tree >>= Filter.conditionOf? with
    | .ok condition => { request with condition }
    | .error error => { request with condition := none, failure := some error }

/-- The request in another order, by the default key where nothing is asked for. After a failure
nothing changes. -/
def sort (request : Request) (spec : Option SortSpec) : Request :=
  match request.failure with
  | some _ => request
  | none =>
    match Order.ofSpec spec request.limits.defaultSort with
    | .ok order => { request with order := some order }
    | .error error => { request with order := none, failure := some error }

/-- The request for the marked columns of a projection; no mark asks for all columns. -/
def projection (request : Request) (projection : Projection) : Request :=
  { request with columns := projection.selectedColumns }

/-- The request with a further refinement. -/
def compose (request : Request) (hook : Hook) : Request :=
  { request with hooks := request.hooks ++ [hook] }

/-! ## Building -/

/-- A query refined by hooks in turn. -/
def runHooks : List Hook → Select → Except QueryError Select
  | [], query => .ok query
  | hook :: rest, query =>
    match hook query with
    | .ok query => runHooks rest query
    | .error cause => .error (.compose cause)

/-- The queries of the page, or the first failure. -/
def build (request : Request) : Except QueryError Plan := do
  if let some error := request.failure then throw error
  let window := request.window.normalize request.limits
  let count ← runHooks request.hooks ((← Select.ofTable request.table).filter request.condition)
  let order ← match request.order with
    | some order => pure order
    | none => Order.ofSpec none request.limits.defaultSort
  let select ← count.withColumns request.columns
  return {
    window
    count
    select := ((select.orderBy order).withLimit window.limit).withOffset window.skip }

end Request

end TableQuery
