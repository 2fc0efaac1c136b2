import TableQuery.Proofs.Fetch
import TableQuery.Proofs.SortKeys

/-!
# Building a request by calls

A request is built by calls in any order and any number.  Of the windows, filters, sorts and
projections that they ask for the last one counts, and of the hooks all do, in their order.  Filters
and sorts are compiled as they come in, so a request that has not failed holds the compiled form of
what the last calls asked for; whatever an earlier call asked for has been compiled and dropped.

`Wishes` says what a sequence of calls asks for, without compiling anything.  The invariant
`Request.Meets` ties a request to it: each call keeps it as long as the request has not failed, and
a failure stays.

## Main results

* `meets_apply`, `meets_run` — what one call and what a sequence of calls leaves in a request.
* `build_run_eq_ok` — what the plan of a request is made of.
-/

namespace TableQuery

/-! ## Calls -/

namespace Request

/-- The request over a table before any call. -/
def ofTable (table : String) (limits : PageLimits) : Request := { table, limits }

/-- A call that builds a request.  A filter comes with the fault of its description, if that has
one. -/
inductive Call where
  | page (window : PageWindow)
  | filter (tree : Except QueryError (Option Filter))
  | sort (spec : Option SortSpec)
  | projection (projection : Projection)
  | compose (hook : Hook)

/-- The request after a call. -/
def apply (request : Request) : Call → Request
  | .page window => request.page window
  | .filter tree => request.filter tree
  | .sort spec => request.sort spec
  | .projection projection => request.projection projection
  | .compose hook => request.compose hook

/-- The request after a sequence of calls. -/
def run (request : Request) (calls : List Call) : Request := calls.foldl apply request

@[simp] theorem run_nil (request : Request) : request.run [] = request := rfl

@[simp] theorem run_cons (request : Request) (call : Call) (calls : List Call) :
    request.run (call :: calls) = (request.apply call).run calls := rfl

/-- Whether a call adds a hook. -/
def Call.isHook : Call → Bool
  | compose _ => true
  | _ => false

end Request

/-! ## Columns that are asked for -/

/-- Checking names finds identifiers of those names. -/
theorem Identifier.map_name_of_mapM {names : List String} {identifiers : List Identifier}
    (h : names.mapM check = .ok identifiers) : identifiers.map name = names := by
  rw [Checked.map_of_mapM_eq_ok (g := id) h fun _ _ => name_of_check, List.map_id]

/-! ## Wishes -/

/-- What a sequence of calls asks for. -/
structure Wishes where
  /-- The last window. -/
  window : PageWindow := {}
  /-- The last filter. -/
  tree : Option Filter := none
  /-- The last sort. -/
  spec : Option SortSpec := none
  /-- The marked columns of the last projection. -/
  columns : List String := []
  /-- All hooks, in their order. -/
  hooks : List Hook := []

namespace Wishes

/-- The wishes after a further call. -/
def note (wishes : Wishes) : Request.Call → Wishes
  | .page window => { wishes with window }
  | .filter (.ok tree) => { wishes with tree }
  | .filter (.error _) => wishes
  | .sort spec => { wishes with spec }
  | .projection projection => { wishes with columns := projection.selectedColumns }
  | .compose hook => { wishes with hooks := wishes.hooks ++ [hook] }

/-- The wishes of a sequence of calls. -/
def ofCalls (calls : List Request.Call) : Wishes := calls.foldl note {}

/-- Without a call that adds one there is no hook. -/
theorem hooks_ofCalls {calls : List Request.Call} (h : ∀ call ∈ calls, call.isHook = false) :
    (ofCalls calls).hooks = [] := by
  suffices hfold : ∀ wishes : Wishes, wishes.hooks = [] → (calls.foldl note wishes).hooks = [] from
    hfold {} rfl
  induction calls with
  | nil => exact fun _ hnone => hnone
  | cons call calls ih =>
      intro wishes hnone
      refine ih (fun call hcall => h call (List.mem_cons_of_mem _ hcall)) _ ?_
      have hcall := h call List.mem_cons_self
      cases call with
      | page | sort | projection => exact hnone
      | filter tree => cases tree <;> exact hnone
      | compose hook => exact Bool.noConfusion hcall

end Wishes

/-! ## The invariant -/

namespace Request

/-- `request.Meets wishes` holds if a request holds what was asked for, in compiled form. -/
structure Meets (request : Request) (wishes : Wishes) : Prop where
  window : request.window = wishes.window
  condition : Filter.conditionOf? wishes.tree = .ok request.condition
  order : request.orderOf = Order.ofSpec wishes.spec request.limits.defaultSort
  columns : request.columns = wishes.columns
  hooks : request.hooks = wishes.hooks

theorem meets_ofTable (table : String) (limits : PageLimits) : (ofTable table limits).Meets {} :=
  ⟨rfl, rfl, rfl, rfl, rfl⟩

/-! ### What filters and sorts do -/

section Steps

variable {request : Request} {tree : Except QueryError (Option Filter)} {spec : Option SortSpec}
  {error : QueryError}

theorem filter_of_failure (h : request.failure = some error) : request.filter tree = request := by
  simp only [filter, h]

theorem filter_of_ok {condition : Option Condition} (h : request.failure = none)
    (htree : tree >>= Filter.conditionOf? = .ok condition) :
    request.filter tree = { request with condition } := by
  simp only [filter, h, htree]

theorem filter_of_error (h : request.failure = none)
    (htree : tree >>= Filter.conditionOf? = .error error) :
    request.filter tree = { request with condition := none, failure := some error } := by
  simp only [filter, h, htree]

theorem sort_of_failure (h : request.failure = some error) : request.sort spec = request := by
  simp only [sort, h]

theorem sort_of_ok {order : Order} (h : request.failure = none)
    (hspec : Order.ofSpec spec request.limits.defaultSort = .ok order) :
    request.sort spec = { request with order := some order } := by
  simp only [sort, h, hspec]

theorem sort_of_error (h : request.failure = none)
    (hspec : Order.ofSpec spec request.limits.defaultSort = .error error) :
    request.sort spec = { request with order := none, failure := some error } := by
  simp only [sort, h, hspec]

end Steps

/-! ### What calls keep -/

/-- A failure stays. -/
theorem failure_apply {request : Request} {error : QueryError} (h : request.failure = some error)
    (call : Call) : (request.apply call).failure = some error := by
  cases call with
  | page | projection | compose => exact h
  | filter tree =>
      show (request.filter tree).failure = _
      rw [filter_of_failure h, h]
  | sort spec =>
      show (request.sort spec).failure = _
      rw [sort_of_failure h, h]

/-- A request that has not failed had not failed before its last call. -/
theorem failure_eq_none_of_apply {request : Request} {call : Call}
    (h : (request.apply call).failure = none) : request.failure = none := by
  cases hfailure : request.failure with
  | none => rfl
  | some error =>
      rw [failure_apply hfailure call] at h
      exact absurd h (Option.some_ne_none error)

/-- A request that has not failed had not failed before its calls. -/
theorem failure_eq_none_of_run {request : Request} {calls : List Call}
    (h : (request.run calls).failure = none) : request.failure = none := by
  induction calls generalizing request with
  | nil => exact h
  | cons call calls ih => exact failure_eq_none_of_apply (ih h)

/-- What a filter leaves in a request that does not fail by it. -/
theorem filter_eq_of_failure_eq_none {request : Request}
    {tree : Except QueryError (Option Filter)} (h : (request.filter tree).failure = none) :
    ∃ asked condition, tree = .ok asked ∧ Filter.conditionOf? asked = .ok condition ∧
      request.filter tree = { request with condition } := by
  have hbefore : request.failure = none := @failure_eq_none_of_apply request (.filter tree) h
  cases hcompiled : tree >>= Filter.conditionOf? with
  | error error =>
      rw [filter_of_error hbefore hcompiled] at h
      cases h
  | ok condition =>
      obtain ⟨asked, htree, hcondition⟩ := Checked.bind_eq_ok_iff.1 hcompiled
      exact ⟨asked, condition, htree, hcondition, filter_of_ok hbefore hcompiled⟩

/-- What a sort leaves in a request that does not fail by it. -/
theorem sort_eq_of_failure_eq_none {request : Request} {spec : Option SortSpec}
    (h : (request.sort spec).failure = none) :
    ∃ order, Order.ofSpec spec request.limits.defaultSort = .ok order ∧
      request.sort spec = { request with order := some order } := by
  have hbefore : request.failure = none := @failure_eq_none_of_apply request (.sort spec) h
  cases horder : Order.ofSpec spec request.limits.defaultSort with
  | error error =>
      rw [sort_of_error hbefore horder] at h
      cases h
  | ok order => exact ⟨order, rfl, sort_of_ok hbefore horder⟩

/-- A call that does not fail keeps the invariant. -/
theorem meets_apply {request : Request} {wishes : Wishes} {call : Call}
    (hmeets : request.Meets wishes) (h : (request.apply call).failure = none) :
    (request.apply call).Meets (wishes.note call) := by
  obtain ⟨hwindow, hcondition, horder, hcolumns, hhooks⟩ := hmeets
  cases call with
  | page window => exact ⟨rfl, hcondition, horder, hcolumns, hhooks⟩
  | projection projection => exact ⟨hwindow, hcondition, horder, rfl, hhooks⟩
  | compose hook =>
      refine ⟨hwindow, hcondition, horder, hcolumns, ?_⟩
      show request.hooks ++ [hook] = wishes.hooks ++ [hook]
      rw [hhooks]
  | filter tree =>
      obtain ⟨asked, condition, rfl, hcompiled, hfilter⟩ := filter_eq_of_failure_eq_none h
      show (request.filter (.ok asked)).Meets _
      rw [hfilter]
      exact ⟨hwindow, hcompiled, horder, hcolumns, hhooks⟩
  | sort spec =>
      obtain ⟨order, hordered, hsort⟩ := sort_eq_of_failure_eq_none h
      show (request.sort spec).Meets _
      rw [hsort]
      exact ⟨hwindow, hcondition, hordered.symm, hcolumns, hhooks⟩

/-- No call changes the table or the limits. -/
theorem table_and_limits_apply (request : Request) (call : Call) :
    (request.apply call).table = request.table ∧ (request.apply call).limits = request.limits := by
  cases call with
  | page | projection | compose => exact ⟨rfl, rfl⟩
  | filter tree =>
      show (request.filter tree).table = _ ∧ (request.filter tree).limits = _
      cases hfailure : request.failure with
      | some error => rw [filter_of_failure hfailure]; exact ⟨rfl, rfl⟩
      | none =>
          cases htree : tree >>= Filter.conditionOf? with
          | error error => rw [filter_of_error hfailure htree]; exact ⟨rfl, rfl⟩
          | ok condition => rw [filter_of_ok hfailure htree]; exact ⟨rfl, rfl⟩
  | sort spec =>
      show (request.sort spec).table = _ ∧ (request.sort spec).limits = _
      cases hfailure : request.failure with
      | some error => rw [sort_of_failure hfailure]; exact ⟨rfl, rfl⟩
      | none =>
          cases hspec : Order.ofSpec spec request.limits.defaultSort with
          | error error => rw [sort_of_error hfailure hspec]; exact ⟨rfl, rfl⟩
          | ok order => rw [sort_of_ok hfailure hspec]; exact ⟨rfl, rfl⟩

/-- No sequence of calls changes the table or the limits. -/
theorem table_and_limits_run (request : Request) (calls : List Call) :
    (request.run calls).table = request.table ∧ (request.run calls).limits = request.limits := by
  induction calls generalizing request with
  | nil => exact ⟨rfl, rfl⟩
  | cons call calls ih =>
      obtain ⟨htable, hlimits⟩ := ih (request.apply call)
      obtain ⟨htable', hlimits'⟩ := table_and_limits_apply request call
      exact ⟨htable.trans htable', hlimits.trans hlimits'⟩

/-- A sequence of calls that does not fail keeps the invariant. -/
theorem meets_foldl {request : Request} {wishes : Wishes} {calls : List Call}
    (hmeets : request.Meets wishes) (h : (request.run calls).failure = none) :
    (request.run calls).Meets (calls.foldl Wishes.note wishes) := by
  induction calls generalizing request wishes with
  | nil => exact hmeets
  | cons call calls ih =>
      have hfailure : (request.apply call).failure = none := failure_eq_none_of_run h
      exact ih (meets_apply hmeets hfailure) h

/-- A request that has not failed holds what its calls asked for. -/
theorem meets_run {table : String} {limits : PageLimits} {calls : List Call}
    (h : ((ofTable table limits).run calls).failure = none) :
    ((ofTable table limits).run calls).Meets (.ofCalls calls) :=
  meets_foldl (meets_ofTable table limits) h

/-- What the plan of a request is made of: the filter and the hooks make the query that counts, and
the columns, the order and the window that were asked for are added to it for the one that returns
rows. -/
theorem build_run_eq_ok {table : String} {limits : PageLimits} {calls : List Call} {plan : Plan}
    (h : ((ofTable table limits).run calls).build = .ok plan) :
    let wishes := Wishes.ofCalls calls
    ∃ query condition order names, Select.ofTable table = .ok query ∧
      Filter.conditionOf? wishes.tree = .ok condition ∧
      runHooks wishes.hooks (query.filter condition) = .ok plan.count ∧
      Order.ofSpec wishes.spec limits.defaultSort = .ok order ∧
      wishes.columns.mapM Identifier.check = .ok names ∧
      plan.window = wishes.window.normalize limits ∧
      plan.select = { plan.count with
        columns := names
        order := some order
        limit := some plan.window.limit
        offset := some plan.window.skip } := by
  obtain ⟨hfailure, query, count, order, select, hquery, hcount, horder, hselect, rfl⟩ :=
    build_eq_ok_iff.1 h
  obtain ⟨names, hnames, rfl⟩ := Select.withColumns_eq_ok_iff.1 hselect
  obtain ⟨hwindow, hcondition, horderOf, hcolumns, hhooks⟩ := meets_run hfailure
  obtain ⟨htable, hlimits⟩ := table_and_limits_run (ofTable table limits) calls
  refine ⟨query, _, order, names, ?_, hcondition, ?_, ?_, ?_, ?_, rfl⟩
  · rw [htable] at hquery
    exact hquery
  · rw [← hhooks]
    exact hcount
  · rw [← horder, horderOf, hlimits]
    rfl
  · rw [← hcolumns]
    exact hnames
  · show PageWindow.normalize _ _ = _
    rw [hwindow, hlimits]
    rfl

end Request

end TableQuery
