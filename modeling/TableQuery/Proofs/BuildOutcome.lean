import Mathlib.Data.List.Induction
import TableQuery.Proofs.CompileFaults
import TableQuery.Proofs.RequestCalls

/-!
# What comes of building a request

A request may be built by any calls in any order, and some of them are overwritten by later ones.
Two rules say what comes of it.

* A filter or a sort that does not compile refuses the request, even if a later call would have
  replaced it.  The first such call counts, and nothing that surrounds it does: not the table, not
  the other calls, and not the hooks, none of which runs.
* Otherwise only the last window, filter, sort and projection count, with all hooks in their order.
  Which faults are left is then a matter of the build itself: first the table, then the hooks up to
  the first that fails, then the default key where no sort was asked for, then the columns.

A hook is trusted code that may do anything when it runs, so it matters which of them run.
`Request.buildRecorded` builds a request and keeps the queries that hooks were given; its result is
that of `Request.build`.

## Main results

* `failure_run` — the failure that a sequence of calls leaves in a request.
* `Wishes.ofCalls_eq` — what a sequence of calls asks for, by the last call of each kind.
* `build_eq_error_iff` — the faults of a request that its calls have not refused.
* `build_outcome` — both rules.
-/

namespace TableQuery

namespace Request

/-! ## Calls by their kinds -/

/-- What a call is about. -/
inductive Call.Kind where
  | page | filter | sort | projection | compose
  deriving DecidableEq

/-- The kind of a call. -/
def Call.kind : Call → Kind
  | page _ => .page
  | filter _ => .filter
  | sort _ => .sort
  | projection _ => .projection
  | compose _ => .compose

/-- The calls of one kind, in their order. -/
def ofKind (kind : Call.Kind) (calls : List Call) : List Call :=
  calls.filter fun call => call.kind = kind

/-- `Condenses short calls` holds if `short` has only the last window, filter, sort and projection
of `calls`, as far as there is one, and all hooks in their order; the kinds may alternate in any
way. -/
structure Condenses (short calls : List Call) : Prop where
  last : ∀ kind, kind ≠ .compose → ofKind kind short = (ofKind kind calls).getLast?.toList
  hooks : ofKind .compose short = ofKind .compose calls

/-- The fault that a call brings along: that of a filter or a sort that does not compile. -/
def Call.fault? (limits : PageLimits) : Call → Option QueryError
  | filter tree => Checked.fault? (tree >>= Filter.conditionOf?)
  | sort spec => Checked.fault? (Order.ofSpec spec limits.defaultSort)
  | _ => none

theorem ofKind_concat (kind : Call.Kind) (calls : List Call) (call : Call) :
    ofKind kind (calls ++ [call]) =
      if call.kind = kind then ofKind kind calls ++ [call] else ofKind kind calls := by
  unfold ofKind
  rw [List.filter_append, List.filter_singleton]
  by_cases h : call.kind = kind <;> simp [h]

/-! ## Failures -/

/-- The failure that a call leaves: an earlier one, or else its own fault. -/
theorem failure_apply_eq (request : Request) (call : Call) :
    (request.apply call).failure = request.failure.or (call.fault? request.limits) := by
  cases hfailure : request.failure with
  | some error => rw [failure_apply hfailure, Option.some_or]
  | none =>
      rw [Option.none_or]
      cases call with
      | page | projection | compose => exact hfailure
      | filter tree =>
          show (request.filter tree).failure = Checked.fault? (tree >>= Filter.conditionOf?)
          cases htree : tree >>= Filter.conditionOf? with
          | error error => rw [filter_of_error hfailure htree]; rfl
          | ok condition => rw [filter_of_ok hfailure htree]; exact hfailure
      | sort spec =>
          show (request.sort spec).failure =
            Checked.fault? (Order.ofSpec spec request.limits.defaultSort)
          cases hspec : Order.ofSpec spec request.limits.defaultSort with
          | error error => rw [sort_of_error hfailure hspec]; rfl
          | ok order => rw [sort_of_ok hfailure hspec]; exact hfailure

/-- The failure that a sequence of calls leaves: an earlier one, or else the first fault that a call
brings along. -/
theorem failure_run (request : Request) (calls : List Call) :
    (request.run calls).failure =
      request.failure.or (calls.findSome? (Call.fault? request.limits)) := by
  induction calls generalizing request with
  | nil => exact Option.or_none.symm
  | cons call calls ih =>
      rw [run_cons, ih, failure_apply_eq, (table_and_limits_apply request call).2, Option.or_assoc,
        List.findSome?_cons]
      cases call.fault? request.limits <;> rfl

/-! ## What calls ask for -/

/-- The window that a call asks for. -/
def askedWindow : Option Call → PageWindow
  | some (.page window) => window
  | _ => {}

/-- The filter that a call asks for. -/
def askedTree : Option Call → Option Filter
  | some (.filter (.ok tree)) => tree
  | _ => none

/-- The sort that a call asks for. -/
def askedSpec : Option Call → Option SortSpec
  | some (.sort spec) => spec
  | _ => none

/-- The columns that a call asks for. -/
def askedColumns : Option Call → List String
  | some (.projection projection) => projection.selectedColumns
  | _ => []

/-- The hook that a call adds. -/
def Call.hook? : Call → Option Hook
  | compose hook => some hook
  | _ => none

end Request

/-- What calls ask for, by the last call of each kind, if no filter comes with a fault. -/
theorem Wishes.ofCalls_eq {calls : List Request.Call}
    (h : ∀ error, Request.Call.filter (.error error) ∉ calls) :
    ofCalls calls = {
      window := Request.askedWindow (Request.ofKind .page calls).getLast?
      tree := Request.askedTree (Request.ofKind .filter calls).getLast?
      spec := Request.askedSpec (Request.ofKind .sort calls).getLast?
      columns := Request.askedColumns (Request.ofKind .projection calls).getLast?
      hooks := (Request.ofKind .compose calls).filterMap Request.Call.hook? } := by
  induction calls using List.reverseRecOn with
  | nil => rfl
  | append_singleton calls call ih =>
      have hcalls : ofCalls (calls ++ [call]) = (ofCalls calls).note call := by
        rw [ofCalls, ofCalls, List.foldl_append]
        rfl
      have hbefore := ih fun error hmem => h error (List.mem_append_left _ hmem)
      rw [hcalls, hbefore]
      simp only [Request.ofKind_concat]
      cases call with
      | page | sort | projection =>
          simp [note, Request.Call.kind, Request.askedWindow, Request.askedSpec,
            Request.askedColumns]
      | compose hook => simp [note, Request.Call.kind, Request.Call.hook?]
      | filter tree =>
          cases tree with
          | ok tree => simp [note, Request.Call.kind, Request.askedTree]
          | error error => exact absurd (by simp) (h error)

namespace Request

variable {table : String} {limits : PageLimits} {calls short : List Call}

theorem mem_ofKind {kind : Call.Kind} {call : Call} :
    call ∈ ofKind kind calls ↔ call ∈ calls ∧ call.kind = kind := by
  simp [ofKind]

/-- Without a fault no filter comes with one. -/
theorem filter_error_not_mem (h : calls.findSome? (Call.fault? limits) = none)
    (error : QueryError) : Call.filter (.error error) ∉ calls := by
  intro hmem
  have hfault := List.findSome?_eq_none_iff.1 h _ hmem
  cases hfault

namespace Condenses

variable (hshort : Condenses short calls)

include hshort

/-- Calls that condense others are among them. -/
theorem mem {call : Call} (hcall : call ∈ short) : call ∈ calls := by
  have hkind : call ∈ ofKind call.kind short := mem_ofKind.2 ⟨hcall, rfl⟩
  by_cases hcompose : call.kind = .compose
  · rw [hcompose, hshort.hooks] at hkind
    exact (mem_ofKind.1 hkind).1
  · rw [hshort.last _ hcompose, Option.mem_toList] at hkind
    exact (mem_ofKind.1 (List.mem_of_getLast? hkind)).1

theorem fault?_eq_none (h : calls.findSome? (Call.fault? limits) = none) :
    short.findSome? (Call.fault? limits) = none := by
  rw [List.findSome?_eq_none_iff] at h ⊢
  exact fun call hcall => h call (hshort.mem hcall)

/-- Calls that condense others ask for the same. -/
theorem ofCalls_eq (h : calls.findSome? (Call.fault? limits) = none) :
    Wishes.ofCalls short = Wishes.ofCalls calls := by
  have hlast : ∀ kind, kind ≠ .compose →
      (ofKind kind short).getLast? = (ofKind kind calls).getLast? := by
    intro kind hkind
    rw [hshort.last kind hkind]
    cases (ofKind kind calls).getLast? <;> rfl
  rw [Wishes.ofCalls_eq (filter_error_not_mem h),
    Wishes.ofCalls_eq (filter_error_not_mem (hshort.fault?_eq_none h)), hshort.hooks,
    hlast .page (by decide), hlast .filter (by decide), hlast .sort (by decide),
    hlast .projection (by decide)]

end Condenses

/-! ## Building with a record -/

/-- A query refined by hooks in turn, with the queries that hooks were given. -/
def runHooksRecorded : List Hook → Select → List Select × Except QueryError Select
  | [], query => ([], .ok query)
  | hook :: rest, query =>
    match hook query with
    | .ok next =>
      let (given, result) := runHooksRecorded rest next
      (query :: given, result)
    | .error cause => ([query], .error (.compose cause))

/-- What is built after the hooks have left the query that counts. -/
def finish (request : Request) (count : Select) : Except QueryError Plan := do
  let order ← request.orderOf
  let select ← count.withColumns request.columns
  let window := request.window.normalize request.limits
  return {
    window
    count
    select := ((select.orderBy order).withLimit window.limit).withOffset window.skip }

/-- The queries of the page or the first failure, with the queries that hooks were given. -/
def buildRecorded (request : Request) : List Select × Except QueryError Plan :=
  match request.failure, Select.ofTable request.table with
  | some error, _ => ([], .error error)
  | none, .error error => ([], .error error)
  | none, .ok query =>
    let (given, count) := runHooksRecorded request.hooks (query.filter request.condition)
    (given, count >>= request.finish)

/-- The queries that hooks are given when a request is built, one for each hook that runs. -/
def hookInputs (request : Request) : List Select := request.buildRecorded.1

section Hooks

variable {hook : Hook} {hooks before after : List Hook} {query next result : Select}
  {cause : String}

theorem runHooks_of_ok (h : hook query = .ok next) :
    runHooks (hook :: hooks) query = runHooks hooks next := by
  rw [runHooks, h]

theorem runHooks_of_error (h : hook query = .error cause) :
    runHooks (hook :: hooks) query = .error (.compose cause) := by
  rw [runHooks, h]

theorem runHooksRecorded_of_ok (h : hook query = .ok next) :
    runHooksRecorded (hook :: hooks) query =
      (query :: (runHooksRecorded hooks next).1, (runHooksRecorded hooks next).2) := by
  rw [runHooksRecorded, h]

theorem runHooksRecorded_of_error (h : hook query = .error cause) :
    runHooksRecorded (hook :: hooks) query = ([query], .error (.compose cause)) := by
  rw [runHooksRecorded, h]

theorem snd_runHooksRecorded (hooks : List Hook) (query : Select) :
    (runHooksRecorded hooks query).2 = runHooks hooks query := by
  induction hooks generalizing query with
  | nil => rfl
  | cons hook rest ih =>
      cases h : hook query with
      | error cause => rw [runHooks_of_error h, runHooksRecorded_of_error h]
      | ok next => rw [runHooks_of_ok h, runHooksRecorded_of_ok h, ih]

/-- If all hooks succeed, all of them run. -/
theorem length_runHooksRecorded (h : runHooks hooks query = .ok result) :
    (runHooksRecorded hooks query).1.length = hooks.length := by
  induction hooks generalizing query with
  | nil => rfl
  | cons hook rest ih =>
      cases hhook : hook query with
      | error cause =>
          rw [runHooks_of_error hhook] at h
          cases h
      | ok next =>
          rw [runHooks_of_ok hhook] at h
          rw [runHooksRecorded_of_ok hhook, List.length_cons, List.length_cons, ih h]

/-- A hook that fails after others have succeeded is the last one that runs. -/
theorem runHooksRecorded_of_split (hbefore : runHooks before query = .ok next)
    (hcause : hook next = .error cause) :
    (runHooksRecorded (before ++ hook :: after) query).1.length = before.length + 1 ∧
      runHooks (before ++ hook :: after) query = .error (.compose cause) := by
  induction before generalizing query with
  | nil =>
      obtain rfl := Except.ok.inj hbefore
      rw [List.nil_append, runHooksRecorded_of_error hcause, runHooks_of_error hcause]
      exact ⟨rfl, rfl⟩
  | cons first before ih =>
      cases hfirst : first query with
      | error cause =>
          rw [runHooks_of_error hfirst] at hbefore
          cases hbefore
      | ok second =>
          rw [runHooks_of_ok hfirst] at hbefore
          obtain ⟨hlength, hresult⟩ := ih hbefore
          rw [List.cons_append, runHooksRecorded_of_ok hfirst, runHooks_of_ok hfirst]
          exact ⟨congrArg Nat.succ hlength, hresult⟩

/-- Hooks fail with the first of them that fails. -/
theorem exists_split_of_runHooks {error : QueryError} (h : runHooks hooks query = .error error) :
    ∃ before hook after next cause, hooks = before ++ hook :: after ∧
      runHooks before query = .ok next ∧ hook next = .error cause ∧ error = .compose cause := by
  induction hooks generalizing query with
  | nil => cases h
  | cons hook rest ih =>
      cases hhook : hook query with
      | error cause =>
          rw [runHooks_of_error hhook] at h
          exact ⟨[], hook, rest, query, cause, rfl, rfl, hhook, (Except.error.inj h).symm⟩
      | ok second =>
          rw [runHooks_of_ok hhook] at h
          obtain ⟨before, failing, after, next, cause, rfl, hbefore, hcause, herror⟩ := ih h
          refine ⟨hook :: before, failing, after, next, cause, rfl, ?_, hcause, herror⟩
          rw [runHooks_of_ok hhook, hbefore]

end Hooks

/-! ### The record of a build -/

variable {request : Request} {wishes : Wishes}

theorem buildRecorded_of_failure {error : QueryError} (h : request.failure = some error) :
    request.buildRecorded = ([], .error error) := by
  unfold buildRecorded
  rw [h]

/-- A request without a failure runs its hooks on the filtered table. -/
theorem buildRecorded_of_ok {query : Select} (h : request.failure = none)
    (hquery : Select.ofTable request.table = .ok query) :
    request.buildRecorded =
      ((runHooksRecorded request.hooks (query.filter request.condition)).1,
        runHooks request.hooks (query.filter request.condition) >>= request.finish) := by
  unfold buildRecorded
  rw [h, hquery, ← snd_runHooksRecorded]

theorem buildRecorded_of_table {error : QueryError} (h : request.failure = none)
    (hquery : Select.ofTable request.table = .error error) :
    request.buildRecorded = ([], .error error) := by
  unfold buildRecorded
  rw [h, hquery]

/-- Keeping the record does not change what is built. -/
theorem snd_buildRecorded (request : Request) : request.buildRecorded.2 = request.build := by
  cases hfailure : request.failure with
  | some error =>
      rw [buildRecorded_of_failure hfailure, build, hfailure]
      rfl
  | none =>
      rw [build_eq_of_failure_eq_none hfailure]
      cases hquery : Select.ofTable request.table with
      | error error => rw [buildRecorded_of_table hfailure hquery]; rfl
      | ok query => rw [buildRecorded_of_ok hfailure hquery]; rfl

/-- Two requests that hold the same are built in the same way. -/
theorem buildRecorded_congr {request' : Request} (h : request.failure = none)
    (h' : request'.failure = none) (hmeets : request.Meets wishes) (hmeets' : request'.Meets wishes)
    (htable : request.table = request'.table) (hlimits : request.limits = request'.limits) :
    request.buildRecorded = request'.buildRecorded := by
  have hcondition : request.condition = request'.condition :=
    Except.ok.inj (hmeets.condition.symm.trans hmeets'.condition)
  have horder : request.orderOf = request'.orderOf := by
    rw [hmeets.order, hmeets'.order, hlimits]
  have hfinish : request.finish = request'.finish := by
    funext count
    rw [finish, finish, horder, hmeets.columns, hmeets'.columns, hmeets.window, hmeets'.window,
      hlimits]
  unfold buildRecorded
  rw [h, h', htable, hcondition, hmeets.hooks, hmeets'.hooks, hfinish]

/-! ## Faults that calls have not caused -/

/-- `Filtered table calls start` holds if `start` is the query over a table with the condition of
the last filter. -/
def Filtered (table : String) (calls : List Call) (start : Select) : Prop :=
  ∃ query condition, Select.ofTable table = .ok query ∧
    Filter.conditionOf? (Wishes.ofCalls calls).tree = .ok condition ∧ start = query.filter condition

/-- `Surfaces table limits calls error runs` holds if `error` is the fault of a request whose calls
have not refused it, and `runs` hooks have run by then.  Each fault comes only where those before it
do not arise. -/
inductive Surfaces (table : String) (limits : PageLimits) (calls : List Call) :
    QueryError → Nat → Prop where
  /-- The table is no identifier. -/
  | table (h : isIdentifier table.toList = false) :
      Surfaces table limits calls (.invalidIdentifier table) 0
  /-- A hook fails on what those before it have left. -/
  | hook {start next : Select} {before after : List Hook} {hook : Hook} {cause : String}
      (hstart : Filtered table calls start)
      (hhooks : (Wishes.ofCalls calls).hooks = before ++ hook :: after)
      (hbefore : runHooks before start = .ok next) (hcause : hook next = .error cause) :
      Surfaces table limits calls (.compose cause) (before.length + 1)
  /-- No sort is asked for, and the default key has no identifier. -/
  | defaultKey {start count : Select} (hstart : Filtered table calls start)
      (hcount : runHooks (Wishes.ofCalls calls).hooks start = .ok count)
      (hsort : ofKind .sort calls = [])
      (h : isIdentifier limits.defaultSort.column.toList = false) :
      Surfaces table limits calls (.invalidIdentifier limits.defaultSort.column)
        (Wishes.ofCalls calls).hooks.length
  /-- A column of the last projection is no identifier, and it is the first of them. -/
  | column {start count : Select} {before after : List String} {name : String}
      (hstart : Filtered table calls start)
      (hcount : runHooks (Wishes.ofCalls calls).hooks start = .ok count)
      (hsort : ofKind .sort calls = [] → isIdentifier limits.defaultSort.column.toList = true)
      (hcolumns : (Wishes.ofCalls calls).columns = before ++ name :: after)
      (hbefore : ∀ column ∈ before, isIdentifier column.toList = true)
      (h : isIdentifier name.toList = false) :
      Surfaces table limits calls (.invalidIdentifier name) (Wishes.ofCalls calls).hooks.length

theorem fault?_ofTable (table : String) :
    Checked.fault? (Select.ofTable table) = Checked.fault? (Identifier.check table) :=
  Checked.fault?_bind_of_total fun _ => rfl

/-- What is left after the hooks fails by the order, and else by the first column that is no
identifier. -/
theorem fault?_finish (request : Request) (count : Select) :
    Checked.fault? (request.finish count) = (Checked.fault? request.orderOf).or
      (request.columns.findSome? fun name => Checked.fault? (Identifier.check name)) := by
  have hselect : Checked.fault? (count.withColumns request.columns) =
      request.columns.findSome? fun name => Checked.fault? (Identifier.check name) := by
    rw [← Checked.fault?_mapM, Select.withColumns]
    exact Checked.fault?_bind_of_total fun _ => rfl
  rw [← hselect]
  exact Checked.fault?_bind fun order _ => Checked.fault?_bind_of_total fun _ => rfl

theorem findSome?_check_eq_some_iff {names : List String} {error : QueryError} :
    (names.findSome? fun name => Checked.fault? (Identifier.check name)) = some error ↔
      ∃ before name after, names = before ++ name :: after ∧
        (∀ column ∈ before, isIdentifier column.toList = true) ∧ isIdentifier name.toList = false ∧
          error = .invalidIdentifier name := by
  rw [List.findSome?_eq_some_iff]
  simp only [Identifier.fault?_check_eq_none_iff, Identifier.fault?_check_eq_some_iff]
  refine exists_congr fun before => exists_congr fun name => exists_congr fun after => ?_
  exact and_congr_right fun _ => and_comm

/-- A sort that was asked for without a fault has an order. -/
theorem fault?_orderOf {request : Request} (hfault : calls.findSome? (Call.fault? limits) = none)
    (horder : request.orderOf = Order.ofSpec (Wishes.ofCalls calls).spec limits.defaultSort) :
    Checked.fault? request.orderOf =
      if ofKind .sort calls = [] then Checked.fault? (Identifier.check limits.defaultSort.column)
      else none := by
  rw [horder, Wishes.ofCalls_eq (filter_error_not_mem hfault)]
  by_cases hsort : ofKind .sort calls = []
  · rw [if_pos hsort, hsort]
    exact Order.fault?_ofSpec_none _
  · obtain ⟨call, hcall⟩ := Option.ne_none_iff_exists'.1 (mt List.getLast?_eq_none_iff.1 hsort)
    obtain ⟨hmem, hkind⟩ := mem_ofKind.1 (List.mem_of_getLast? hcall)
    rw [if_neg hsort, hcall]
    cases call with
    | sort spec => exact List.findSome?_eq_none_iff.1 hfault _ hmem
    | page | filter | projection | compose => cases hkind

section Surfaces

variable {start start' count : Select} {error fault : QueryError} {runs : Nat}

theorem Filtered.unique (h : Filtered table calls start) (h' : Filtered table calls start') :
    start = start' := by
  obtain ⟨query, condition, hquery, hcondition, rfl⟩ := h
  obtain ⟨query', condition', hquery', hcondition', rfl⟩ := h'
  obtain rfl := Except.ok.inj (hquery.symm.trans hquery')
  obtain rfl := Except.ok.inj (hcondition.symm.trans hcondition')
  rfl

theorem Filtered.isIdentifier (h : Filtered table calls start) :
    isIdentifier table.toList = true := by
  obtain ⟨query, -, hquery, -⟩ := h
  obtain ⟨name, hname, -⟩ := Checked.bind_eq_ok_iff.1 hquery
  exact Identifier.fault?_check_eq_none_iff.1 (Checked.fault?_eq_none_iff.2 ⟨name, hname⟩)

/-- Where the table is no identifier, nothing else surfaces. -/
theorem surfaces_iff_of_table (h : isIdentifier table.toList = false) :
    Surfaces table limits calls error runs ↔ error = .invalidIdentifier table ∧ runs = 0 := by
  constructor
  · intro hsurfaces
    cases hsurfaces with
    | table _ => exact ⟨rfl, rfl⟩
    | hook hstart | defaultKey hstart | column hstart =>
        rw [hstart.isIdentifier] at h
        cases h
  · rintro ⟨rfl, rfl⟩
    exact .table h

/-- Where a hook fails, nothing surfaces but its failure. -/
theorem surfaces_iff_of_hook (hstart : Filtered table calls start)
    (hfails : runHooks (Wishes.ofCalls calls).hooks start = .error fault) :
    Surfaces table limits calls error runs ↔
      error = fault ∧ runs = (runHooksRecorded (Wishes.ofCalls calls).hooks start).1.length := by
  constructor
  · intro hsurfaces
    cases hsurfaces with
    | table h =>
        rw [hstart.isIdentifier] at h
        cases h
    | hook hstart' hhooks hbefore hcause =>
        obtain rfl := hstart'.unique hstart
        obtain ⟨hlength, hresult⟩ := runHooksRecorded_of_split hbefore hcause
        rw [hhooks] at hfails ⊢
        exact ⟨Except.error.inj (hresult.symm.trans hfails), hlength.symm⟩
    | defaultKey hstart' hcount | column hstart' hcount =>
        obtain rfl := hstart'.unique hstart
        rw [hfails] at hcount
        cases hcount
  · rintro ⟨rfl, rfl⟩
    obtain ⟨before, hook, after, next, cause, hhooks, hbefore, hcause, rfl⟩ :=
      exists_split_of_runHooks hfails
    rw [hhooks, (runHooksRecorded_of_split hbefore hcause).1]
    exact .hook hstart hhooks hbefore hcause

/-- Where no hook fails, the default key and the columns are left. -/
theorem surfaces_iff_of_count (hstart : Filtered table calls start)
    (hcount : runHooks (Wishes.ofCalls calls).hooks start = .ok count) :
    Surfaces table limits calls error runs ↔
      runs = (Wishes.ofCalls calls).hooks.length ∧
        (if ofKind .sort calls = [] then
            Checked.fault? (Identifier.check limits.defaultSort.column) else none).or
          ((Wishes.ofCalls calls).columns.findSome? fun name =>
            Checked.fault? (Identifier.check name)) = some error := by
  constructor
  · intro hsurfaces
    cases hsurfaces with
    | table h =>
        rw [hstart.isIdentifier] at h
        cases h
    | hook hstart' hhooks hbefore hcause =>
        obtain rfl := hstart'.unique hstart
        obtain ⟨-, hresult⟩ := runHooksRecorded_of_split hbefore hcause
        rw [hhooks, hresult] at hcount
        cases hcount
    | defaultKey _ _ hsort h =>
        rw [if_pos hsort, Identifier.fault?_check_eq_some_iff.2 ⟨h, rfl⟩]
        exact ⟨rfl, rfl⟩
    | @column _ _ before after name _ _ hsort hcolumns hbefore h =>
        have hkey : (if ofKind .sort calls = [] then
            Checked.fault? (Identifier.check limits.defaultSort.column) else none) = none := by
          split
          · next hnone => exact Identifier.fault?_check_eq_none_iff.2 (hsort hnone)
          · rfl
        refine ⟨rfl, ?_⟩
        rw [hkey, Option.none_or, findSome?_check_eq_some_iff]
        exact ⟨before, name, after, hcolumns, hbefore, h, rfl⟩
  · rintro ⟨rfl, h⟩
    have hcolumn : (Wishes.ofCalls calls).columns.findSome? (fun name =>
        Checked.fault? (Identifier.check name)) = some error →
        (ofKind .sort calls = [] → isIdentifier limits.defaultSort.column.toList = true) →
          Surfaces table limits calls error (Wishes.ofCalls calls).hooks.length := by
      intro hcolumn hsort
      obtain ⟨before, name, after, hcolumns, hbefore, hname, rfl⟩ :=
        findSome?_check_eq_some_iff.1 hcolumn
      exact .column hstart hcount hsort hcolumns hbefore hname
    by_cases hsort : ofKind .sort calls = []
    · rw [if_pos hsort] at h
      cases hkey : Checked.fault? (Identifier.check limits.defaultSort.column) with
      | none =>
          rw [hkey, Option.none_or] at h
          exact hcolumn h fun _ => Identifier.fault?_check_eq_none_iff.1 hkey
      | some fault =>
          rw [hkey, Option.some_or, Option.some.injEq] at h
          obtain ⟨hinvalid, rfl⟩ := Identifier.fault?_check_eq_some_iff.1 hkey
          exact h ▸ .defaultKey hstart hcount hsort hinvalid
    · rw [if_neg hsort, Option.none_or] at h
      exact hcolumn h fun hnone => absurd hnone hsort

end Surfaces

/-- The faults of a request that its calls have not refused. -/
theorem build_eq_error_iff (hfault : calls.findSome? (Call.fault? limits) = none)
    {error : QueryError} {runs : Nat} :
    ((ofTable table limits).run calls).build = .error error ∧
        ((ofTable table limits).run calls).hookInputs.length = runs ↔
      Surfaces table limits calls error runs := by
  have hfailure : ((ofTable table limits).run calls).failure = none := by
    rw [failure_run]
    exact hfault
  have hmeets := meets_run hfailure
  have htable := (table_and_limits_run (ofTable table limits) calls).1
  have hlimits := (table_and_limits_run (ofTable table limits) calls).2
  generalize (ofTable table limits).run calls = request at hfailure hmeets htable hlimits
  change request.table = table at htable
  change request.limits = limits at hlimits
  rw [hookInputs, ← snd_buildRecorded]
  cases hquery : Select.ofTable table with
  | error fault =>
      have hcheck : Checked.fault? (Identifier.check table) = some fault := by
        rw [← fault?_ofTable, hquery]
        rfl
      have hinvalid := Identifier.fault?_check_eq_some_iff.1 hcheck
      rw [buildRecorded_of_table hfailure (htable ▸ hquery), surfaces_iff_of_table hinvalid.1,
        hinvalid.2]
      simp [eq_comm]
  | ok query =>
      have hstart : Filtered table calls (query.filter request.condition) :=
        ⟨query, request.condition, hquery, hmeets.condition, rfl⟩
      rw [buildRecorded_of_ok hfailure (htable ▸ hquery), hmeets.hooks]
      cases hcount : runHooks (Wishes.ofCalls calls).hooks (query.filter request.condition) with
      | error fault =>
          rw [surfaces_iff_of_hook hstart hcount]
          simp [eq_comm, bind, Except.bind]
      | ok count =>
          rw [surfaces_iff_of_count hstart hcount, length_runHooksRecorded hcount]
          show request.finish count = .error error ∧ _ ↔ _
          rw [← Checked.fault?_eq_some_iff, fault?_finish, hmeets.columns,
            fault?_orderOf hfault (hlimits ▸ hmeets.order), and_comm, eq_comm (a := runs)]

/-- What comes of building a request depends on what matters only.  The first filter or sort that
does not compile refuses it, and no hook runs.  Without one, it is built like any request that makes
only the last call of each kind and adds the same hooks, and the faults that are left surface in the
order of the build. -/
theorem build_outcome (table : String) (limits : PageLimits) (calls : List Call) :
    let request := (ofTable table limits).run calls
    (∀ error, calls.findSome? (Call.fault? limits) = some error →
        request.build = .error error ∧ request.hookInputs = []) ∧
      (calls.findSome? (Call.fault? limits) = none →
        (∀ short, Condenses short calls →
          ((ofTable table limits).run short).build = request.build ∧
            ((ofTable table limits).run short).hookInputs = request.hookInputs) ∧
        ∀ error runs, request.build = .error error ∧ request.hookInputs.length = runs ↔
          Surfaces table limits calls error runs) := by
  intro request
  constructor
  · intro error hfault
    have hfailure : request.failure = some error := by
      rw [failure_run]
      exact hfault
    rw [hookInputs, ← snd_buildRecorded, buildRecorded_of_failure hfailure]
    exact ⟨rfl, rfl⟩
  · intro hfault
    refine ⟨fun short hshort => ?_, fun error runs => build_eq_error_iff hfault⟩
    have hnone : ∀ calls, calls.findSome? (Call.fault? limits) = none →
        ((ofTable table limits).run calls).failure = none := by
      intro calls hfault
      rw [failure_run]
      exact hfault
    have hfailure := hnone calls hfault
    have hfailureShort := hnone short (hshort.fault?_eq_none hfault)
    have hmeetsShort := meets_run hfailureShort
    rw [hshort.ofCalls_eq hfault] at hmeetsShort
    obtain ⟨htable, hlimits⟩ := table_and_limits_run (ofTable table limits) calls
    obtain ⟨htableShort, hlimitsShort⟩ := table_and_limits_run (ofTable table limits) short
    have hsame := buildRecorded_congr hfailureShort hfailure hmeetsShort (meets_run hfailure)
      (htableShort.trans htable.symm) (hlimitsShort.trans hlimits.symm)
    rw [hookInputs, hookInputs, ← snd_buildRecorded, ← snd_buildRecorded, hsame]
    exact ⟨rfl, rfl⟩

/-- A filter that is replaced counts for nothing unless it does not compile, and a hook that fails
keeps the one after it from running. -/
theorem build_outcome_denied :
    let good : Call := .filter (.ok (some (.leaf "a" (.ofComparison .eq (.integer 1)))))
    let bad : Call := .filter (.ok (some (.leaf "a" (.ofPattern .contains (.integer 1)))))
    let scope : Call := .compose fun query => .ok query
    let deny : Call := .compose fun _ => .error "denied"
    let request (calls : List Call) : Request := (ofTable "t" {}).run calls
    ((request [deny, bad, .filter (.ok none)]).build = .error (.notAString "contains") ∧
        (request [deny, bad, .filter (.ok none)]).hookInputs = []) ∧
      ((request [scope, .filter (.ok none), deny, scope]).build =
          (request [good, scope, .filter (.ok none), deny, scope]).build ∧
        (request [good, scope, .filter (.ok none), deny, scope]).build =
            .error (.compose "denied") ∧
          (request [good, scope, .filter (.ok none), deny, scope]).hookInputs.length = 2) := by
  intro good bad scope deny request
  obtain ⟨hfault, -⟩ := build_outcome "t" {} [deny, bad, .filter (.ok none)]
  obtain ⟨-, hnone⟩ := build_outcome "t" {} [good, scope, .filter (.ok none), deny, scope]
  obtain ⟨hshort, hsurfaces⟩ := hnone rfl
  have hcondenses : Condenses [scope, .filter (.ok none), deny, scope]
      [good, scope, .filter (.ok none), deny, scope] :=
    ⟨fun kind hkind => by cases kind <;> first | rfl | exact absurd rfl hkind, rfl⟩
  refine ⟨hfault _ rfl, (hshort _ hcondenses).1, (hsurfaces _ 2).2 ?_⟩
  have hquery : Select.ofTable "t" = .ok { table := ⟨"t", by decide⟩ } := rfl
  show Surfaces "t" {} _ _ (List.length [(fun query => .ok query : Hook)] + 1)
  exact .hook ⟨_, none, hquery, rfl, rfl⟩ rfl rfl rfl

end Request

end TableQuery
