import TableQuery.Proofs.FilterTree
import TableQuery.Select

/-!
# Building a query by calls

A query is built by calls, each of which may fail, in any order and any number.  Of its conditions
a call can only add some at the end: the one that a filter compiles to, a column set to a value, or
a trusted text.  So the conditions of a query are those that its calls add, in the order of the
calls, and its table is the one that it was started with.

## Main results

* `apply_eq_ok` — what one call does to the table and the conditions.
* `run_eq_ok` — what a sequence of calls does to them.
-/

namespace TableQuery

namespace Select

/-- A call that builds a query. -/
inductive Call where
  | columns (names : List String)
  | filter (tree : Option Filter)
  | whereEqual (column : String) (value : Operand)
  | whereFragment (text : String) (values : List Operand)
  | orderBy (order : Order)
  | limit (limit : Int64)
  | offset (offset : Int64)

/-- The query after a call. -/
def apply (query : Select) : Call → Except QueryError Select
  | .columns names => query.withColumns names
  | .filter tree => return query.filter (← Filter.conditionOf? tree)
  | .whereEqual column value => query.whereEqual column value
  | .whereFragment text values => .ok (query.whereFragment text values)
  | .orderBy order => .ok (query.orderBy order)
  | .limit limit => .ok (query.withLimit limit)
  | .offset offset => .ok (query.withOffset offset)

/-- The query after a sequence of calls. -/
def run (query : Select) (calls : List Call) : Except QueryError Select :=
  calls.foldlM apply query

/-- The conditions that a call adds. -/
def Call.conditions : Call → Except QueryError (List Condition)
  | filter tree => return (← Filter.conditionOf? tree).toList
  | whereEqual column value =>
      return [.atom (.compare { column := ← Identifier.check column } .equal { value })]
  | whereFragment text values => .ok [.fragment ("(" ++ text ++ ")") values]
  | _ => .ok []

/-- A call adds its conditions at the end, and leaves the table as it is. -/
theorem apply_eq_ok {query result : Select} {call : Call} (h : query.apply call = .ok result) :
    ∃ added, call.conditions = .ok added ∧ result.conditions = query.conditions ++ added ∧
      result.table = query.table := by
  cases call with
  | columns names =>
      obtain ⟨columns, -, h⟩ := Checked.bind_eq_ok_iff.1 h
      obtain rfl := Except.ok.inj h
      exact ⟨[], rfl, (List.append_nil _).symm, rfl⟩
  | filter tree =>
      obtain ⟨condition, hcondition, h⟩ := Checked.bind_eq_ok_iff.1 h
      obtain rfl := Except.ok.inj h
      exact ⟨condition.toList, Checked.bind_eq_ok_iff.2 ⟨condition, hcondition, rfl⟩, rfl, rfl⟩
  | whereEqual column value =>
      obtain ⟨identifier, hcolumn, h⟩ := Checked.bind_eq_ok_iff.1 h
      obtain rfl := Except.ok.inj h
      exact ⟨_, Checked.bind_eq_ok_iff.2 ⟨identifier, hcolumn, rfl⟩, rfl, rfl⟩
  | whereFragment text values =>
      obtain rfl := Except.ok.inj h
      exact ⟨_, rfl, rfl, rfl⟩
  | orderBy order =>
      obtain rfl := Except.ok.inj h
      exact ⟨[], rfl, (List.append_nil _).symm, rfl⟩
  | limit limit =>
      obtain rfl := Except.ok.inj h
      exact ⟨[], rfl, (List.append_nil _).symm, rfl⟩
  | offset offset =>
      obtain rfl := Except.ok.inj h
      exact ⟨[], rfl, (List.append_nil _).symm, rfl⟩

/-- Calls add their conditions in their order, and leave the table as it is. -/
theorem run_eq_ok {query result : Select} {calls : List Call} (h : query.run calls = .ok result) :
    ∃ added, calls.mapM Call.conditions = .ok added ∧
      result.conditions = query.conditions ++ added.flatten ∧ result.table = query.table := by
  induction calls generalizing query with
  | nil =>
      obtain rfl := Except.ok.inj h
      exact ⟨[], rfl, (List.append_nil _).symm, rfl⟩
  | cons call calls ih =>
      unfold run at h
      rw [List.foldlM_cons] at h
      obtain ⟨next, hnext, hrest⟩ := Checked.bind_eq_ok_iff.1 h
      obtain ⟨added, hadded, hconditions, htable⟩ := apply_eq_ok hnext
      obtain ⟨rest, hmapM, hrestConditions, hrestTable⟩ := ih hrest
      refine ⟨added :: rest, ?_, ?_, ?_⟩
      · rw [Checked.mapM_eq_ok_iff] at hmapM ⊢
        exact .cons hadded hmapM
      · rw [hrestConditions, hconditions, List.append_assoc, List.flatten_cons]
      · rw [hrestTable, htable]

end Select

end TableQuery
