import TableQuery.Proofs.PlaceholderText
import TableQuery.Proofs.QueryCalls

/-!
# Placeholders of queries

Every text that a query can become is made of the atomic conditions that its calls contributed: the
operators of the leaves of its filters from left to right, its columns set to values, and its
trusted texts.  What stands between them (names, keywords, parentheses, numbers) has no
placeholder.  So as long as every trusted text has as many placeholders as values, each placeholder
of a query stands in the very condition that contributed its value.

## Main results

* `Condition.sewn_sql` — a condition is made of its parts.
* `Filter.parts_of_condition?` — those of a compiled filter are the operators of its leaves.
* `Select.sewn_sql`, `Select.sewn_countSql` — so are both texts of a query.
* `Select.placeholders_aligned` — placeholders and values of a query built by any calls.
-/

namespace TableQuery

/-! ## Texts without placeholders -/

theorem not_mem_append {s t : String} (hs : '?' ∉ s.toList) (ht : '?' ∉ t.toList) :
    '?' ∉ (s ++ t).toList := by
  rw [String.toList_append]
  exact List.not_mem_append hs ht

/-- A list of texts without placeholders has none. -/
theorem not_mem_intercalate {items : List String} (h : ∀ item ∈ items, '?' ∉ item.toList) :
    '?' ∉ (", ".intercalate items).toList := by
  intro hmem
  rcases mem_intercalate hmem with hmem | ⟨item, hitem, hmem⟩
  · exact absurd hmem (by decide)
  · exact h item hitem hmem

theorem Identifier.not_mem_name (identifier : Identifier) : '?' ∉ identifier.name.toList := by
  intro hmem
  rcases identifier.isWordRest_of_mem hmem with h | h
  · exact absurd h (by decide)
  · exact absurd h (by decide)

/-- Numbers are written without placeholders. -/
theorem not_mem_toString (i : Int) : '?' ∉ (toString i).toList := by
  have hnat : ∀ n : Nat, '?' ∉ n.repr.toList := by
    intro n hmem
    rw [Nat.toList_repr] at hmem
    have hdigit : '?'.isDigit = true := Nat.isDigit_of_mem_toDigits (by decide) (by decide) hmem
    exact absurd hdigit (by decide)
  cases i with
  | ofNat n => exact hnat n
  | negSucc n =>
      show '?' ∉ ("-" ++ (n + 1).repr).toList
      exact not_mem_append (by decide) (hnat (n + 1))

theorem Order.not_mem_sql (order : Order) : '?' ∉ order.sql.toList := by
  refine not_mem_intercalate fun item hitem => ?_
  obtain ⟨key, -, rfl⟩ := List.mem_map.1 hitem
  show '?' ∉ (key.column.name ++ " " ++ key.direction.sql).toList
  have hdirection : '?' ∉ key.direction.sql.toList := by
    cases key.direction <;> decide
  exact not_mem_append (not_mem_append key.column.not_mem_name (by decide)) hdirection

/-! ## Conditions -/

namespace Condition

mutual

/-- The atomic conditions of a condition, from left to right. -/
def parts : Condition → List Part
  | .atom content => [.ofAtom content]
  | fragment text values => [⟨text, values⟩]
  | joined _ first second rest => first.parts ++ (second.parts ++ partsRest rest)

/-- The atomic conditions of further joined conditions. -/
def partsRest : List Condition → List Part
  | [] => []
  | part :: rest => part.parts ++ partsRest rest

end

theorem partsRest_eq_flatMap (rest : List Condition) : partsRest rest = rest.flatMap parts := by
  induction rest with
  | nil => rfl
  | cons part rest ih => rw [partsRest, ih, List.flatMap_cons]

/-- Joining keeps the atomic conditions in their order. -/
theorem flatMap_parts_join? (junction : Junction) (conditions : List Condition) :
    (join? junction conditions).toList.flatMap parts = conditions.flatMap parts := by
  match conditions with
  | [] => rfl
  | [_] => rfl
  | first :: second :: rest =>
      show (joined junction first second rest).parts ++ [] = _
      rw [List.append_nil, parts, partsRest_eq_flatMap, List.flatMap_cons, List.flatMap_cons]

/-- The values of a condition are those of its atomic conditions. -/
theorem values_eq_parts (c : Condition) : c.values = c.parts.flatMap Part.values := by
  induction c using Condition.induction with
  | atom a => exact (List.append_nil _).symm
  | fragment text values => exact (List.append_nil _).symm
  | joined junction first second rest ih =>
      have hrest : rest.flatMap values = (rest.flatMap parts).flatMap Part.values := by
        rw [List.flatMap_assoc]
        exact List.flatMap_congr fun c hc =>
          ih c (List.mem_cons_of_mem _ (List.mem_cons_of_mem _ hc))
      have hfirst := ih first List.mem_cons_self
      have hsecond := ih second (List.mem_cons_of_mem _ List.mem_cons_self)
      rw [values, valuesRest_eq_flatMap, parts, partsRest_eq_flatMap, List.flatMap_append,
        List.flatMap_append, hfirst, hsecond, hrest, List.append_assoc]

theorem sewn_grouped {c : Condition} (h : Sewn c.sql.toList c.parts) :
    Sewn c.grouped.toList c.parts := by
  unfold grouped parenthesize
  cases c.isJoined with
  | false => exact h
  | true =>
      show Sewn ("(" ++ c.sql ++ ")").toList c.parts
      rw [String.toList_append, String.toList_append]
      exact (h.glue_append (by decide)).append_glue (by decide)

theorem sewn_sqlRest (junction : Junction) {rest : List Condition}
    (h : ∀ c ∈ rest, Sewn c.sql.toList c.parts) :
    Sewn (sqlRest junction rest).toList (partsRest rest) := by
  have hseparator : '?' ∉ junction.separator.toList := by
    cases junction <;> decide
  induction rest with
  | nil => exact .nil
  | cons part rest ih =>
      show Sewn (junction.separator ++ part.grouped ++ sqlRest junction rest).toList _
      rw [String.toList_append, String.toList_append, partsRest]
      have hpart := sewn_grouped (h part List.mem_cons_self)
      exact (hpart.glue_append hseparator).append
        (ih fun c hc => h c (List.mem_cons_of_mem part hc))

/-- The text of a condition is made of its atomic conditions. -/
theorem sewn_sql (c : Condition) : Sewn c.sql.toList c.parts := by
  induction c using Condition.induction with
  | atom a => exact .single (.ofAtom a)
  | fragment text values => exact .single ⟨text, values⟩
  | joined junction first second rest ih =>
      rw [sql_joined, String.toList_append]
      exact (sewn_grouped (ih first List.mem_cons_self)).append
        (sewn_sqlRest junction fun c hc => ih c (List.mem_cons_of_mem first hc))

end Condition

/-! ## Filters -/

/-- The conditions of the operators of a filter's leaves, from left to right. -/
def Filter.parts (filter : Filter) : List Part :=
  filter.leaves.flatMap fun (name, operators) =>
    match Identifier.check name >>= operators.atoms with
    | .ok atoms => atoms.map .ofAtom
    | .error _ => []

/-- A compiled filter is made of the conditions of its leaves' operators, from left to right. -/
theorem Filter.parts_of_condition? (filter : Filter) :
    ∀ {result : Option Condition}, filter.condition? = .ok result →
      result.toList.flatMap Condition.parts = filter.parts := by
  induction filter using Filter.induction with
  | leaf name operators =>
      intro result h
      obtain ⟨column, atoms, hcolumn, hatoms, rfl⟩ := condition?_leaf_eq_ok_iff.1 h
      have hleaf : Identifier.check name >>= operators.atoms = .ok atoms :=
        Checked.bind_eq_ok_iff.2 ⟨column, hcolumn, hatoms⟩
      unfold parts
      rw [Condition.flatMap_parts_join?, leaves_leaf, List.flatMap_singleton, List.flatMap_map]
      simp only [hleaf]
      exact List.flatMap_pure_eq_map _ _
  | group junction children ih =>
      intro result h
      obtain ⟨results, hresults, rfl⟩ := condition?_group_eq_ok_iff.1 h
      unfold parts
      rw [Condition.flatMap_parts_join?, leaves_group, List.flatMap_assoc, List.flatMap_assoc]
      clear h
      induction hresults with
      | nil => rfl
      | @cons child result children results hresult _ ihrest =>
          rw [List.flatMap_cons, List.flatMap_cons, ih child List.mem_cons_self hresult,
            ihrest fun child hchild => ih child (List.mem_cons_of_mem _ hchild)]
          rfl

/-- The conditions of a filter's operators have as many placeholders as values. -/
theorem Filter.balanced_parts (filter : Filter) : ∀ part ∈ filter.parts, part.Balanced := by
  intro part hpart
  obtain ⟨⟨name, operators⟩, -, hpart⟩ := List.mem_flatMap.1 hpart
  cases hatoms : Identifier.check name >>= operators.atoms with
  | error error => simp [hatoms] at hpart
  | ok atoms =>
      simp only [hatoms] at hpart
      obtain ⟨a, -, rfl⟩ := List.mem_map.1 hpart
      exact Part.balanced_ofAtom a

/-- A compiled filter has as many placeholders as values. -/
theorem Filter.count_placeholder {filter : Filter} {result : Option Condition}
    (h : filter.condition? = .ok result) :
    (result.elim "" Condition.sql).toList.count '?' =
      (result.elim [] Condition.values).length := by
  cases result with
  | none => rfl
  | some c =>
      have hparts : c.parts = filter.parts := by
        rw [← filter.parts_of_condition? h]
        exact (List.append_nil _).symm
      have haligned := c.sewn_sql.aligned (hparts ▸ filter.balanced_parts)
      show c.sql.toList.count '?' = c.values.length
      rw [haligned.count, c.values_eq_parts]

/-! ## Queries -/

namespace Select

/-- The atomic conditions that a call contributes. -/
def Call.parts : Call → List Part
  | filter tree => tree.elim [] Filter.parts
  | whereEqual column value => [⟨column ++ " = ?", [value]⟩]
  | whereFragment text values => [⟨"(" ++ text ++ ")", values⟩]
  | _ => []

/-- A call whose trusted text, if it has one, has as many placeholders as values. -/
def Call.Balanced : Call → Prop
  | whereFragment text values => text.toList.count '?' = values.length
  | _ => True

/-- A column set to a value as a part. -/
theorem part_of_check {column : String} {identifier : Identifier} (value : Operand)
    (h : Identifier.check column = .ok identifier) :
    Part.ofAtom (.compare { column := identifier } .equal { value }) =
      ⟨column ++ " = ?", [value]⟩ := by
  have hname := Identifier.name_of_check h
  show Part.mk (identifier.name ++ " " ++ "=" ++ " " ++ "?") [value] = _
  rw [hname, String.append_assoc, String.append_assoc, String.append_assoc]
  rfl

/-- The conditions that a call adds are made of what it contributes. -/
theorem Call.parts_of_conditions {call : Call} {added : List Condition}
    (h : call.conditions = .ok added) : added.flatMap Condition.parts = call.parts := by
  cases call with
  | filter tree =>
      obtain ⟨result, hresult, h⟩ := Checked.bind_eq_ok_iff.1 h
      obtain rfl := Except.ok.inj h
      cases tree with
      | none =>
          obtain rfl := Except.ok.inj hresult
          rfl
      | some tree => exact tree.parts_of_condition? hresult
  | whereEqual column value =>
      obtain ⟨identifier, hcolumn, h⟩ := Checked.bind_eq_ok_iff.1 h
      obtain rfl := Except.ok.inj h
      show [Part.ofAtom (.compare { column := identifier } .equal { value })] = _
      rw [part_of_check value hcolumn]
      rfl
  | whereFragment text values =>
      obtain rfl := Except.ok.inj h
      rfl
  | columns | orderBy | limit | offset =>
      obtain rfl := Except.ok.inj h
      rfl

/-- What a call contributes has as many placeholders as values. -/
theorem Call.balanced_parts {call : Call} {added : List Condition}
    (h : call.conditions = .ok added) (hbalanced : call.Balanced) :
    ∀ part ∈ call.parts, part.Balanced := by
  intro part hpart
  cases call with
  | filter tree =>
      cases tree with
      | none => exact absurd hpart List.not_mem_nil
      | some tree => exact tree.balanced_parts part hpart
  | whereEqual column value =>
      obtain ⟨identifier, hcolumn, -⟩ := Checked.bind_eq_ok_iff.1 h
      obtain rfl := List.mem_singleton.1 hpart
      rw [← part_of_check value hcolumn]
      exact Part.balanced_ofAtom _
  | whereFragment text values =>
      obtain rfl := List.mem_singleton.1 hpart
      have hopen : "(".toList.count '?' = 0 := by decide
      have hclose : ")".toList.count '?' = 0 := by decide
      show ("(" ++ text ++ ")").toList.count '?' = values.length
      rw [String.toList_append, String.toList_append, List.count_append, List.count_append, hopen,
        hclose, Nat.zero_add, Nat.add_zero]
      exact hbalanced
  | columns | orderBy | limit | offset => exact absurd hpart List.not_mem_nil

/-- What a sequence of calls contributes, by the conditions that it adds. -/
theorem parts_of_calls {calls : List Call} {added : List (List Condition)}
    (h : calls.mapM Call.conditions = .ok added)
    (hbalanced : ∀ call ∈ calls, call.Balanced) :
    added.flatten.flatMap Condition.parts = calls.flatMap Call.parts ∧
      ∀ part ∈ calls.flatMap Call.parts, part.Balanced := by
  rw [Checked.mapM_eq_ok_iff] at h
  induction h with
  | nil => exact ⟨rfl, fun _ h => absurd h List.not_mem_nil⟩
  | @cons call conditions calls added hcall _ ih =>
      obtain ⟨hparts, hrest⟩ := ih fun call hmem => hbalanced call (List.mem_cons_of_mem _ hmem)
      constructor
      · rw [List.flatten_cons, List.flatMap_append, List.flatMap_cons, hparts,
          Call.parts_of_conditions hcall]
      · intro part hpart
        rw [List.flatMap_cons] at hpart
        rcases List.mem_append.1 hpart with hpart | hpart
        · exact Call.balanced_parts hcall (hbalanced call List.mem_cons_self) part hpart
        · exact hrest part hpart

/-! ## Texts of a query -/

variable (query : Select)

theorem sewn_whereSql :
    Sewn query.whereSql.toList (query.conditions.flatMap Condition.parts) := by
  have hparts := Condition.flatMap_parts_join? .all query.conditions
  rw [← hparts]
  unfold whereSql condition?
  cases Condition.join? .all query.conditions with
  | none => exact .nil
  | some condition =>
      show Sewn (" WHERE " ++ condition.sql).toList (condition.parts ++ [])
      rw [String.toList_append, List.append_nil]
      exact condition.sewn_sql.glue_append (by decide)

theorem not_mem_columnsSql : '?' ∉ query.columnsSql.toList := by
  unfold columnsSql
  split
  · decide
  · refine not_mem_intercalate fun item hitem => ?_
    obtain ⟨column, -, rfl⟩ := List.mem_map.1 hitem
    exact column.not_mem_name

theorem not_mem_orderSql : '?' ∉ query.orderSql.toList := by
  unfold orderSql
  cases query.order with
  | none => decide
  | some order =>
      show '?' ∉ (" ORDER BY " ++ order.sql).toList
      exact not_mem_append (by decide) order.not_mem_sql

theorem not_mem_windowSql : '?' ∉ query.windowSql.toList := by
  unfold windowSql
  refine not_mem_append ?_ ?_
  · cases query.limit with
    | none => decide
    | some limit => exact not_mem_append (by decide) (not_mem_toString limit.toInt)
  · cases query.offset with
    | none => decide
    | some offset =>
        by_cases hoffset : 0 < offset
        · simp only [if_pos hoffset]
          exact not_mem_append (by decide) (not_mem_toString offset.toInt)
        · simp only [if_neg hoffset]
          decide

/-- The text of a query is made of its atomic conditions. -/
theorem sewn_sql : Sewn query.sql.toList (query.conditions.flatMap Condition.parts) := by
  have hwhere : Sewn ("SELECT " ++ query.columnsSql ++ " FROM " ++ query.table.name ++
      query.whereSql).toList (query.conditions.flatMap Condition.parts) := by
    simp only [String.toList_append, List.append_assoc]
    exact .glue_append (by decide) (.glue_append query.not_mem_columnsSql
      (.glue_append (by decide) (.glue_append query.table.not_mem_name query.sewn_whereSql)))
  have horder := hwhere.append_glue query.not_mem_orderSql
  rw [← String.toList_append] at horder
  have hwindow := horder.append_glue query.not_mem_windowSql
  rw [← String.toList_append] at hwindow
  exact hwindow

/-- The text that counts the rows is made of them as well. -/
theorem sewn_countSql : Sewn query.countSql.toList (query.conditions.flatMap Condition.parts) := by
  unfold countSql
  simp only [String.toList_append, List.append_assoc]
  exact .glue_append (by decide) (.glue_append query.table.not_mem_name query.sewn_whereSql)

variable {query}

/-- Placeholders and values of a query stay aligned, whatever calls built it, as long as each
trusted text has as many placeholders as values.  Its values are those of the conditions that the
calls added, in the order of the calls, and in both of its texts every placeholder stands in the
atomic condition that contributed its value. -/
theorem placeholders_aligned {table : String} {start : Select} {calls : List Call}
    (hstart : Select.ofTable table = .ok start) (hrun : start.run calls = .ok query)
    (hbalanced : ∀ call ∈ calls, call.Balanced) :
    Aligned query.sql.toList query.values (calls.flatMap Call.parts) ∧
      Aligned query.countSql.toList query.values (calls.flatMap Call.parts) ∧
      ∃ added, calls.mapM Call.conditions = .ok added ∧
        query.values = added.flatten.flatMap Condition.values := by
  obtain ⟨identifier, -, hstart⟩ := Checked.bind_eq_ok_iff.1 hstart
  obtain rfl := Except.ok.inj hstart
  obtain ⟨added, hadded, hconditions, -⟩ := run_eq_ok hrun
  obtain ⟨hparts, hpartsBalanced⟩ := parts_of_calls hadded hbalanced
  have hconditions : query.conditions = added.flatten := hconditions
  have hqueryParts : query.conditions.flatMap Condition.parts = calls.flatMap Call.parts := by
    rw [hconditions, hparts]
  have hvalues : query.values = (calls.flatMap Call.parts).flatMap Part.values := by
    rw [values_eq_flatMap, ← hqueryParts, List.flatMap_assoc]
    exact List.flatMap_congr fun c _ => c.values_eq_parts
  have hsql := query.sewn_sql
  have hcountSql := query.sewn_countSql
  rw [hqueryParts] at hsql hcountSql
  rw [hvalues]
  refine ⟨hsql.aligned hpartsBalanced, hcountSql.aligned hpartsBalanced, added, hadded, ?_⟩
  rw [← hvalues, values_eq_flatMap, hconditions]

/-- A filter with an operator of two values, a trusted text and a column set to a value. -/
theorem placeholders_aligned_three_conditions :
    ∃ query : Select,
      query.sql = "SELECT * FROM t WHERE a IN (?, ?) AND (b < ? + 1) AND c = ? LIMIT 5" ∧
        query.values = [.integer 1, .integer 2, .integer 3, .text "?"] ∧
        Aligned query.sql.toList query.values [⟨"a IN (?, ?)", [.integer 1, .integer 2]⟩,
          ⟨"(b < ? + 1)", [.integer 3]⟩, ⟨"c = ?", [.text "?"]⟩] := by
  let calls : List Call := [.filter (some (.leaf "a" (.ofOneOf [.integer 1, .integer 2]))),
    .whereFragment "b < ? + 1" [.integer 3], .limit 5, .whereEqual "c" (.text "?")]
  obtain ⟨query, hrun, hsql, hvalues⟩ : ∃ query : Select,
      run { table := ⟨"t", by decide⟩ } calls = .ok query ∧
      query.sql = "SELECT * FROM t WHERE a IN (?, ?) AND (b < ? + 1) AND c = ? LIMIT 5" ∧
        query.values = [.integer 1, .integer 2, .integer 3, .text "?"] :=
    ⟨_, rfl, by decide, by decide⟩
  have hstart : Select.ofTable "t" = .ok { table := ⟨"t", by decide⟩ } := rfl
  have hbalanced : ∀ call ∈ calls, call.Balanced := by
    simp [calls, Call.Balanced]
  exact ⟨query, hsql, hvalues, (placeholders_aligned hstart hrun hbalanced).1⟩

end Select

end TableQuery
