import TableQuery.Proofs.FilterTree
import TableQuery.Proofs.RequestCalls

/-!
# Operands stay out of texts

Operands come from clients, and a text of a query must not depend on what is in them.  It depends on
their class alone: whether an operand is null, a text, an instant or something else decides how a
column and a placeholder are written, and nothing else about it does.

The statement is about two runs, but it is proved by one.  `Operand.blank` replaces an operand by a
fixed one of its class, and this is carried through operator sets, filters, conditions and queries.
Compiling a filter and blanking it commute up to the values of the result
(`Filter.condition?_blank`), and a blanked query has the texts that it had before.  So filters that
are equal when blanked become queries with equal texts.

## Main results

* `Operand.blank_eq_blank_iff` — blanking keeps the class of an operand, and nothing else.
* `Filter.condition?_blank` — compiling sees the classes of operands only.
* `Select.sql_blank`, `Select.countSql_blank` — texts have no operands in them.
* `Request.texts_eq_of_blank_eq` — two requests that differ in their operands only.
-/

namespace TableQuery

/-! ## Operands -/

namespace Operand

/-- An operand without its content: a fixed one for null, for texts, for instants and for all
others. -/
def blank : Operand → Operand
  | null => null
  | text _ => text ""
  | timestamp _ => timestamp ⟨0, 0, .inl (by decide)⟩
  | _ => boolean false

/-- Two operands are of one class if both are null, or both are texts, or both are instants, or both
are none of these. -/
theorem blank_eq_blank_iff {a b : Operand} :
    a.blank = b.blank ↔
      (a = null ↔ b = null) ∧ a.isText = b.isText ∧ a.isTimestamp = b.isTimestamp := by
  cases a <;> cases b <;> simp [blank, isText, text?, isTimestamp]

@[simp] theorem blank_blank (a : Operand) : a.blank.blank = a.blank := by
  cases a <;> rfl

@[simp] theorem isText_blank (a : Operand) : a.blank.isText = a.isText := by
  cases a <;> rfl

@[simp] theorem isTimestamp_blank (a : Operand) : a.blank.isTimestamp = a.isTimestamp := by
  cases a <;> rfl

end Operand

/-- A set of operators with its operands changed; which ones are present stays. -/
def ValueOperators.map (change : Operand → Operand) (set : ValueOperators) : ValueOperators where
  eq := set.eq.map change
  notEq := set.notEq.map change
  gte := set.gte.map change
  notGte := set.notGte.map change
  gt := set.gt.map change
  notGt := set.notGt.map change
  lte := set.lte.map change
  notLte := set.notLte.map change
  lt := set.lt.map change
  notLt := set.notLt.map change
  oneOf := set.oneOf.map (List.map change)
  noneOf := set.noneOf.map (List.map change)
  isNull := set.isNull
  isNotNull := set.isNotNull

@[simp] theorem ValueOperators.comparison_map (change : Operand → Operand) (set : ValueOperators)
    (c : Comparison) : (set.map change).comparison c = (set.comparison c).map change := by
  cases c <;> rfl

/-- An operator set without the content of its operands: the operators that are present, the lengths
of their lists and the case flags. -/
def OperatorSet.blank (set : OperatorSet) : OperatorSet where
  toValueOperators := set.toValueOperators.map Operand.blank
  contains := set.contains.map Operand.blank
  notContains := set.notContains.map Operand.blank
  startsWith := set.startsWith.map Operand.blank
  notStartsWith := set.notStartsWith.map Operand.blank
  endsWith := set.endsWith.map Operand.blank
  notEndsWith := set.notEndsWith.map Operand.blank
  fieldUppercase := set.fieldUppercase
  fieldLowercase := set.fieldLowercase
  valueUppercase := set.valueUppercase
  valueLowercase := set.valueLowercase
  caseInsensitive := set.caseInsensitive

@[simp] theorem OperatorSet.pattern_blank (set : OperatorSet) (p : Pattern) :
    set.blank.pattern p = (set.pattern p).map Operand.blank := by
  cases p <;> rfl

mutual

/-- A filter without the content of its operands. -/
def Filter.blank : Filter → Filter
  | .leaf column operators => .leaf column operators.blank
  | .group junction children => .group junction (blankAll children)

/-- Filters without the content of their operands. -/
def Filter.blankAll : List Filter → List Filter
  | [] => []
  | child :: rest => child.blank :: blankAll rest

end

/-! ## Conditions -/

/-- A bound value without its content. -/
def Bound.blank (bound : Bound) : Bound := ⟨bound.value.blank, bound.form⟩

/-- An atom without the content of its values. -/
def Atom.blank : Atom → Atom
  | .compare term comparator bound => .compare term comparator bound.blank
  | .like term negated bound => .like term negated bound.blank
  | .among term negated bounds => .among term negated (bounds.map Bound.blank)
  | .null term negated => .null term negated
  | .never => .never

namespace Atom

theorem sql_blank (a : Atom) : a.blank.sql = a.sql := by
  cases a with
  | compare | like | null | never => rfl
  | among term negated bounds =>
      have hbounds : (bounds.map Bound.blank).map Bound.sql = bounds.map Bound.sql := by
        rw [List.map_map]
        rfl
      simp only [blank, sql, hbounds]

theorem values_blank (a : Atom) : a.blank.values = a.values.map Operand.blank := by
  cases a with
  | compare | like | null | never => rfl
  | among term negated bounds => simp [blank, values, Function.comp_def, Bound.blank]

end Atom

namespace Condition

mutual

/-- A condition without the content of its values. -/
def blank : Condition → Condition
  | .atom content => .atom content.blank
  | fragment text values => fragment text (values.map Operand.blank)
  | joined junction first second rest =>
    joined junction first.blank second.blank (blankAll rest)

/-- Conditions without the content of their values. -/
def blankAll : List Condition → List Condition
  | [] => []
  | part :: rest => part.blank :: blankAll rest

end

theorem blankAll_eq_map (conditions : List Condition) :
    blankAll conditions = conditions.map blank := by
  induction conditions with
  | nil => rfl
  | cons part rest ih => rw [blankAll, ih, List.map_cons]

@[simp] theorem isJoined_blank (c : Condition) : c.blank.isJoined = c.isJoined := by
  cases c with
  | atom | fragment => rfl
  | joined => rw [blank]; rfl

theorem sql_blank (c : Condition) : c.blank.sql = c.sql := by
  have hgrouped : ∀ c : Condition, c.blank.sql = c.sql → c.blank.grouped = c.grouped := by
    intro c h
    rw [grouped, grouped, isJoined_blank, h]
  induction c using Condition.induction with
  | atom a => exact a.sql_blank
  | fragment text values => rfl
  | joined junction first second rest ih =>
      have hrest : ∀ cs : List Condition, (∀ c ∈ cs, c.blank.sql = c.sql) →
          sqlRest junction (cs.map blank) = sqlRest junction cs := by
        intro cs hcs
        rw [sqlRest_eq_join, sqlRest_eq_join, List.map_map]
        refine congrArg String.join (List.map_congr_left fun c hc => ?_)
        rw [Function.comp_apply, hgrouped c (hcs c hc)]
      rw [blank, blankAll_eq_map, sql_joined, sql_joined, ← List.map_cons,
        hgrouped first (ih first List.mem_cons_self),
        hrest _ fun c hc => ih c (List.mem_cons_of_mem first hc)]

theorem values_blank (c : Condition) : c.blank.values = c.values.map Operand.blank := by
  induction c using Condition.induction with
  | atom a => exact a.values_blank
  | fragment text values => rfl
  | joined junction first second rest ih =>
      have hrest : (rest.map blank).flatMap values = (rest.flatMap values).map Operand.blank := by
        rw [List.flatMap_map, List.map_flatMap]
        exact List.flatMap_congr fun c hc =>
          ih c (List.mem_cons_of_mem _ (List.mem_cons_of_mem _ hc))
      have hfirst := ih first List.mem_cons_self
      have hsecond := ih second (List.mem_cons_of_mem _ List.mem_cons_self)
      rw [blank, blankAll_eq_map, values, values, valuesRest_eq_flatMap, valuesRest_eq_flatMap,
        hfirst, hsecond, hrest, List.map_append, List.map_append]

theorem map_blank_join? (junction : Junction) (conditions : List Condition) :
    (join? junction conditions).map blank = join? junction (conditions.map blank) := by
  match conditions with
  | [] => rfl
  | [_] => rfl
  | first :: second :: rest =>
      show some (blank (.joined junction first second rest)) = _
      rw [blank, blankAll_eq_map]
      rfl

end Condition

/-! ## Compiling -/

namespace OperatorSet

variable (set : OperatorSet) (column : Identifier)

/-- A placeholder is written by the class of its operand. -/
theorem bound_blank (operand : Operand) :
    (set.blank.bound operand.blank).blank = (set.bound operand).blank := by
  unfold bound Bound.blank
  rw [Operand.isText_blank, Operand.blank_blank]
  rfl

theorem comparisonAtom_blank (c : Comparison) (operand : Operand) :
    (set.blank.comparisonAtom column c operand.blank).blank =
      (set.comparisonAtom column c operand).blank := by
  cases c <;> cases operand <;> rfl

/-- A pattern operator needs a text, whichever it is. -/
theorem patternAtom_blank (p : Pattern) (operand : Operand) :
    (set.blank.patternAtom column p operand.blank).map Atom.blank =
      (set.patternAtom column p operand).map Atom.blank := by
  cases operand <;> rfl

theorem memberAtom?_blank (negated : Bool) (operands : List Operand) :
    (set.blank.memberAtom? column negated (operands.map Operand.blank)).map Atom.blank =
      (set.memberAtom? column negated operands).map Atom.blank := by
  have hempty : (operands.map Operand.blank).isEmpty = operands.isEmpty := by
    cases operands <;> rfl
  have hall : (operands.map Operand.blank).all Operand.isTimestamp =
      operands.all Operand.isTimestamp := by
    simp [Function.comp_def]
  unfold memberAtom?
  rw [hempty, hall]
  split
  · cases negated <;> rfl
  · split
    · simp [Atom.blank, Function.comp_def, Bound.blank]
    · have hbounds : ((operands.map Operand.blank).map set.blank.bound).map Bound.blank =
          (operands.map set.bound).map Bound.blank := by
        rw [List.map_map, List.map_map, List.map_map]
        exact List.map_congr_left fun operand _ => set.bound_blank operand
      exact congrArg (fun bounds => some (Atom.among (set.term column) negated bounds)) hbounds

theorem comparisonAtoms_blank :
    (set.blank.comparisonAtoms column).map Atom.blank =
      (set.comparisonAtoms column).map Atom.blank := by
  unfold comparisonAtoms
  rw [List.map_filterMap, List.map_filterMap]
  refine congrArg (List.filterMap · Comparison.all) (funext fun c => ?_)
  have hpresent : set.blank.comparison c = (set.comparison c).map Operand.blank :=
    ValueOperators.comparison_map Operand.blank set.toValueOperators c
  rw [hpresent]
  cases set.comparison c with
  | none => rfl
  | some operand => exact congrArg some (set.comparisonAtom_blank column c operand)

theorem pattern_mapM_blank (p : Pattern) :
    ((set.blank.pattern p).mapM (set.blank.patternAtom column p)).map (Option.map Atom.blank) =
      ((set.pattern p).mapM (set.patternAtom column p)).map (Option.map Atom.blank) := by
  rw [pattern_blank]
  cases set.pattern p with
  | none => rfl
  | some operand =>
      rw [Option.map_some, Option.mapM_some, Option.mapM_some, ← bind_pure_comp, ← bind_pure_comp]
      refine Checked.map_bind_congr (set.patternAtom_blank column p operand) fun a b hab => ?_
      exact congrArg (fun a => Except.ok (some a)) hab

theorem memberAtoms_blank :
    (set.blank.memberAtoms column).map Atom.blank = (set.memberAtoms column).map Atom.blank := by
  have hlist : ∀ (negated : Bool) (operands : Option (List Operand)),
      ((operands.map (List.map Operand.blank)).bind
        (set.blank.memberAtom? column negated)).toList.map Atom.blank =
      (operands.bind (set.memberAtom? column negated)).toList.map Atom.blank := by
    intro negated operands
    cases operands with
    | none => rfl
    | some operands =>
        have h := congrArg Option.toList (set.memberAtom?_blank column negated operands)
        rwa [Option.toList_map, Option.toList_map] at h
  unfold memberAtoms
  rw [List.map_append, List.map_append]
  exact congrArg₂ (· ++ ·) (hlist false set.oneOf) (hlist true set.noneOf)

/-- The conditions of an operator set depend on the classes of its operands only, and so does the
fault if there are none. -/
theorem atoms_blank :
    (set.blank.atoms column).map (List.map Atom.blank) =
      (set.atoms column).map (List.map Atom.blank) := by
  have hpatterns := Checked.map_mapM_congr fun p (_ : p ∈ Pattern.all) =>
    set.pattern_mapM_blank column p
  refine Checked.map_bind_congr hpatterns fun as bs hab => congrArg Except.ok ?_
  have hfound : ∀ as : List (Option Atom),
      (as.filterMap id).map Atom.blank = (as.map (Option.map Atom.blank)).filterMap id := by
    intro as
    rw [List.map_filterMap, List.filterMap_map]
    rfl
  show (set.blank.comparisonAtoms column ++ as.filterMap id ++ set.blank.memberAtoms column ++
    set.nullAtoms column).map Atom.blank = (set.comparisonAtoms column ++ bs.filterMap id ++
      set.memberAtoms column ++ set.nullAtoms column).map Atom.blank
  simp only [List.map_append, comparisonAtoms_blank, memberAtoms_blank, hfound, hab]

end OperatorSet

namespace Filter

/-- Compiling sees the classes of operands only: a filter without the content of its operands has
the condition of the filter without the content of its values, and the same fault if it has none. -/
theorem condition?_blank (filter : Filter) :
    filter.blank.condition?.map (Option.map Condition.blank) =
      filter.condition?.map (Option.map Condition.blank) := by
  induction filter using Filter.induction with
  | leaf name operators =>
      rw [blank, condition?, condition?]
      refine Checked.map_bind_congr (h := id) rfl ?_
      rintro column _ rfl
      refine Checked.map_bind_congr (operators.atoms_blank column) fun as bs hab => ?_
      have hparts : (as.map Condition.atom).map Condition.blank =
          (bs.map Condition.atom).map Condition.blank := by
        have hmap := congrArg (List.map Condition.atom) hab
        rw [List.map_map, List.map_map] at hmap ⊢
        exact hmap
      show Except.ok ((Condition.join? .all _).map _) = Except.ok ((Condition.join? .all _).map _)
      rw [Condition.map_blank_join?, Condition.map_blank_join?, hparts]
  | group junction children ih =>
      have hchildren : (conditions (blankAll children)).map (List.map Condition.blank) =
          (conditions children).map (List.map Condition.blank) := by
        induction children with
        | nil => rfl
        | cons child rest ihrest =>
            rw [blankAll, conditions, conditions]
            refine Checked.map_bind_congr (ih child List.mem_cons_self) fun a b hab => ?_
            refine Checked.map_bind_congr
              (ihrest fun child hchild => ih child (List.mem_cons_of_mem _ hchild))
              fun as bs habs => congrArg Except.ok ?_
            rw [List.map_append, List.map_append, ← Option.toList_map, ← Option.toList_map, hab,
              habs]
      rw [blank, condition?, condition?]
      refine Checked.map_bind_congr hchildren fun as bs hab => ?_
      show Except.ok ((Condition.join? _ _).map _) = Except.ok ((Condition.join? _ _).map _)
      rw [Condition.map_blank_join?, Condition.map_blank_join?, hab]

/-- Filters that differ in the content of their operands only have conditions that differ in their
values only, or the same fault. -/
theorem conditionOf?_congr {tree tree' : Option Filter} (h : tree.map blank = tree'.map blank) :
    (conditionOf? tree).map (Option.map Condition.blank) =
      (conditionOf? tree').map (Option.map Condition.blank) := by
  cases tree with
  | none =>
      cases tree' with
      | none => rfl
      | some filter' => cases h
  | some filter =>
      cases tree' with
      | none => cases h
      | some filter' =>
          have hblank : filter.blank = filter'.blank := Option.some.inj h
          show filter.condition?.map _ = filter'.condition?.map _
          rw [← filter.condition?_blank, hblank, filter'.condition?_blank]

end Filter

/-! ## Queries -/

namespace Select

/-- A query without the content of its values. -/
def blank (query : Select) : Select :=
  { query with conditions := query.conditions.map Condition.blank }

variable (query : Select)

theorem condition?_blank : query.blank.condition? = query.condition?.map Condition.blank :=
  (Condition.map_blank_join? .all query.conditions).symm

theorem whereSql_blank : query.blank.whereSql = query.whereSql := by
  unfold whereSql
  rw [condition?_blank]
  cases query.condition? with
  | none => rfl
  | some condition => exact congrArg (" WHERE " ++ ·) condition.sql_blank

theorem sql_blank : query.blank.sql = query.sql := by
  unfold sql
  rw [whereSql_blank]
  rfl

theorem countSql_blank : query.blank.countSql = query.countSql := by
  unfold countSql
  rw [whereSql_blank]
  rfl

theorem values_blank : query.blank.values = query.values.map Operand.blank := by
  rw [values_eq_flatMap, values_eq_flatMap, List.map_flatMap]
  show (query.conditions.map Condition.blank).flatMap Condition.values = _
  rw [List.flatMap_map]
  exact List.flatMap_congr fun c _ => c.values_blank

theorem withColumns_blank_congr {query query' : Select} (h : query.blank = query'.blank)
    (columns : List String) :
    (query.withColumns columns).map blank = (query'.withColumns columns).map blank := by
  refine Checked.map_bind_congr (h := id) rfl ?_
  rintro names _ rfl
  exact congrArg (fun query : Select => Except.ok { query with columns := names }) h

end Select

/-! ## Requests -/

namespace Request

/-- A call without the content of the operands of its filter. -/
def Call.blank : Call → Call
  | filter tree => filter (tree.map (Option.map Filter.blank))
  | call => call

/-- The request with another condition. -/
def withCondition (request : Request) (condition : Option Condition) : Request :=
  { request with condition }

/-- A request without the content of the values of its condition. -/
def blank (request : Request) : Request :=
  request.withCondition (request.condition.map Condition.blank)

/-- Requests are equal but for their values if one of them is the other with a condition that is
equal but for its values. -/
theorem blank_eq_blank_iff {request request' : Request} :
    request.blank = request'.blank ↔
      ∃ condition, request.condition.map Condition.blank = condition.map Condition.blank ∧
        request' = request.withCondition condition := by
  obtain ⟨table, limits, window, condition, order, columns, hooks, failure⟩ := request
  obtain ⟨table', limits', window', condition', order', columns', hooks', failure'⟩ := request'
  simp only [blank, withCondition, mk.injEq]
  constructor
  · rintro ⟨rfl, rfl, rfl, hcondition, rfl, rfl, rfl, rfl⟩
    exact ⟨condition', hcondition, rfl, rfl, rfl, rfl, rfl, rfl, rfl, rfl⟩
  · rintro ⟨_, hcondition, rfl, rfl, rfl, rfl, rfl, rfl, rfl, rfl⟩
    exact ⟨rfl, rfl, rfl, hcondition, rfl, rfl, rfl, rfl⟩

/-- Filtering by trees that are equal but for their operands keeps requests equal but for their
values. -/
theorem filter_blank_congr {request request' : Request}
    {tree tree' : Except QueryError (Option Filter)} (h : request.blank = request'.blank)
    (htree : tree.map (Option.map Filter.blank) = tree'.map (Option.map Filter.blank)) :
    (request.filter tree).blank = (request'.filter tree').blank := by
  obtain ⟨condition, -, rfl⟩ := blank_eq_blank_iff.1 h
  cases hfailure : request.failure with
  | some error =>
      have hfailure' : (request.withCondition condition).failure = some error := hfailure
      rw [filter_of_failure hfailure, filter_of_failure hfailure', h]
  | none =>
      have hfailure' : (request.withCondition condition).failure = none := hfailure
      have hcompiled := Checked.map_bind_congr htree fun a b hab => Filter.conditionOf?_congr hab
      rcases Checked.map_eq_map_iff.1 hcompiled with ⟨error, hx, hy⟩ | ⟨a, b, hx, hy, hab⟩
      · rw [filter_of_error hfailure hx, filter_of_error hfailure' hy]
        rfl
      · rw [filter_of_ok hfailure hx, filter_of_ok hfailure' hy]
        exact blank_eq_blank_iff.2 ⟨b, hab, rfl⟩

theorem sort_withCondition (request : Request) (condition : Option Condition)
    (spec : Option SortSpec) :
    (request.withCondition condition).sort spec = (request.sort spec).withCondition condition := by
  cases hfailure : request.failure with
  | some error =>
      have hfailure' : (request.withCondition condition).failure = some error := hfailure
      rw [sort_of_failure hfailure, sort_of_failure hfailure']
  | none =>
      have hfailure' : (request.withCondition condition).failure = none := hfailure
      cases hspec : Order.ofSpec spec request.limits.defaultSort with
      | error error =>
          rw [sort_of_error hfailure hspec, sort_of_error hfailure' hspec]
          rfl
      | ok order =>
          rw [sort_of_ok hfailure hspec, sort_of_ok hfailure' hspec]
          rfl

/-- A call keeps requests equal but for their values, if it is the same but for its operands. -/
theorem apply_blank_congr {request request' : Request} {call call' : Call}
    (h : request.blank = request'.blank) (hcall : call.blank = call'.blank) :
    (request.apply call).blank = (request'.apply call').blank := by
  cases call <;> cases call' <;> simp only [Call.blank, reduceCtorEq] at hcall
  case filter.filter tree tree' => exact filter_blank_congr h (Call.filter.inj hcall)
  all_goals
    cases hcall
    obtain ⟨condition, hcondition, rfl⟩ := blank_eq_blank_iff.1 h
  case sort.sort.refl spec =>
    have hkept : (request.sort spec).condition = request.condition := by
      show ((request.withCondition request.condition).sort spec).condition = _
      rw [sort_withCondition]
      rfl
    refine blank_eq_blank_iff.2 ⟨condition, ?_, sort_withCondition request condition spec⟩
    show (request.sort spec).condition.map _ = _
    rw [hkept, hcondition]
  case page.page.refl | projection.projection.refl | compose.compose.refl =>
    exact blank_eq_blank_iff.2 ⟨condition, hcondition, rfl⟩

/-- Calls that are the same but for their operands keep requests equal but for their values. -/
theorem run_blank_congr {request request' : Request} {calls calls' : List Call}
    (h : request.blank = request'.blank) (hcalls : calls.map Call.blank = calls'.map Call.blank) :
    (request.run calls).blank = (request'.run calls').blank := by
  induction calls generalizing request request' calls' with
  | nil =>
      obtain rfl := List.map_eq_nil_iff.1 hcalls.symm
      exact h
  | cons call calls ih =>
      cases calls' with
      | nil => cases hcalls
      | cons call' calls' =>
          obtain ⟨hcall, hrest⟩ := List.cons.inj hcalls
          rw [run_cons, run_cons]
          exact ih (apply_blank_congr h hcall) hrest

end Request

/-! ## Plans -/

/-- A plan without the content of its values. -/
def Plan.blank (plan : Plan) : Plan where
  window := plan.window
  count := plan.count.blank
  select := plan.select.blank

namespace Request

theorem build_of_failure {request : Request} {error : QueryError}
    (h : request.failure = some error) : request.build = .error error := by
  unfold build
  rw [h]
  rfl

/-- Requests without hooks that are equal but for their values are built into plans that are equal
but for their values, or refused for the same reason. -/
theorem build_blank_congr {request request' : Request} (h : request.blank = request'.blank)
    (hhooks : request.failure = none → request.hooks = []) :
    request.build.map Plan.blank = request'.build.map Plan.blank := by
  obtain ⟨condition, hcondition, rfl⟩ := blank_eq_blank_iff.1 h
  cases hfailure : request.failure with
  | some error =>
      have hfailure' : (request.withCondition condition).failure = some error := hfailure
      rw [build_of_failure hfailure, build_of_failure hfailure']
  | none =>
      have hfailure' : (request.withCondition condition).failure = none := hfailure
      have hhooks' : (request.withCondition condition).hooks = [] := hhooks hfailure
      rw [build_eq_of_failure_eq_none hfailure, build_eq_of_failure_eq_none hfailure',
        hhooks hfailure, hhooks']
      refine Checked.map_bind_congr (h := id) rfl ?_
      rintro query _ rfl
      have hfiltered : (query.filter request.condition).blank = (query.filter condition).blank := by
        unfold Select.filter Select.blank
        simp only [List.map_append, ← Option.toList_map, hcondition]
      refine Checked.map_bind_congr (congrArg Except.ok hfiltered) fun count count' hcount => ?_
      refine Checked.map_bind_congr (h := id) rfl ?_
      rintro order _ rfl
      refine Checked.map_bind_congr (Select.withColumns_blank_congr hcount request.columns)
        fun select select' hselect => ?_
      exact congrArg Except.ok (congrArg₂ (fun count select : Select => Plan.mk
        (request.window.normalize request.limits) count (((select.orderBy order).withLimit
          (request.window.normalize request.limits).limit).withOffset
            (request.window.normalize request.limits).skip)) hcount hselect)

/-- Operands stay out of texts.  Two requests over one table without hooks, whose calls are the same
but for the content of the operands of their filters, are refused for the same reason, or are built
into plans whose queries have the same texts.  Their values are as many, and of the same classes. -/
theorem texts_eq_of_blank_eq (table : String) (limits : PageLimits) {calls calls' : List Call}
    (hhooks : ∀ call ∈ calls, call.isHook = false)
    (hblank : calls.map Call.blank = calls'.map Call.blank) :
    (∃ error, ((ofTable table limits).run calls).build = .error error ∧
      ((ofTable table limits).run calls').build = .error error) ∨
    ∃ plan plan', ((ofTable table limits).run calls).build = .ok plan ∧
      ((ofTable table limits).run calls').build = .ok plan' ∧
      plan.select.sql = plan'.select.sql ∧ plan.count.countSql = plan'.count.countSql ∧
      plan.select.values.map Operand.blank = plan'.select.values.map Operand.blank ∧
      plan.count.values.map Operand.blank = plan'.count.values.map Operand.blank := by
  have hrun : ((ofTable table limits).run calls).blank =
      ((ofTable table limits).run calls').blank :=
    run_blank_congr rfl hblank
  have hnone : ((ofTable table limits).run calls).failure = none →
      ((ofTable table limits).run calls).hooks = [] := by
    intro hfailure
    rw [(meets_run hfailure).hooks, Wishes.hooks_ofCalls hhooks]
  rcases Checked.map_eq_map_iff.1 (build_blank_congr hrun hnone) with h | ⟨plan, plan', h, h', heq⟩
  · exact .inl h
  · obtain ⟨-, hcount, hselect⟩ := Plan.mk.inj heq
    refine .inr ⟨plan, plan', h, h', ?_, ?_, ?_, ?_⟩
    · rw [← Select.sql_blank, hselect, Select.sql_blank]
    · rw [← Select.countSql_blank, hcount, Select.countSql_blank]
    · rw [← Select.values_blank, hselect, Select.values_blank]
    · rw [← Select.values_blank, hcount, Select.values_blank]

/-- Calls that look for a title that contains a text, or for a year out of a list. -/
def callsFor (title : String) (years : List Operand) : List Call :=
  [.filter (.ok (some (.group .any [.leaf "title" (.ofPattern .contains (.text title)),
    .leaf "year" (.ofOneOf years)])))]

/-- A harmless text and one that would be SQL, and two lists of the same length and classes. -/
theorem texts_eq_of_blank_eq_injection :
    ∃ plan plan',
      ((ofTable "t" {}).run (callsFor "ring" [.integer 1, .text "x"])).build = .ok plan ∧
      ((ofTable "t" {}).run
        (callsFor "\x27) OR (1=1) --" [.boolean true, .text "?"])).build = .ok plan' ∧
      plan.select.sql = plan'.select.sql ∧ plan.count.countSql = plan'.count.countSql ∧
      plan'.select.values = [.text "%\x27) OR (1=1) --%", .boolean true, .text "?"] ∧
      plan'.count.countSql =
        "SELECT COUNT(*) FROM t WHERE title LIKE ? OR year IN (?, ?)" := by
  have hhooks : ∀ call ∈ callsFor "ring" [.integer 1, .text "x"], call.isHook = false := by
    simp [callsFor, Call.isHook]
  have hblank : (callsFor "ring" [.integer 1, .text "x"]).map Call.blank =
      (callsFor "\x27) OR (1=1) --" [.boolean true, .text "?"]).map Call.blank := rfl
  obtain ⟨known, hknown, hvalues, hcount⟩ : ∃ plan,
      ((ofTable "t" {}).run
        (callsFor "\x27) OR (1=1) --" [.boolean true, .text "?"])).build = .ok plan ∧
      plan.select.values = [.text "%\x27) OR (1=1) --%", .boolean true, .text "?"] ∧
      plan.count.countSql = "SELECT COUNT(*) FROM t WHERE title LIKE ? OR year IN (?, ?)" :=
    ⟨_, rfl, rfl, by decide⟩
  rcases texts_eq_of_blank_eq "t" {} hhooks hblank with
    ⟨error, -, herror⟩ | ⟨plan, plan', h, h', hsql, hcountSql, -⟩
  · rw [hknown] at herror
    cases herror
  · rw [hknown] at h'
    obtain rfl := Except.ok.inj h'
    exact ⟨plan, known, h, hknown, hsql, hcountSql, hvalues, hcount⟩

end Request

end TableQuery
