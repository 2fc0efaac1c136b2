import TableQuery.OperatorSet.Dates
import TableQuery.Proofs.Checked

/-!
# Date operator sets that are converted

A date operator set is converted operand by operand, in a line for each operator that names its
key.  What comes of it is said here without the lines: either all operands hold instants, and then
the result has the same operators with these instants, or the first that holds none is reported
with the key of its operator.

The order in which operands are read is that of one list (`ValueOperators.operands`), and how two
sets correspond is one relation (`ValueOperators.Corresponds`).  Conversion is then a traversal of
the list as far as faults go, and a correspondence as far as results go.

## Main results

* `ValueOperators.mapM_eq_ok_iff`, `ValueOperators.fault?_mapM` — changing the operands of a set.
* `ValueOperators.mapM_congr` — sets whose operands are changed alike.
* `date_conversion_all_or_nothing` — what comes of converting a date operator set.
-/

namespace TableQuery

open Checked

/-! ## Operands of a set -/

namespace ValueOperators

variable {change : String → Operand → Except QueryError Operand}

/-- The operands of a set, each with the key of its operator: comparisons in their order, and then
the elements of both lists. -/
def operands (set : ValueOperators) : List (String × Operand) :=
  (Comparison.all.flatMap fun c => (set.comparison c).toList.map (Prod.mk c.name)) ++
    ((set.oneOf.getD []).map (Prod.mk "in") ++ (set.noneOf.getD []).map (Prod.mk "notIn"))

/-- `set.Corresponds R other` holds if two sets have the same operators, and `R` relates their
operands one by one, for the key of each operator. -/
structure Corresponds (R : String → Operand → Operand → Prop) (set other : ValueOperators) :
    Prop where
  comparison : ∀ c, Option.Rel (R c.name) (set.comparison c) (other.comparison c)
  oneOf : Option.Rel (List.Forall₂ (R "in")) set.oneOf other.oneOf
  noneOf : Option.Rel (List.Forall₂ (R "notIn")) set.noneOf other.noneOf
  isNull : other.isNull = set.isNull
  isNotNull : other.isNotNull = set.isNotNull

theorem Corresponds.imp {R S : String → Operand → Operand → Prop}
    {set other : ValueOperators} (h : set.Corresponds R other)
    (hRS : ∀ operator a b, R operator a b → S operator a b) : set.Corresponds S other := by
  have hoperand : ∀ {operator : String} {a? b? : Option Operand},
      Option.Rel (R operator) a? b? → Option.Rel (S operator) a? b? := by
    rintro operator _ _ (hab | _)
    · exact .some (hRS _ _ _ hab)
    · exact .none
  have hoperands : ∀ {operator : String} {as? bs? : Option (List Operand)},
      Option.Rel (List.Forall₂ (R operator)) as? bs? →
        Option.Rel (List.Forall₂ (S operator)) as? bs? := by
    rintro operator _ _ (hall | _)
    · exact .some (hall.imp (hRS _))
    · exact .none
  exact ⟨fun c => hoperand (h.comparison c), hoperands h.oneOf, hoperands h.noneOf, h.isNull,
    h.isNotNull⟩

/-- Changing the operands of a set gives a set whose operands are those that the change gives. -/
theorem mapM_eq_ok_iff {set result : ValueOperators} :
    set.mapM change = .ok result ↔
      set.Corresponds (fun operator a b => change operator a = .ok b) result := by
  simp only [mapM, bind_eq_ok_iff, optionMapM_eq_ok_iff, Checked.mapM_eq_ok_iff]
  constructor
  · rintro ⟨eq, heq, notEq, hnotEq, gte, hgte, notGte, hnotGte, gt, hgt, notGt, hnotGt, lte, hlte,
      notLte, hnotLte, lt, hlt, notLt, hnotLt, oneOf, honeOf, noneOf, hnoneOf, h⟩
    obtain rfl := Except.ok.inj h
    refine ⟨fun c => ?_, honeOf, hnoneOf, rfl, rfl⟩
    cases c <;> assumption
  · rintro ⟨hcomparison, honeOf, hnoneOf, hnull, hnotNull⟩
    refine ⟨_, hcomparison .eq, _, hcomparison .notEq, _, hcomparison .gte, _, hcomparison .notGte,
      _, hcomparison .gt, _, hcomparison .notGt, _, hcomparison .lte, _, hcomparison .notLte,
      _, hcomparison .lt, _, hcomparison .notLt, _, honeOf, _, hnoneOf, ?_⟩
    rw [← hnull, ← hnotNull]
    rfl

/-- Changing the operands of a set ends in the first fault of the changes. -/
theorem fault?_mapM (set : ValueOperators) :
    fault? (set.mapM change) = set.operands.findSome? fun p => fault? (change p.1 p.2) := by
  have hoperand : ∀ (operator : String) (operand? : Option Operand),
      (operand?.toList.map (Prod.mk operator)).findSome? (fun p => fault? (change p.1 p.2)) =
        fault? (operand?.mapM (change operator)) := by
    intro operator operand?
    rw [fault?_optionMapM]
    cases operand? with
    | none => rfl
    | some operand => exact List.findSome?_singleton
  have hoperands : ∀ (operator : String) (operands? : Option (List Operand)),
      ((operands?.getD []).map (Prod.mk operator)).findSome? (fun p => fault? (change p.1 p.2)) =
        fault? (operands?.mapM fun operands => operands.mapM (change operator)) := by
    intro operator operands?
    rw [fault?_optionMapM]
    cases operands? with
    | none => rfl
    | some operands =>
        rw [Option.bind_some, Checked.fault?_mapM, Option.getD_some, List.findSome?_map]
        rfl
  simp only [operands, Comparison.all, List.flatMap_cons, List.flatMap_nil, List.append_nil,
    List.findSome?_append, List.append_assoc, hoperand, hoperands]
  unfold mapM
  iterate 11 refine fault?_bind fun _ _ => ?_
  exact fault?_bind_of_total fun _ => rfl

/-- Sets whose operands are changed alike are changed alike. -/
theorem mapM_congr {set other : ValueOperators}
    (h : set.Corresponds (fun operator a b => change operator a = change operator b) other) :
    set.mapM change = other.mapM change := by
  obtain ⟨hcomparison, honeOf, hnoneOf, hnull, hnotNull⟩ := h
  have hoperand : ∀ {operator : String} {a? b? : Option Operand},
      Option.Rel (fun a b => change operator a = change operator b) a? b? →
        a?.mapM (change operator) = b?.mapM (change operator) := by
    rintro operator _ _ (hab | _)
    · rw [Option.mapM_some, Option.mapM_some, hab]
    · rfl
  have hoperands : ∀ {operator : String} {as? bs? : Option (List Operand)},
      Option.Rel (List.Forall₂ fun a b => change operator a = change operator b) as? bs? →
        (as?.mapM fun as => as.mapM (change operator)) =
          bs?.mapM fun bs => bs.mapM (change operator) := by
    rintro operator _ _ (hall | _)
    · rw [Option.mapM_some, Option.mapM_some, mapM_congr_of_forall₂ hall]
    · rfl
  have hbind : ∀ {α β : Type} {x y : Except QueryError α} {f g : α → Except QueryError β},
      x = y → (∀ a, f a = g a) → x >>= f = y >>= g := by
    rintro α β x _ f g rfl h
    rw [funext h]
  unfold mapM
  refine hbind (hoperand (hcomparison .eq)) fun _ => ?_
  refine hbind (hoperand (hcomparison .notEq)) fun _ => ?_
  refine hbind (hoperand (hcomparison .gte)) fun _ => ?_
  refine hbind (hoperand (hcomparison .notGte)) fun _ => ?_
  refine hbind (hoperand (hcomparison .gt)) fun _ => ?_
  refine hbind (hoperand (hcomparison .notGt)) fun _ => ?_
  refine hbind (hoperand (hcomparison .lte)) fun _ => ?_
  refine hbind (hoperand (hcomparison .notLte)) fun _ => ?_
  refine hbind (hoperand (hcomparison .lt)) fun _ => ?_
  refine hbind (hoperand (hcomparison .notLt)) fun _ => ?_
  refine hbind (hoperands honeOf) fun _ => ?_
  refine hbind (hoperands hnoneOf) fun _ => ?_
  rw [hnull, hnotNull]

end ValueOperators

/-! ## Instants of operands -/

/-- The instant that an operand holds, or that its text denotes. -/
def Operand.instant? : Operand → Option Time.Instant
  | .timestamp instant => some instant
  | .text value => Time.Instant.ofText? value
  | _ => none

/-- What is reported for an operand of an operator that holds no instant: a text as it is, and of
anything else the kind. -/
def Operand.dateFault (operator : String) : Operand → QueryError
  | .text value => .invalidDate operator value
  | operand => .unsupportedDateValue operator operand.kind

theorem dateOperand_of_instant {operator : String} {operand : Operand} {instant : Time.Instant}
    (h : operand.instant? = some instant) :
    dateOperand operator operand = .ok (.timestamp instant) := by
  cases operand with
  | timestamp => exact congrArg (Except.ok ∘ Operand.timestamp) (Option.some.inj h)
  | text value =>
      rw [Operand.instant?] at h
      rw [dateOperand, h]
  | null | boolean | integer | float => cases h

theorem dateOperand_of_no_instant {operator : String} {operand : Operand}
    (h : operand.instant? = none) :
    dateOperand operator operand = .error (operand.dateFault operator) := by
  cases operand with
  | timestamp => cases h
  | text value =>
      rw [Operand.instant?] at h
      rw [dateOperand, h]
      rfl
  | null | boolean | integer | float => rfl

theorem dateOperand_eq_ok_iff {operator : String} {operand result : Operand} :
    dateOperand operator operand = .ok result ↔
      ∃ instant, operand.instant? = some instant ∧ result = .timestamp instant := by
  cases h : operand.instant? with
  | none => simp [dateOperand_of_no_instant h]
  | some instant => simp [dateOperand_of_instant h, eq_comm]

theorem fault?_dateOperand_eq_none_iff {operator : String} {operand : Operand} :
    fault? (dateOperand operator operand) = none ↔ operand.instant? ≠ none := by
  cases h : operand.instant? with
  | none => simp [dateOperand_of_no_instant h, fault?]
  | some instant => simp [dateOperand_of_instant h, fault?]

theorem fault?_dateOperand_eq_some_iff {operator : String} {operand : Operand}
    {error : QueryError} :
    fault? (dateOperand operator operand) = some error ↔
      operand.instant? = none ∧ error = operand.dateFault operator := by
  cases h : operand.instant? with
  | none => simp [dateOperand_of_no_instant h, fault?, eq_comm]
  | some instant => simp [dateOperand_of_instant h, fault?]

/-! ## Conversion -/

/-- `set.ConvertsTo result` holds if the operators of a date operator set are those of the result,
each with its own operand, which is an instant there, and lists in their order.  The result has
neither patterns nor case flags. -/
structure DateOperatorSet.ConvertsTo (set : DateOperatorSet) (result : OperatorSet) : Prop where
  operators : set.toValueOperators.Corresponds
    (fun _ operand converted => ∃ instant, operand.instant? = some instant ∧
      converted = .timestamp instant) result.toValueOperators
  pattern : ∀ p, result.pattern p = none
  flag : ∀ flag, result.flag flag = false

namespace DateOperatorSet

theorem toGeneric_eq_ok_iff {set : DateOperatorSet} {result : OperatorSet} :
    set.toGeneric = .ok result ↔ set.ConvertsTo result := by
  rw [toGeneric, bind_eq_ok_iff]
  simp only [ValueOperators.mapM_eq_ok_iff, dateOperand_eq_ok_iff]
  constructor
  · rintro ⟨operators, hoperators, h⟩
    obtain rfl := Except.ok.inj h
    exact ⟨hoperators, fun p => by cases p <;> rfl, fun flag => by cases flag <;> rfl⟩
  · rintro ⟨hoperators, hpattern, hflag⟩
    refine ⟨_, hoperators, congrArg Except.ok ?_⟩
    obtain ⟨operators⟩ := result
    rw [OperatorSet.mk.injEq]
    exact ⟨rfl, (hpattern .contains).symm, (hpattern .notContains).symm,
      (hpattern .startsWith).symm, (hpattern .notStartsWith).symm, (hpattern .endsWith).symm,
      (hpattern .notEndsWith).symm, (hflag .fieldUppercase).symm, (hflag .fieldLowercase).symm,
      (hflag .valueUppercase).symm, (hflag .valueLowercase).symm, (hflag .caseInsensitive).symm⟩

theorem fault?_toGeneric (set : DateOperatorSet) :
    fault? set.toGeneric = set.operands.findSome? fun p => fault? (dateOperand p.1 p.2) := by
  rw [toGeneric, fault?_bind_of_total fun _ => rfl, ValueOperators.fault?_mapM]

/-- Conversion fails exactly if some operand holds no instant. -/
theorem exists_toGeneric_eq_error_iff {set : DateOperatorSet} :
    (∃ error, set.toGeneric = .error error) ↔ ∃ p ∈ set.operands, p.2.instant? = none := by
  simp only [← fault?_eq_some_iff, fault?_toGeneric]
  rw [← Option.ne_none_iff_exists', ne_eq, List.findSome?_eq_none_iff]
  simp only [fault?_dateOperand_eq_none_iff, ne_eq, not_forall, not_not, exists_prop]

/-- The fault of the first operand that holds no instant is reported. -/
theorem toGeneric_eq_error_iff {set : DateOperatorSet} {error : QueryError} :
    set.toGeneric = .error error ↔
      ∃ before operator operand after, set.operands = before ++ (operator, operand) :: after ∧
        (∀ p ∈ before, p.2.instant? ≠ none) ∧ operand.instant? = none ∧
        error = operand.dateFault operator := by
  rw [← fault?_eq_some_iff, fault?_toGeneric, List.findSome?_eq_some_iff]
  simp only [Prod.exists, fault?_dateOperand_eq_some_iff, fault?_dateOperand_eq_none_iff]
  constructor
  · rintro ⟨before, operator, operand, after, hset, ⟨hnone, herror⟩, hbefore⟩
    exact ⟨before, operator, operand, after, hset, hbefore, hnone, herror⟩
  · rintro ⟨before, operator, operand, after, hset, hbefore, hnone, herror⟩
    exact ⟨before, operator, operand, after, hset, ⟨hnone, herror⟩, hbefore⟩

end DateOperatorSet

/-- Converting a date operator set fails exactly if some operand holds no instant, and reports the
first of these with the key of its operator.  If it succeeds, the result has the same operators with
the instants of their operands, and nothing else. -/
theorem date_conversion_all_or_nothing (set : DateOperatorSet) :
    ((∃ error, set.toGeneric = .error error) ↔ ∃ p ∈ set.operands, p.2.instant? = none) ∧
    (∀ error, set.toGeneric = .error error ↔
      ∃ before operator operand after, set.operands = before ++ (operator, operand) :: after ∧
        (∀ p ∈ before, p.2.instant? ≠ none) ∧ operand.instant? = none ∧
        error = operand.dateFault operator) ∧
    ∀ result, set.toGeneric = .ok result ↔ set.ConvertsTo result :=
  ⟨DateOperatorSet.exists_toGeneric_eq_error_iff, fun _ => DateOperatorSet.toGeneric_eq_error_iff,
    fun _ => DateOperatorSet.toGeneric_eq_ok_iff⟩

/-- Of three faults the one of `lt` comes first, since lists are read after comparisons. -/
example : DateOperatorSet.toGeneric {
    eq := some (.text "2020-01-01T00:00:00Z")
    lt := some (.integer 1)
    notLt := some (.text "soon")
    oneOf := some [.null] } = .error (.unsupportedDateValue "lt" "integer") := by
  decide +kernel

end TableQuery
