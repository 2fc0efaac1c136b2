import TableQuery.GraphQL.Input
import TableQuery.Proofs.OperatorReading

/-!
# Operator sets in JSON and in arguments

An operator set arrives as an object of JSON or as an argument of GraphQL.  The two are read by
different rules: JSON goes through the fields that an object has, and refuses any that is no key,
while an argument is searched for every key, in the order of the declaration, and what else it has
is passed over.  They also differ in how null, absence and single values are taken.  Here both are
shown to give the same sets, so that it does not matter in which form a client writes one.

Two values are `Alike` if an operator set cannot tell them apart.  This says nothing about the
contents of an object, since no key of an operator set takes one.  From there the two directions are
one equivalence, `decode_eq_ok_iff_operatorsOf`: JSON is the notation that accepts less.

## Main results

* `Alike.read_eq_ok_iff` — like values are read alike at every key.
* `decode_eq_ok_iff_operatorsOf` — like objects denote the same operator sets.
* `operator_notations_agree` — the same for any object, written over from one form to the other.
-/

namespace TableQuery

open GraphQL

/-! ## One form written over to the other -/

namespace GraphQL.Value

mutual

/-- A JSON value as an argument. -/
def ofJson : Json → Value
  | .null => .null
  | .boolean value => .boolean value
  | .integer value => .integer value
  | .float value => .float value
  | .text value => .text value
  | .list items => .list (ofItems items)
  | .object fields => .object (ofFields fields)

/-- JSON values as arguments. -/
def ofItems : List Json → List Value
  | [] => []
  | item :: rest => ofJson item :: ofItems rest

/-- Fields of JSON as fields of an argument. -/
def ofFields : List (String × Json) → List (String × Value)
  | [] => []
  | (name, value) :: rest => (name, ofJson value) :: ofFields rest

end

mutual

/-- An argument as a JSON value, unless a bare name is in it. -/
def toJson? : Value → Option Json
  | .null => some .null
  | .boolean value => some (.boolean value)
  | .integer value => some (.integer value)
  | .float value => some (.float value)
  | .text value => some (.text value)
  | .enumeration _ => none
  | .list items => (toItems? items).map .list
  | .object fields => (toFields? fields).map .ofFields

/-- Arguments as JSON values. -/
def toItems? : List Value → Option (List Json)
  | [] => some []
  | item :: rest => do return (← item.toJson?) :: (← toItems? rest)

/-- Fields of an argument as fields of JSON. -/
def toFields? : List (String × Value) → Option (List (String × Json))
  | [] => some []
  | (name, value) :: rest => do return (name, ← value.toJson?) :: (← toFields? rest)

end

end GraphQL.Value

/-! ## Values that are alike -/

/-- `SameOperand json value` holds if both stand for the same operand, or both for none. -/
def SameOperand (json : Json) (value : Value) : Prop :=
  ∀ operand, Operand.ofJson json = .ok operand ↔ operandOf value = .ok operand

/-- `Alike json value` holds if no key of an operator set tells a JSON value from an argument. -/
inductive Alike : Json → Value → Prop where
  | null : Alike .null .null
  | boolean (value : Bool) : Alike (.boolean value) (.boolean value)
  | integer (value : Int) : Alike (.integer value) (.integer value)
  | float (value : Numeral.Binary64) : Alike (.float value) (.float value)
  | text (value : String) : Alike (.text value) (.text value)
  | list {items : List Json} {values : List Value} (h : List.Forall₂ SameOperand items values) :
      Alike (.list items) (.list values)
  | object {fields : List (String × Json)} {arguments : List (String × Value)} :
      Alike (.object fields) (.object arguments)

theorem sameOperand_ofJson (json : Json) : SameOperand json (.ofJson json) := by
  intro operand
  cases json <;> simp [Value.ofJson, Operand.ofJson, operandOf, expected]

theorem sameOperand_of_toJson? {value : Value} {json : Json} (h : value.toJson? = some json) :
    SameOperand json value := by
  intro operand
  cases value with
  | enumeration name => cases h
  | list items =>
      obtain ⟨jsons, -, rfl⟩ := Option.map_eq_some_iff.1 h
      simp [Operand.ofJson, operandOf, expected]
  | object fields =>
      obtain ⟨jsons, -, rfl⟩ := Option.map_eq_some_iff.1 h
      simp [Json.ofFields, Operand.ofJson, operandOf, expected]
  | null | boolean | integer | float | text =>
      obtain rfl := Option.some.inj h
      simp [Operand.ofJson, operandOf]

theorem alike_ofJson (json : Json) : Alike json (.ofJson json) := by
  cases json with
  | list items =>
      refine .list ?_
      induction items with
      | nil => exact .nil
      | cons item rest ih => exact .cons (sameOperand_ofJson item) ih
  | null => exact .null
  | boolean value => exact .boolean value
  | integer value => exact .integer value
  | float value => exact .float value
  | text value => exact .text value
  | object fields => exact .object

theorem alike_of_toJson? {value : Value} {json : Json} (h : value.toJson? = some json) :
    Alike json value := by
  cases value with
  | enumeration name => cases h
  | list items =>
      obtain ⟨jsons, hitems, rfl⟩ := Option.map_eq_some_iff.1 h
      refine .list ?_
      clear h
      induction items generalizing jsons with
      | nil =>
          obtain rfl := Option.some.inj hitems
          exact .nil
      | cons item rest ih =>
          rw [Value.toItems?] at hitems
          obtain ⟨first, hfirst, hitems⟩ := Option.bind_eq_some_iff.1 hitems
          obtain ⟨others, hothers, hitems⟩ := Option.bind_eq_some_iff.1 hitems
          obtain rfl := Option.some.inj hitems
          exact .cons (sameOperand_of_toJson? hfirst) (ih others hothers)
  | object fields =>
      obtain ⟨jsons, -, rfl⟩ := Option.map_eq_some_iff.1 h
      exact .object
  | null | boolean | integer | float | text =>
      obtain rfl := Option.some.inj h
      constructor

/-! ## Reading a key -/

/-- Lists whose members stand for the same operands stand for the same lists of operands. -/
theorem mapM_eq_ok_iff_of_sameOperand {items : List Json} {values : List Value}
    (h : List.Forall₂ SameOperand items values) (operands : List Operand) :
    items.mapM Operand.ofJson = .ok operands ↔ values.mapM operandOf = .ok operands := by
  rw [Checked.mapM_eq_ok_iff, Checked.mapM_eq_ok_iff]
  induction h generalizing operands with
  | nil => simp
  | cons hsame _ ih =>
      cases operands with
      | nil => simp
      | cons operand operands => rw [List.forall₂_cons, List.forall₂_cons, hsame operand, ih]

theorem inside_eq_ok_iff {α : Type} {type : String} {x : Except InputError α} {a : α} :
    inside type x = .ok a ↔ x = .ok a := by
  cases x <;> simp [inside]

/-- The keys that take lists. -/
def OperatorKey.isList (key : OperatorKey) : Prop := key = .oneOf ∨ key = .noneOf

/-- What JSON accepts for a list: null, or a list. -/
def GraphQL.Value.IsListOrNull (value : Value) : Prop :=
  value = .null ∨ ∃ items, value = .list items

namespace Alike

variable {json : Json} {value : Value}

theorem operand_eq_ok_iff (h : Alike json value) (content : Option Operand) :
    jsonKeys.operand json = .ok content ↔ fieldKeys.operand (some value) = .ok content := by
  cases h <;> simp [jsonKeys, fieldKeys, decodeOptional, optionalOperand, Operand.ofJson, operandOf,
    expected, bind, Except.bind, pure, Except.pure]

theorem flag_eq_ok_iff (h : Alike json value) (isSet : Bool) :
    jsonKeys.flag json = .ok isSet ↔ fieldKeys.flag (some value) = .ok isSet := by
  cases h <;> simp [jsonKeys, fieldKeys, Json.asBoolean, flagOf, booleanOf, expected]

/-- An argument may give a single value for a list of one, which JSON does not. -/
theorem operands_eq_ok_iff (h : Alike json value) (content : Option (List Operand)) :
    jsonKeys.operands json = .ok content ↔
      value.IsListOrNull ∧ fieldKeys.operands (some value) = .ok content := by
  cases h with
  | null => simp [jsonKeys, fieldKeys, decodeOptional, optionalOperands, Value.IsListOrNull]
  | @list items values hitems =>
      have hlist : (Value.list values).IsListOrNull := .inr ⟨values, rfl⟩
      have hjson : jsonKeys.operands (.list items) = (items.mapM Operand.ofJson).map some := by
        cases hread : items.mapM Operand.ofJson <;>
          simp [jsonKeys, decodeOptional, decodeOperands, Json.asList, hread, bind, Except.bind,
            pure, Except.pure, Except.map]
      have hargument : fieldKeys.operands (some (.list values)) =
          (inside "[FilterValue!]" (values.mapM operandOf)).map some := by
        cases hread : inside "[FilterValue!]" (values.mapM operandOf) <;>
          simp [fieldKeys, optionalOperands, hread, bind, Except.bind, pure, Except.pure,
            Except.map]
      rw [hjson, hargument, Checked.map_eq_ok_iff, Checked.map_eq_ok_iff]
      simp only [inside_eq_ok_iff, mapM_eq_ok_iff_of_sameOperand hitems, hlist, true_and]
  | boolean | integer | float | text | object =>
      simp [jsonKeys, decodeOptional, decodeOperands, Json.asList, Value.IsListOrNull, bind,
        Except.bind]

/-- Like values are read alike at every key, except that JSON has no single values for lists. -/
theorem read_eq_ok_iff (h : Alike json value) (key : OperatorKey) (content : Option OperatorValue) :
    jsonKeys.read key json = .ok content ↔
      (key.isList → value.IsListOrNull) ∧ fieldKeys.read key (some value) = .ok content := by
  cases key with
  | comparison | pattern =>
      simp [KeyReader.read, Checked.map_eq_ok_iff, h.operand_eq_ok_iff, OperatorKey.isList]
  | isNull | isNotNull | flag =>
      simp [KeyReader.read, Checked.map_eq_ok_iff, h.flag_eq_ok_iff, OperatorKey.isList]
  | oneOf | noneOf =>
      simp [KeyReader.read, Checked.map_eq_ok_iff, h.operands_eq_ok_iff, OperatorKey.isList,
        and_assoc]

end Alike

/-- What is missing in an argument is absent. -/
theorem read_fieldKeys_none (key : OperatorKey) : fieldKeys.read key none = .ok none := by
  cases key <;> rfl

/-! ## Like objects -/

/-- An argument that could stand in JSON: it has no fields but keys, and gives lists as lists. -/
structure GraphQL.Strict (keys : List OperatorKey) (fields : List (String × Value)) : Prop where
  declared : ∀ name ∈ fields.map Prod.fst, name ∈ keys.map OperatorKey.name
  lists : ∀ key : OperatorKey, key.isList → ∀ value, fields.lookup key.name = some value →
    value.IsListOrNull

/-- Objects of the same names with like values. -/
structure LikeFields (fields : List (String × Json)) (arguments : List (String × Value)) :
    Prop where
  value : ∀ name json, fields.lookup name = some json →
    ∃ value, arguments.lookup name = some value ∧ Alike json value
  json : ∀ name value, arguments.lookup name = some value →
    ∃ json, fields.lookup name = some json ∧ Alike json value

section Objects

variable {keys : List OperatorKey} {shape type : String} {fields : List (String × Json)}
  {arguments : List (String × Value)} {set : OperatorSet}

/-- An argument holds an operator set exactly if the set has at each key what is read for it, which
is nothing where its field is missing. -/
theorem operatorsOf_object_eq_ok_iff (hkeys : keys.Nodup) :
    operatorsOf type keys (.object arguments) = .ok set ↔
      (∀ key ∈ keys, fieldKeys.read key (arguments.lookup key.name) = .ok (set.value? key)) ∧
        ∀ key ∉ keys, set.value? key = none := by
  have hentries : (keys.map fun key => (key, arguments.lookup key.name)).map Prod.fst = keys := by
    rw [List.map_map]
    exact List.map_id keys
  have hfold : keys.foldlM
      (fun set key => set.readKey fieldKeys key (arguments.lookup key.name)) ({} : OperatorSet) =
      (keys.map fun key => (key, arguments.lookup key.name)).foldlM
        (fun set entry => set.readKey fieldKeys entry.1 entry.2) {} := by
    rw [List.foldlM_map]
  rw [operatorsOf, inside_eq_ok_iff, hfold,
    OperatorSet.foldlM_readKey_eq_ok_iff (by rwa [hentries]), hentries]
  simp only [List.forall_mem_map, OperatorSet.value?_empty]

theorem LikeFields.lookup_eq_none_iff (h : LikeFields fields arguments) (name : String) :
    fields.lookup name = none ↔ arguments.lookup name = none := by
  simp only [Option.eq_none_iff_forall_ne_some]
  constructor
  · intro hnone value hvalue
    obtain ⟨json, hjson, -⟩ := h.json name value hvalue
    exact hnone json hjson
  · intro hnone json hjson
    obtain ⟨value, hvalue, -⟩ := h.value name json hjson
    exact hnone value hvalue

/-- Like objects denote the same operator sets.  JSON accepts one exactly if it is accepted as an
argument, and has no fields but keys and no single values for lists. -/
theorem decode_eq_ok_iff_operatorsOf (hkeys : keys.Nodup) (hnames : (fields.map Prod.fst).Nodup)
    (h : LikeFields fields arguments) :
    OperatorSet.decode keys shape (.object fields) = .ok set ↔
      Strict keys arguments ∧ operatorsOf type keys (.object arguments) = .ok set := by
  have hfound : ∀ name, name ∈ fields.map Prod.fst ↔ name ∈ arguments.map Prod.fst := by
    intro name
    rw [← not_iff_not, ← Keyed.lookup_eq_none_iff_not_mem, ← Keyed.lookup_eq_none_iff_not_mem]
    exact h.lookup_eq_none_iff name
  rw [OperatorSet.decode_object_eq_ok_iff hnames, operatorsOf_object_eq_ok_iff hkeys]
  constructor
  · rintro ⟨hdeclared, hreads, hnone⟩
    have hdeclared' : ∀ name ∈ arguments.map Prod.fst, name ∈ keys.map OperatorKey.name :=
      fun name hname => hdeclared name ((hfound name).2 hname)
    refine ⟨⟨hdeclared', fun key hlist value hvalue => ?_⟩, fun key hkey => ?_, fun key hkey => ?_⟩
    · obtain ⟨json, hjson, halike⟩ := h.json key.name value hvalue
      have hname := hdeclared' key.name
        (List.mem_map.2 ⟨_, Keyed.mem_of_lookup_eq_some hvalue, rfl⟩)
      have hkey := (List.mem_map_of_injective OperatorKey.name_injective).1 hname
      exact ((halike.read_eq_ok_iff key _).1 (hreads key hkey json hjson)).1 hlist
    · cases hvalue : arguments.lookup key.name with
      | none =>
          rw [read_fieldKeys_none, hnone key fun _ => (h.lookup_eq_none_iff key.name).2 hvalue]
      | some value =>
          obtain ⟨json, hjson, halike⟩ := h.json key.name value hvalue
          exact ((halike.read_eq_ok_iff key _).1 (hreads key hkey json hjson)).2
    · exact hnone key fun h => absurd h hkey
  · rintro ⟨hstrict, hreads, hnone⟩
    refine ⟨fun name hname => hstrict.declared name ((hfound name).1 hname), ?_, ?_⟩
    · intro key hkey json hjson
      obtain ⟨value, hvalue, halike⟩ := h.value key.name json hjson
      refine (halike.read_eq_ok_iff key _).2 ⟨fun hlist => hstrict.lists key hlist value hvalue, ?_⟩
      rw [← hvalue]
      exact hreads key hkey
    · intro key hmissing
      by_cases hkey : key ∈ keys
      · have hread := hreads key hkey
        rw [(h.lookup_eq_none_iff key.name).1 (hmissing hkey), read_fieldKeys_none] at hread
        exact (Except.ok.inj hread).symm
      · exact hnone key hkey

end Objects

/-! ## Objects written over -/

theorem likeFields_of_forall₂ {fields : List (String × Json)} {arguments : List (String × Value)}
    (h : List.Forall₂ (fun field argument => field.1 = argument.1 ∧ Alike field.2 argument.2) fields
      arguments) : LikeFields fields arguments := by
  have hlookup : ∀ name, Option.Rel Alike (fields.lookup name) (arguments.lookup name) := by
    intro name
    induction h with
    | nil => exact .none
    | cons hfield _ ih =>
        rw [Keyed.lookup_cons_eq_if, Keyed.lookup_cons_eq_if, hfield.1]
        split
        · exact .some hfield.2
        · exact ih
  constructor
  · intro name json hjson
    have hrel := hlookup name
    rw [hjson] at hrel
    generalize arguments.lookup name = found at hrel ⊢
    cases hrel with
    | some halike => exact ⟨_, rfl, halike⟩
  · intro name value hvalue
    have hrel := hlookup name
    rw [hvalue] at hrel
    generalize fields.lookup name = found at hrel ⊢
    cases hrel with
    | some halike => exact ⟨_, rfl, halike⟩

/-- Fields of JSON written over to an argument. -/
theorem likeFields_ofFields (fields : List (String × Json)) :
    LikeFields fields (Value.ofFields fields) := by
  refine likeFields_of_forall₂ ?_
  induction fields with
  | nil => exact .nil
  | cons field fields ih => exact .cons ⟨rfl, alike_ofJson field.2⟩ ih

/-- What is written over to JSON keeps its names, and each value becomes a like one. -/
theorem forall₂_of_toFields? {arguments : List (String × Value)} {fields : List (String × Json)}
    (h : Value.toFields? arguments = some fields) :
    List.Forall₂ (fun field argument => field.1 = argument.1 ∧ Alike field.2 argument.2) fields
      arguments := by
  induction arguments generalizing fields with
  | nil =>
      obtain rfl := Option.some.inj h
      exact .nil
  | cons argument arguments ih =>
      obtain ⟨name, value⟩ := argument
      rw [Value.toFields?] at h
      obtain ⟨json, hjson, h⟩ := Option.bind_eq_some_iff.1 h
      obtain ⟨rest, hrest, h⟩ := Option.bind_eq_some_iff.1 h
      obtain rfl := Option.some.inj h
      exact .cons ⟨rfl, alike_of_toJson? hjson⟩ (ih hrest)

/-- An object written over to JSON is one whose fields, sorted by name, are like those of the
argument. -/
theorem exists_likeFields_of_toJson? {arguments : List (String × Value)} {json : Json}
    (hnames : (arguments.map Prod.fst).Nodup) (h : (Value.object arguments).toJson? = some json) :
    ∃ fields, json = .object fields ∧ (fields.map Prod.fst).Nodup ∧
      LikeFields fields arguments := by
  obtain ⟨fields, hfields, rfl⟩ := Option.map_eq_some_iff.1 h
  have hforall := forall₂_of_toFields? hfields
  have hsame : fields.map Prod.fst = arguments.map Prod.fst := by
    clear h hfields hnames
    induction hforall with
    | nil => rfl
    | cons hfield _ ih => rw [List.map_cons, List.map_cons, hfield.1, ih]
  have hlike := likeFields_of_forall₂ hforall
  have hlookup := Keyed.lookup_ofList (hsame ▸ hnames)
  refine ⟨Keyed.ofList fields, rfl, Keyed.nodup_ofList fields, ?_, ?_⟩
  · intro name
    rw [hlookup]
    exact hlike.value name
  · intro name
    rw [hlookup]
    exact hlike.json name

/-- Operator sets are the same in JSON and in arguments.  What an object of JSON denotes, the
argument that it is written over to holds as well; and what an argument holds that has no fields but
keys, gives lists as lists and has no bare names, the object of JSON that it is written over to
denotes as well.  This is so for the operators of any column and for those of a date column.  An
object of either form has each name once. -/
theorem operator_notations_agree :
    (∀ fields : List (String × Json), (fields.map Prod.fst).Nodup →
      (∀ set, OperatorSet.ofJson (.object fields) = .ok set →
        OperatorSet.ofGraphQL (.ofJson (.object fields)) = .ok set) ∧
      ∀ set, DateOperatorSet.ofJson (.object fields) = .ok set →
        DateOperatorSet.ofGraphQL (.ofJson (.object fields)) = .ok set) ∧
    ∀ (arguments : List (String × Value)) (json : Json), (arguments.map Prod.fst).Nodup →
      (Value.object arguments).toJson? = some json →
      (Strict OperatorKey.all arguments → ∀ set,
        OperatorSet.ofGraphQL (.object arguments) = .ok set →
          OperatorSet.ofJson json = .ok set) ∧
      (Strict OperatorKey.dateKeys arguments → ∀ set,
        DateOperatorSet.ofGraphQL (.object arguments) = .ok set →
          DateOperatorSet.ofJson json = .ok set) := by
  constructor
  · intro fields hnames
    have hlike := likeFields_ofFields fields
    refine ⟨fun set hset => ?_, fun set hset => ?_⟩
    · exact ((decode_eq_ok_iff_operatorsOf OperatorKey.nodup_all hnames hlike).1 hset).2
    · obtain ⟨operators, hoperators, hdates⟩ := Checked.bind_eq_ok_iff.1 hset
      obtain rfl := Except.ok.inj hdates
      exact Checked.bind_eq_ok_iff.2 ⟨operators,
        ((decode_eq_ok_iff_operatorsOf OperatorKey.nodup_dateKeys hnames hlike).1 hoperators).2,
        rfl⟩
  · intro arguments json hnames hjson
    obtain ⟨fields, rfl, hnames, hlike⟩ := exists_likeFields_of_toJson? hnames hjson
    refine ⟨fun hstrict set hset => ?_, fun hstrict set hset => ?_⟩
    · exact (decode_eq_ok_iff_operatorsOf OperatorKey.nodup_all hnames hlike).2 ⟨hstrict, hset⟩
    · obtain ⟨operators, hoperators, hdates⟩ := Checked.bind_eq_ok_iff.1 hset
      obtain rfl := Except.ok.inj hdates
      exact Checked.bind_eq_ok_iff.2 ⟨operators,
        (decode_eq_ok_iff_operatorsOf OperatorKey.nodup_dateKeys hnames hlike).2
          ⟨hstrict, hoperators⟩, rfl⟩

/-- A null operand, a list of null and an integer beyond 64 bits, a flag, and negative zero. -/
theorem operator_notations_agree_null_large_zero :
    let items : List Json := [.null, .integer 9223372036854775808, .text "x"]
    let fields : List (String × Json) := [("eq", .null), ("in", .list items),
      ("isNull", .boolean true), ("notEq", .float ⟨9223372036854775808⟩)]
    let set : OperatorSet := {
      notEq := some (.float ⟨9223372036854775808⟩)
      oneOf := some [.null, .float (.ofInt 9223372036854775808), .text "x"]
      isNull := true }
    OperatorSet.ofGraphQL (.ofJson (.object fields)) = .ok set ∧
      DateOperatorSet.ofGraphQL (.ofJson (.object fields)) = .ok set.dates ∧
      OperatorSet.ofJson (.object fields) = .ok set ∧
      DateOperatorSet.ofJson (.object fields) = .ok set.dates := by
  intro items fields set
  have hnames : (fields.map Prod.fst).Nodup := by decide
  have hsorted : (Value.object (Value.ofFields fields)).toJson? = some (.object fields) := rfl
  have hstrict : ∀ keys, (∀ name ∈ fields.map Prod.fst, name ∈ keys.map OperatorKey.name) →
      Strict keys (Value.ofFields fields) := by
    intro keys hdeclared
    refine ⟨hdeclared, ?_⟩
    rintro key (rfl | rfl) value hvalue
    · exact .inr ⟨_, (Option.some.inj hvalue).symm⟩
    · cases hvalue
  obtain ⟨hjson, hdates⟩ := operator_notations_agree.1 fields hnames
  obtain ⟨hback, hdatesBack⟩ := operator_notations_agree.2 (Value.ofFields fields) _ hnames hsorted
  have hset := hjson set rfl
  have hdateSet := hdates set.dates rfl
  exact ⟨hset, hdateSet, hback (hstrict _ (by decide)) set hset,
    hdatesBack (hstrict _ (by decide)) set.dates hdateSet⟩

end TableQuery
