import TableQuery.Proofs.OperatorReading

/-!
# Operator sets spelled in JSON

An operator set is spelled as the object of its keys, what is absent left out.  The operands decide
whether the object denotes the set again: JSON takes null for absence, has no text for a float that
is not finite, and reads an instant as a text.  Any other operand comes back as it was, and with it
the set.

## Main results

* `Operand.ofJson_toJson` — an operand that has a spelling comes back.
* `OperatorSet.decode_toJson` — a set of such operands comes back.
-/

namespace TableQuery

/-! ## Operands -/

/-- A 64-bit integer is in its own range. -/
theorem Numeral.int64?_toInt (value : Int64) : int64? value.toInt = some value := by
  have hle := Int64.le_toInt value
  have hlt := Int64.toInt_lt value
  rw [int64?, if_pos, Int64.ofInt_toInt]
  simp only [greatestInt64]
  omega

/-- Whether JSON has a text for an operand that is read as this operand. -/
def Operand.isSpellable : Operand → Bool
  | .null | .timestamp _ => false
  | .float value => value.isFinite
  | .boolean _ | .integer _ | .text _ => true

theorem Operand.ofJson_toJson {operand : Operand} (h : operand.isSpellable = true) :
    ofJson operand.toJson = .ok operand := by
  cases operand with
  | null | timestamp => cases h
  | boolean | text => rfl
  | integer value => rw [toJson, ofJson, ofInt, Numeral.int64?_toInt]
  | float value =>
      have hfinite : value.isFinite = true := h
      rw [toJson, if_pos hfinite, ofJson]

/-- What has a spelling is not spelled as what is absent. -/
theorem Operand.decodeOptional_toJson {operand : Operand} (h : operand.isSpellable = true) :
    decodeOptional ofJson operand.toJson = .ok (some operand) := by
  have hread := ofJson_toJson h
  cases hjson : operand.toJson with
  | null =>
      rw [hjson] at hread
      obtain rfl := Except.ok.inj hread
      cases h
  | boolean | integer | float | text | list | object =>
      rw [hjson] at hread
      simp only [decodeOptional, hread, bind, Except.bind, pure, Except.pure]

theorem Operand.mapM_ofJson_toJson {operands : List Operand}
    (h : ∀ operand ∈ operands, operand.isSpellable = true) :
    (operands.map toJson).mapM ofJson = .ok operands := by
  rw [Checked.mapM_eq_ok_iff, List.forall₂_map_left_iff, List.forall₂_same]
  exact fun operand hmem => ofJson_toJson (h operand hmem)

/-! ## Values -/

namespace OperatorValue

/-- The operands in the value of a key. -/
def contents : OperatorValue → List Operand
  | operand value => [value]
  | operands values => values
  | present => []

/-- The value of a key in JSON. -/
def toJson : OperatorValue → Json
  | operand value => value.toJson
  | operands values => .list (values.map Operand.toJson)
  | present => .boolean true

end OperatorValue

namespace OperatorSet

variable {set : OperatorSet} {key : OperatorKey} {value : OperatorValue}

/-- The value of a key is read again at this key. -/
theorem read_toJson (h : set.value? key = some value)
    (hcontents : ∀ operand ∈ value.contents, operand.isSpellable = true) :
    jsonKeys.read key value.toJson = .ok (some value) := by
  have hpresent : ∀ {isSet : Bool},
      (if isSet then some OperatorValue.present else none) = some value → value = .present := by
    rintro (_ | _) ⟨⟩
    rfl
  cases key with
  | comparison | pattern =>
      obtain ⟨operand, -, rfl⟩ := Option.map_eq_some_iff.1 h
      have hread := Operand.decodeOptional_toJson (hcontents operand List.mem_cons_self)
      simp only [KeyReader.read, jsonKeys, OperatorValue.toJson, hread, Except.map, Option.map_some]
  | oneOf | noneOf =>
      obtain ⟨operands, -, rfl⟩ := Option.map_eq_some_iff.1 h
      have hread : (operands.map Operand.toJson).mapM Operand.ofJson = .ok operands :=
        Operand.mapM_ofJson_toJson hcontents
      simp only [KeyReader.read, jsonKeys, OperatorValue.toJson, decodeOptional, decodeOperands,
        Json.asList, hread, bind, Except.bind, pure, Except.pure, Except.map, Option.map_some]
  | isNull | isNotNull | flag =>
      obtain rfl := hpresent h
      rfl

/-! ## Sets -/

/-- The keys that are present, spelled with their values. -/
def fields (set : OperatorSet) : List (String × Json) :=
  set.entries.map fun entry => (entry.1.name, entry.2.toJson)

/-- An operator set in JSON, what is absent left out. -/
def toJson (set : OperatorSet) : Json := .ofFields set.fields

/-- A set all of whose operands have a spelling. -/
def Spellable (set : OperatorSet) : Prop :=
  ∀ entry ∈ set.entries, ∀ operand ∈ entry.2.contents, operand.isSpellable = true

instance (set : OperatorSet) : Decidable set.Spellable :=
  inferInstanceAs (Decidable (∀ entry ∈ set.entries, _))

theorem mem_entries_iff : (key, value) ∈ set.entries ↔ set.value? key = some value := by
  rw [entries, List.mem_filterMap]
  constructor
  · rintro ⟨key, -, h⟩
    obtain ⟨value, hvalue, heq⟩ := Option.map_eq_some_iff.1 h
    obtain ⟨rfl, rfl⟩ := Prod.mk.inj heq
    exact hvalue
  · exact fun h => ⟨key, OperatorKey.mem_all key, by rw [h]; rfl⟩

theorem names_fields (set : OperatorSet) :
    set.fields.map Prod.fst = (set.entries.map Prod.fst).map OperatorKey.name := by
  rw [fields, List.map_map, List.map_map]
  rfl

theorem nodup_names_fields (set : OperatorSet) : (set.fields.map Prod.fst).Nodup := by
  have hsublist : ∀ keys : List OperatorKey, ((keys.filterMap fun key =>
      (set.value? key).map fun value => (key, value)).map Prod.fst).Sublist keys := by
    intro keys
    induction keys with
    | nil => exact .slnil
    | cons key keys ih =>
        cases hvalue : set.value? key with
        | none =>
            rw [List.filterMap_cons_none (by rw [hvalue]; rfl)]
            exact ih.cons key
        | some value =>
            rw [List.filterMap_cons_some (by rw [hvalue]; rfl)]
            exact ih.cons_cons key
  rw [names_fields]
  exact ((hsublist OperatorKey.all).nodup OperatorKey.nodup_all).map OperatorKey.name_injective

/-- A key is spelled exactly if it is present. -/
theorem lookup_fields (set : OperatorSet) (key : OperatorKey) :
    (Keyed.ofList set.fields).lookup key.name = (set.value? key).map OperatorValue.toJson := by
  rw [Keyed.lookup_ofList set.nodup_names_fields]
  refine Option.ext fun json => ?_
  rw [Keyed.lookup_eq_some_iff_mem set.nodup_names_fields, Option.map_eq_some_iff, fields,
    List.mem_map]
  constructor
  · rintro ⟨⟨other, value⟩, hentry, heq⟩
    obtain ⟨hname, rfl⟩ := Prod.mk.inj heq
    obtain rfl := OperatorKey.name_injective hname
    exact ⟨value, mem_entries_iff.1 hentry, rfl⟩
  · rintro ⟨value, hvalue, rfl⟩
    exact ⟨(key, value), mem_entries_iff.2 hvalue, rfl⟩

/-- The object that spells an operator set denotes it, wherever its keys are known. -/
theorem decode_toJson {keys : List OperatorKey} {shape : String} (h : set.Spellable)
    (hkeys : ∀ key value, set.value? key = some value → key ∈ keys) :
    decode keys shape set.toJson = .ok set := by
  refine (decode_object_eq_ok_iff (Keyed.nodup_ofList _)).2 ⟨?_, ?_, ?_⟩
  · intro name hname
    rw [Keyed.mem_names_ofList set.nodup_names_fields, names_fields, List.map_map] at hname
    obtain ⟨⟨key, value⟩, hentry, rfl⟩ := List.mem_map.1 hname
    exact List.mem_map_of_mem (hkeys key value (mem_entries_iff.1 hentry))
  · intro key _ json hjson
    rw [lookup_fields] at hjson
    obtain ⟨value, hvalue, rfl⟩ := Option.map_eq_some_iff.1 hjson
    rw [hvalue]
    exact read_toJson hvalue (h (key, value) (mem_entries_iff.2 hvalue))
  · intro key hkey
    rw [Option.eq_none_iff_forall_ne_some]
    intro value hvalue
    have hmissing := hkey (hkeys key value hvalue)
    rw [lookup_fields, hvalue] at hmissing
    cases hmissing

theorem ofJson_toJson (h : set.Spellable) : OperatorSet.ofJson set.toJson = .ok set :=
  decode_toJson h fun key _ _ => OperatorKey.mem_all key

end OperatorSet

/-- The operators of a date column are spelled by the keys of dates. -/
theorem DateOperatorSet.ofJson_toJson {set : DateOperatorSet} (h : set.operators.Spellable) :
    DateOperatorSet.ofJson set.operators.toJson = .ok set := by
  refine Checked.bind_eq_ok_iff.2 ⟨set.operators, OperatorSet.decode_toJson h ?_, rfl⟩
  intro key value hvalue
  cases key with
  | comparison c => cases c <;> decide
  | oneOf | noneOf | isNull | isNotNull => decide
  | pattern p => cases p <;> cases hvalue
  | flag f => cases f <;> cases hvalue

end TableQuery
