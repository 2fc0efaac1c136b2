import TableQuery.Json.Reader
import TableQuery.Proofs.NamedEntries

/-!
# Names of the fields of JSON objects

An object of JSON has each name once.  Whatever makes objects keeps to that: `Json.ofFields` lets a
later field replace an earlier one of its name, and the reader of JSON texts makes every object in
this way, at any depth.  So a field is found exactly if it is there, and it does not matter where
in the object it stands.

## Main results

* `Json.Distinct` — in every object of a value each name occurs once.
* `Json.Distinct.induction_members` — induction over objects in lists of each other.
* `Json.distinct_of_read?` — the values of JSON texts are such values.
-/

namespace TableQuery.Json

/-- `value.Distinct` holds if each name occurs once in every object of a value, at any depth. -/
inductive Distinct : Json → Prop where
  | null : Distinct null
  | boolean (value : Bool) : Distinct (boolean value)
  | integer (value : Int) : Distinct (integer value)
  | float (value : Numeral.Binary64) : Distinct (float value)
  | text (value : String) : Distinct (text value)
  | list {items : List Json} (hitems : ∀ item ∈ items, Distinct item) : Distinct (list items)
  | object {fields : List (String × Json)} (hnames : (fields.map Prod.fst).Nodup)
      (hfields : ∀ field ∈ fields, Distinct field.2) : Distinct (object fields)

attribute [simp] Distinct.null Distinct.boolean Distinct.integer Distinct.float Distinct.text

@[simp] theorem distinct_list {items : List Json} :
    (list items).Distinct ↔ ∀ item ∈ items, item.Distinct := by
  refine ⟨fun h => ?_, .list⟩
  cases h with
  | list hitems => exact hitems

@[simp] theorem distinct_object {fields : List (String × Json)} :
    (object fields).Distinct ↔
      (fields.map Prod.fst).Nodup ∧ ∀ field ∈ fields, field.2.Distinct := by
  refine ⟨fun h => ?_, fun h => .object h.1 h.2⟩
  cases h with
  | object hnames hfields => exact ⟨hnames, hfields⟩

theorem distinct_ofFields {fields : List (String × Json)}
    (h : ∀ field ∈ fields, field.2.Distinct) : (ofFields fields).Distinct := by
  refine .object (Keyed.nodup_ofList fields) fun field hfield => ?_
  exact h field (Keyed.mem_of_mem_ofList hfield)

theorem Distinct.item {fields : List (String × Json)} (h : (Json.object fields).Distinct)
    {name : String} {items : List Json} (hfield : (name, Json.list items) ∈ fields) {item : Json}
    (hitem : item ∈ items) : item.Distinct :=
  distinct_list.1 ((distinct_object.1 h).2 _ hfield) item hitem

/-- Induction over the objects that lie in lists of each other, as the members of groups do: what
holds of every value that is no object, and of an object if it holds of all that is in its lists,
holds of every value with distinct names. -/
@[elab_as_elim]
theorem Distinct.induction_members {motive : ∀ value : Json, value.Distinct → Prop}
    (other : ∀ value h, (∀ fields, value ≠ Json.object fields) → motive value h)
    (object : ∀ fields (h : (Json.object fields).Distinct),
      (∀ name items (hfield : (name, Json.list items) ∈ fields) item (hitem : item ∈ items),
        motive item (h.item hfield hitem)) → motive (Json.object fields) h)
    {value : Json} (h : value.Distinct) : motive value h := by
  suffices hitems : motive value h ∧
      ∀ items, value = Json.list items → ∀ item ∈ items, ∀ h, motive item h from hitems.1
  induction h with
  | null | boolean | integer | float | text => exact ⟨other _ _ (by simp), by simp⟩
  | list _ ih =>
      refine ⟨other _ _ (by simp), ?_⟩
      rintro _ ⟨⟩ item hitem _
      exact (ih item hitem).1
  | @object fields hnames hfields ih =>
      refine ⟨object fields _ fun name items hfield item hitem => ?_, by simp⟩
      exact (ih _ hfield).2 items rfl item hitem _

/-! ## Reading -/

variable {fuel depth : Nat} {chars rest : List Char}

theorem distinct_of_readWord {word : String} {constant value : Json}
    (h : readWord word constant chars = some (value, rest)) (hconstant : constant.Distinct) :
    value.Distinct := by
  rw [readWord] at h
  split at h
  · obtain ⟨rfl, -⟩ := Prod.mk.inj (Option.some.inj h)
    exact hconstant
  · cases h

theorem distinct_of_numberOfParts? {negative : Bool} {whole fraction : List Char}
    {exponent : Option Int} {value : Json}
    (h : numberOfParts? negative whole fraction exponent = some value) : value.Distinct := by
  unfold numberOfParts? at h
  extract_lets integer float at h
  split at h
  · obtain rfl := Option.some.inj h
    exact .integer _
  · split at h
    · obtain rfl := Option.some.inj h
      exact .float _
    · cases h

theorem distinct_of_readMagnitude {negative : Bool} {value : Json}
    (h : readMagnitude negative chars = some (value, rest)) : value.Distinct := by
  unfold readMagnitude at h
  simp only [Option.bind_eq_bind] at h
  split at h
  · cases h
  · obtain ⟨_, -, h⟩ := Option.bind_eq_some_iff.1 h
    obtain ⟨_, -, h⟩ := Option.bind_eq_some_iff.1 h
    obtain ⟨_, hvalue, h⟩ := Option.bind_eq_some_iff.1 h
    obtain ⟨rfl, -⟩ := Prod.mk.inj (Option.some.inj h)
    exact distinct_of_numberOfParts? hvalue

theorem distinct_of_readNumber {value : Json} (h : readNumber chars = some (value, rest)) :
    value.Distinct := by
  unfold readNumber at h
  split at h
  · exact distinct_of_readMagnitude h
  · exact distinct_of_readMagnitude h

/-- With one step more the reader makes a value out of a text, a number or a word, or out of the
items or the fields that it reads with the steps that are left. -/
theorem distinct_of_readValue_succ
    (hitems : ∀ {depth chars items rest}, readItems fuel depth chars = some (items, rest) →
      ∀ item ∈ items, item.Distinct)
    (hfields : ∀ {depth chars fields rest}, readFields fuel depth chars = some (fields, rest) →
      ∀ field ∈ fields, field.2.Distinct)
    {value : Json} (h : readValue (fuel + 1) depth chars = some (value, rest)) :
    value.Distinct := by
  unfold readValue at h
  split at h
  · obtain ⟨_, -, h⟩ := Option.map_eq_some_iff.1 h
    obtain ⟨rfl, -⟩ := Prod.mk.inj h
    exact .text _
  · split at h
    · cases h
    · obtain ⟨rfl, -⟩ := Prod.mk.inj (Option.some.inj h)
      exact .list (List.forall_mem_nil _)
    · obtain ⟨_, hread, h⟩ := Option.map_eq_some_iff.1 h
      obtain ⟨rfl, -⟩ := Prod.mk.inj h
      exact .list (hitems hread)
  · split at h
    · cases h
    · obtain ⟨rfl, -⟩ := Prod.mk.inj (Option.some.inj h)
      exact distinct_ofFields (List.forall_mem_nil _)
    · obtain ⟨_, hread, h⟩ := Option.map_eq_some_iff.1 h
      obtain ⟨rfl, -⟩ := Prod.mk.inj h
      exact distinct_ofFields (hfields hread)
  · exact distinct_of_readWord h .null
  · exact distinct_of_readWord h (.boolean true)
  · exact distinct_of_readWord h (.boolean false)
  · exact distinct_of_readNumber h

theorem distinct_of_readItems_succ
    (hvalue : ∀ {depth chars value rest}, readValue fuel depth chars = some (value, rest) →
      value.Distinct)
    (hitems : ∀ {depth chars items rest}, readItems fuel depth chars = some (items, rest) →
      ∀ item ∈ items, item.Distinct)
    {items : List Json} (h : readItems (fuel + 1) depth chars = some (items, rest)) :
    ∀ item ∈ items, item.Distinct := by
  unfold readItems at h
  obtain ⟨⟨item, rest⟩, hread, h⟩ := Option.bind_eq_some_iff.1 h
  dsimp only at h
  split at h
  · obtain ⟨_, hrest, h⟩ := Option.bind_eq_some_iff.1 h
    obtain ⟨rfl, -⟩ := Prod.mk.inj (Option.some.inj h)
    exact List.forall_mem_cons.2 ⟨hvalue hread, hitems hrest⟩
  · obtain ⟨rfl, -⟩ := Prod.mk.inj (Option.some.inj h)
    exact List.forall_mem_singleton.2 (hvalue hread)
  · cases h

theorem distinct_of_readFields_succ
    (hvalue : ∀ {depth chars value rest}, readValue fuel depth chars = some (value, rest) →
      value.Distinct)
    (hfields : ∀ {depth chars fields rest}, readFields fuel depth chars = some (fields, rest) →
      ∀ field ∈ fields, field.2.Distinct)
    {fields : List (String × Json)}
    (h : readFields (fuel + 1) depth chars = some (fields, rest)) :
    ∀ field ∈ fields, field.2.Distinct := by
  unfold readFields at h
  split at h
  · obtain ⟨⟨name, rest⟩, -, h⟩ := Option.bind_eq_some_iff.1 h
    dsimp only at h
    split at h
    · obtain ⟨⟨value, rest⟩, hread, h⟩ := Option.bind_eq_some_iff.1 h
      dsimp only at h
      split at h
      · obtain ⟨_, hrest, h⟩ := Option.bind_eq_some_iff.1 h
        obtain ⟨rfl, -⟩ := Prod.mk.inj (Option.some.inj h)
        exact List.forall_mem_cons.2 ⟨hvalue hread, hfields hrest⟩
      · obtain ⟨rfl, -⟩ := Prod.mk.inj (Option.some.inj h)
        exact List.forall_mem_singleton.2 (hvalue hread)
      · cases h
    · cases h
  · cases h

/-- However many steps the reader may take, it makes objects out of fields only. -/
theorem distinct_of_readValue (fuel : Nat) :
    (∀ {depth chars value rest}, readValue fuel depth chars = some (value, rest) →
      value.Distinct) ∧
    (∀ {depth chars items rest}, readItems fuel depth chars = some (items, rest) →
      ∀ item ∈ items, item.Distinct) ∧
    ∀ {depth chars fields rest}, readFields fuel depth chars = some (fields, rest) →
      ∀ field ∈ fields, field.2.Distinct := by
  induction fuel with
  | zero => exact ⟨fun h => (nomatch h), fun h => (nomatch h), fun h => (nomatch h)⟩
  | succ fuel ih =>
      obtain ⟨hvalue, hitems, hfields⟩ := ih
      exact ⟨distinct_of_readValue_succ hitems hfields, distinct_of_readItems_succ hvalue hitems,
        distinct_of_readFields_succ hvalue hfields⟩

/-- In every object of the value of a JSON text each name occurs once. -/
theorem distinct_of_read? {source : String} {value : Json}
    (h : read? depth source = some value) : value.Distinct := by
  unfold read? at h
  extract_lets chars at h
  split at h
  · next hread =>
      split at h
      · obtain rfl := Option.some.inj h
        exact (distinct_of_readValue _).1 hread
      · cases h
  · cases h

end TableQuery.Json
