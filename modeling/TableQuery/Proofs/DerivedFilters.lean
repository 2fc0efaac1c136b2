import TableQuery.Descriptor.FilterPlan
import TableQuery.Proofs.OperatorSpelling
import TableQuery.Registry

/-!
# Declared records and registered fields

There are two ways to let clients filter: a declared type, whose records become filters by a plan,
and a registry, which reads filters out of JSON.  Both go through the leaves in the order of their
declaration, then through the group all of whose members hold, then through the other one, at every
depth.  Here they are shown to agree: a record becomes the filter that its spelling is read as, and
where the operands of a date are at fault, both stop at the same field with the same error.  Only a
kind of operand that is no date is a fault of trusted code in a record and one of the client in
JSON.

The induction is on the record.  What it carries through both walks is `AgreeUpTo`: equal results,
or a fault located at a field that the reader of JSON renames by this field.

## Main results

* `FilterRecord.FaultAt` — where the walk over a record stops.
* `parseNode_spell` — the two walks agree on an object at any depth.
* `declared_and_registered_agree` — a record and its spelling become the same filter.
-/

namespace TableQuery

/-! ## Operators of a leaf -/

namespace LeafOperators

/-- The kind of a field that asks for these operators. -/
def kind : LeafOperators → FieldKind
  | generic _ => .generic
  | date _ => .date

/-- The operators with their operands as they are. -/
def operators : LeafOperators → OperatorSet
  | generic set => set
  | date set => set.operators

/-- The operators in JSON. -/
def toJson (leaf : LeafOperators) : Json := leaf.operators.toJson

end LeafOperators

/-- An error as a client of a field sees it: the wrong kind of operand is a fault of this field. -/
def QueryError.inField (field : String) : QueryError → QueryError
  | .unsupportedDateValue operator kind =>
    .unsupportedField field s!"{operator} expects a date string, got {kind}"
  | error => error

/-- A field reads the spelling of its operators as a record reads the operators themselves. -/
theorem Registry.parseOperators_toJson {field : FilterField} {leaf : LeafOperators}
    (hkind : leaf.kind = field.kind) (hspellable : leaf.operators.Spellable) :
    parseOperators field leaf.toJson =
      (leaf.toGeneric.mapError (QueryError.inField field.name)).map some := by
  cases leaf with
  | generic set =>
      have hread : OperatorSet.ofJson (.object _) = .ok set := OperatorSet.ofJson_toJson hspellable
      rw [LeafOperators.toJson, OperatorSet.toJson, Json.ofFields, parseOperators, ← hkind]
      simp only [LeafOperators.kind, LeafOperators.operators, hread]
      rfl
  | date set =>
      have hread : DateOperatorSet.ofJson (.object _) = .ok set :=
        DateOperatorSet.ofJson_toJson hspellable
      rw [LeafOperators.toJson, OperatorSet.toJson, Json.ofFields, parseOperators, ← hkind]
      simp only [LeafOperators.kind, LeafOperators.operators, parseDates, hread,
        LeafOperators.toGeneric]
      cases set.toGeneric with
      | ok operators => rfl
      | error error => cases error <;> rfl

/-! ## Records and their spelling -/

/-- The field of a record that a registered name stands for. -/
def FilterField.leaf (field : FilterField) : LeafField := ⟨field.name, field.column⟩

@[simp] theorem FilterField.name_leaf (field : FilterField) : field.leaf.name = field.name := rfl

/-- `registry.Mirrors plan` holds if the names that a registry knows are the fields of a declared
type that ask something of a column, in the same order; the keys of groups are none of them. -/
structure Registry.Mirrors (registry : Registry) (plan : FilterPlan) : Prop where
  leaves : registry.filters.map FilterField.leaf = plan.leaves
  distinct : registry.filterNames.Nodup
  reserved : ∀ junction, groupKey junction ∉ registry.filterNames

/-- `record.Fits registry plan` holds if a record and its members at any depth are of the type of a
plan, their fields have operators of the registered kinds, and all operands have a spelling. -/
inductive FilterRecord.Fits (registry : Registry) (plan : FilterPlan) : FilterRecord → Prop where
  | record {operators : List (String × LeafOperators)} {groups : List (String × List FilterRecord)}
      (hleaves : ∀ field ∈ registry.filters, ∀ leaf, operators.lookup field.name = some leaf →
        leaf.kind = field.kind ∧ leaf.operators.Spellable)
      (hmembers : ∀ group ∈ groups, ∀ member ∈ group.2, Fits registry plan member) :
      Fits registry plan (.record plan operators groups)

namespace FilterPlan

/-- The fields of a record that are set, with their operators in JSON. -/
def leafEntries (operators : List (String × LeafOperators)) (leaves : List LeafField) :
    List (String × Json) :=
  leaves.filterMap fun field =>
    (operators.lookup field.name).map fun leaf => (field.name, leaf.toJson)

/-- A group that is set, under its key. -/
def groupEntries (junction : Junction) (members : Option (List Json)) : List (String × Json) :=
  (members.map fun members => (Registry.groupKey junction, .list members)).toList

end FilterPlan

namespace FilterRecord

open FilterPlan

mutual

/-- The object that spells a record, what is absent left out. A filter that is ready has none. -/
def spell : FilterRecord → Json
  | .record plan operators groups =>
    .ofFields (leafEntries operators plan.leaves ++
      groupEntries .all (spellGroup plan.all groups) ++
      groupEntries .any (spellGroup plan.any groups))
  | .ready _ => .null

/-- The members that the field of a group holds, if it is set. -/
def spellGroup (name : Option String) : List (String × List FilterRecord) → Option (List Json)
  | [] => none
  | (field, members) :: rest =>
    if some field = name then some (spellMembers members) else spellGroup name rest

/-- The objects that spell some records. -/
def spellMembers : List FilterRecord → List Json
  | [] => []
  | member :: rest => spell member :: spellMembers rest

end

end FilterRecord

/-! ## Faults -/

/-- `LeafFaultAt operators leaves field error` holds if `field` is the first field of a record whose
operators cannot be read, and `error` is what is wrong with them. -/
inductive FilterPlan.LeafFaultAt (operators : List (String × LeafOperators)) :
    List LeafField → String → QueryError → Prop where
  | intro (before : List LeafField) (field : LeafField) (after : List LeafField)
      {leaf : LeafOperators} {error : QueryError}
      (hbefore : ∀ earlier ∈ before, ∀ leaf, operators.lookup earlier.name = some leaf →
        ∃ set, leaf.toGeneric = .ok set)
      (hleaf : operators.lookup field.name = some leaf) (herror : leaf.toGeneric = .error error) :
      LeafFaultAt operators (before ++ field :: after) field.name error

/-- `record.FaultAt field error` holds if the walk over a record stops at `field`, of the
record itself or of a member at any depth, since its operators cannot be read: all leaves come
before all members, and the members that all have to hold before the others. -/
inductive FilterRecord.FaultAt : FilterRecord → String → QueryError → Prop where
  | leaf {plan : FilterPlan} {operators : List (String × LeafOperators)}
      {groups : List (String × List FilterRecord)} {field : String} {error : QueryError}
      (h : FilterPlan.LeafFaultAt operators plan.leaves field error) :
      FaultAt (.record plan operators groups) field error
  | member {plan : FilterPlan} {operators : List (String × LeafOperators)}
      {groups : List (String × List FilterRecord)} {junction : Junction} {name : String}
      {before after : List FilterRecord} {member : FilterRecord} {field : String}
      {error : QueryError}
      (hleaves : ∃ filters, FilterPlan.leafFilters operators plan.leaves = .ok filters)
      (hall : junction = .any → ∃ filters, groupFilters plan.all groups = .ok filters)
      (hname : plan.group? junction = some name)
      (hmembers : groups.lookup name = some (before ++ member :: after))
      (hbefore : ∀ earlier ∈ before, ∃ filter, earlier.toFilter = .ok filter)
      (h : FaultAt member field error) : FaultAt (.record plan operators groups) field error

/-! ## Agreement -/

/-- Two computations agree up to the fields of faults if the second one gives the result of the
first in another form, or if the first one stops at a field and the second one with the error that a
client of this field sees. -/
inductive AgreeUpTo (faultAt : String → QueryError → Prop) {α β : Type} (form : α → β) :
    Except QueryError α → Except QueryError β → Prop where
  | ok (a : α) : AgreeUpTo faultAt form (.ok a) (.ok (form a))
  | error {field : String} {error : QueryError} (h : faultAt field error) :
      AgreeUpTo faultAt form (.error error) (.error (error.inField field))

namespace AgreeUpTo

variable {α β γ δ : Type} {faultAt faultAt' : String → QueryError → Prop} {form : α → β}
  {x : Except QueryError α} {y : Except QueryError β}

theorem imp (h : AgreeUpTo faultAt form x y)
    (himp : ∀ field error, faultAt field error → faultAt' field error) :
    AgreeUpTo faultAt' form x y := by
  cases h with
  | ok a => exact .ok a
  | error hfault => exact .error (himp _ _ hfault)

/-- Sequences agree if their first steps do, and their second ones on the result of the first. -/
theorem bind {form' : γ → δ} {f : α → Except QueryError γ} {g : β → Except QueryError δ}
    (hxy : AgreeUpTo faultAt form x y)
    (hfg : ∀ a, x = .ok a → AgreeUpTo faultAt form' (f a) (g (form a))) :
    AgreeUpTo faultAt form' (x >>= f) (y >>= g) := by
  cases hxy with
  | ok a => exact hfg a rfl
  | error hfault => exact .error hfault

end AgreeUpTo

/-! ## Leaves -/

namespace FilterPlan

variable {operators : List (String × LeafOperators)}

/-- What stops the walk later on stops it if the first field can be read. -/
theorem LeafFaultAt.cons {first : LeafField} {leaves : List LeafField} {field : String}
    {error : QueryError} (h : LeafFaultAt operators leaves field error)
    (hfirst : ∀ leaf, operators.lookup first.name = some leaf → ∃ set, leaf.toGeneric = .ok set) :
    LeafFaultAt operators (first :: leaves) field error := by
  obtain ⟨before, field, after, hbefore, hleaf, herror⟩ := h
  exact .intro (first :: before) field after (List.forall_mem_cons.2 ⟨hfirst, hbefore⟩) hleaf herror

/-- The operators of a leaf are read in a record as their spelling is by a registry. -/
theorem agree_leaf {leaf : LeafOperators} {field : FilterField} (hkind : leaf.kind = field.kind)
    (hspellable : leaf.operators.Spellable) :
    AgreeUpTo (fun name error => name = field.name ∧ leaf.toGeneric = .error error) id
      (leaf.toGeneric.map some) (Registry.parseOperators field leaf.toJson) := by
  rw [Registry.parseOperators_toJson hkind hspellable]
  cases hset : leaf.toGeneric with
  | ok set => exact .ok (some set)
  | error error => exact .error ⟨rfl, rfl⟩

/-- The leaves of a record are walked as the fields that spell them are. -/
theorem agree_leaves {filters : List FilterField} {fields : List (String × Json)}
    (hlookup : ∀ field ∈ filters,
      fields.lookup field.name = (operators.lookup field.name).map LeafOperators.toJson)
    (hfits : ∀ field ∈ filters, ∀ leaf, operators.lookup field.name = some leaf →
      leaf.kind = field.kind ∧ leaf.operators.Spellable) :
    AgreeUpTo (LeafFaultAt operators (filters.map FilterField.leaf)) id
      (leafFilters operators (filters.map FilterField.leaf))
      (Registry.parseLeaves fields filters) := by
  induction filters with
  | nil => exact .ok []
  | cons field filters ih =>
      obtain ⟨hfield, hrest⟩ := List.forall_mem_cons.1 hlookup
      obtain ⟨hfirst, hfits⟩ := List.forall_mem_cons.1 hfits
      have hwalk := ih hrest hfits
      rw [List.map_cons, leafFilters, Registry.parseLeaves, hfield, FilterField.name_leaf]
      cases hleaf : operators.lookup field.name with
      | none =>
          refine (hwalk.imp fun name error hfault => ?_).bind fun leaves _ => .ok leaves
          exact hfault.cons fun leaf h => nomatch hleaf.symm.trans h
      | some leaf =>
          obtain ⟨hkind, hspellable⟩ := hfirst leaf hleaf
          refine ((agree_leaf hkind hspellable).imp ?_).bind fun set? hset => ?_
          · rintro _ error ⟨rfl, herror⟩
            exact .intro [] field.leaf (filters.map FilterField.leaf) (by simp) hleaf herror
          · refine (hwalk.imp fun name error hfault => ?_).bind fun leaves _ => .ok _
            refine hfault.cons fun leaf' h => ?_
            obtain rfl := Option.some.inj (hleaf.symm.trans h)
            obtain ⟨set, hset, -⟩ := Checked.map_eq_ok_iff.1 hset
            exact ⟨set, hset⟩

/-! ## Fields of the spelling -/

/-- Looking a name up among the leaves of a spelling. -/
theorem lookup_leafEntries (operators : List (String × LeafOperators)) (leaves : List LeafField)
    (name : String) :
    (leafEntries operators leaves).lookup name =
      if name ∈ leaves.map LeafField.name then (operators.lookup name).map LeafOperators.toJson
      else none := by
  induction leaves with
  | nil => rfl
  | cons field leaves ih =>
      simp only [List.map_cons, List.mem_cons]
      cases hleaf : operators.lookup field.name with
      | none =>
          rw [leafEntries, List.filterMap_cons_none (by rw [hleaf]; rfl), ← leafEntries, ih]
          by_cases hname : name = field.name
          · rw [hname, hleaf, if_pos (Or.inl rfl)]
            exact ite_self _
          · simp only [hname, false_or]
      | some leaf =>
          rw [leafEntries, List.filterMap_cons_some (by rw [hleaf]; rfl), ← leafEntries,
            Keyed.lookup_cons_eq_if, ih]
          by_cases hname : name = field.name
          · rw [if_pos hname, if_pos (Or.inl hname), hname, hleaf]
            rfl
          · simp only [hname, if_false, false_or]

theorem names_leafEntries_sublist (operators : List (String × LeafOperators))
    (leaves : List LeafField) :
    ((leafEntries operators leaves).map Prod.fst).Sublist (leaves.map LeafField.name) := by
  induction leaves with
  | nil => exact .slnil
  | cons field leaves ih =>
      cases hleaf : operators.lookup field.name with
      | none =>
          rw [leafEntries, List.filterMap_cons_none (by rw [hleaf]; rfl)]
          exact ih.cons field.name
      | some leaf =>
          rw [leafEntries, List.filterMap_cons_some (by rw [hleaf]; rfl)]
          exact ih.cons_cons field.name

theorem lookup_groupEntries (junction : Junction) (members : Option (List Json)) (name : String) :
    (groupEntries junction members).lookup name =
      if name = Registry.groupKey junction then members.map Json.list else none := by
  cases members with
  | none => exact (ite_self _).symm
  | some members => exact Keyed.lookup_cons_eq_if name _ []

theorem names_groupEntries_sublist (junction : Junction) (members : Option (List Json)) :
    ((groupEntries junction members).map Prod.fst).Sublist [Registry.groupKey junction] := by
  cases members with
  | none => exact List.nil_sublist _
  | some members => exact .refl _

/-- The fields of the object that spells a record, by the leaves and members that are spelled. -/
def spelledFields (plan : FilterPlan) (operators : List (String × LeafOperators))
    (all any : Option (List Json)) : List (String × Json) :=
  leafEntries operators plan.leaves ++ groupEntries .all all ++ groupEntries .any any

end FilterPlan

section Spelling

variable {plan : FilterPlan} {registry : Registry} {operators : List (String × LeafOperators)}
  {all any : Option (List Json)}

theorem Registry.Mirrors.names_leaves (hmirrors : registry.Mirrors plan) :
    plan.leaves.map LeafField.name = registry.filterNames := by
  rw [← hmirrors.leaves, List.map_map]
  rfl

theorem Registry.Mirrors.nodup_spelledFields (hmirrors : registry.Mirrors plan) :
    ((plan.spelledFields operators all any).map Prod.fst).Nodup := by
  have hnames : (registry.filterNames ++ [groupKey .all] ++ [groupKey .any]).Nodup := by
    rw [List.append_assoc]
    refine hmirrors.distinct.append (by decide) ?_
    rintro name hname (_ | ⟨_, _ | ⟨_, ⟨⟩⟩⟩)
    · exact hmirrors.reserved .all hname
    · exact hmirrors.reserved .any hname
  have hleaves := FilterPlan.names_leafEntries_sublist operators plan.leaves
  rw [hmirrors.names_leaves] at hleaves
  rw [FilterPlan.spelledFields, List.map_append, List.map_append]
  exact ((hleaves.append (FilterPlan.names_groupEntries_sublist .all all)).append
    (FilterPlan.names_groupEntries_sublist .any any)).nodup hnames

/-- A registered field is spelled as its operators are. -/
theorem Registry.Mirrors.lookup_leaf (hmirrors : registry.Mirrors plan) {field : FilterField}
    (hfield : field ∈ registry.filters) :
    (Keyed.ofList (plan.spelledFields operators all any)).lookup field.name =
      (operators.lookup field.name).map LeafOperators.toJson := by
  have hname : field.name ∈ registry.filterNames := List.mem_map_of_mem hfield
  have hreserved : ∀ junction, field.name ≠ groupKey junction :=
    fun junction heq => hmirrors.reserved junction (heq ▸ hname)
  rw [Keyed.lookup_ofList hmirrors.nodup_spelledFields, FilterPlan.spelledFields,
    List.lookup_append, List.lookup_append, FilterPlan.lookup_leafEntries, hmirrors.names_leaves,
    if_pos hname, FilterPlan.lookup_groupEntries, FilterPlan.lookup_groupEntries,
    if_neg (hreserved .all), if_neg (hreserved .any), Option.or_none, Option.or_none]

/-- A group is spelled as its members are. -/
theorem Registry.Mirrors.lookup_group (hmirrors : registry.Mirrors plan) (junction : Junction) :
    (Keyed.ofList (plan.spelledFields operators all any)).lookup (groupKey junction) =
      (match junction with | .all => all | .any => any).map Json.list := by
  rw [Keyed.lookup_ofList hmirrors.nodup_spelledFields, FilterPlan.spelledFields,
    List.lookup_append, List.lookup_append, FilterPlan.lookup_leafEntries, hmirrors.names_leaves,
    if_neg (hmirrors.reserved junction), FilterPlan.lookup_groupEntries,
    FilterPlan.lookup_groupEntries]
  cases junction with
  | all => rw [if_pos rfl, if_neg (by decide), Option.none_or, Option.or_none]
  | any => rw [if_neg (by decide), if_pos rfl, Option.none_or, Option.none_or]

end Spelling

/-! ## Members -/

/-- Looking a group up by its key, which is how its members are found. -/
theorem Registry.parseGroup_eq (registry : Registry) (junction : Junction)
    (fields : List (String × Json)) :
    registry.parseGroup junction fields =
      match fields.lookup (groupKey junction) with
      | none => .ok []
      | some value => registry.parseGroupValue junction value := by
  induction fields with
  | nil => rfl
  | cons field fields ih =>
      obtain ⟨name, value⟩ := field
      rw [parseGroup, Keyed.lookup_cons_eq_if]
      by_cases hname : name = groupKey junction
      · rw [if_pos hname, if_pos hname.symm]
      · rw [if_neg hname, if_neg (Ne.symm hname), ih]

namespace FilterRecord

theorem spellMembers_eq_map (members : List FilterRecord) :
    spellMembers members = members.map spell := by
  induction members with
  | nil => rfl
  | cons member members ih => rw [spellMembers, ih, List.map_cons]

/-- The members of a group, if its field is set. -/
def members? (name : Option String) (groups : List (String × List FilterRecord)) :
    Option (List FilterRecord) :=
  name.bind fun name => groups.lookup name

theorem members?_cons (name : Option String) (group : String × List FilterRecord)
    (groups : List (String × List FilterRecord)) :
    members? name (group :: groups) =
      if some group.1 = name then some group.2 else members? name groups := by
  cases name with
  | none => rfl
  | some name =>
      show (group :: groups).lookup name = _
      rw [Keyed.lookup_cons_eq_if]
      by_cases hname : name = group.1
      · rw [if_pos hname, if_pos (congrArg some hname.symm)]
      · rw [if_neg hname, if_neg fun heq => hname (Option.some.inj heq).symm]
        rfl

theorem spellGroup_eq (name : Option String) (groups : List (String × List FilterRecord)) :
    spellGroup name groups = (members? name groups).map (List.map spell) := by
  induction groups with
  | nil => cases name <;> rfl
  | cons group groups ih =>
      rw [spellGroup, members?_cons, ih, spellMembers_eq_map]
      split <;> rfl

theorem groupFilters_eq (name : Option String) (groups : List (String × List FilterRecord)) :
    groupFilters name groups =
      match members? name groups with
      | none => .ok []
      | some members => memberFilters members := by
  induction groups with
  | nil => cases name <;> rfl
  | cons group groups ih =>
      rw [groupFilters, members?_cons, ih]
      split <;> rfl

/-- The members of a record are walked as the objects that spell them are, if each of them is. -/
theorem agree_members {registry : Registry} {members : List FilterRecord}
    (h : ∀ member ∈ members, AgreeUpTo member.FaultAt some member.toFilter
      (registry.parseNode member.spell)) :
    AgreeUpTo
      (fun field error => ∃ before member after, members = before ++ member :: after ∧
        (∀ earlier ∈ before, ∃ filter, earlier.toFilter = .ok filter) ∧
          member.FaultAt field error)
      id (memberFilters members) (registry.parseMembers (members.map spell)) := by
  induction members with
  | nil => exact .ok []
  | cons member members ih =>
      obtain ⟨hmember, hrest⟩ := List.forall_mem_cons.1 h
      rw [memberFilters, List.map_cons, Registry.parseMembers]
      refine (hmember.imp fun field error hfault => ?_).bind fun filter hfilter => ?_
      · exact ⟨[], member, members, rfl, by simp, hfault⟩
      · refine ((ih hrest).imp ?_).bind fun filters _ => .ok (filter :: filters)
        rintro field error ⟨before, later, after, rfl, hbefore, hfault⟩
        exact ⟨member :: before, later, after, rfl,
          List.forall_mem_cons.2 ⟨⟨filter, hfilter⟩, hbefore⟩, hfault⟩

/-- A group of a record is walked as the group that spells it is. -/
theorem agree_group {registry : Registry} {name : Option String}
    {groups : List (String × List FilterRecord)} {fields : List (String × Json)}
    {junction : Junction}
    (hlookup : fields.lookup (Registry.groupKey junction) = (spellGroup name groups).map Json.list)
    (h : ∀ group ∈ groups, ∀ member ∈ group.2, AgreeUpTo member.FaultAt some member.toFilter
      (registry.parseNode member.spell)) :
    AgreeUpTo
      (fun field error => ∃ before member after, members? name groups =
        some (before ++ member :: after) ∧
        (∀ earlier ∈ before, ∃ filter, earlier.toFilter = .ok filter) ∧
          member.FaultAt field error)
      id (groupFilters name groups) (registry.parseGroup junction fields) := by
  rw [Registry.parseGroup_eq, hlookup, spellGroup_eq, groupFilters_eq]
  cases hmembers : members? name groups with
  | none => exact .ok []
  | some members =>
      refine (agree_members fun member hmember => ?_).imp ?_
      · obtain ⟨name, -, hname⟩ := Option.bind_eq_some_iff.1 hmembers
        exact h _ (Keyed.mem_of_lookup_eq_some hname) member hmember
      · rintro field error ⟨before, member, after, rfl, hbefore, hfault⟩
        exact ⟨before, member, after, rfl, hbefore, hfault⟩

end FilterRecord

/-! ## Records -/

namespace FilterPlan

variable {plan : FilterPlan} {registry : Registry}

/-- The walk over a record and the reading of its spelling agree, at every depth. -/
theorem parseNode_spell (hmirrors : registry.Mirrors plan) {record : FilterRecord}
    (hfits : record.Fits registry plan) :
    AgreeUpTo record.FaultAt some record.toFilter (registry.parseNode record.spell) := by
  induction hfits with
  | @record operators groups hleaves _ ih =>
      have hfields : AgreeUpTo _ id _ (Registry.parseLeaves (Keyed.ofList
          (plan.spelledFields operators (FilterRecord.spellGroup plan.all groups)
            (FilterRecord.spellGroup plan.any groups))) registry.filters) :=
        agree_leaves (fun field hfield => hmirrors.lookup_leaf hfield) hleaves
      rw [hmirrors.leaves] at hfields
      rw [FilterRecord.toFilter, FilterRecord.spell, Json.ofFields, Registry.parseNode]
      refine (hfields.imp fun field error hfault => .leaf hfault).bind fun leaves hleaves => ?_
      refine ((FilterRecord.agree_group (hmirrors.lookup_group .all) ih).imp ?_).bind
        fun all hall => ?_
      · rintro field error ⟨before, member, after, hmembers, hbefore, hfault⟩
        obtain ⟨name, hname, hmembers⟩ := Option.bind_eq_some_iff.1 hmembers
        have hgroup : plan.group? .all = some name := hname
        refine .member ⟨leaves, hleaves⟩ ?_ hgroup hmembers hbefore hfault
        rintro ⟨⟩
      refine ((FilterRecord.agree_group (hmirrors.lookup_group .any) ih).imp ?_).bind
        fun any _ => .ok _
      · rintro field error ⟨before, member, after, hmembers, hbefore, hfault⟩
        obtain ⟨name, hname, hmembers⟩ := Option.bind_eq_some_iff.1 hmembers
        have hgroup : plan.group? .any = some name := hname
        exact .member ⟨leaves, hleaves⟩ (fun _ => ⟨all, hall⟩) hgroup hmembers hbefore hfault

/-- A record of a declared type and its spelling become the same filter.  Where the walk over the
record stops at a field, the reading of its spelling stops at the same field, with the error as a
client of this field sees it; and both compile to the same condition. -/
theorem declared_and_registered_agree (hmirrors : registry.Mirrors plan) {record : FilterRecord}
    (hfits : record.Fits registry plan) :
    (∀ filter, record.toFilter = .ok filter →
      registry.parseFilter record.spell = .ok (some filter)) ∧
    (∀ error, record.toFilter = .error error → ∃ field, record.FaultAt field error ∧
      registry.parseFilter record.spell = .error (error.inField field)) ∧
    ∀ condition,
      (registry.parseFilter record.spell >>= Filter.conditionOf?) = .ok condition ↔
        (record.toFilter >>= Filter.condition?) = .ok condition := by
  have hwalk := parseNode_spell hmirrors hfits
  have hread : registry.parseFilter record.spell = registry.parseNode record.spell := by
    cases hfits
    rfl
  rw [hread]
  generalize record.toFilter = x at hwalk ⊢
  generalize registry.parseNode record.spell = y at hwalk ⊢
  cases hwalk with
  | ok filter =>
      refine ⟨?_, fun _ h => (nomatch h), fun _ => .rfl⟩
      rintro _ ⟨⟩
      rfl
  | @error field error hfault =>
      refine ⟨fun _ h => (nomatch h), ?_, fun _ => ⟨fun h => (nomatch h), fun h => (nomatch h)⟩⟩
      rintro _ ⟨⟩
      exact ⟨field, hfault, rfl⟩

/-- A group of two members, of which the second one asks for a date: with a null check both walks go
through, with a number both stop at the field of the date. -/
theorem declared_and_registered_agree_in_group :
    let plan : FilterPlan := {
      leaves := [⟨"title", "t.title"⟩, ⟨"made", "t.created_at"⟩], any := some "either" }
    let registry := (({} : Registry).addFilter "title" "t.title" .generic).addFilter "made"
      "t.created_at" .date
    let title := OperatorSet.ofComparison .eq (.text "x")
    let record (set : DateOperatorSet) : FilterRecord :=
      .record plan [] [("either", [.record plan [("title", .generic title)] [],
        .record plan [("made", .date set)] []])]
    registry.parseFilter (record { isNull := true }).spell =
        .ok (some (.group .all [.group .any [.group .all [.leaf "t.title" title],
          .group .all [.leaf "t.created_at" { isNull := true }]]])) ∧
      (record { lt := some (.integer 5) }).FaultAt "made" (.unsupportedDateValue "lt" "integer") ∧
      registry.parseFilter (record { lt := some (.integer 5) }).spell =
        .error (.unsupportedField "made" "lt expects a date string, got integer") := by
  intro plan registry title record
  have hmirrors : registry.Mirrors plan := by
    refine ⟨rfl, by decide, ?_⟩
    rintro (_ | _) <;> decide
  have hnone : ∀ {group : String × List FilterRecord}, group ∈ [] →
      ∀ member ∈ group.2, FilterRecord.Fits registry plan member :=
    fun h => absurd h List.not_mem_nil
  have hfits : ∀ set : DateOperatorSet, set.operators.Spellable →
      (record set).Fits registry plan := by
    intro set hset
    refine .record ?_ (List.forall_mem_singleton.2 (List.forall_mem_cons.2
      ⟨.record ?_ fun _ => hnone, List.forall_mem_singleton.2 (.record ?_ fun _ => hnone)⟩))
    · exact fun _ _ _ hleaf => nomatch hleaf
    · rintro _ (_ | ⟨_, _ | ⟨_, ⟨⟩⟩⟩) leaf hleaf
      · obtain rfl := Option.some.inj hleaf
        exact ⟨rfl, by decide⟩
      · cases hleaf
    · rintro _ (_ | ⟨_, _ | ⟨_, ⟨⟩⟩⟩) leaf hleaf
      · cases hleaf
      · obtain rfl := Option.some.inj hleaf
        exact ⟨rfl, hset⟩
  obtain ⟨hfilter, -, -⟩ := declared_and_registered_agree hmirrors
    (hfits { isNull := true } (by decide))
  obtain ⟨-, herror, -⟩ := declared_and_registered_agree hmirrors
    (hfits { lt := some (.integer 5) } (by decide))
  have hmade : registry.parseFilter (record { lt := some (.integer 5) }).spell =
      .error (.unsupportedField "made" "lt expects a date string, got integer") := rfl
  obtain ⟨field, hfault, hread⟩ := herror (.unsupportedDateValue "lt" "integer") rfl
  obtain ⟨rfl, -⟩ := QueryError.unsupportedField.inj (Except.error.inj (hmade.symm.trans hread))
  exact ⟨hfilter _ rfl, hfault, hmade⟩

end FilterPlan

end TableQuery
