import TableQuery.Proofs.JsonFields
import TableQuery.Proofs.RegisteredNames

/-!
# What the reader of filters passes over

A registry reads filters leniently: names that it does not know, fields and groups that are null,
members of groups that are no objects and groups without members count for nothing.  All this can
as well be deleted before reading, and `Registry.prune` says what is left then, at any depth of
groups.  Reading what is left gives the same filter or the same error.  What stands under the name
of a field is another matter: it is kept as it is, and there a key that is no operator is an error.

Both halves hold for objects in which each name occurs once.  Only then is what stands under a name
found again after the entries before it are gone.

## Main results

* `Registry.prune` — what is left of a value.
* `Registry.lookup_pruneFields` — what is found under a name in an object that is pruned.
* `Registry.parseNode_prune` — an object is read as what is left of it, at any depth.
* `Registry.parseFilter_prune` — reading is lenient exactly where pruning deletes.
-/

namespace TableQuery

/-- The keys of the operators that fields of a kind know. -/
def FieldKind.keys : FieldKind → List OperatorKey
  | .generic => OperatorKey.all
  | .date => OperatorKey.dateKeys

/-- All keys of an object that is read are operators. -/
theorem FieldKind.Denotes.known {kind : FieldKind} {fields : List (String × Json)}
    {set : OperatorSet} (h : kind.Denotes fields set) :
    ∀ name ∈ fields.map Prod.fst, name ∈ kind.keys.map OperatorKey.name := by
  have hdecode : ∀ {keys shape result},
      OperatorSet.decode keys shape (.object fields) = .ok result →
        ∀ name ∈ fields.map Prod.fst, name ∈ keys.map OperatorKey.name := by
    intro keys shape result hresult name hname
    rw [OperatorSet.decode] at hresult
    obtain ⟨entries, rfl, hentries, -⟩ := OperatorSet.decodeFields_eq_ok_iff.1 hresult
    rw [OperatorKey.names_fieldsOf, List.map_map] at hname
    obtain ⟨entry, hentry, rfl⟩ := List.mem_map.1 hname
    exact List.mem_map_of_mem (hentries entry hentry)
  cases kind with
  | generic => exact hdecode h
  | date =>
      obtain ⟨dates, hdates, -⟩ := h
      obtain ⟨result, hresult, -⟩ := Checked.bind_eq_ok_iff.1 hdates
      exact hdecode hresult

namespace Registry

variable {registry : Registry}

/-! ## Pruning -/

mutual

/-- What is left of the fields of an object. -/
def pruneFields (registry : Registry) : List (String × Json) → List (String × Json)
  | [] => []
  | (name, value) :: rest =>
    ((pruneValue? registry name value).map (name, ·)).toList ++ pruneFields registry rest

/-- What is left of the value of a field: nothing if the value is null, or if the name is neither
that of a field nor the key of a group; of the list of a group what is left of its members, if
something is; else all of it. -/
def pruneValue? (registry : Registry) (name : String) : Json → Option Json
  | .null => none
  | .list items =>
    if name = allKey ∨ name = anyKey then
      match pruneMembers registry items with
      | [] => none
      | member :: members => some (.list (member :: members))
    else if name ∈ registry.filterNames then some (.list items) else none
  | value =>
    if name = allKey ∨ name = anyKey ∨ name ∈ registry.filterNames then some value else none

/-- What is left of the members of a group: those that are objects, pruned themselves. -/
def pruneMembers (registry : Registry) : List Json → List Json
  | [] => []
  | member :: rest => (pruneMember? registry member).toList ++ pruneMembers registry rest

/-- What is left of a member of a group. -/
def pruneMember? (registry : Registry) : Json → Option Json
  | .object fields => some (.object (pruneFields registry fields))
  | _ => none

end

/-- What is left of a value. Only objects are pruned. -/
def prune (registry : Registry) : Json → Json
  | .object fields => .object (pruneFields registry fields)
  | value => value

theorem prune_of_not_object {value : Json} (hvalue : ∀ fields, value ≠ .object fields) :
    registry.prune value = value := by
  cases value with
  | object fields => exact absurd rfl (hvalue fields)
  | null | boolean | integer | float | text | list => rfl

theorem pruneFields_eq_filterMap (registry : Registry) (fields : List (String × Json)) :
    registry.pruneFields fields = fields.filterMap fun field =>
      (registry.pruneValue? field.1 field.2).map (field.1, ·) := by
  induction fields with
  | nil => rfl
  | cons field fields ih =>
      rw [pruneFields, ih, List.filterMap_cons]
      cases (registry.pruneValue? field.1 field.2) <;> rfl

theorem pruneMembers_eq_filterMap (registry : Registry) (members : List Json) :
    registry.pruneMembers members = members.filterMap registry.pruneMember? := by
  induction members with
  | nil => rfl
  | cons member members ih =>
      rw [pruneMembers, ih, List.filterMap_cons]
      cases registry.pruneMember? member <;> rfl

/-- The members that are left are the objects among them, each pruned. -/
theorem mem_pruneMembers_iff {members : List Json} {left : Json} :
    left ∈ registry.pruneMembers members ↔
      ∃ fields, .object fields ∈ members ∧ left = registry.prune (.object fields) := by
  rw [pruneMembers_eq_filterMap, List.mem_filterMap]
  constructor
  · rintro ⟨member, hmember, hleft⟩
    cases member with
    | object fields => exact ⟨fields, hmember, (Option.some.inj hleft).symm⟩
    | null | boolean | integer | float | text | list => cases hleft
  · rintro ⟨fields, hmember, rfl⟩
    exact ⟨_, hmember, rfl⟩

/-- Under a name there is what is left of what was there. -/
theorem lookup_pruneFields {fields : List (String × Json)} (hnames : (fields.map Prod.fst).Nodup)
    (name : String) :
    (registry.pruneFields fields).lookup name =
      (fields.lookup name).bind (registry.pruneValue? name) := by
  rw [pruneFields_eq_filterMap]
  exact Keyed.lookup_filterMap registry.pruneValue? hnames

/-! ## What is left under a name -/

@[simp] theorem pruneValue?_null (registry : Registry) (name : String) :
    registry.pruneValue? name .null = none := rfl

/-- What stands under the name of a field is kept as it is. -/
theorem pruneValue?_of_field {name : String} {value : Json} (hname : name ∈ registry.filterNames)
    (hkey : ∀ junction, name ≠ groupKey junction) (hvalue : value ≠ .null) :
    registry.pruneValue? name value = some value := by
  have hall : name ≠ allKey := hkey .all
  have hany : name ≠ anyKey := hkey .any
  cases value with
  | null => exact absurd rfl hvalue
  | list | object | boolean | integer | float | text => simp [pruneValue?, hname, hall, hany]

theorem groupKey_eq_or (junction : Junction) :
    groupKey junction = allKey ∨ groupKey junction = anyKey := by
  cases junction with
  | all => exact .inl rfl
  | any => exact .inr rfl

/-- Of a list under the key of a group its members are left, if there are any. -/
theorem pruneValue?_groupKey_list (registry : Registry) (junction : Junction)
    (members : List Json) :
    registry.pruneValue? (groupKey junction) (.list members) =
      if registry.pruneMembers members = [] then none
      else some (.list (registry.pruneMembers members)) := by
  rw [pruneValue?, if_pos (groupKey_eq_or junction)]
  cases registry.pruneMembers members <;> rfl

/-- Other values but null are kept under every name that the registry knows, for the reader to judge
them. -/
theorem pruneValue?_of_not_list (registry : Registry) (name : String) {value : Json}
    (hnull : value ≠ .null) (hlist : ∀ members, value ≠ .list members) :
    registry.pruneValue? name value =
      if name = allKey ∨ name = anyKey ∨ name ∈ registry.filterNames then some value else none := by
  cases value with
  | null => exact absurd rfl hnull
  | list members => exact absurd rfl (hlist members)
  | object | boolean | integer | float | text => rfl

theorem pruneValue?_groupKey_of_not_list (registry : Registry) (junction : Junction)
    {value : Json} (hnull : value ≠ .null) (hlist : ∀ members, value ≠ .list members) :
    registry.pruneValue? (groupKey junction) value = some value := by
  rw [pruneValue?_of_not_list registry _ hnull hlist,
    if_pos ((groupKey_eq_or junction).imp_right .inl)]

/-- What is found under the name of a field after pruning is what was there, unless that is null. -/
theorem lookup_pruneFields_field
    (hreserved : ∀ junction, groupKey junction ∉ registry.filterNames)
    {fields : List (String × Json)} (hnames : (fields.map Prod.fst).Nodup) {field : FilterField}
    (hfield : field ∈ registry.filters) {value : Json} :
    (registry.pruneFields fields).lookup field.name = some value ↔
      fields.lookup field.name = some value ∧ value ≠ .null := by
  have hname : field.name ∈ registry.filterNames := List.mem_map_of_mem hfield
  have hkey : ∀ junction, field.name ≠ groupKey junction :=
    fun junction heq => hreserved junction (heq ▸ hname)
  rw [lookup_pruneFields hnames, Option.bind_eq_some_iff]
  constructor
  · rintro ⟨found, hfound, hvalue⟩
    by_cases hnull : found = .null
    · rw [hnull, pruneValue?_null] at hvalue
      cases hvalue
    · rw [pruneValue?_of_field hname hkey hnull] at hvalue
      obtain rfl := Option.some.inj hvalue
      exact ⟨hfound, hnull⟩
  · rintro ⟨hfound, hnull⟩
    exact ⟨value, hfound, pruneValue?_of_field hname hkey hnull⟩

/-- A list that is left under the key of a group is what is left of a list, and not empty. -/
theorem pruneValue?_groupKey_eq_list_iff {junction : Junction} {value : Json} {left : List Json} :
    registry.pruneValue? (groupKey junction) value = some (.list left) ↔
      ∃ members, value = .list members ∧ registry.pruneMembers members = left ∧ left ≠ [] := by
  constructor
  · intro h
    cases value with
    | null => cases h
    | list members =>
        rw [pruneValue?_groupKey_list] at h
        split at h
        · cases h
        · next hnil =>
            cases h
            exact ⟨members, rfl, rfl, hnil⟩
    | object | boolean | integer | float | text =>
        rw [pruneValue?_groupKey_of_not_list registry junction (by simp) (by simp)] at h
        cases h
  · rintro ⟨members, rfl, rfl, hnil⟩
    rw [pruneValue?_groupKey_list, if_neg hnil]

/-- A list that is found under the key of a group after pruning is what is left of the one that was
there. -/
theorem lookup_pruneFields_group {fields : List (String × Json)}
    (hnames : (fields.map Prod.fst).Nodup) {junction : Junction} {left : List Json} :
    (registry.pruneFields fields).lookup (groupKey junction) = some (.list left) ↔
      ∃ members, fields.lookup (groupKey junction) = some (.list members) ∧
        registry.pruneMembers members = left ∧ left ≠ [] := by
  rw [lookup_pruneFields hnames, Option.bind_eq_some_iff]
  constructor
  · rintro ⟨value, hvalue, hleft⟩
    obtain ⟨members, rfl, hmembers⟩ := pruneValue?_groupKey_eq_list_iff.1 hleft
    exact ⟨members, hvalue, hmembers⟩
  · rintro ⟨members, hvalue, hmembers⟩
    exact ⟨_, hvalue, pruneValue?_groupKey_eq_list_iff.2 ⟨members, rfl, hmembers⟩⟩

/-! ## Reading -/

/-- The leaves of an object depend on what stands under the names of its fields, where null is as
good as nothing. -/
theorem parseLeaves_congr {fields left : List (String × Json)} {filters : List FilterField}
    (h : ∀ field ∈ filters, ∀ value, left.lookup field.name = some value ↔
      fields.lookup field.name = some value ∧ value ≠ .null) :
    parseLeaves left filters = parseLeaves fields filters := by
  induction filters with
  | nil => rfl
  | cons field filters ih =>
      obtain ⟨hfield, hfilters⟩ := List.forall_mem_cons.1 h
      have hnone : (∀ value, fields.lookup field.name = some value → value = .null) →
          left.lookup field.name = none := by
        intro hnull
        refine Option.eq_none_iff_forall_ne_some.2 fun value heq => ?_
        obtain ⟨hvalue, hne⟩ := (hfield value).1 heq
        exact hne (hnull value hvalue)
      rw [parseLeaves, parseLeaves, ih hfilters]
      cases hvalue : fields.lookup field.name with
      | none => rw [hnone (by simp [hvalue])]
      | some value =>
          by_cases hnull : value = .null
          · rw [hnone (by simp [hvalue, hnull]), hnull]
            rfl
          · rw [(hfield value).2 ⟨hvalue, hnull⟩]

/-- The members of a group are read as what is left of them. -/
theorem parseMembers_pruneMembers {members : List Json}
    (h : ∀ member ∈ members,
      registry.parseNode (registry.prune member) = registry.parseNode member) :
    registry.parseMembers (registry.pruneMembers members) = registry.parseMembers members := by
  induction members with
  | nil => rfl
  | cons member members ih =>
      obtain ⟨hmember, hmembers⟩ := List.forall_mem_cons.1 h
      rw [pruneMembers, parseMembers, ← ih hmembers, ← hmember]
      cases member with
      | object fields =>
          rw [pruneMember?, Option.toList_some, List.singleton_append, parseMembers]
          rfl
      | null | boolean | integer | float | text | list => exact (bind_pure _).symm

/-- A group is read as what is left of it. -/
theorem parseGroup_pruneFields (junction : Junction) {fields : List (String × Json)}
    (hnames : (fields.map Prod.fst).Nodup)
    (h : ∀ members, fields.lookup (groupKey junction) = some (.list members) →
      ∀ member ∈ members,
        registry.parseNode (registry.prune member) = registry.parseNode member) :
    registry.parseGroup junction (registry.pruneFields fields) =
      registry.parseGroup junction fields := by
  rw [parseGroup_eq, parseGroup_eq, lookup_pruneFields hnames]
  cases hvalue : fields.lookup (groupKey junction) with
  | none => rfl
  | some value =>
      rw [Option.bind_some]
      cases value with
      | null => rfl
      | list members =>
          have hmembers := parseMembers_pruneMembers (h members hvalue)
          rw [pruneValue?_groupKey_list]
          by_cases hnil : registry.pruneMembers members = []
          · rw [if_pos hnil]
            show .ok [] = registry.parseMembers members
            rw [← hmembers, hnil, parseMembers]
          · rw [if_neg hnil]
            exact hmembers
      | object | boolean | integer | float | text =>
          rw [pruneValue?_groupKey_of_not_list registry junction (by simp) (by simp)]

/-- An object is read as what is left of it, at any depth. -/
theorem parseNode_prune (hreserved : ∀ junction, groupKey junction ∉ registry.filterNames)
    {value : Json} (hdistinct : value.Distinct) :
    registry.parseNode (registry.prune value) = registry.parseNode value := by
  induction hdistinct using Json.Distinct.induction_members with
  | other value _ hvalue => rw [prune_of_not_object hvalue]
  | object fields hdistinct ih =>
      have hnames := (Json.distinct_object.1 hdistinct).1
      have hmembers : ∀ junction members,
          fields.lookup (groupKey junction) = some (.list members) → ∀ member ∈ members,
            registry.parseNode (registry.prune member) = registry.parseNode member :=
        fun junction members hvalue => ih _ members (Keyed.mem_of_lookup_eq_some hvalue)
      have hleaves : parseLeaves (registry.pruneFields fields) registry.filters =
          parseLeaves fields registry.filters :=
        parseLeaves_congr fun _ hfield _ => lookup_pruneFields_field hreserved hnames hfield
      rw [prune, parseNode, parseNode, hleaves, parseGroup_pruneFields .all hnames (hmembers .all),
        parseGroup_pruneFields .any hnames (hmembers .any)]

/-! ## Operators that are asked for -/

/-- `registry.Asks value field operators` holds if `operators` stands under the name of a registered
field in an object, or in a member of its groups, at any depth. -/
inductive Asks (registry : Registry) : Json → FilterField → Json → Prop where
  | field {fields : List (String × Json)} {field : FilterField} {operators : Json}
      (hfield : field ∈ registry.filters) (hvalue : fields.lookup field.name = some operators) :
      Asks registry (.object fields) field operators
  | member {fields : List (String × Json)} {junction : Junction} {members : List Json}
      {member : Json} {field : FilterField} {operators : Json}
      (hvalue : fields.lookup (groupKey junction) = some (.list members))
      (hmember : member ∈ members) (h : Asks registry member field operators) :
      Asks registry (.object fields) field operators

/-- Only objects ask for anything. -/
theorem Asks.exists_fields {value : Json} {field : FilterField} {operators : Json}
    (h : registry.Asks value field operators) : ∃ fields, value = .object fields := by
  cases h <;> exact ⟨_, rfl⟩

/-- After pruning the same operators are asked for, but for nulls. -/
theorem asks_prune_iff (hreserved : ∀ junction, groupKey junction ∉ registry.filterNames)
    {value : Json} (hdistinct : value.Distinct) {field : FilterField} {operators : Json} :
    registry.Asks (registry.prune value) field operators ↔
      registry.Asks value field operators ∧ operators ≠ .null := by
  induction hdistinct using Json.Distinct.induction_members with
  | other value _ hvalue =>
      have hnone : ¬ registry.Asks value field operators := by
        intro h
        obtain ⟨fields, heq⟩ := h.exists_fields
        exact hvalue fields heq
      rw [prune_of_not_object hvalue]
      exact ⟨fun h => absurd h hnone, And.left⟩
  | object fields hdistinct ih =>
      have hnames := (Json.distinct_object.1 hdistinct).1
      constructor
      · intro h
        cases h with
        | field hfield hvalue =>
            obtain ⟨hvalue, hoperators⟩ :=
              (lookup_pruneFields_field hreserved hnames hfield).1 hvalue
            exact ⟨.field hfield hvalue, hoperators⟩
        | member hleft hmember h =>
            obtain ⟨members, hvalue, rfl, -⟩ := (lookup_pruneFields_group hnames).1 hleft
            obtain ⟨fields, hobject, rfl⟩ := mem_pruneMembers_iff.1 hmember
            obtain ⟨h, hoperators⟩ :=
              (ih _ members (Keyed.mem_of_lookup_eq_some hvalue) _ hobject).1 h
            exact ⟨.member hvalue hobject h, hoperators⟩
      · rintro ⟨h, hoperators⟩
        cases h with
        | field hfield hvalue =>
            exact .field hfield
              ((lookup_pruneFields_field hreserved hnames hfield).2 ⟨hvalue, hoperators⟩)
        | @member _ junction members member _ _ hvalue hmember h =>
            have hleft := (ih _ members (Keyed.mem_of_lookup_eq_some hvalue) _ hmember).2
              ⟨h, hoperators⟩
            obtain ⟨inner, rfl⟩ := h.exists_fields
            have hmember : registry.prune (.object inner) ∈ registry.pruneMembers members :=
              mem_pruneMembers_iff.2 ⟨inner, hmember, rfl⟩
            refine .member ((lookup_pruneFields_group hnames).2 ⟨members, hvalue, rfl, ?_⟩)
              hmember hleft
            exact List.ne_nil_of_mem hmember

/-! ## Operators that are read -/

/-- Where the leaves of an object are read, what stands under the name of a field is. -/
theorem parseOperators_of_parseLeaves {fields : List (String × Json)}
    {filters : List FilterField} {leaves : List Filter}
    (h : parseLeaves fields filters = .ok leaves) {field : FilterField} (hfield : field ∈ filters)
    {operators : Json} (hvalue : fields.lookup field.name = some operators) :
    ∃ operators?, parseOperators field operators = .ok operators? := by
  induction filters generalizing leaves with
  | nil => exact absurd hfield List.not_mem_nil
  | cons first filters ih =>
      rw [parseLeaves] at h
      rcases List.mem_cons.1 hfield with rfl | hfield
      · rw [hvalue] at h
        obtain ⟨operators?, hoperators, -⟩ := Checked.bind_eq_ok_iff.1 h
        exact ⟨operators?, hoperators⟩
      · have hrest : ∃ rest, parseLeaves fields filters = .ok rest := by
          split at h
          all_goals
            obtain ⟨_, -, h⟩ := Checked.bind_eq_ok_iff.1 h
            obtain ⟨rest, hrest, -⟩ := Checked.bind_eq_ok_iff.1 h
            exact ⟨rest, hrest⟩
        obtain ⟨rest, hrest⟩ := hrest
        exact ih hrest hfield

/-- Where the members of a group are read, each of them is. -/
theorem parseNode_of_parseMembers {members : List Json} {filters : List Filter}
    (h : registry.parseMembers members = .ok filters) {member : Json} (hmember : member ∈ members) :
    ∃ filter?, registry.parseNode member = .ok filter? := by
  induction members generalizing filters with
  | nil => exact absurd hmember List.not_mem_nil
  | cons first members ih =>
      rw [parseMembers] at h
      obtain ⟨filter?, hfilter, h⟩ := Checked.bind_eq_ok_iff.1 h
      rcases List.mem_cons.1 hmember with rfl | hmember
      · exact ⟨filter?, hfilter⟩
      · obtain ⟨rest, hrest, -⟩ := Checked.bind_eq_ok_iff.1 h
        exact ih hrest hmember

/-- Where an object is read, its leaves and both of its groups are. -/
theorem parts_of_parseNode {fields : List (String × Json)} {filter? : Option Filter}
    (h : registry.parseNode (.object fields) = .ok filter?) :
    (∃ leaves, parseLeaves fields registry.filters = .ok leaves) ∧
      ∀ junction, ∃ members, registry.parseGroup junction fields = .ok members := by
  rw [parseNode] at h
  obtain ⟨leaves, hleaves, h⟩ := Checked.bind_eq_ok_iff.1 h
  obtain ⟨all, hall, h⟩ := Checked.bind_eq_ok_iff.1 h
  obtain ⟨any, hany, h⟩ := Checked.bind_eq_ok_iff.1 h
  refine ⟨⟨leaves, hleaves⟩, fun junction => ?_⟩
  cases junction with
  | all => exact ⟨all, hall⟩
  | any => exact ⟨any, hany⟩

/-- Where an object is read, all operators that are asked for in it are, at any depth. -/
theorem Asks.parseOperators {value : Json} {field : FilterField} {operators : Json}
    (h : registry.Asks value field operators) {filter? : Option Filter}
    (hread : registry.parseNode value = .ok filter?) :
    ∃ operators?, Registry.parseOperators field operators = .ok operators? := by
  induction h generalizing filter? with
  | field hfield hvalue =>
      obtain ⟨⟨leaves, hleaves⟩, -⟩ := parts_of_parseNode hread
      exact parseOperators_of_parseLeaves hleaves hfield hvalue
  | @member _ junction members _ _ _ hvalue hmember _ ih =>
      obtain ⟨filters, hfilters⟩ := (parts_of_parseNode hread).2 junction
      rw [parseGroup_eq, hvalue] at hfilters
      obtain ⟨filter?, hfilter⟩ := parseNode_of_parseMembers hfilters hmember
      exact ih hfilter

/-- A key that is no operator is an error wherever it is asked for. -/
theorem Asks.exists_error {value : Json} {field : FilterField} {operators : List (String × Json)}
    (h : registry.Asks value field (.object operators)) {name : String}
    (hname : name ∈ operators.map Prod.fst)
    (hunknown : name ∉ field.kind.keys.map OperatorKey.name) :
    ∃ error, registry.parseFilter value = .error error := by
  obtain ⟨fields, rfl⟩ := h.exists_fields
  rw [parseFilter]
  cases hread : registry.parseNode (.object fields) with
  | error error => exact ⟨error, rfl⟩
  | ok filter? =>
      obtain ⟨operators?, hoperators⟩ := h.parseOperators hread
      obtain ⟨set, hset, -⟩ := parseOperators_eq_ok_iff.1 hoperators
      exact absurd (hset.known name hname) hunknown

/-! ## What is left -/

/-- `registry.Pruned value` holds if there is nothing in a value, and in the members of its groups
at any depth, that the reader passes over. -/
inductive Pruned (registry : Registry) : Json → Prop where
  | other {value : Json} (hvalue : ∀ fields, value ≠ .object fields) : Pruned registry value
  | object {fields : List (String × Json)}
      (hknown : ∀ field ∈ fields,
        field.1 ∈ registry.filterNames ∨ ∃ junction, field.1 = groupKey junction)
      (hnull : ∀ field ∈ fields, field.2 ≠ .null)
      (hempty : ∀ junction, (groupKey junction, .list []) ∉ fields)
      (hobjects : ∀ junction members, (groupKey junction, .list members) ∈ fields →
        ∀ member ∈ members, ∃ inner, member = .object inner)
      (hmembers : ∀ junction members, (groupKey junction, .list members) ∈ fields →
        ∀ member ∈ members, Pruned registry member) :
      Pruned registry (.object fields)

/-- What pruning leaves under a name is no null, and the registry knows the name. -/
theorem known_of_pruneValue? {name : String} {value left : Json}
    (h : registry.pruneValue? name value = some left) :
    left ≠ .null ∧ (name ∈ registry.filterNames ∨ ∃ junction, name = groupKey junction) := by
  have hgroup : name = allKey ∨ name = anyKey → ∃ junction, name = groupKey junction :=
    fun hname => hname.elim (fun heq => ⟨.all, heq⟩) fun heq => ⟨.any, heq⟩
  cases value with
  | null => cases h
  | list members =>
      rw [pruneValue?] at h
      split at h
      · next hname =>
          refine ⟨?_, .inr (hgroup hname)⟩
          rintro rfl
          split at h <;> cases h
      · split at h
        · next hname =>
            cases h
            exact ⟨by simp, .inl hname⟩
        · cases h
  | object | boolean | integer | float | text =>
      rw [pruneValue?_of_not_list registry name (by simp) (by simp)] at h
      split at h
      · next hname =>
          cases h
          refine ⟨by simp, ?_⟩
          rw [← or_assoc] at hname
          exact hname.symm.imp_right hgroup
      · cases h

theorem mem_pruneFields_iff {fields : List (String × Json)} {name : String} {left : Json} :
    (name, left) ∈ registry.pruneFields fields ↔
      ∃ value, (name, value) ∈ fields ∧ registry.pruneValue? name value = some left := by
  rw [pruneFields_eq_filterMap, List.mem_filterMap]
  constructor
  · rintro ⟨⟨_, value⟩, hfield, h⟩
    obtain ⟨_, hleft, heq⟩ := Option.map_eq_some_iff.1 h
    obtain ⟨rfl, rfl⟩ := Prod.mk.inj heq
    exact ⟨value, hfield, hleft⟩
  · rintro ⟨value, hfield, hleft⟩
    exact ⟨_, hfield, by rw [hleft]; rfl⟩

/-- After pruning there is nothing left that the reader passes over. -/
theorem pruned_prune {value : Json} (hdistinct : value.Distinct) :
    registry.Pruned (registry.prune value) := by
  induction hdistinct using Json.Distinct.induction_members with
  | other value _ hvalue =>
      rw [prune_of_not_object hvalue]
      exact .other hvalue
  | object fields _ ih =>
      have hkept : ∀ field ∈ registry.pruneFields fields, field.2 ≠ .null ∧
          (field.1 ∈ registry.filterNames ∨ ∃ junction, field.1 = groupKey junction) := by
        rintro ⟨name, left⟩ hfield
        obtain ⟨value, -, hleft⟩ := mem_pruneFields_iff.1 hfield
        exact known_of_pruneValue? hleft
      -- A member of a group that is left is what is left of an object in this group.
      have hmember : ∀ {junction left},
          (groupKey junction, .list left) ∈ registry.pruneFields fields →
            left ≠ [] ∧ ∀ member ∈ left, ∃ inner, member = registry.prune (.object inner) ∧
              registry.Pruned member := by
        intro junction left hleft
        obtain ⟨value, hvalue, hleft⟩ := mem_pruneFields_iff.1 hleft
        obtain ⟨members, rfl, rfl, hnil⟩ := pruneValue?_groupKey_eq_list_iff.1 hleft
        refine ⟨hnil, fun member hmember => ?_⟩
        obtain ⟨inner, hinner, rfl⟩ := mem_pruneMembers_iff.1 hmember
        exact ⟨inner, rfl, ih _ members hvalue _ hinner⟩
      refine .object (fun field hfield => (hkept field hfield).2)
        (fun field hfield => (hkept field hfield).1) ?_ ?_ ?_
      · exact fun junction hfield => (hmember hfield).1 rfl
      · intro junction members hfield member hmem
        obtain ⟨inner, rfl, -⟩ := (hmember hfield).2 member hmem
        exact ⟨_, rfl⟩
      · intro junction members hfield member hmem
        obtain ⟨inner, -, hpruned⟩ := (hmember hfield).2 member hmem
        exact hpruned

/-- Reading a value and reading what is left of it after pruning give the same filter or the same
error.  Pruning leaves nothing that the reader passes over, and it leaves all operators that are
asked for as they are, but for nulls: in them a key that is no operator is an error, at any
depth. -/
theorem parseFilter_prune (hreserved : ∀ junction, groupKey junction ∉ registry.filterNames)
    {value : Json} (hdistinct : value.Distinct) :
    registry.parseFilter (registry.prune value) = registry.parseFilter value ∧
    registry.Pruned (registry.prune value) ∧
    (∀ field operators, registry.Asks (registry.prune value) field operators ↔
      registry.Asks value field operators ∧ operators ≠ .null) ∧
    ∀ field operators name, registry.Asks value field (.object operators) →
      name ∈ operators.map Prod.fst → name ∉ field.kind.keys.map OperatorKey.name →
        ∃ error, registry.parseFilter value = .error error := by
  refine ⟨?_, pruned_prune hdistinct, fun _ _ => asks_prune_iff hreserved hdistinct,
    fun _ _ _ h hname hunknown => h.exists_error hname hunknown⟩
  cases value with
  | object fields => exact parseNode_prune hreserved hdistinct
  | null | boolean | integer | float | text | list => rfl

/-- A group of a group has a null, a list and an object with a field; around it there are a name
that the registry does not know, null fields and groups that come out empty.  The field is what is
left, and its operators are read or refused. -/
theorem parseFilter_prune_nested :
    let registry := (({} : Registry).addFilter "title" "t.title" .generic).addFilter "made"
      "t.created_at" .date
    let asked (key : String) : Json := .object [("title", .object [(key, .text "x")])]
    let document (key : String) : Json := .object [
      ("AND", .list [.integer 1, .object [("OR", .list [.null, .list [asked key], asked key])],
        .object [("OR", .list [.text "x"]), ("made", .null)]]),
      ("OR", .list [.null]), ("other", .boolean true), ("title", .null)]
    (∀ junction, groupKey junction ∉ registry.filterNames) ∧ (∀ key, (document key).Distinct) ∧
    (∀ key, registry.prune (document key) =
      .object [("AND", .list [.object [("OR", .list [asked key])], .object []])]) ∧
    registry.parseFilter (document "eq") = .ok (some (.group .all [.group .all [
      .group .all [.group .any [.group .all [
        .leaf "t.title" (OperatorSet.ofComparison .eq (.text "x"))]]],
      .group .all []]])) ∧
    ∃ error, registry.parseFilter (registry.prune (document "like")) = .error error := by
  intro registry asked document
  have hreserved : ∀ junction, groupKey junction ∉ registry.filterNames := by
    rintro (_ | _) <;> decide
  have hdistinct : ∀ key, (document key).Distinct := by
    intro key
    simp [document, asked]
  have hpruned : ∀ key, registry.prune (document key) =
      .object [("AND", .list [.object [("OR", .list [asked key])], .object []])] := fun _ => rfl
  obtain ⟨hread, -⟩ := parseFilter_prune hreserved (hdistinct "eq")
  obtain ⟨hrefused, -, hasks, herror⟩ := parseFilter_prune hreserved (hdistinct "like")
  have hasked : registry.Asks (registry.prune (document "like")) ⟨"title", "t.title", .generic⟩
      (.object [("like", .text "x")]) := by
    rw [hpruned]
    refine @Asks.member _ _ .all _ _ _ _ rfl List.mem_cons_self ?_
    refine @Asks.member _ _ .any _ _ _ _ rfl List.mem_cons_self ?_
    exact .field (by decide) rfl
  refine ⟨hreserved, hdistinct, hpruned, hread.symm.trans ?_, ?_⟩
  · rw [hpruned]
    rfl
  · rw [hrefused]
    exact herror _ _ "like" ((hasks _ _).1 hasked).1 (by decide) (by decide)

end Registry

end TableQuery
