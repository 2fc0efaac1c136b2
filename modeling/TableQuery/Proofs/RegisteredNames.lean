import Mathlib.Data.List.Count
import TableQuery.Proofs.DerivedFilters
import TableQuery.Proofs.JsonFilters

/-!
# Names of a registry

A registry is a list, and it is read in two ways.  Looking a name up finds its first entry; reading
an object goes through all entries, and each entry of a name that the object sets gives a leaf or a
key of its own.  Filters also share the names of their fields with the keys of the two groups, and
what an object holds under such a key is read as a group as well.

So what a look-up says of a name is what an object that sets this name alone denotes exactly if the
name has one entry and, in filters, is not the key of a group.  Building a registry checks neither.

## Main results

* `parseLeaves_eq_ok_iff` — the leaves of an object that sets one name.
* `parseFilter_eq_ok_iff`, `sort_eq` — the filters and orders of such objects.
* `lookup_denotes_iff_count` — when look-ups and reading agree.
-/

namespace TableQuery

/-- `kind.Denotes fields set` holds if an object with the given fields is the operator set `set` for
fields of this kind. -/
def FieldKind.Denotes (kind : FieldKind) (fields : List (String × Json)) (set : OperatorSet) :
    Prop :=
  match kind with
  | .generic => OperatorSet.ofJson (.object fields) = .ok set
  | .date => ∃ dates, DateOperatorSet.ofJson (.object fields) = .ok dates ∧
      dates.toGeneric = .ok set

namespace Registry

variable {registry : Registry} {name : String}

/-! ## Entries of a name -/

/-- The entries that filters have for a name. -/
def filtersNamed (registry : Registry) (name : String) : List FilterField :=
  registry.filters.filter fun field => field.name = name

theorem length_filtersNamed (registry : Registry) (name : String) :
    (registry.filtersNamed name).length = registry.filterNames.count name := by
  rw [filterNames, List.count, List.countP_map, List.countP_eq_length_filter]
  rfl

/-- Looking a name up finds its first entry. -/
theorem filterField?_eq_head? (registry : Registry) (name : String) :
    registry.filterField? name =
      (registry.filtersNamed name).head?.map fun field => (field.column, field.kind) := by
  rw [filterField?, filtersNamed, List.head?_filter]

/-! ## Filters that set one name -/

/-- An object under the name of a field holds operators or is refused. -/
theorem parseOperators_eq_ok_iff {field : FilterField} {fields : List (String × Json)}
    {operators? : Option OperatorSet} :
    parseOperators field (.object fields) = .ok operators? ↔
      ∃ set, field.kind.Denotes fields set ∧ operators? = some set := by
  rw [parseOperators]
  cases hkind : field.kind with
  | generic =>
      simp only [FieldKind.Denotes]
      cases OperatorSet.ofJson (.object fields) with
      | error error => simp
      | ok set => simp [eq_comm]
  | date =>
      simp only [FieldKind.Denotes, parseDates]
      cases DateOperatorSet.ofJson (.object fields) with
      | error error => simp [Except.map]
      | ok dates =>
          cases hgeneric : dates.toGeneric with
          | ok set => simp [Except.map, hgeneric, eq_comm]
          | error error => cases error <;> simp [Except.map, hgeneric]

/-- Every entry of the name gives a leaf, in the order of registration. -/
theorem parseLeaves_eq_ok_iff {fields : List (String × Json)} {filters : List FilterField}
    {leaves : List Filter} :
    parseLeaves [(name, .object fields)] filters = .ok leaves ↔
      List.Forall₂
        (fun field leaf => ∃ set, field.kind.Denotes fields set ∧ leaf = .leaf field.column set)
        (filters.filter fun field => field.name = name) leaves := by
  induction filters generalizing leaves with
  | nil =>
      rw [parseLeaves, List.filter_nil, List.forall₂_nil_left_iff]
      exact ⟨fun h => (Except.ok.inj h).symm, fun h => congrArg _ h.symm⟩
  | cons field filters ih =>
      rw [parseLeaves, Keyed.lookup_cons_eq_if]
      by_cases hname : field.name = name
      · rw [if_pos hname, List.filter_cons_of_pos (by simpa using hname),
          List.forall₂_cons_left_iff]
        show (parseOperators field (.object fields) >>= fun operators? =>
          parseLeaves [(name, .object fields)] filters >>= fun rest =>
            .ok ((operators?.map (Filter.leaf field.column)).toList ++ rest)) = .ok leaves ↔ _
        constructor
        · intro h
          obtain ⟨operators?, hoperators, h⟩ := Checked.bind_eq_ok_iff.1 h
          obtain ⟨rest, hrest, h⟩ := Checked.bind_eq_ok_iff.1 h
          obtain ⟨set, hset, rfl⟩ := parseOperators_eq_ok_iff.1 hoperators
          exact ⟨_, rest, ⟨set, hset, rfl⟩, ih.1 hrest, (Except.ok.inj h).symm⟩
        · rintro ⟨_, rest, ⟨set, hset, rfl⟩, hrest, rfl⟩
          rw [parseOperators_eq_ok_iff.2 ⟨set, hset, rfl⟩]
          show (parseLeaves [(name, .object fields)] filters >>= _) = _
          rw [ih.2 hrest]
          rfl
      · rw [if_neg hname, List.filter_cons_of_neg (by simpa using hname), ← ih]
        show (parseLeaves [(name, .object fields)] filters >>= fun rest => .ok rest) = _ ↔ _
        rw [Checked.bind_eq_ok_iff]
        simp

/-- An object is no group. -/
theorem parseGroup_eq_ok_iff {junction : Junction} {fields : List (String × Json)}
    {members : List Filter} :
    registry.parseGroup junction [(name, .object fields)] = .ok members ↔
      name ≠ groupKey junction ∧ members = [] := by
  rw [parseGroup]
  by_cases hname : name = groupKey junction
  · rw [if_pos hname]
    exact ⟨fun h => (nomatch h), fun h => absurd hname h.1⟩
  · rw [if_neg hname, parseGroup]
    exact ⟨fun h => ⟨hname, (Except.ok.inj h).symm⟩, fun h => congrArg _ h.2.symm⟩

/-- The filters of objects that set one name to an object. -/
theorem parseFilter_eq_ok_iff {fields : List (String × Json)} {filter? : Option Filter} :
    registry.parseFilter (.object [(name, .object fields)]) = .ok filter? ↔
      (∀ junction, name ≠ groupKey junction) ∧
        ∃ leaves, filter? = some (.group .all leaves) ∧
          List.Forall₂
            (fun field leaf => ∃ set, field.kind.Denotes fields set ∧ leaf = .leaf field.column set)
            (registry.filtersNamed name) leaves := by
  have hgroups : ∀ leaves : List Filter,
      leaves ++ Filter.groupOf .all [] ++ Filter.groupOf .any [] = leaves :=
    fun leaves => by simp [Filter.groupOf]
  rw [parseFilter, parseNode]
  constructor
  · intro h
    obtain ⟨leaves, hleaves, h⟩ := Checked.bind_eq_ok_iff.1 h
    obtain ⟨all, hall, h⟩ := Checked.bind_eq_ok_iff.1 h
    obtain ⟨any, hany, h⟩ := Checked.bind_eq_ok_iff.1 h
    obtain ⟨hnotAll, rfl⟩ := parseGroup_eq_ok_iff.1 hall
    obtain ⟨hnotAny, rfl⟩ := parseGroup_eq_ok_iff.1 hany
    rw [hgroups] at h
    refine ⟨fun junction => ?_, leaves, (Except.ok.inj h).symm, parseLeaves_eq_ok_iff.1 hleaves⟩
    cases junction with
    | all => exact hnotAll
    | any => exact hnotAny
  · intro h
    obtain ⟨hkey, leaves, rfl, hleaves⟩ := h
    refine Checked.bind_eq_ok_iff.2 ⟨leaves, parseLeaves_eq_ok_iff.2 hleaves, ?_⟩
    refine Checked.bind_eq_ok_iff.2 ⟨[], parseGroup_eq_ok_iff.2 ⟨hkey .all, rfl⟩, ?_⟩
    refine Checked.bind_eq_ok_iff.2 ⟨[], parseGroup_eq_ok_iff.2 ⟨hkey .any, rfl⟩, ?_⟩
    rw [hgroups]
    rfl

/-- What a look-up says is what an object means, if and only if the name has one entry that is not
the key of a group. -/
theorem parseFilter_eq_leaf_iff {column : String} {kind : FieldKind}
    {fields : List (String × Json)} {set : OperatorSet}
    (hlookup : registry.filterField? name = some (column, kind)) (hset : kind.Denotes fields set) :
    registry.parseFilter (.object [(name, .object fields)]) =
        .ok (some (.group .all [.leaf column set])) ↔
      registry.filterNames.count name = 1 ∧ ∀ junction, name ≠ groupKey junction := by
  rw [filterField?_eq_head?] at hlookup
  obtain ⟨first, hfirst, heq⟩ := Option.map_eq_some_iff.1 hlookup
  obtain ⟨rest, hrest⟩ := List.head?_eq_some_iff.1 hfirst
  have hcolumn : first.column = column := congrArg Prod.fst heq
  have hkind : first.kind = kind := congrArg Prod.snd heq
  rw [parseFilter_eq_ok_iff, ← length_filtersNamed, hrest, and_comm, List.length_cons]
  refine and_congr_left fun _ => ⟨?_, fun hlength => ?_⟩
  · rintro ⟨leaves, heq, hleaves⟩
    cases heq
    simpa using hleaves.length_eq
  · have hnil : rest = [] := List.length_eq_zero_iff.1 (by omega)
    refine ⟨_, rfl, ?_⟩
    rw [hnil, ← hcolumn]
    exact .cons ⟨set, hkind ▸ hset, rfl⟩ .nil

/-! ## Sorts that set one name -/

/-- The columns of the entries that sorts have for a name. -/
def sortColumns (registry : Registry) (name : String) : List String :=
  (registry.sortable.filter fun field => field.name = name).map SortableField.column

theorem length_sortColumns (registry : Registry) (name : String) :
    (registry.sortColumns name).length = registry.sortNames.count name := by
  rw [sortColumns, List.length_map, sortNames, List.count, List.countP_map,
    List.countP_eq_length_filter]
  rfl

theorem sortColumn?_eq_head? (registry : Registry) (name : String) :
    registry.sortColumn? name = (registry.sortColumns name).head? := by
  rw [sortColumn?, sortColumns, List.head?_map, List.head?_filter]

/-- Every entry of the name gives a key, in the order of registration. -/
theorem parseSortObject_single (registry : Registry) (name : String) {text : String}
    {direction : Direction} (hdirection : Direction.ofText text = .ok direction) :
    ∃ fields, registry.parseSortObject [(name, .text text)] = .ok fields ∧
      SortField.keys fields =
        (registry.sortColumns name).map fun column => ⟨column, direction⟩ := by
  unfold parseSortObject sortColumns
  induction registry.sortable with
  | nil => exact ⟨[], rfl, rfl⟩
  | cons field sortable ih =>
      obtain ⟨fields, hfields, hkeys⟩ := ih
      by_cases hname : field.name = name
      · refine ⟨⟨field.column, some direction⟩ :: fields, ?_, ?_⟩
        · rw [List.mapM_cons, Keyed.lookup_cons_eq_if, if_pos hname, parseDirection, hdirection]
          show (_ >>= fun rest => Except.ok (_ :: rest)) = _
          rw [hfields]
          rfl
        · rw [List.filter_cons_of_pos (by simpa using hname)]
          exact congrArg _ hkeys
      · refine ⟨⟨field.column, none⟩ :: fields, ?_, ?_⟩
        · rw [List.mapM_cons, Keyed.lookup_cons_eq_if, if_neg hname]
          show (_ >>= fun rest => Except.ok (_ :: rest)) = _
          rw [hfields]
          rfl
        · rw [List.filter_cons_of_neg (by simpa using hname)]
          exact hkeys

/-- The order of a list with one object that sets one name. -/
theorem sort_eq {text : String} {direction : Direction}
    (hdirection : Direction.ofText text = .ok direction) (fallback : SortKey) :
    (registry.parseSort (.list [.object [(name, .text text)]]) >>= fun spec =>
        Order.ofSpec spec fallback) =
      if 1 < registry.sortNames.count name then .error .multipleSortFields
      else Order.ofKeys ((registry.sortColumns name).map fun column => ⟨column, direction⟩)
        fallback := by
  obtain ⟨fields, hfields, hkeys⟩ := registry.parseSortObject_single name hdirection
  have hparse : registry.parseSort (.list [.object [(name, .text text)]]) =
      .ok (some (.many [fields])) := by
    rw [parseSort, List.mapM_cons, parseSortItem, hfields]
    rfl
  rw [hparse]
  show ((if 1 < (SortField.keys fields).length then .error .multipleSortFields
    else .ok (SortField.keys fields ++ [])) >>= fun keys => Order.ofKeys keys fallback) = _
  rw [hkeys, List.length_map, length_sortColumns, List.append_nil]
  split <;> rfl

/-- What a look-up says is what a list with one object means, if and only if the name has one
entry. -/
theorem sort_eq_key_iff {built : Registry} (hbuild : registry.build = .ok built)
    {column text : String} {direction : Direction} (hlookup : built.sortColumn? name = some column)
    (hdirection : Direction.ofText text = .ok direction) (fallback : SortKey) :
    (∃ key : OrderKey, key.column.name = column ∧ key.direction = direction ∧
        (built.parseSort (.list [.object [(name, .text text)]]) >>= fun spec =>
          Order.ofSpec spec fallback) = .ok ⟨[key]⟩) ↔
      built.sortNames.count name = 1 := by
  rw [sortColumn?_eq_head?] at hlookup
  obtain ⟨rest, hrest⟩ := List.head?_eq_some_iff.1 hlookup
  have hlength := length_sortColumns built name
  rw [sort_eq hdirection, ← hlength, hrest, List.length_cons]
  by_cases hnil : rest = []
  · rw [if_neg (by simp [hnil]), hnil]
    have hcolumn : column ∈ built.columns := by
      refine List.mem_append_right _ ?_
      have hmem : column ∈ built.sortColumns name := hrest ▸ List.mem_cons_self
      exact List.map_subset _ (List.filter_subset_self _) hmem
    obtain ⟨identifier, hidentifier⟩ := check_of_mem_columns hbuild hcolumn
    refine ⟨fun _ => rfl, fun _ => ⟨⟨identifier, direction⟩, ?_, rfl, ?_⟩⟩
    · exact Identifier.name_of_check hidentifier
    · show ([SortKey.mk column direction].mapM SortKey.check >>= fun keys =>
        .ok (Order.mk keys)) = _
      rw [List.mapM_cons, SortKey.check, hidentifier]
      rfl
  · have hpos : 0 < rest.length := List.length_pos_iff.2 hnil
    rw [if_pos (by omega)]
    constructor
    · intro h
      obtain ⟨_, -, -, h⟩ := h
      cases h
    · intro h
      omega

/-! ## Look-ups and reading -/

/-- What a look-up says of a name is what an object that sets this name alone denotes, exactly if
the name has one entry; in filters it may not be the key of a group either. -/
theorem lookup_denotes_iff_count {built : Registry} (hbuild : registry.build = .ok built)
    (name : String) :
    (∀ column kind fields set, built.filterField? name = some (column, kind) →
      kind.Denotes fields set →
      (built.parseFilter (.object [(name, .object fields)]) =
          .ok (some (.group .all [.leaf column set])) ↔
        built.filterNames.count name = 1 ∧ ∀ junction, name ≠ groupKey junction)) ∧
    ∀ column text direction fallback, built.sortColumn? name = some column →
      Direction.ofText text = .ok direction →
      ((∃ key : OrderKey, key.column.name = column ∧ key.direction = direction ∧
          (built.parseSort (.list [.object [(name, .text text)]]) >>= fun spec =>
            Order.ofSpec spec fallback) = .ok ⟨[key]⟩) ↔
        built.sortNames.count name = 1) :=
  ⟨fun _ _ _ _ hlookup hset => parseFilter_eq_leaf_iff hlookup hset,
    fun _ _ _ fallback hlookup hdirection =>
      sort_eq_key_iff hbuild hlookup hdirection fallback⟩

/-- A registry in which look-ups and reading agree on one name in filters, and on one in sorts. -/
theorem lookup_denotes_iff_count_made :
    let registry := ((({} : Registry).addFilter "title" "title" .generic).addFilter "made"
      "t.created_at" .date).addSortable "made" "t.created_at"
    let fields : List (String × Json) := [("gte", .text "2020-01-01T00:00:00Z")]
    (∃ set, FieldKind.date.Denotes fields set ∧
      registry.parseFilter (.object [("made", .object fields)]) =
        .ok (some (.group .all [.leaf "t.created_at" set]))) ∧
      ∃ key : OrderKey, key.column.name = "t.created_at" ∧ key.direction = .descending ∧
        (registry.parseSort (.list [.object [("made", .text "DESC")]]) >>= fun spec =>
          Order.ofSpec spec .standard) = .ok ⟨[key]⟩ := by
  intro registry fields
  have hbuild : registry.build = .ok registry := rfl
  obtain ⟨hfilter, hsort⟩ := lookup_denotes_iff_count hbuild "made"
  have hset : ∃ set, FieldKind.date.Denotes fields set :=
    ⟨_, ⟨_, rfl, rfl⟩⟩
  obtain ⟨set, hset⟩ := hset
  have hkey : ∀ junction, "made" ≠ groupKey junction := fun junction => by
    cases junction <;> decide
  exact ⟨⟨set, hset, (hfilter _ _ _ _ rfl hset).2 ⟨rfl, hkey⟩⟩,
    (hsort _ _ _ _ rfl rfl).2 rfl⟩

/-- Names with two entries, and the key of a group as the name of a field: a registry with them is
built, and looking them up finds columns, but they are read otherwise. -/
theorem lookup_denotes_otherwise :
    let registry := ((((({} : Registry).addFilter "a" "x" .generic).addFilter "a" "y"
      .generic).addFilter "AND" "z" .generic).addSortable "s" "x").addSortable "s" "y"
    let fields : List (String × Json) := [("eq", .integer 1)]
    let set := OperatorSet.ofComparison .eq (.integer 1)
    registry.build = .ok registry ∧ FieldKind.generic.Denotes fields set ∧
    (registry.filterField? "a" = some ("x", .generic) ∧
      registry.parseFilter (.object [("a", .object fields)]) =
        .ok (some (.group .all [.leaf "x" set, .leaf "y" set]))) ∧
    (registry.filterField? "AND" = some ("z", .generic) ∧
      registry.parseFilter (.object [("AND", .object fields)]) =
        .error (.unsupportedField "AND" "expected an array")) ∧
    registry.sortColumn? "s" = some "x" ∧
      (registry.parseSort (.list [.object [("s", .text "ASC")]]) >>= fun spec =>
        Order.ofSpec spec .standard) = .error .multipleSortFields := by
  exact ⟨rfl, rfl, ⟨rfl, rfl⟩, ⟨rfl, rfl⟩, rfl, rfl⟩

end Registry

end TableQuery
