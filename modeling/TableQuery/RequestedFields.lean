import TableQuery.Keyed
import TableQuery.Text.Parts

/-!
# Requested fields

The tree of the fields that a client wants to see: every field, and below it the fields wanted of
its value. It can be given by dotted paths such as `edges.node.title`.

## Main definitions

* `RequestedFields`: the tree.
* `insertNames`, `insertPath`, `insert`: adding fields.
* `dive`: the subtree below a chain of names.
-/

namespace TableQuery

/-- A tree of field names; the children of a node ascend by name. -/
inductive RequestedFields where
  /-- A node by its children. -/
  | node (children : List (String × RequestedFields))
  deriving Repr

namespace RequestedFields

/-- The children of a node. -/
def children : RequestedFields → List (String × RequestedFields)
  | node children => children

/-- The tree of no fields. -/
def empty : RequestedFields := node []

instance : Inhabited RequestedFields := ⟨empty⟩

/-- Whether no field is wanted. -/
def isEmpty (tree : RequestedFields) : Bool := tree.children.isEmpty

/-- The subtree of a field. -/
def get? (tree : RequestedFields) (name : String) : Option RequestedFields :=
  tree.children.lookup name

/-- Whether a field is wanted. -/
def contains (tree : RequestedFields) (name : String) : Bool := (tree.get? name).isSome

/-- The names of the fields, ascending. -/
def names (tree : RequestedFields) : List String := tree.children.map Prod.fst

/-- Adds a field with its subtree, or replaces the subtree of a field. -/
def insert (tree : RequestedFields) (name : String) (subtree : RequestedFields) :
    RequestedFields :=
  node (Keyed.insert name subtree tree.children)

/-- Adds a chain of fields, each below the one before it. -/
def insertNames : List String → RequestedFields → RequestedFields
  | [], tree => tree
  | name :: rest, tree =>
    tree.insert name (insertNames rest ((tree.get? name).getD empty))

/-- The names of a dotted path. -/
def pathNames (path : String) : List String := Text.parts '.' path

/-- Adds the fields of a dotted path. -/
def insertPath (tree : RequestedFields) (path : String) : RequestedFields :=
  insertNames (pathNames path) tree

/-- The tree of some dotted paths. -/
def ofPaths (paths : List String) : RequestedFields := paths.foldl insertPath empty

/-- The subtree below a chain of names. -/
def dive : List String → RequestedFields → Option RequestedFields
  | [], tree => some tree
  | name :: rest, tree => (tree.get? name).bind (dive rest)

@[simp] theorem dive_nil (tree : RequestedFields) : dive [] tree = some tree := rfl

theorem dive_cons (name : String) (rest : List String) (tree : RequestedFields) :
    dive (name :: rest) tree = (tree.get? name).bind (dive rest) := rfl

@[simp] theorem get?_insert_self (tree subtree : RequestedFields) (name : String) :
    (tree.insert name subtree).get? name = some subtree := by
  simp [insert, get?, children]

theorem get?_insert_of_ne (tree subtree : RequestedFields) {name other : String}
    (hNe : other ≠ name) : (tree.insert name subtree).get? other = tree.get? other := by
  simp [insert, get?, children, hNe]

@[simp] theorem get?_empty (name : String) : empty.get? name = none := rfl

end RequestedFields

end TableQuery
