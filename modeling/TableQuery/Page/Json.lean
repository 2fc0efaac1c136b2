import TableQuery.Json.Decode
import TableQuery.Page

/-!
# Pages in JSON

A window is an object, or a list that gives its numbers by position. What is missing is zero, and
other keys are passed over. A page is an object of its edges and of what is known of it.

## Main definitions

* `PageWindow.ofJson`: the window that a value denotes.
* `PageInfo.toJson`, `Page.toJson`: pages as JSON.
-/

namespace TableQuery

/-! ## Windows -/

/-- The keys of a window. -/
inductive WindowKey where
  /-- The number of rows to leave out first. -/
  | skip
  /-- The greatest number of rows. -/
  | limit
  deriving DecidableEq, Repr

namespace WindowKey

/-- All keys, by position. -/
def all : List WindowKey := [skip, limit]

/-- How a key is written. -/
def name : WindowKey → String
  | skip => "skip"
  | limit => "limit"

/-- The key of a name. -/
def find? (name : String) : Option WindowKey := all.find? fun key => key.name = name

end WindowKey

namespace PageWindow

/-- Reads the value of one key into a window. -/
def decodeKey (key : WindowKey) (value : Json) (window : PageWindow) :
    Except DecodeError PageWindow := do
  let number ← value.asInt64
  match key with
  | .skip => return { window with skip := number }
  | .limit => return { window with limit := number }

/-- The window that a value denotes. -/
def ofJson : Json → Except DecodeError PageWindow
  | .object fields => Json.decodeFields WindowKey.find? decodeKey (fun _ => .ok) fields {}
  | .list items => Json.decodePositions decodeKey items.length WindowKey.all items {}
  | value => .error (.wrongKind value "struct PageInput")

end PageWindow

/-! ## Pages -/

/-- What is known of a page, as JSON. -/
def PageInfo.toJson (info : PageInfo) : Json :=
  Json.ofFields [
    ("totalRecord", .ofInt64 info.totalRecord),
    ("limit", .ofInt64 info.limit),
    ("skip", .ofInt64 info.skip),
    ("hasNext", .boolean info.hasNext),
    ("hasPrevious", .boolean info.hasPrevious),
    ("startCursor", .ofText? info.startCursor),
    ("endCursor", .ofText? info.endCursor)]

/-- An edge as JSON. -/
def Edge.toJson {α : Type} (node : α → Json) (edge : Edge α) : Json :=
  Json.ofFields [("node", node edge.node), ("cursor", .text edge.cursor)]

/-- A page as JSON. -/
def Page.toJson {α : Type} (node : α → Json) (page : Page α) : Json :=
  Json.ofFields [
    ("edges", .list (page.edges.map (Edge.toJson node))),
    ("pageInfo", page.info.toJson)]

end TableQuery
