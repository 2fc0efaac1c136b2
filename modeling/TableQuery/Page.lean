import TableQuery.Numeral.Integer
import TableQuery.Order
import TableQuery.Text.Blank

/-!
# Pages

A page is a window of a query's rows: some rows are left out first, then as many as the limit says
are returned. The place of a row among all rows of the query is its cursor, and a page can start
after the row of a cursor.

## Main definitions

* `PageLimits`: the limits and the order that apply where a request does not say.
* `PageWindow`, `PageWindow.normalize`: what is asked for, and what is done.
* `encodeCursor`, `decodeCursor`, `PageWindow.after`: cursors.
* `PageInfo`, `Page`: what is returned.
-/

namespace TableQuery

/-! ## Limits -/

/-- The limits and the order that apply where a request does not say. -/
structure PageLimits where
  /-- The number of rows of a page whose request does not say. -/
  defaultLimit : Int64 := 10
  /-- The greatest number of rows of a page. -/
  maxLimit : Int64 := 100
  /-- The key that a query is ordered by whose request does not say. -/
  defaultSort : SortKey := .standard
  deriving DecidableEq, Repr

/-- The sum of two integers, or the nearest 64-bit integer to it. -/
def saturatingAdd (a b : Int64) : Int64 := Int64.ofIntClamp (a.toInt + b.toInt)

/-! ## Cursors -/

/-- The cursor of the row at an offset. -/
def encodeCursor (offset : Int64) : String := toString offset.toInt

/-- The offset that a cursor denotes: an integer that is not negative, blanks around it ignored. -/
def decodeCursor (cursor : String) : Except QueryError Int64 :=
  match Numeral.readInt64 (Text.strip cursor.toList) with
  | .ok offset => if 0 ≤ offset then .ok offset else .error (.invalidCursor cursor)
  | .error _ => .error (.invalidCursor cursor)

/-! ## Windows -/

/-- The rows that a page is to return. -/
structure PageWindow where
  /-- The number of rows to leave out first. -/
  skip : Int64 := 0
  /-- The greatest number of rows; no positive number leaves the choice to the limits. -/
  limit : Int64 := 0
  deriving DecidableEq, Repr

namespace PageWindow

/-- The window with limits applied: a limit that is not positive is the default one, a greater one
than allowed the greatest, and a negative skip is zero. -/
def normalize (window : PageWindow) (limits : PageLimits) : PageWindow where
  skip := max window.skip 0
  limit := if window.limit ≤ 0 then limits.defaultLimit else min window.limit limits.maxLimit

/-- The window that starts after the row of a cursor. There is none after the last offset. -/
def after (cursor : String) (limit : Int64) : Except QueryError PageWindow := do
  let offset ← decodeCursor cursor
  if offset = Int64.maxValue then .error (.invalidCursor cursor)
  else return { skip := offset + 1, limit }

end PageWindow

/-! ## Results -/

/-- What is known of a returned page. -/
structure PageInfo where
  /-- The number of rows of the query. -/
  totalRecord : Int64
  /-- The limit of the page. -/
  limit : Int64
  /-- The number of rows before the page. -/
  skip : Int64
  /-- Whether there are rows after the page. -/
  hasNext : Bool
  /-- Whether there are rows before the page. -/
  hasPrevious : Bool
  /-- The cursor of the first row of the page. -/
  startCursor : Option String
  /-- The cursor of the last row of the page. -/
  endCursor : Option String
  deriving DecidableEq, Repr

/-- The offset of the row at an index of a page. -/
def PageWindow.offsetAt (window : PageWindow) (index : Nat) : Int64 :=
  saturatingAdd window.skip (Int64.ofNat index)

/-- What is known of a page that returned a number of rows. -/
def PageInfo.ofWindow (window : PageWindow) (total : Int64) (returned : Nat) : PageInfo where
  totalRecord := total
  limit := window.limit
  skip := window.skip
  hasNext := saturatingAdd window.skip window.limit < total
  hasPrevious := 0 < window.skip
  startCursor := if returned = 0 then none else some (encodeCursor window.skip)
  endCursor := if returned = 0 then none else some (encodeCursor (window.offsetAt (returned - 1)))

/-- A row of a page and its cursor. -/
structure Edge (α : Type) where
  /-- The row. -/
  node : α
  /-- Its cursor. -/
  cursor : String
  deriving DecidableEq, Repr

/-- A returned page. -/
structure Page (α : Type) where
  /-- The rows with their cursors. -/
  edges : List (Edge α)
  /-- What is known of the page. -/
  info : PageInfo
  deriving DecidableEq, Repr

namespace Page

variable {α β : Type}

/-- The edges of rows, of which the first stands at an index of the page. -/
def edgesFrom (window : PageWindow) : Nat → List α → List (Edge α)
  | _, [] => []
  | index, node :: rest =>
    ⟨node, encodeCursor (window.offsetAt index)⟩ :: edgesFrom window (index + 1) rest

/-- The page of the rows that a window returned. -/
def ofItems (items : List α) (window : PageWindow) (total : Int64) : Page α where
  edges := edgesFrom window 0 items
  info := .ofWindow window total items.length

/-- The page of a window that returned nothing. -/
def empty (window : PageWindow) (total : Int64) : Page α where
  edges := []
  info := .ofWindow window total 0

/-- The rows of a page. -/
def nodes (page : Page α) : List α := page.edges.map Edge.node

/-- The page with every row changed; cursors stay. -/
def map (change : α → β) (page : Page α) : Page β where
  edges := page.edges.map fun edge => ⟨change edge.node, edge.cursor⟩
  info := page.info

/-- The page with every row changed by a computation, one row after the other; cursors stay. -/
def mapM {m : Type → Type} [Monad m] (change : α → m β) (page : Page α) : m (Page β) := do
  let edges ← page.edges.mapM fun edge => do return ⟨← change edge.node, edge.cursor⟩
  return ⟨edges, page.info⟩

@[simp] theorem nodes_ofItems (items : List α) (window : PageWindow) (total : Int64) :
    (ofItems items window total).nodes = items := by
  suffices h : ∀ index, (edgesFrom window index items).map Edge.node = items from h 0
  induction items with
  | nil => intro; rfl
  | cons node rest ih =>
    intro index
    simp [edgesFrom, ih (index + 1)]

@[simp] theorem nodes_map (change : α → β) (page : Page α) :
    (page.map change).nodes = page.nodes.map change := by
  simp [map, nodes, Function.comp_def]

@[simp] theorem info_map (change : α → β) (page : Page α) : (page.map change).info = page.info :=
  rfl

end Page

end TableQuery
