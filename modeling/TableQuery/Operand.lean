import TableQuery.Numeral.Binary64
import TableQuery.Numeral.Integer
import TableQuery.Time.Instant

/-!
# Operands

An operand is a value that a condition compares a column with. Whatever form it arrives in, it is
reduced to one of six kinds, and it reaches the database only as a bound value.

## Main definitions

* `Operand`: the six kinds.
* `Operand.kind`, `Operand.text?`: what messages and pattern operators need to know of one.
* `ToOperand`: the values that stand for an operand.
-/

namespace TableQuery

/-- A value that a column is compared with. -/
inductive Operand where
  /-- No value. -/
  | null
  /-- A truth value. -/
  | boolean (value : Bool)
  /-- A 64-bit signed integer. -/
  | integer (value : Int64)
  /-- A number that is not such an integer. -/
  | float (value : Numeral.Binary64)
  /-- A text. -/
  | text (value : String)
  /-- A moment in Universal Time. -/
  | timestamp (value : Time.Instant)
  deriving DecidableEq, Repr

namespace Operand

/-- The name of an operand's kind. -/
def kind : Operand → String
  | null => "null"
  | boolean _ => "boolean"
  | integer _ => "integer"
  | float _ => "float"
  | text _ => "string"
  | timestamp _ => "timestamp"

/-- The text of an operand that is one. -/
def text? : Operand → Option String
  | text value => some value
  | _ => none

/-- Whether an operand is a text. -/
def isText (operand : Operand) : Bool := operand.text?.isSome

/-- Whether an operand is a moment in time. -/
def isTimestamp : Operand → Bool
  | timestamp _ => true
  | _ => false

@[simp] theorem text?_text (value : String) : (text value).text? = some value := rfl

/-- Only a text has a text. -/
theorem text?_eq_some_iff {operand : Operand} {value : String} :
    operand.text? = some value ↔ operand = text value := by
  cases operand <;> simp [text?]

/-- The operand that holds an integer; beyond 64 bits it is the nearest float. -/
def ofInt (value : Int) : Operand :=
  match Numeral.int64? value with
  | some value => integer value
  | none => float (.ofInt value)

/-- An operand holds a 32-bit float by its exact value. -/
def ofSingle (value : Numeral.Binary64) : Operand := float value.toSingle

end Operand

/-! ## Values that stand for an operand -/

/-- A type whose values stand for operands. -/
class ToOperand (α : Type) where
  /-- The operand that a value stands for. -/
  toOperand : α → Operand

export ToOperand (toOperand)

instance : ToOperand Operand := ⟨id⟩
instance : ToOperand Bool := ⟨.boolean⟩
instance : ToOperand String := ⟨.text⟩
instance : ToOperand Numeral.Binary64 := ⟨.float⟩
instance : ToOperand Int64 := ⟨.integer⟩
instance : ToOperand Int32 := ⟨fun value => .integer value.toInt64⟩
instance : ToOperand Int16 := ⟨fun value => .integer value.toInt64⟩
instance : ToOperand Int8 := ⟨fun value => .integer value.toInt64⟩
instance : ToOperand UInt32 := ⟨fun value => .integer (Int64.ofNat value.toNat)⟩
instance : ToOperand UInt16 := ⟨fun value => .integer (Int64.ofNat value.toNat)⟩
instance : ToOperand UInt8 := ⟨fun value => .integer (Int64.ofNat value.toNat)⟩
instance : ToOperand Time.Instant := ⟨.timestamp⟩
instance : ToOperand Time.Date := ⟨fun date => .text date.text⟩

/-- A missing value is null. -/
instance {α : Type} [ToOperand α] : ToOperand (Option α) where
  toOperand
    | some value => toOperand value
    | none => .null

@[simp] theorem toOperand_none {α : Type} [ToOperand α] : toOperand (none : Option α) = .null := rfl

@[simp] theorem toOperand_some {α : Type} [ToOperand α] (value : α) :
    toOperand (some value) = toOperand value := rfl

end TableQuery
