import DarijaScript.Value.Text

/-!
# Operators on values

Every operator of two operands gives a value for all operands. Addition joins texts as soon as one
operand is a string, an object or an array, and comparisons order strings by code point and all
else as numbers.
-/

namespace DarijaScript

namespace Value

/-- The value is joined as a text by addition. -/
def isText : Value → Bool
  | string _ | object _ | array _ => true
  | _ => false

/-- Null and undefined, which are loosely equal to each other and to nothing else. -/
def isNothing : Value → Bool
  | null | undefined => true
  | _ => false

/-- Truth values count as numbers in loose comparisons. -/
def withoutBoolean : Value → Value
  | boolean b => number (toNumber (boolean b))
  | value => value

/-- A number or a string. -/
def isPrimitive : Value → Bool
  | number _ | string _ => true
  | _ => false

/-- A number equals a string that stands for it; all else must be strictly equal. -/
def primitiveEqual : Value → Value → Bool
  | number a, string b => a == numberOfText b
  | string a, number b => numberOfText a == b
  | a, b => strictEqual a b

end Value

namespace Store

/-- An object or array is compared with a number or a string by its text. -/
def comparable (store : Store) (value other : Value) : Value :=
  match value with
  | .object _ | .array _ => if other.isPrimitive then .string (store.text value) else value
  | value => value

/-- Equality with conversions. -/
def looseEqual (store : Store) (left right : Value) : Bool :=
  if left.isNothing || right.isNothing then left.isNothing && right.isNothing
  else
    let left := left.withoutBoolean
    let right := right.withoutBoolean
    Value.primitiveEqual (store.comparable left right) (store.comparable right left)

/-- The order of two values, if they have one. -/
def compare? : Value → Value → Option Ordering
  | .string a, .string b => some (compare a b)
  | a, b =>
    let x := a.toNumber
    let y := b.toNumber
    if x < y then some .lt else if y < x then some .gt else if x == y then some .eq else none

/-- The value of an operator applied to two values. -/
def apply (store : Store) (op : BinaryOp) (left right : Value) : Value :=
  match op with
  | .add =>
    if left.isText || right.isText then .string (store.text left ++ store.text right)
    else .number (left.toNumber + right.toNumber)
  | .subtract => .number (left.toNumber - right.toNumber)
  | .multiply => .number (left.toNumber * right.toNumber)
  | .divide => .number (left.toNumber / right.toNumber)
  | .remainder => .number (Decimal.remainder left.toNumber right.toNumber)
  | .greater => .boolean (compare? left right == some .gt)
  | .greaterEqual => .boolean ((compare? left right).any Ordering.isGE)
  | .less => .boolean (compare? left right == some .lt)
  | .lessEqual => .boolean ((compare? left right).any Ordering.isLE)
  | .looseEqual => .boolean (store.looseEqual left right)
  | .looseNotEqual => .boolean (!store.looseEqual left right)
  | .strictEqual => .boolean (left.strictEqual right)
  | .strictNotEqual => .boolean (!left.strictEqual right)

end Store

end DarijaScript
