import DarijaScript.Decimal.Shortest
import DarijaScript.Syntax.Token
import DarijaScript.Syntax.Tree
import DarijaScript.Text.Blank
import DarijaScript.Value.Builtin

/-!
# Values

What expressions evaluate to. Objects, arrays and scopes live in a store and are known by their
place in it, so two values are the same object exactly when they are known by the same place.
-/

namespace DarijaScript

/-- The place of a scope in the store. -/
abbrev ScopeId := Nat

/-- The place of an object in the store. -/
abbrev ObjectId := Nat

/-- The place of an array in the store. -/
abbrev ArrayId := Nat

/-- Values. -/
inductive Value where
  | number (value : Float)
  | string (text : String)
  | boolean (value : Bool)
  | null
  | undefined
  | object (id : ObjectId)
  | array (id : ArrayId)
  /-- A function of the program and the scope in which it was made. -/
  | function (f : Function) (scope : ScopeId)
  | builtin (function : Builtin)
  /-- A method read from an array, which is its receiver. -/
  | arrayMethod (method : ArrayMethod) (receiver : ArrayId)
  /-- A method read from a string, which is its receiver. -/
  | stringMethod (method : StringMethod) (receiver : String)

instance : Inhabited Value := ⟨.undefined⟩

/-- The value of a literal. -/
def Literal.value : Literal → Value
  | .number value => .number value
  | .string text => .string text
  | .boolean value => .boolean value
  | .null => .null
  | .undefined => .undefined

/-- A character that the text of a number may hold. -/
def isNumberChar (c : Char) : Bool :=
  c.isDigit || c == '.' || c == 'e' || c == 'E' || c == '+' || c == '-'

/-- The number that a string stands for: blanks around it do not count, the empty string is zero,
and any text that is no number is NaN. -/
def numberOfText (text : String) : Float :=
  let text := Text.trim text.toList
  if text.isEmpty then 0
  else if text = "Infinity".toList ∨ text = "+Infinity".toList then Decimal.infinity false
  else if text = "-Infinity".toList then Decimal.infinity true
  else if text.all isNumberChar then (Decimal.read? text).getD Decimal.nan
  else Decimal.nan

/-- The text of a number, the same for both zeros. -/
def textOfNumber (x : Float) : String :=
  if x.isNaN then "NaN"
  else if x == Decimal.infinity false then "Infinity"
  else if x == Decimal.infinity true then "-Infinity"
  else if x == 0 then "0"
  else Decimal.text x

namespace Value

/-- The value of an index or a length. -/
def ofNat (n : Nat) : Value := .number (Decimal.ofNat n)

/-- A condition holds for the value. -/
def holds : Value → Bool
  | number x => x != 0 && !x.isNaN
  | string text => !text.isEmpty
  | boolean b => b
  | null | undefined => false
  | _ => true

/-- The value may be called. -/
def isFunction : Value → Bool
  | function _ _ | builtin _ | arrayMethod _ _ | stringMethod _ _ => true
  | _ => false

/-- The number that stands for the value in arithmetic. -/
def toNumber : Value → Float
  | number x => x
  | string text => numberOfText text
  | boolean b => if b then 1 else 0
  | null => 0
  | _ => Decimal.nan

/-- The name of the value's type. -/
def typeName : Value → String
  | number _ => "number"
  | string _ => "string"
  | boolean _ => "boolean"
  | undefined => "undefined"
  | null | object _ | array _ => "object"
  | function _ _ | builtin _ | arrayMethod _ _ | stringMethod _ _ => "function"

/-- Equality without conversions: the same type and value, and for what lives in the store the same
place. Functions are the same when they come from the same place of the program and were made in
the same scope. -/
def strictEqual : Value → Value → Bool
  | number a, number b => a == b
  | string a, string b => a == b
  | boolean a, boolean b => a == b
  | null, null => true
  | undefined, undefined => true
  | object a, object b => a == b
  | array a, array b => a == b
  | function f a, function g b => f.origin == g.origin && a == b
  | builtin a, builtin b => a == b
  | arrayMethod m a, arrayMethod n b => m == n && a == b
  | stringMethod m a, stringMethod n b => m == n && a == b
  | _, _ => false

/-- Equality without conversions under which NaN is equal to itself. -/
def sameValueZero : Value → Value → Bool
  | number a, number b => (a.isNaN && b.isNaN) || a == b
  | a, b => strictEqual a b

/-- The number that a text writes in plain decimal digits without leading zeros. -/
def canonicalNat? (text : String) : Option Nat :=
  let digits := text.toList
  if digits.all Char.isDigit && !digits.isEmpty && (digits.length == 1 || digits.head? != some '0')
  then some (Decimal.natOfDigits digits)
  else none

/-- The index that a key denotes: a natural number below `2 ^ 64`, as a number or in digits. -/
def index? : Value → Option Nat
  | number x => (Decimal.toNat? x).filter (· < 2 ^ 64)
  | string text => (canonicalNat? text).filter (· < 2 ^ 64)
  | _ => none

end Value

end DarijaScript
