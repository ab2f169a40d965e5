import DarijaScript.Store.Basic
import DarijaScript.Text.Quoted

/-!
# The text of values

Values as programs print them. Strings stand between quotes only inside arrays and objects, and an
array or object inside itself is marked instead of written again.
-/

namespace DarijaScript

/-- An array or an object. -/
inductive Container where
  | object (id : ObjectId)
  | array (id : ArrayId)
  deriving Repr, DecidableEq

/-- A function with the names of its parameters. -/
def Function.signature (f : Function) : String :=
  "dala " ++ ((f.name.map (·.name)).getD "") ++ "(" ++ ", ".intercalate (f.params.map (·.name)) ++
    ")"

namespace Store

/-- What is written for a container that is being written around itself. -/
def circularMark : String := "[circular]"

/--
The text of a value inside the containers `around`. `depth` bounds the containers still to be
entered; each is entered at most once on the way to a value, so their number is enough.
-/
def textWithin (store : Store) : (depth : Nat) → (around : List Container) → (quoted : Bool) →
    Value → String
  | _, _, _, .number x => textOfNumber x
  | _, _, quoted, .string text => if quoted then "\"" ++ text ++ "\"" else text
  | _, _, _, .boolean b => if b then "s7i7" else "ghalat"
  | _, _, _, .null => "farkha"
  | _, _, _, .undefined => "mchmcha"
  | _, _, _, .function f _ => f.signature
  | _, _, _, .builtin f => "dala " ++ f.name ++ "(..)"
  | _, _, _, .arrayMethod method _ => "dala " ++ method.name ++ "(..)"
  | _, _, _, .stringMethod method _ => "dala " ++ method.name ++ "(..)"
  | 0, _, _, .array _ => circularMark
  | 0, _, _, .object _ => circularMark
  | depth + 1, around, _, .array id =>
    if .array id ∈ around then circularMark
    else
      let items := (store.elements id).toList.map fun element =>
        store.textWithin depth (.array id :: around) true element
      "[" ++ ", ".intercalate items ++ "]"
  | depth + 1, around, _, .object id =>
    if .object id ∈ around then circularMark
    else
      let entries := (store.fields id).map fun entry =>
        entry.1 ++ ": " ++ store.textWithin depth (.object id :: around) true entry.2
      "\x7b" ++ ", ".intercalate entries ++ "\x7d"

/-- One more than the number of containers. -/
def containerBound (store : Store) : Nat := store.objects.size + store.arrays.size + 1

/-- The text of a value on its own. -/
def text (store : Store) (value : Value) : String :=
  store.textWithin store.containerBound [] false value

/-- The text of a value as it stands inside arrays and objects. -/
def literal (store : Store) (value : Value) : String :=
  store.textWithin store.containerBound [] true value

/-- A value with the name of its kind, for inspection. -/
def inspect (store : Store) : Value → String
  | .number x => "Number(" ++ Decimal.text x ++ ")"
  | .string text => "Str(" ++ Text.inspect text ++ ")"
  | .boolean b => "Boolean(" ++ (if b then "true" else "false") ++ ")"
  | .null => "Null"
  | .undefined => "Undefined"
  | value@(.object _) => "Object(" ++ store.text value ++ ")"
  | value@(.array _) => "Array(" ++ store.text value ++ ")"
  | value@(.function _ _) => "Func(" ++ store.text value ++ ")"
  | value => "NativeFunc(" ++ store.text value ++ ")"

end Store

end DarijaScript
