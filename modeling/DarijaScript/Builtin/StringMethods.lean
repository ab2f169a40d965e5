import DarijaScript.Builtin.Arguments
import DarijaScript.Text.Case
import DarijaScript.Text.Search

/-!
# The methods of strings

Positions in strings count characters.
-/

namespace DarijaScript.Builtins

open Run

/-- The receiver of a method of strings. -/
def textReceiver (receiver : Value) : Run (List Char) :=
  match receiver with
  | .string text => pure text.toList
  | other => faultAt .memberOwner other

/-- A string of some characters. -/
def stringOf (chars : List Char) : Value := .string (String.ofList chars)

/-- The strings between the occurrences of a separator; the empty one separates all characters. -/
def splitText (separator text : List Char) : List Value :=
  if separator.isEmpty then text.map fun c => stringOf [c]
  else (Text.splitOn separator text).map stringOf

/-- A position, or minus one if there is none. -/
def positionValue : Option Nat → Value
  | some position => .ofNat position
  | none => .number (-1)

/-- What a method of strings does. -/
def runStringMethod (method : StringMethod) (receiver : Value) (args : List Value) : Run Value := do
  let chars ← textReceiver receiver
  match method with
  | .upper => pure (stringOf (Text.upper chars))
  | .lower => pure (stringOf (Text.lower chars))
  | .contains =>
    let needle ← textArgument args 0
    pure (.boolean (Text.indexOf? needle.toList chars).isSome)
  | .indexOf =>
    let needle ← textArgument args 0
    pure (positionValue (Text.indexOf? needle.toList chars))
  | .slice => pure (stringOf (slice chars (argument args 0) (argument args 1)))
  | .split =>
    match argument args 0 with
    | .undefined => allocateArray #[stringOf chars]
    | separator =>
      let separator ← text separator
      allocateArray (splitText separator.toList chars).toArray
  | .trim => pure (stringOf (Text.trim chars))

end DarijaScript.Builtins
