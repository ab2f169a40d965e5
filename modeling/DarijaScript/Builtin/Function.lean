import DarijaScript.Builtin.Arguments
import DarijaScript.Machine.Calendar

/-!
# The functions of the outermost scope

Printing and asking, arithmetic, conversions, the contents of objects, dates and timers.
-/

namespace DarijaScript.Builtins

open Run

/-- The first argument as a message, which is empty if there is none. -/
def message (args : List Value) : Run String :=
  match args with
  | [] => pure ""
  | value :: _ => text value

/-- Rounds to the nearest integer, halves up. -/
def roundHalfUp (x : Float) : Float :=
  let nearest := Decimal.roundHalfAway x
  if x - nearest == 0.5 then nearest + 1 else nearest

/-- The best of some numbers, where a number replaces one that is as good; not a number as soon as
one of them is none. Equal numbers differ only as zeros of either sign do. -/
def bestOf (start : Float) (better : Float → Float → Bool) (args : List Value) : Value :=
  .number <| args.foldl (fun best value =>
    let x := value.toNumber
    if best.isNaN || x.isNaN then Decimal.nan else if better x best then x else best) start

/-- The keys of an object or the indices of an array. -/
def keys (value : Value) : Run Value := do
  match value with
  | .object id =>
    let fields ← readStore (·.fields id)
    allocateArray (fields.keys.map Value.string).toArray
  | .array id =>
    let length ← readStore fun store => (store.elements id).size
    allocateArray ((List.range length).map fun i => Value.string i.repr).toArray
  | other => faultAt .expectedContainer other

/-- The values of an object or the elements of an array. -/
def values (value : Value) : Run Value := do
  match value with
  | .object id =>
    let fields ← readStore (·.fields id)
    allocateArray fields.values.toArray
  | .array id =>
    let elements ← readStore (·.elements id)
    allocateArray elements
  | other => faultAt .expectedContainer other

/-- The field of a date that holds its milliseconds. -/
def millisecondsField : String := "wa9t"

/-- A date: an object that holds milliseconds. -/
def newDate (milliseconds : Float) : Run Value :=
  allocateObject [(millisecondsField, .number milliseconds)]

/-- The milliseconds of a date or of a number. -/
def milliseconds? (store : Store) : Value → Option Float
  | .object id => ((store.fields id).get? millisecondsField).map (·.toNumber)
  | .number x => some x
  | _ => none

/-- A part of a date. -/
def datePart (value : Value) (part : Calendar.DateTime → Int) : Run Value := do
  let milliseconds ← readStore (milliseconds? · value)
  match milliseconds.bind Calendar.ofFloat? with
  | some date => pure (.number (Decimal.ofInt (part date)))
  | none => faultAt .expectedDate value

/-- Lets the first argument wait for the second one's milliseconds and passes it the others. -/
def makeAppointment (args : List Value) (repeats : Bool) : Run Value := do
  let callback ← callbackArgument args
  let delay := ((args[1]?).map (·.toNumber)).getD 0
  let id ← schedule callback delay (args.drop 2) repeats
  pure (.ofNat id)

/-- The largest handle of a timer. -/
def maxHandle : Nat := 2 ^ 32 - 1

/-- Cancels a timer; what is no handle is ignored. -/
def cancelAppointment (handle : Float) : Run Value := do
  match Decimal.toNat? handle with
  | some id =>
    if 1 ≤ id ∧ id ≤ maxHandle then changeAgenda (·.cancel id)
    pure .undefined
  | none => pure .undefined

/-- What a built-in function does. -/
def run (builtin : Builtin) (args : List Value) : Run Value :=
  let first := argument args 0
  let x := first.toNumber
  match builtin with
  | .print => do
    let line ← readStore fun store => " ".intercalate (args.map store.text)
    print line
    pure .undefined
  | .alert => do
    let message ← message args
    callHost (.alert message) fun _ _ => ()
    print message
    pure .undefined
  | .prompt => do
    let message ← message args
    match ← callHost (.prompt message) fun host log => host.prompt log message with
    | some answer => pure (.string answer)
    | none => pure .null
  | .confirm => do
    let message ← message args
    let answer ← callHost (.confirm message) fun host log => host.confirm log message
    pure (.boolean answer)
  | .raise => throw (.exception (.raised first .unknown))
  | .squareRoot => pure (.number x.sqrt)
  | .power => pure (.number (x.pow (numberArgument args 1)))
  | .absolute => pure (.number x.abs)
  | .round => pure (.number (roundHalfUp x))
  | .floor => pure (.number (Decimal.floor x))
  | .ceiling => pure (.number (Decimal.ceil x))
  | .maximum => pure (bestOf (Decimal.infinity true) (fun x best => best ≤ x) args)
  | .minimum => pure (bestOf (Decimal.infinity false) (fun x best => x ≤ best) args)
  | .random => do
    let x ← callHost .random (·.random ·)
    pure (.number x)
  | .toNumber => pure (.number x)
  | .toText => do
    let text ← text first
    pure (.string text)
  | .keys => keys first
  | .values => values first
  | .now => do
    let now ← currentTime
    pure (.number now)
  | .date =>
    match first with
    | .undefined => do
      let now ← currentTime
      newDate now
    | value => newDate value.toNumber
  | .year => datePart first (·.year)
  | .month => datePart first (·.month)
  | .day => datePart first (·.day)
  | .hour => datePart first (·.hour)
  | .minute => datePart first (·.minute)
  | .second => datePart first (·.second)
  | .weekday => datePart first (·.weekday)
  | .schedule => makeAppointment args false
  | .repeatedly => makeAppointment args true
  | .cancel => cancelAppointment x

end DarijaScript.Builtins
