import DarijaScript.Builtin.Arguments
import DarijaScript.Builtin.StringMethods

/-!
# The methods of arrays

Methods that call a function for every element take the elements that the array has at the
beginning, so the function may change the array. It is passed the element, its index and the array.
-/

namespace DarijaScript.Builtins

open Run

/-- How a function is called: with a receiver and arguments. -/
abbrev Caller := (callee receiver : Value) → List Value → Run Value

/-- The receiver of a method of arrays. -/
def arrayReceiver (receiver : Value) : Run ArrayId :=
  match receiver with
  | .array id => pure id
  | other => faultAt .expectedContainer other

/-- The elements of the receiver of a method of arrays. -/
def elementsOf (receiver : Value) : Run (List Value) := do
  let id ← arrayReceiver receiver
  readStore fun store => (store.elements id).toList

/-- Calls a function for an element. -/
def callFor (call : Caller) (callback receiver : Value) (index : Nat) (element : Value) :
    Run Value :=
  call callback .undefined [element, .ofNat index, receiver]

/-- The results of a function for some elements, behind those that are there already. -/
def mapElements (call : Caller) (callback receiver : Value) :
    (index : Nat) → (results : Array Value) → List Value → Run (Array Value)
  | _, results, [] => pure results
  | index, results, element :: rest => do
    let result ← callFor call callback receiver index element
    mapElements call callback receiver (index + 1) (results.push result) rest

/-- The elements for which a function gives a true value, behind those that are there already. -/
def filterElements (call : Caller) (callback receiver : Value) :
    (index : Nat) → (kept : Array Value) → List Value → Run (Array Value)
  | _, kept, [] => pure kept
  | index, kept, element :: rest => do
    let result ← callFor call callback receiver index element
    let kept := if result.holds then kept.push element else kept
    filterElements call callback receiver (index + 1) kept rest

/-- Calls a function for every element. -/
def forElements (call : Caller) (callback receiver : Value) :
    (index : Nat) → List Value → Run Unit
  | _, [] => pure ()
  | index, element :: rest => do
    let _ ← callFor call callback receiver index element
    forElements call callback receiver (index + 1) rest

/-- The first element for which a function gives a true value. -/
def findElement (call : Caller) (callback receiver : Value) :
    (index : Nat) → List Value → Run Value
  | _, [] => pure .undefined
  | index, element :: rest => do
    let result ← callFor call callback receiver index element
    if result.holds then pure element
    else findElement call callback receiver (index + 1) rest

/-- The last result of a function that is passed the result before it in front of the element. -/
def foldElements (call : Caller) (callback receiver : Value) :
    (index : Nat) → (result : Value) → List Value → Run Value
  | _, result, [] => pure result
  | index, result, element :: rest => do
    let result ← call callback .undefined [result, element, .ofNat index, receiver]
    foldElements call callback receiver (index + 1) result rest

/-- The text of an element of a joined array. -/
def joinedText (store : Store) : Value → String
  | .null => ""
  | .undefined => ""
  | value => store.text value

/-- The texts of some elements with a separator between them. -/
def joinElements (separator : String) (elements : List Value) : Run Value := do
  let joined ← readStore fun store => separator.intercalate (elements.map (joinedText store))
  pure (.string joined)

/-- What a method of arrays does. -/
def runArrayMethod (call : Caller) (method : ArrayMethod) (receiver : Value) (args : List Value) :
    Run Value :=
  match method with
  | .push => do
    let id ← arrayReceiver receiver
    changeStore (·.modifyArray id (· ++ args))
    let size ← readStore fun store => (store.elements id).size
    pure (.ofNat size)
  | .pop => do
    let id ← arrayReceiver receiver
    let last ← readStore fun store => (store.elements id).back?
    changeStore (·.modifyArray id Array.pop)
    pure (last.getD .undefined)
  | .pushFront => do
    let id ← arrayReceiver receiver
    changeStore (·.modifyArray id (args.toArray ++ ·))
    let size ← readStore fun store => (store.elements id).size
    pure (.ofNat size)
  | .popFront => do
    let id ← arrayReceiver receiver
    let first ← readStore fun store => (store.elements id)[0]?
    changeStore (·.modifyArray id fun elements => elements.extract 1 elements.size)
    pure (first.getD .undefined)
  | .map => do
    let callback ← callbackArgument args
    let elements ← elementsOf receiver
    let results ← mapElements call callback receiver 0 #[] elements
    allocateArray results
  | .filter => do
    let callback ← callbackArgument args
    let elements ← elementsOf receiver
    let kept ← filterElements call callback receiver 0 #[] elements
    allocateArray kept
  | .forEach => do
    let callback ← callbackArgument args
    let elements ← elementsOf receiver
    forElements call callback receiver 0 elements
    pure .undefined
  | .find => do
    let callback ← callbackArgument args
    let elements ← elementsOf receiver
    findElement call callback receiver 0 elements
  | .indexOf => do
    let elements ← elementsOf receiver
    let needle := argument args 0
    pure (positionValue (elements.findIdx? (·.strictEqual needle)))
  | .contains => do
    let elements ← elementsOf receiver
    let needle := argument args 0
    pure (.boolean (elements.any (·.sameValueZero needle)))
  | .fold => do
    let callback ← callbackArgument args
    let elements ← elementsOf receiver
    match args[1]?, elements with
    | some start, elements => foldElements call callback receiver 0 start elements
    | none, first :: rest => foldElements call callback receiver 1 first rest
    | none, [] => faultAt .emptyFold receiver
  | .join => do
    let elements ← elementsOf receiver
    match argument args 0 with
    | .undefined => joinElements "," elements
    | separator => do
      let separator ← text separator
      joinElements separator elements
  | .slice => do
    let elements ← elementsOf receiver
    allocateArray (slice elements (argument args 0) (argument args 1)).toArray

end DarijaScript.Builtins
