import DarijaScript.Machine.Fault
import DarijaScript.Value.Text

/-!
# Members

Fields of objects, elements of arrays, characters of strings, their lengths and their methods. A
key that denotes an index selects an element; every other key is taken by its text.
-/

namespace DarijaScript

/-- The name under which arrays and strings have their length. -/
def lengthName : String := "twil"

/-- Arrays never grow to more elements than this by assignment. -/
def maxArrayLength : Nat := 2 ^ 20

namespace Value

/-- The value is a number. -/
def isNumber : Value → Bool
  | number _ => true
  | _ => false

end Value

namespace Store

/-- The element of a sequence that a key selects, if the key is an index or at least a number. -/
def element? (key : Value) (select : Nat → Option Value) : Option Value :=
  match key.index? with
  | some i => some ((select i).getD .undefined)
  | none => if key.isNumber then some .undefined else none

/-- The member of a value that a key selects. -/
def member (store : Store) (owner key : Value) : Except Fault Value :=
  match owner with
  | .object id =>
    let name := store.text key
    match (store.fields id).get? name with
    | some value => .ok value
    | none => .error (.undefinedMember name)
  | .array id =>
    match element? key fun i => (store.elements id)[i]? with
    | some value => .ok value
    | none =>
      let name := store.text key
      if name = lengthName then .ok (.ofNat (store.elements id).size)
      else
        match ArrayMethod.ofName? name with
        | some method => .ok (.arrayMethod method id)
        | none => .error (.undefinedMember name)
  | .string text =>
    match element? key fun i => text.toList[i]?.map fun c => .string c.toString with
    | some value => .ok value
    | none =>
      let name := store.text key
      if name = lengthName then .ok (.ofNat text.length)
      else
        match StringMethod.ofName? name with
        | some method => .ok (.stringMethod method text)
        | none => .error (.undefinedMember name)
  | _ => .error (.memberOwner (store.literal owner))

/-- A place in the store that a value can be assigned to. -/
inductive Slot where
  | field (id : ObjectId) (name : String)
  | element (id : ArrayId) (index : Nat)
  deriving Repr, DecidableEq

/-- The place that a key selects in a value. -/
def slot (store : Store) (owner key : Value) : Except Fault Slot :=
  match owner with
  | .object id => .ok (.field id (store.text key))
  | .array id =>
    match key.index?.filter (· < maxArrayLength) with
    | some index => .ok (.element id index)
    | none => .error (.arrayIndex (store.literal key))
  | _ => .error (.assignmentTarget (store.literal owner))

/-- Elements with one of them replaced; behind the last one the gap is filled with undefined. -/
def setElement (elements : Array Value) (index : Nat) (value : Value) : Array Value :=
  if index < elements.size then elements.setIfInBounds index value
  else (elements ++ Array.replicate (index - elements.size) Value.undefined).push value

/-- Assigns to a place. -/
def write (store : Store) (slot : Slot) (value : Value) : Store :=
  match slot with
  | .field id name => store.modifyObject id (·.set name value)
  | .element id index => store.modifyArray id (setElement · index value)

/-- Assigns to the place that a key selects in a value. -/
def assignMember (store : Store) (owner key value : Value) : Except Fault Store :=
  (store.slot owner key).map (store.write · value)

end Store

end DarijaScript
