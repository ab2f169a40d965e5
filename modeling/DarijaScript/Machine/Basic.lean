import DarijaScript.Machine.Fault
import DarijaScript.Machine.Host
import DarijaScript.Machine.Agenda
import DarijaScript.Store.Scope
import DarijaScript.Value.Member
import DarijaScript.Value.Operation

/-!
# The machine

The state of a running program and the steps that every rule of evaluation is made of. A step gives
a value or is interrupted, and keeps the state in which that happened. What a construct changes for
its parts only, such as the active scope, is set back when the construct ends in whatever way.
-/

namespace DarijaScript

/-- How deep calls and how deep statements and expressions may nest. -/
structure Limits where
  calls : Nat
  nesting : Nat
  deriving Repr, DecidableEq

/-- The limits under which programs run. -/
def Limits.standard : Limits := ⟨64, 192⟩

/-- The most callbacks that are called after one program. -/
def maxFirings : Nat := 10000

/-- The state of a running program. -/
structure Machine where
  store : Store
  /-- The active scope. -/
  scope : ScopeId
  /-- The calls of functions of the program that are going on. -/
  depth : Nat
  /-- The statements and expressions that are being evaluated. -/
  nesting : Nat
  limits : Limits
  agenda : Agenda
  /-- The lines printed so far. -/
  output : Array String
  host : Host
  log : HostLog

/-- The machine in which a program starts. -/
def Machine.initial (host : Host) : Machine where
  store := Store.initial
  scope := Store.programScope
  depth := 0
  nesting := 0
  limits := .standard
  agenda := .empty
  output := #[]
  host := host
  log := #[]

/-- Why a step did not give a value. -/
inductive Interruption where
  | exception (exception : Exception)
  /-- The bound on the length of a run was reached; a greater bound may give an answer. -/
  | outOfFuel

/-- Steps of the machine. -/
abbrev Run := EStateM Interruption Machine

namespace Run

/-- Ends with a fault that has no place yet. -/
def fault {α : Type} (f : Fault) : Run α := throw (.exception (.fault f .unknown))

/-- Gives a place to an exception of the steps that has none. -/
def located {α : Type} (position : Position) (steps : Run α) : Run α := fun machine =>
  match steps machine with
  | .ok value machine => .ok value machine
  | .error (.exception exception) machine =>
    .error (.exception (exception.located position)) machine
  | .error .outOfFuel machine => .error .outOfFuel machine

/-- The outcome of some steps, which may be an exception. -/
def outcome {α : Type} (steps : Run α) : Run (Except Exception α) := fun machine =>
  match steps machine with
  | .ok value machine => .ok (.ok value) machine
  | .error (.exception exception) machine => .ok (.error exception) machine
  | .error .outOfFuel machine => .error .outOfFuel machine

/-- A value, or the exception in its place. -/
def ofOutcome {α : Type} : Except Exception α → Run α
  | .ok value => pure value
  | .error exception => throw (.exception exception)

/-- A value, or the fault in its place. -/
def ofExcept {α : Type} : Except Fault α → Run α
  | .ok value => pure value
  | .error f => fault f

/-- Repeats a round until it gives a result, at most the given number of times. -/
def repeatUntil {α : Type} (round : Run (Option α)) : (rounds : Nat) → Run α
  | 0 => throw .outOfFuel
  | rounds + 1 => do
    match ← round with
    | some result => pure result
    | none => repeatUntil round rounds

/-! ### The store -/

/-- Reads something from the store. -/
def readStore {α : Type} (read : Store → α) : Run α := fun machine =>
  .ok (read machine.store) machine

/-- Changes the store. -/
def changeStore (change : Store → Store) : Run Unit := fun machine =>
  .ok () { machine with store := change machine.store }

/-- The text of a value on its own. -/
def text (value : Value) : Run String := readStore (·.text value)

/-- The text of a value as it stands inside arrays and objects. -/
def literal (value : Value) : Run String := readStore (·.literal value)

/-- Ends with a fault told with a value. -/
def faultAt {α : Type} (f : String → Fault) (value : Value) : Run α := do
  let shown ← literal value
  fault (f shown)

/-- A new object. -/
def allocateObject (fields : Fields) : Run Value := do
  let id ← readStore (·.objects.size)
  changeStore (·.addObject fields)
  pure (.object id)

/-- A new array. -/
def allocateArray (elements : Array Value) : Run Value := do
  let id ← readStore (·.arrays.size)
  changeStore (·.addArray elements)
  pure (.array id)

/-- The member of a value that a key selects. -/
def member (owner key : Value) : Run Value := do
  let found ← readStore (·.member owner key)
  ofExcept found

/-- Assigns to the place that a key selects in a value. -/
def assignMember (owner key value : Value) : Run Unit := do
  let slot ← readStore (·.slot owner key)
  let slot ← ofExcept slot
  changeStore (·.write slot value)

/-! ### Scopes -/

/-- The active scope. -/
def scope : Run ScopeId := fun machine => .ok machine.scope machine

/-- The value of a name. -/
def lookup (name : String) : Run Value := do
  let id ← scope
  match ← readStore (·.lookup? id name) with
  | some value => pure value
  | none => fault (.undefinedVariable name)

/-- The name has a value. -/
def isBound (name : String) : Run Bool := do
  let id ← scope
  readStore (·.contains id name)

/-- Assigns to a name. -/
def assign (name : String) (value : Value) : Run Unit := do
  let id ← scope
  match ← readStore (·.resolve? id name) with
  | some (owner, binding) =>
    if binding.assignable then changeStore (·.define owner name ⟨value, true⟩)
    else fault (.constantAssignment name)
  | none => fault (.undefinedVariable name)

/-- Binds a name in a scope, whatever it was bound to there. -/
def define (id : ScopeId) (name : String) (value : Value) (assignable : Bool) : Run Unit :=
  changeStore (·.define id name ⟨value, assignable⟩)

/-- Binds a name in the active scope, where it must not be bound yet. -/
def declare (name : String) (value : Value) (assignable : Bool) : Run Unit := do
  let id ← scope
  if ← readStore (·.declares id name) then fault (.redeclaration name)
  else define id name value assignable

/-- A new scope inside another one. -/
def newChild (parent : ScopeId) : Run ScopeId := do
  let id ← readStore (·.nextScope)
  changeStore (·.addChild parent)
  pure id

/-- A new scope inside the active one. -/
def newScope : Run ScopeId := do
  let id ← scope
  newChild id

/-- Goes on in a copy of the active scope. -/
def renewScope : Run Unit := do
  let id ← scope
  let copy ← readStore (·.nextScope)
  changeStore (·.addSnapshot id)
  modify fun machine => { machine with scope := copy }

/-- Makes a scope the active one for some steps. -/
def inScope {α : Type} (id : ScopeId) (steps : Run α) : Run α := fun machine =>
  let active := machine.scope
  match steps { machine with scope := id } with
  | .ok value machine => .ok value { machine with scope := active }
  | .error interruption machine => .error interruption { machine with scope := active }

/-! ### Limits -/

/-- Evaluates one level deeper, unless that is too deep. -/
def deeper {α : Type} (steps : Run α) : Run α := fun machine =>
  let nesting := machine.nesting
  if machine.limits.nesting ≤ nesting then
    fault (.nestingLimit machine.limits.nesting) machine
  else
    match steps { machine with nesting := nesting + 1 } with
    | .ok value machine => .ok value { machine with nesting := nesting }
    | .error interruption machine => .error interruption { machine with nesting := nesting }

/-- One more call may begin. -/
def mayCall : Run Bool := fun machine => .ok (decide (machine.depth < machine.limits.calls)) machine

/-- Counts some steps as a call. -/
def asCall {α : Type} (steps : Run α) : Run α := fun machine =>
  let depth := machine.depth
  match steps { machine with depth := depth + 1 } with
  | .ok value machine => .ok value { machine with depth := depth }
  | .error interruption machine => .error interruption { machine with depth := depth }

/-! ### The surroundings -/

/-- Prints a line. -/
def print (line : String) : Run Unit :=
  modify fun machine => { machine with output := machine.output.push line }

/-- Calls the host. -/
def callHost {α : Type} (call : HostCall) (answer : Host → HostLog → α) : Run α := fun machine =>
  let result := answer machine.host machine.log
  .ok result { machine with log := machine.log.push call }

/-- The time of the host, moved on by the time that the waiting for callbacks has taken. -/
def currentTime : Run Float := do
  let now ← callHost .now (·.now ·)
  fun machine => .ok (now + machine.agenda.clock) machine

/-- Lets a callback wait, and gives its handle. -/
def schedule (callback : Value) (delay : Float) (args : List Value) (repeats : Bool) : Run Nat :=
  fun machine =>
    let (id, agenda) := machine.agenda.schedule callback delay args repeats
    .ok id { machine with agenda := agenda }

/-- Changes the waiting callbacks. -/
def changeAgenda (change : Agenda → Agenda) : Run Unit := fun machine =>
  .ok () { machine with agenda := change machine.agenda }

/-- Takes out the callback to be called next. -/
def nextAppointment : Run (Option Appointment) := fun machine =>
  match machine.agenda.pop with
  | none => .ok none machine
  | some (appointment, agenda) => .ok (some appointment) { machine with agenda := agenda }

end Run

end DarijaScript
