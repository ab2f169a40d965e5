import DarijaScript.Builtin.ArrayMethods
import DarijaScript.Builtin.Function
import DarijaScript.Evaluation.Statement

/-!
# Calling values

A function of the program runs in a new scope inside the one in which it was made, whatever scope
calls it. Built-in functions and methods run in the active scope.
-/

namespace DarijaScript.Evaluation

open Run

variable (inner : Interpreter)

/-- Binds parameters in a scope; missing arguments are undefined and further ones are dropped. -/
def bindParameters (id : ScopeId) : List Identifier → List Value → Run Unit
  | [], _ => pure ()
  | name :: names, [] => do
    define id name.name .undefined true
    bindParameters id names []
  | name :: names, value :: values => do
    define id name.name value true
    bindParameters id names values

/-- Binds the name of a function, if it has one, to the function itself. -/
def bindOwnName (id : ScopeId) (f : Function) (closure : ScopeId) : Run Unit :=
  match f.name with
  | some name => define id name.name (.function f closure) true
  | none => pure ()

/-- Binds what a call binds: the function under its own name, the receiver and the parameters. -/
def bindCall (f : Function) (closure : ScopeId) (receiver : Value) (args : List Value)
    (id : ScopeId) : Run Unit := do
  bindOwnName id f closure
  define id Keyword.hadi.text receiver false
  bindParameters id f.params args

/-- The scope of a call, inside the one in which the function was made. -/
def callScope (f : Function) (closure : ScopeId) (receiver : Value) (args : List Value) :
    Run ScopeId := do
  let id ← newChild closure
  bindCall f closure receiver args id
  pure id

/-- Calls a function of the program. -/
def callFunction (f : Function) (closure : ScopeId) (receiver : Value) (args : List Value) :
    Run Value := do
  if ← mayCall then
    let id ← callScope f closure receiver args
    let flow ← asCall (inScope id (items inner f.body))
    pure flow.result
  else fault (.callDepth f.signature)

/-- Calls a value. -/
def invoke (callee receiver : Value) (args : List Value) : Run Value :=
  match callee with
  | .function f closure => callFunction inner f closure receiver args
  | .builtin builtin => Builtins.run builtin args
  | .arrayMethod method id => Builtins.runArrayMethod inner.call method (.array id) args
  | .stringMethod method text => Builtins.runStringMethod method (.string text) args
  | other => faultAt .notAFunction other

end DarijaScript.Evaluation
