import DarijaScript.Syntax.Position
import DarijaScript.Value.Basic

/-!
# Faults and exceptions

What stops a statement before its end: a fault that the evaluation runs into, or a value that the
program raises. Either may have no place yet; it then gets that of the first construct around it
that has one.
-/

namespace DarijaScript

/-- The faults of a running program. The text in a fault is the thing at which it occurred. -/
inductive Fault where
  | undefinedVariable (name : String)
  | constantAssignment (name : String)
  | redeclaration (name : String)
  | assignmentTarget (shown : String)
  | arrayIndex (shown : String)
  | notAFunction (shown : String)
  | notAConstructor (shown : String)
  | undefinedMember (name : String)
  | memberOwner (shown : String)
  | tooManyArguments (count : Nat)
  | callDepth (shown : String)
  | firingLimit (limit : Nat)
  | nestingLimit (limit : Nat)
  | expectedFunction (shown : String)
  | expectedContainer (shown : String)
  | expectedDate (shown : String)
  | emptyFold (shown : String)
  deriving Repr, DecidableEq

namespace Fault

/-- A wording and the thing that it is about. -/
def about (wording shown : String) : String := wording ++ " `" ++ shown ++ "`"

/-- The wording of a fault. -/
def message : Fault → String
  | undefinedVariable name => about "undefined variable" name
  | constantAssignment name => about "assignment to constant" name
  | redeclaration name => about "variable already declared in this scope" name
  | assignmentTarget shown => about "cannot assign to a property of" shown
  | arrayIndex shown => about "invalid array index" shown
  | notAFunction shown => about "not a function" shown
  | notAConstructor shown => about "not a constructor" shown
  | undefinedMember name => about "undefined member" name
  | memberOwner shown => about "cannot read a property of" shown
  | tooManyArguments count => about "calls cannot pass more than 255 arguments, found" count.repr
  | callDepth shown => about "maximum call depth exceeded in" shown
  | firingLimit limit => about "timer callbacks exceeded the limit of" limit.repr
  | nestingLimit limit => about "evaluation nested deeper than the limit of" limit.repr
  | expectedFunction shown => about "expected a function, found" shown
  | expectedContainer shown => about "expected an object or array, found" shown
  | expectedDate shown => about "expected a date, found" shown
  | emptyFold shown => about "`jme3` of an empty array with no initial value" shown

end Fault

/-- A fault or a raised value on its way outwards. -/
inductive Exception where
  | fault (fault : Fault) (position : Position)
  | raised (value : Value) (position : Position)

namespace Exception

/-- The place of an exception. -/
def position : Exception → Position
  | fault _ position => position
  | raised _ position => position

/-- Gives a place to an exception that has none. -/
def located (place : Position) : Exception → Exception
  | fault f position => fault f (if position.line = 0 then place else position)
  | raised value position => raised value (if position.line = 0 then place else position)

/-- What a handler is given: the wording of a fault, or the raised value itself. -/
def value : Exception → Value
  | fault f _ => .string f.message
  | raised value _ => value

end Exception

end DarijaScript
