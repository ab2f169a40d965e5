import DarijaScript.Evaluation.Basic
import DarijaScript.Grammar.Stream
import DarijaScript.Syntax.Printer

/-!
# Evaluating expressions

Operands are evaluated from left to right. The target of an assignment is resolved, and for a
compound assignment read, before the value on the right is evaluated.
-/

namespace DarijaScript.Evaluation

open Run

variable (inner : Interpreter)

/-- The values of some expressions, in order. -/
def expressions : List Expr → Run (List Value)
  | [] => pure []
  | expr :: rest => do
    let value ← inner.expression expr
    let values ← expressions rest
    pure (value :: values)

/-- The values of some fields, in order. -/
def entries : List (String × Expr) → Run (List (String × Value))
  | [] => pure []
  | (key, expr) :: rest => do
    let value ← inner.expression expr
    let values ← entries rest
    pure ((key, value) :: values)

/-- The value of an operator applied to one value. -/
def unaryValue : UnaryOp → Value → Value
  | .not, value => .boolean (!value.holds)
  | .negate, value => .number (-value.toNumber)
  | .toNumber, value => .number value.toNumber
  | .typeOf, value => .string value.typeName

/-- An operator of one operand. The type of a name that is not bound is that of undefined. -/
def unary (op : UnaryOp) (operand : Expr) : Run Value := do
  let isUnbound ←
    match op, operand with
    | .typeOf, .identifier name => do
      let bound ← isBound name.name
      pure (!bound)
    | _, _ => pure false
  if isUnbound then pure (.string Value.undefined.typeName)
  else
    let value ← inner.expression operand
    pure (unaryValue op value)

/-- An operator that leaves out its right operand when the left one decides. -/
def logical (op : Connective) (left right : Expr) : Run Value := do
  let value ← inner.expression left
  let decided :=
    match op with
    | .or => value.holds
    | .and => !value.holds
  if decided then pure value else inner.expression right

/-- The key that a selector denotes. -/
def key : Property → Run Value
  | .named name => pure (.string name)
  | .computed expr => inner.expression expr

/-- What an assignment assigns to. -/
inductive Reference where
  | variable (name : String)
  | member (owner key : Value)

/-- The place that an expression denotes. -/
def reference : Expr → Run Reference
  | .identifier name => pure (.variable name.name)
  | .member owner property _ => do
    let owner ← inner.expression owner
    let key ← key inner property
    pure (.member owner key)
  | other => fault (.assignmentTarget other.text)

/-- The value in a place. -/
def readReference : Reference → Run Value
  | .variable name => lookup name
  | .member owner key => member owner key

/-- Puts a value into a place. -/
def writeReference (ref : Reference) (value : Value) : Run Unit :=
  match ref with
  | .variable name => assign name value
  | .member owner key => assignMember owner key value

/-- An assignment, whose value is the one assigned. -/
def assignment (op : AssignmentOp) (target value : Expr) (position : Position) : Run Value := do
  let ref ← located position (reference inner target)
  let value ←
    match op.operation? with
    | none => inner.expression value
    | some operation => do
      let current ← located position (readReference ref)
      let operand ← inner.expression value
      readStore (·.apply operation current operand)
  located position (writeReference ref value)
  pure value

/-- A change by one. -/
def update (op : StepOp) (before : Bool) (target : Expr) (position : Position) : Run Value := do
  let ref ← located position (reference inner target)
  let current ← located position (readReference ref)
  let old := current.toNumber
  let new :=
    match op with
    | .increment => old + 1
    | .decrement => old - 1
  located position (writeReference ref (.number new))
  pure (.number (if before then new else old))

/-- The values of arguments, of which there must not be too many. -/
def arguments (args : List Expr) : Run (List Value) :=
  if maxArguments < args.length then fault (.tooManyArguments args.length)
  else expressions inner args

/-- What a call calls and its receiver, which is the owner of a member that is called. -/
def callee : Expr → Run (Value × Value)
  | .member owner property position => do
    let owner ← inner.expression owner
    let key ← key inner property
    let f ← located position (member owner key)
    pure (f, owner)
  | other => do
    let f ← inner.expression other
    pure (f, .undefined)

/-- A call. -/
def call (target : Expr) (args : List Expr) (position : Position) : Run Value := do
  let (f, receiver) ← callee inner target
  let args ← located position (arguments inner args)
  located position (inner.call f receiver args)

/-- The construction of an object: a function of the program is called with a new object, which is
the result unless the function gives an object or array of its own. -/
def construct (target : Expr) (args : List Expr) (position : Position) : Run Value := do
  let constructor ← inner.expression target
  let args ← located position (arguments inner args)
  match constructor with
  | .function _ _ => do
    let object ← allocateObject []
    let result ← located position (inner.call constructor object args)
    match result with
    | .object _ | .array _ => pure result
    | _ => pure object
  | .builtin _ | .arrayMethod _ _ | .stringMethod _ _ =>
    located position (inner.call constructor .undefined args)
  | other => located position (faultAt .notAConstructor other)

/-- The value of an expression. -/
def expression : Expr → Run Value
  | .literal literal => pure literal.value
  | .identifier name => located name.position (lookup name.name)
  | .this => lookup Keyword.hadi.text
  | .array elements => do
    let values ← expressions inner elements
    allocateArray values.toArray
  | .object fields => do
    let values ← entries inner fields
    allocateObject (Fields.ofEntries values)
  | .function f => do
    let id ← scope
    pure (.function f id)
  | .unary op operand => unary inner op operand
  | .binary op left right => do
    let left ← inner.expression left
    let right ← inner.expression right
    readStore (·.apply op left right)
  | .logical op left right => logical inner op left right
  | .assign op target value position => assignment inner op target value position
  | .update op before target position => update inner op before target position
  | .member owner property position => do
    let owner ← inner.expression owner
    let key ← key inner property
    located position (member owner key)
  | .call target args position => call inner target args position
  | .construct target args position => construct inner target args position

end DarijaScript.Evaluation
