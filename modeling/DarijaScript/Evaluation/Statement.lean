import DarijaScript.Evaluation.Basic

/-!
# Executing statements

Functions declared among some statements are bound before the first of these is executed. Blocks,
loops, handlers and choices run in scopes of their own.
-/

namespace DarijaScript.Evaluation

open Run

variable (inner : Interpreter)

/-- Binds the functions declared among some statements. -/
def hoist : List Stmt → Run Unit
  | [] => pure ()
  | .defineFunction f :: rest => do
    match f.name with
    | none => hoist rest
    | some name =>
      let id ← scope
      define id name.name (.function f id) true
      hoist rest
  | _ :: rest => hoist rest

/-- Executes statements up to one that does not end normally. -/
def sequence : List Stmt → Run Completion
  | [] => pure .normal
  | stmt :: rest => do
    let flow ← inner.statement stmt
    if flow.isNormal then sequence rest else pure flow

/-- Executes statements in the active scope. -/
def items (stmts : List Stmt) : Run Completion := do
  hoist stmts
  sequence inner stmts

/-- Executes statements in a scope of their own. -/
def block (stmts : List Stmt) : Run Completion := do
  let id ← newScope
  inScope id (items inner stmts)

/-- A declaration. -/
def declaration (kind : DeclarationKind) (name : Identifier) (value : Option Expr) :
    Run Completion := do
  let value ←
    match value with
    | some expr => inner.expression expr
    | none => pure .undefined
  located name.position (declare name.name value (kind = .variable))
  pure .normal

/-- The expression has a true value. -/
def holds (test : Expr) : Run Bool := do
  let value ← inner.expression test
  pure value.holds

/-- A condition. -/
def conditional (test : Expr) (consequent : Stmt) (alternate : Option Stmt) : Run Completion := do
  if ← holds inner test then inner.statement consequent
  else
    match alternate with
    | some stmt => inner.statement stmt
    | none => pure .normal

/-- How a loop ends after a round of its body, if it does. -/
def afterRound : Completion → Option Completion
  | .normal | .next => none
  | .leave => some .normal
  | .giveBack value => some (.giveBack value)

/-- A round of a loop that tests first. -/
def whileRound (test : Expr) (body : Stmt) : Run (Option Completion) := do
  if ← holds inner test then
    let flow ← inner.statement body
    pure (afterRound flow)
  else pure (some .normal)

/-- A round of a loop that tests last. -/
def doWhileRound (body : Stmt) (test : Expr) : Run (Option Completion) := do
  let flow ← inner.statement body
  match afterRound flow with
  | some flow => pure (some flow)
  | none =>
    if ← holds inner test then pure none else pure (some .normal)

/-- The loop begins with a declaration, so that every round has variables of its own. -/
def declares : Option Stmt → Bool
  | some (.declare _ _ _) => true
  | _ => false

/-- A counting loop goes on: without a test it always does. -/
def goesOn : Option Expr → Run Bool
  | some test => holds inner test
  | none => pure true

/-- What a counting loop does after a round. The variables are renewed after the body and before the
update, so what the body made keeps those it has seen. -/
def stepOn (renews : Bool) (update : Option Expr) : Run Unit := do
  if renews then renewScope
  match update with
  | some update =>
    let _ ← inner.expression update
    pure ()
  | none => pure ()

/-- A round of a counting loop. -/
def forRound (renews : Bool) (test update : Option Expr) (body : Stmt) :
    Run (Option Completion) := do
  if ← goesOn inner test then
    let flow ← inner.statement body
    match afterRound flow with
    | some flow => pure (some flow)
    | none =>
      stepOn inner renews update
      pure none
  else pure (some .normal)

/-- A counting loop in the active scope. -/
def forLoop (rounds : Nat) (start : Option Stmt) (test update : Option Expr) (body : Stmt) :
    Run Completion := do
  match start with
  | some stmt =>
    let _ ← inner.statement stmt
    repeatUntil (forRound inner (declares start) test update body) rounds
  | none => repeatUntil (forRound inner false test update body) rounds

/-- The outcome of the handler in place of an exception; any other outcome is kept. -/
def handle (handler : Option (Identifier × List Stmt)) (result : Except Exception Completion) :
    Run (Except Exception Completion) :=
  match result, handler with
  | .error exception, some (name, body) => do
    let id ← newScope
    define id name.name exception.value true
    outcome (inScope id (items inner body))
  | result, _ => pure result

/-- Statements with a handler and statements that run in every case. If these do not end normally,
that replaces every other outcome. -/
def attempt (body : List Stmt) (handler : Option (Identifier × List Stmt))
    (finalizer : Option (List Stmt)) : Run Completion := do
  let result ← outcome (block inner body)
  let result ← handle inner handler result
  match finalizer with
  | none => ofOutcome result
  | some body =>
    let flow ← block inner body
    if flow.isNormal then ofOutcome result else pure flow

/-- The clauses from the first one whose test has the given value. -/
def matchingClauses (value : Value) : List Case → Run (Option (List Case))
  | [] => pure none
  | clause :: rest =>
    match clause.test with
    | none => matchingClauses value rest
    | some test => do
      let found ← inner.expression test
      if found.strictEqual value then pure (some (clause :: rest)) else matchingClauses value rest

/-- The clauses from the first one without a test. -/
def defaultClauses : List Case → List Case := List.dropWhile fun clause => clause.test.isSome

/-- Executes clauses up to one that does not end normally; leaving a clause ends the choice. -/
def clauses : List Case → Run Completion
  | [] => pure .normal
  | clause :: rest => do
    let flow ← items inner clause.body
    match flow with
    | .normal => clauses rest
    | .leave => pure .normal
    | flow => pure flow

/-- A choice. All its clauses share one scope, which there is only if one of them is executed. -/
def choice (subject : Expr) (cases : List Case) : Run Completion := do
  let value ← inner.expression subject
  let matching ← matchingClauses inner value cases
  match matching.getD (defaultClauses cases) with
  | [] => pure .normal
  | chosen =>
    let id ← newScope
    inScope id (clauses inner chosen)

/-- How a statement ends; a loop runs for at most the given number of rounds. -/
def statement (rounds : Nat) : Stmt → Run Completion
  | .declare kind name value => declaration inner kind name value
  | .defineFunction _ => pure .normal
  | .block body => block inner body
  | .conditional test consequent alternate => conditional inner test consequent alternate
  | .whileLoop test body => repeatUntil (whileRound inner test body) rounds
  | .doWhileLoop body test => repeatUntil (doWhileRound inner body test) rounds
  | .forLoop start test update body => do
    let id ← newScope
    inScope id (forLoop inner rounds start test update body)
  | .attempt body handler finalizer => attempt inner body handler finalizer
  | .choice subject cases => choice inner subject cases
  | .giveBack none => pure (.giveBack .undefined)
  | .giveBack (some expr) => do
    let value ← inner.expression expr
    pure (.giveBack value)
  | .leave => pure .leave
  | .next => pure .next
  | .evaluate expr => do
    let _ ← inner.expression expr
    pure .normal
  | .empty => pure .normal

end DarijaScript.Evaluation
