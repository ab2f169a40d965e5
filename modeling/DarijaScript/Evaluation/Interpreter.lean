import DarijaScript.Evaluation.Call
import DarijaScript.Evaluation.Expression

/-!
# The interpreter

The rules of statements, expressions and calls closed up over each other. `fuel` bounds how deep the
activities contain each other and how often a loop goes round; a run that does not reach this bound
gives the same answer for every greater one.
-/

namespace DarijaScript

/-- The activities under a bound. -/
def interpreter : (fuel : Nat) → Interpreter
  | 0 =>
    { statement := fun _ => throw .outOfFuel
      expression := fun _ => throw .outOfFuel
      call := fun _ _ _ => throw .outOfFuel }
  | fuel + 1 =>
    { statement := fun stmt => Run.deeper (Evaluation.statement (interpreter fuel) fuel stmt)
      expression := fun expr => Run.deeper (Evaluation.expression (interpreter fuel) expr)
      call := fun callee receiver args =>
        Evaluation.invoke (interpreter fuel) callee receiver args }

namespace Evaluation

open Run

variable (inner : Interpreter)

/-- Calls the waiting callbacks, at most the given number of them. -/
def drain : (firings : Nat) → Run Unit
  | 0 => do
    match ← nextAppointment with
    | none => pure ()
    | some _ => fault (.firingLimit maxFirings)
  | firings + 1 => do
    match ← nextAppointment with
    | none => pure ()
    | some appointment =>
      let _ ← inner.call appointment.callback .undefined appointment.args
      changeAgenda (·.renew appointment)
      drain firings

/-- A program and then the callbacks that it let wait. -/
def program (stmts : List Stmt) : Run Unit := do
  let _ ← items inner stmts
  drain inner maxFirings

end Evaluation

namespace Machine

/-- Executes the statements of a program in the active scope. -/
def execute (fuel : Nat) (program : List Stmt) : Run Completion :=
  Evaluation.items (interpreter fuel) program

/-- Evaluates an expression. -/
def evaluate (fuel : Nat) (expr : Expr) : Run Value := (interpreter fuel).expression expr

/-- Calls a value. -/
def call (fuel : Nat) (callee receiver : Value) (args : List Value) : Run Value :=
  (interpreter fuel).call callee receiver args

/-- Executes a program and then the callbacks that it let wait. -/
def executeAll (fuel : Nat) (program : List Stmt) : Run Unit :=
  Evaluation.program (interpreter fuel) program

end Machine

end DarijaScript
