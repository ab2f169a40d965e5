import DarijaScript.Machine.Basic

/-!
# Evaluation

How statements end, and the activities that contain each other: executing a statement, evaluating
an expression and calling a value.
-/

namespace DarijaScript

/-- How a statement ends. -/
inductive Completion where
  | normal
  | giveBack (value : Value)
  | leave
  | next

/-- The statement ended normally. -/
def Completion.isNormal : Completion → Bool
  | normal => true
  | _ => false

/-- The value of a call whose body ends so. -/
def Completion.result : Completion → Value
  | giveBack value => value
  | _ => .undefined

/-- The activities that contain each other, as the rules of one construct see them. -/
structure Interpreter where
  statement : Stmt → Run Completion
  expression : Expr → Run Value
  call : (callee receiver : Value) → List Value → Run Value

end DarijaScript
