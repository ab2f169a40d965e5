import DarijaScript.Proofs.Evaluation.CallRules
import DarijaScript.Proofs.Evaluation.Judgement.Statements

/-!
# Judgements about the interpreter

A judgement is kept by calls as well. If the limits make no difference to it, it holds of all that the
interpreter does under any bound, by induction on the bound.
-/

namespace DarijaScript

open Run in
/-- What the call of a function of the program does once it may begin. -/
def Evaluation.executeFunction (inner : Interpreter) (f : Function) (closure : ScopeId)
    (receiver : Value) (args : List Value) : Run Value := do
  let id ← callScope f closure receiver args
  let flow ← asCall (inScope id (items inner f.body))
  pure flow.result

/-- A call begins unless too many are going on. -/
theorem Evaluation.callFunction_eq_ite (inner : Interpreter) (f : Function) (closure : ScopeId)
    (receiver : Value) (args : List Value) (machine : Machine) :
    callFunction inner f closure receiver args machine =
      if machine.depth < machine.limits.calls then
        executeFunction inner f closure receiver args machine
      else Run.fault (.callDepth f.signature) machine := by
  by_cases room : machine.depth < machine.limits.calls
  · have asked : Run.mayCall machine = .ok true machine := by rw [Run.mayCall, decide_eq_true room]
    rw [if_pos room]
    exact Run.bind_ok asked
  · have asked : Run.mayCall machine = .ok false machine := by
      rw [Run.mayCall, decide_eq_false room]
    rw [if_neg room]
    exact Run.bind_ok asked

namespace Judgement

variable {J : Judgement} {c : J.Context} {inner other : Interpreter} {callee receiver : Value}
  {args : List Value}

theorem executeFunction [J.Entering] (rows : J.Rows inner other) {f : Function}
    {closure : ScopeId} (known : J.Knows (.function f closure)) (owner : J.Knows receiver)
    (passed : ∀ arg ∈ args, J.Knows arg) :
    J.relates c (Evaluation.executeFunction inner f closure receiver args)
      (Evaluation.executeFunction other f closure receiver args) J.Knows := by
  have marked : f.Marked J.good := (Function.meets_iff.mp known).1
  have executed := J.asCall (rows.items (J.owns_inside c) (Function.marked_iff.mp marked).2.2)
  have called := Entering.inCall closure marked owner passed executed
  have result := J.bind called fun flow known => J.pure (Setting.meets_result known)
  simpa only [Evaluation.executeFunction, bind_assoc, Run.asCall_inScope] using result

theorem callFunction [J.Entering] [J.Limited] (rows : J.Rows inner other)
    {f : Function} {closure : ScopeId} (known : J.Knows (.function f closure))
    (owner : J.Knows receiver) (passed : ∀ arg ∈ args, J.Knows arg) :
    J.relates (J.loose c) (Evaluation.callFunction inner f closure receiver args)
      (Evaluation.callFunction other f closure receiver args) J.Knows := by
  apply J.bind Limited.mayCall
  intro more _
  cases more
  · exact (J.stepLogic c).fault rfl
  · exact executeFunction rows known owner passed

/-- The rule of calls, but for functions of the program. -/
theorem invoke_foreign (calls : J.Calls c inner.call other.call) (foreign : callee.isOwn = false)
    (passed : ∀ arg ∈ args, J.Knows arg) :
    J.relates (J.loose c) (Evaluation.invoke inner callee receiver args)
      (Evaluation.invoke other callee receiver args) J.Knows := by
  cases callee with
  | function f closure => cases foreign
  | builtin b => exact (J.stepLogic c).builtin b (fun _ => trivial) passed
  | arrayMethod method id => exact (J.stepLogic c).arrayMethod calls method id passed
  | stringMethod method text => exact (J.stepLogic c).stringMethod method text
  | _ => exact (J.stepLogic c).faultAt fun _ => rfl

/-- The rule of calls. -/
theorem invoke [J.Entering] [J.Limited] (rows : J.Rows inner other) :
    J.Calls c (Evaluation.invoke inner) (Evaluation.invoke other) := by
  intro callee receiver args known owner passed
  cases callee with
  | function f closure => exact callFunction rows known owner passed
  | _ => exact invoke_foreign rows.call rfl passed

/-- Under the bound zero nothing begins. -/
theorem agree_zero : J.Agree (interpreter 0) (interpreter 0) where
  statement := fun _ _ => J.outOfFuel
  expression := fun _ => J.outOfFuel
  call := fun _ _ _ _ _ _ => J.outOfFuel

/-- All that the interpreter does is judged. -/
theorem respects_interpreter [J.Scoped] [J.Entering] [J.Limited] (fuel : Nat) :
    J.Respects (interpreter fuel) := by
  induction fuel with
  | zero => exact agree_zero
  | succ fuel ih =>
    exact {
      statement := fun owns marked => Limited.deeper (statement ih fuel (fun _ => owns) marked)
      expression := fun marked => Limited.deeper (expression ih.values marked)
      call := invoke ih.rows }

/-- The judgement holds of a statement that opens its own scope wherever it stands. -/
theorem opensScope [J.Scoped] [J.Entering] [J.Limited] (fuel : Nat) {stmt : Stmt}
    (opens : stmt.opensScope = true) (marked : stmt.Marked J.good) :
    J.holds c ((interpreter fuel).statement stmt) J.KnowsFlow := by
  cases fuel with
  | zero => exact J.outOfFuel
  | succ fuel =>
    have opened : stmt.opensScope = false → J.owns c := by simp [opens]
    exact Limited.deeper (statement (respects_interpreter fuel) fuel opened marked)

/-! ### Programs -/

variable (J) in
/-- The judgement holds of what happens between the callbacks that wait after a program. -/
class Draining : Prop where
  next : ∀ {c}, J.holds c Run.nextAppointment fun waiting => ∀ appointment ∈ waiting,
    J.Knows appointment.callback ∧ ∀ arg ∈ appointment.args, J.Knows arg
  limit : ∀ {c}, J.raises (J.loose c) (.fault (.firingLimit maxFirings) .unknown)

/-- The waiting callbacks are judged. -/
theorem drain [J.Draining] (values : J.Values inner other) (firings : Nat) :
    J.relates (J.loose c) (Evaluation.drain inner firings) (Evaluation.drain other firings)
      fun _ => True :=
  (J.stepLogic c).drain Draining.next (J.raise Draining.limit) values.call firings

/-- A program and the callbacks after it are judged. -/
theorem program [J.Draining] (rows : J.Rows inner other) {stmts : List Stmt}
    (owns : J.owns (J.loose c)) (marked : ∀ stmt ∈ stmts, stmt.Marked J.good) :
    J.relates (J.loose c) (Evaluation.program inner stmts) (Evaluation.program other stmts)
      fun _ => True :=
  J.bind (rows.items owns marked) fun _ _ => drain rows.toValues maxFirings

end Judgement

end DarijaScript
