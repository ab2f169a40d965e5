import DarijaScript.Proofs.Evaluation.ConstructRules
import DarijaScript.Proofs.Evaluation.Scopes

/-!
# The rules of expressions in step

If the activities of two interpreters are in step, then so is everything that the rules of
expressions make of them.
-/

namespace DarijaScript.Setting

open Evaluation

/-- At these counters the activities of two interpreters are in step, on trees and values that are
known. -/
structure Agree (S : Setting) (depth nesting : Nat) (inner other : Interpreter) : Prop where
  statements : ∀ names settled (stmt : Stmt), stmt.Meets S.check → stmt.constants ⊆ names →
    S.InStep ⟨depth, nesting, names, settled⟩ ⟨depth, nesting, names, settled⟩
      (inner.statement stmt) (other.statement stmt) (Completion.Meets S.check)
  expressions : ∀ names settled (expr : Expr), expr.Meets S.check →
    S.InStep ⟨depth, nesting, names, settled⟩ ⟨depth, nesting, names, settled⟩
      (inner.expression expr) (other.expression expr) (Value.Meets S.check)
  calls : ∀ names settled, S.Calls ⟨depth, nesting, names, settled⟩ inner.call other.call

variable {S : Setting} {c : Context} {inner other : Interpreter}

variable (S c) in
/-- Runs in step stay so when their exceptions get a place. -/
def placedLogic : PlacedLogic S.check where
  toRunLogic := (S.stepLogic c).toRunLogic
  loose := S.stepLogic c
  scope := .scope
  receiver := .lookup (.inr rfl)
  assign := .assign

theorem locates {position : Position} : (S.placedLogic c).Locates position :=
  fun steps => steps.located position

variable (agree : S.Agree c.depth c.nesting inner other)

include agree

theorem Agree.statement {stmt : Stmt} (known : stmt.Meets S.check)
    (named : stmt.constants ⊆ c.constants) : (S.stepLogic c).Executes inner other stmt :=
  agree.statements c.constants c.settled stmt known named

theorem Agree.expression {expr : Expr} (known : expr.Meets S.check) :
    (S.stepLogic c).Evaluates inner other expr :=
  agree.expressions c.constants c.settled expr known

theorem Agree.call : S.Calls c inner.call other.call := agree.calls c.constants c.settled

theorem Agree.selects {property : Property} (known : property.Meets S.check) :
    (S.stepLogic c).Selects inner other property := by
  cases property with
  | named name => trivial
  | computed expr => exact agree.expression (Property.meets_iff.mp known)

theorem Agree.denotes {target : Expr} (known : target.Meets S.check) :
    (S.stepLogic c).Denotes inner other target := by
  unfold StepLogic.Denotes
  split
  · exact InStep.lookup (.inl (Expr.meets_iff.mp known))
  · obtain ⟨ofOwner, ofProperty⟩ := Expr.meets_iff.mp known
    exact ⟨agree.expression ofOwner, agree.selects ofProperty⟩
  · trivial

theorem Agree.called {target : Expr} (known : target.Meets S.check) :
    (S.placedLogic c).Calls inner other target := by
  unfold PlacedLogic.Calls
  split
  · obtain ⟨ofOwner, ofProperty⟩ := Expr.meets_iff.mp known
    exact ⟨agree.expression ofOwner, agree.selects ofProperty, locates⟩
  · exact agree.expression known

/-- The rule of expressions. -/
theorem InStep.expression {expr : Expr} (known : expr.Meets S.check) :
    S.InStep c c (Evaluation.expression inner expr) (Evaluation.expression other expr)
      (Value.Meets S.check) := by
  let L := S.placedLogic c
  have evaluates : ∀ {expr : Expr}, expr.Meets S.check → L.Evaluates inner other expr :=
    agree.expression
  have parts := Expr.meets_iff.mp known
  cases expr with
  | literal literal => exact L.literal
  | identifier name => exact L.identifier locates (InStep.lookup (.inl parts))
  | this => exact L.receiver
  | array elements => exact L.array fun element mem => evaluates (parts element mem)
  | object fields => exact L.object fun field mem => evaluates (parts field mem)
  | function f => exact L.function parts
  | unary op operand => exact L.unary (evaluates parts)
  | binary op left right => exact L.binary (evaluates parts.1) (evaluates parts.2)
  | logical op left right => exact L.logical (evaluates parts.1) (evaluates parts.2)
  | assign op target value position =>
    exact L.assignment locates (agree.denotes parts.1) (evaluates parts.2)
  | update op before target position => exact L.update locates (agree.denotes parts)
  | member owner property position =>
    exact L.member locates (evaluates parts.1) (agree.selects parts.2)
  | call target args position =>
    exact L.call locates agree.call (agree.called parts.1) fun arg mem => evaluates (parts.2 arg mem)
  | construct target args position =>
    exact L.construct locates agree.call (evaluates parts.1) fun arg mem =>
      evaluates (parts.2 arg mem)

end DarijaScript.Setting
