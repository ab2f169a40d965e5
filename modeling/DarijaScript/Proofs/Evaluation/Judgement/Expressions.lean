import DarijaScript.Proofs.Evaluation.ConstructRules
import DarijaScript.Proofs.Evaluation.Judgement

/-!
# Judgements about expressions

If the activities of two interpreters are judged, then so is everything that the rules of expressions
make of them. What has a place in the tree gets it there, so nothing is asked of the exceptions that
the steps below it begin with.
-/

namespace DarijaScript

/-- What two interpreters evaluate and call is judged, on trees with good marks and on values that are
known. -/
structure Judgement.Values (J : Judgement) (inner other : Interpreter) : Prop where
  expression : ∀ {c} {expr : Expr}, expr.Marked J.good →
    J.relates c (inner.expression expr) (other.expression expr) J.Knows
  call : ∀ {c}, J.Calls c inner.call other.call

/-- All activities of two interpreters are judged; statements only where they may bind names. -/
structure Judgement.Agree (J : Judgement) (inner other : Interpreter) : Prop where
  statement : ∀ {c} {stmt : Stmt}, J.owns c → stmt.Marked J.good →
    J.relates c (inner.statement stmt) (other.statement stmt) J.KnowsFlow
  expression : ∀ {c} {expr : Expr}, expr.Marked J.good →
    J.relates c (inner.expression expr) (other.expression expr) J.Knows
  call : ∀ {c}, J.Calls c inner.call other.call

theorem Judgement.Agree.values {J : Judgement} {inner other : Interpreter}
    (agree : J.Agree inner other) : J.Values inner other := ⟨agree.expression, agree.call⟩

/-- The activities of one interpreter are judged. -/
abbrev Judgement.Respects (J : Judgement) (inner : Interpreter) : Prop := J.Agree inner inner

namespace Judgement

open Evaluation

variable {J : Judgement} {c : J.Context} {inner other : Interpreter}
  (agree : J.Values inner other)

include agree

theorem Values.evaluates {expr : Expr} (marked : expr.Marked J.good) :
    (J.runLogic c).Evaluates inner other expr := agree.expression marked

theorem Values.selects {property : Property} (marked : property.Marked J.good) :
    (J.runLogic c).Selects inner other property := by
  cases property with
  | named name => trivial
  | computed expr => exact agree.expression (Property.marked_iff.mp marked)

theorem Values.denotes [J.Scoped] {target : Expr} (marked : target.Marked J.good) :
    (J.stepLogic c).Denotes inner other target := by
  unfold StepLogic.Denotes
  split
  · exact lookup
  · obtain ⟨-, ofOwner, ofProperty⟩ := Expr.marked_iff.mp marked
    exact ⟨agree.evaluates ofOwner, agree.selects ofProperty⟩
  · trivial

theorem Values.called [J.Scoped] {target : Expr} (marked : target.Marked J.good) :
    (J.placedLogic c).Calls inner other target := by
  unfold PlacedLogic.Calls
  split
  · obtain ⟨placed, ofOwner, ofProperty⟩ := Expr.marked_iff.mp marked
    exact ⟨agree.evaluates ofOwner, agree.selects ofProperty, locates placed⟩
  · exact agree.evaluates marked

/-- The rule of expressions. -/
theorem expression [J.Scoped] {expr : Expr} (marked : expr.Marked J.good) :
    J.relates c (Evaluation.expression inner expr) (Evaluation.expression other expr) J.Knows := by
  let L := J.placedLogic c
  have parts := Expr.marked_iff.mp marked
  cases expr with
  | literal literal => exact L.literal
  | identifier name => exact L.identifier (locates parts) lookup
  | this => exact L.receiver
  | array elements => exact L.array fun element mem => agree.evaluates (parts element mem)
  | object fields => exact L.object fun field mem => agree.evaluates (parts field mem)
  | function f => exact L.function (Function.Marked.meets (Node.follows_marked _) parts)
  | unary op operand => exact L.unary (agree.evaluates parts)
  | binary op left right => exact L.binary (agree.evaluates parts.1) (agree.evaluates parts.2)
  | logical op left right => exact L.logical (agree.evaluates parts.1) (agree.evaluates parts.2)
  | assign op target value position =>
    obtain ⟨placed, into, written⟩ := parts
    exact L.assignment (locates placed) (agree.denotes into) (agree.evaluates written)
  | update op before target position =>
    exact L.update (locates parts.1) (agree.denotes parts.2)
  | member owner property position =>
    obtain ⟨placed, ofOwner, ofProperty⟩ := parts
    exact L.member (locates placed) (agree.evaluates ofOwner) (agree.selects ofProperty)
  | call target args position =>
    obtain ⟨placed, called, passed⟩ := parts
    exact L.call (locates placed) agree.call (agree.called called) fun arg mem =>
      agree.evaluates (passed arg mem)
  | construct target args position =>
    obtain ⟨placed, called, passed⟩ := parts
    exact L.construct (locates placed) agree.call (agree.evaluates called) fun arg mem =>
      agree.evaluates (passed arg mem)

end Judgement

end DarijaScript
