import DarijaScript.Proofs.Evaluation.Judgement.Expressions
import DarijaScript.Proofs.Evaluation.StatementRules

/-!
# Judgements about statements

If the activities of two interpreters are judged, then so is everything that the rules of statements
make of them. Blocks, counting loops, handlers and choices may stand anywhere, since they open the
scopes in which their statements bind names; all other statements need an active scope in which names
may be bound.
-/

namespace DarijaScript

/-- The statement opens the scopes in which it binds names. -/
def Stmt.opensScope : Stmt → Bool
  | .block _ | .forLoop _ _ _ _ | .attempt _ _ _ | .choice _ _ => true
  | _ => false

/-- The statement has arms: statements that stand alone in it, and not in a row with others. -/
def Stmt.hasArms : Stmt → Bool
  | .conditional _ _ _ | .whileLoop _ _ | .doWhileLoop _ _ | .forLoop _ _ _ _ => true
  | _ => false

/-- What two interpreters execute in a row, evaluate and call is judged; nothing is said of a statement
that stands alone. -/
structure Judgement.Rows (J : Judgement) (inner other : Interpreter) : Prop
    extends J.Values inner other where
  items : ∀ {c} {stmts : List Stmt}, J.owns c → (∀ stmt ∈ stmts, stmt.Marked J.good) →
    J.relates c (Evaluation.items inner stmts) (Evaluation.items other stmts) J.KnowsFlow

namespace Judgement

open Evaluation

variable {J : Judgement} {c : J.Context} {inner other : Interpreter}

theorem hoist [J.Scoped] {stmts : List Stmt} (owns : J.owns c)
    (marked : ∀ stmt ∈ stmts, stmt.Marked J.good) :
    J.holds c (Evaluation.hoist stmts) fun _ => True := by
  apply (J.runLogic c).hoist
  intro f name mem _
  have known : ∀ id, J.Knows (.function f id) := fun _ =>
    Function.Marked.meets (Node.follows_marked _) (Stmt.marked_iff.mp (marked _ mem))
  exact Scoped.define name.name owns known

section

variable (agree : J.Agree inner other)

include agree

theorem Agree.executes {stmt : Stmt} (owns : J.owns c) (marked : stmt.Marked J.good) :
    (J.runLogic c).Executes inner other stmt := agree.statement owns marked

theorem items [J.Scoped] {stmts : List Stmt} (owns : J.owns c)
    (marked : ∀ stmt ∈ stmts, stmt.Marked J.good) :
    J.relates c (Evaluation.items inner stmts) (Evaluation.items other stmts) J.KnowsFlow :=
  J.bind (hoist owns marked) fun _ _ =>
    (J.runLogic c).sequence fun stmt mem => agree.executes owns (marked stmt mem)

theorem Agree.rows [J.Scoped] : J.Rows inner other :=
  ⟨agree.values, items agree⟩

theorem forLoop [J.Scoped] (rounds : Nat) {start : Option Stmt} {test update : Option Expr}
    {body : Stmt} (owns : J.owns c) (begins : ∀ stmt ∈ start, stmt.Marked J.good)
    (tested : ∀ expr ∈ test, expr.Marked J.good) (updated : ∀ expr ∈ update, expr.Marked J.good)
    (marked : body.Marked J.good) :
    J.relates c (Evaluation.forLoop inner rounds start test update body)
      (Evaluation.forLoop other rounds start test update body) J.KnowsFlow :=
  (J.runLogic c).forLoop (agree.executes owns marked) (Scoped.renewScope owns)
    (fun expr mem => agree.expression (tested expr mem))
    (fun expr mem => agree.expression (updated expr mem))
    fun stmt mem => agree.executes owns (begins stmt mem)

end

/-! ### Statements with rows of their own -/

section

variable (rows : J.Rows inner other)

include rows

theorem block [J.Scoped] {stmts : List Stmt} (marked : ∀ stmt ∈ stmts, stmt.Marked J.good) :
    J.relates c (Evaluation.block inner stmts) (Evaluation.block other stmts) J.KnowsFlow :=
  Scoped.inNew (rows.items (J.owns_inside c) marked)

theorem handle [J.Scoped] {handler : Option (Identifier × List Stmt)}
    {result : Except Exception Completion}
    (marked : ∀ h ∈ handler, ∀ stmt ∈ h.2, stmt.Marked J.good)
    (ended : IsOutcome (J.raises c) J.KnowsFlow result) :
    J.relates c (Evaluation.handle inner handler result) (Evaluation.handle other handler result)
      (IsOutcome (J.raises c) J.KnowsFlow) := by
  match result, handler with
  | .ok _, _ => exact J.pure ended
  | .error _, none => exact J.pure ended
  | .error exception, some (name, body) =>
    rw [Setting.handle_eq, Setting.handle_eq]
    have executed := J.outcome (rows.items (J.owns_inside c) (marked _ rfl))
    apply Scoped.inHandler (J.known ended)
    apply (J.runLogic (J.inside c)).mono executed
    intro result ended
    cases result with
    | ok flow => exact ended
    | error e => exact J.raises_inside ended

theorem clauses [J.Scoped] {cases : List Case} (owns : J.owns c)
    (marked : ∀ clause ∈ cases, clause.Marked J.good) :
    J.relates c (Evaluation.clauses inner cases) (Evaluation.clauses other cases) J.KnowsFlow := by
  induction cases with
  | nil => exact J.pure trivial
  | cons clause rest ih =>
    obtain ⟨first, others⟩ := List.forall_mem_cons.mp marked
    apply J.bind (rows.items owns (Case.marked_iff.mp first).2)
    intro flow known
    split
    · exact ih others
    · exact J.pure trivial
    · exact J.pure known

/-- The rule of statements. Only the arms of a statement need to be judged one by one. -/
theorem statement_of_rows [J.Scoped] (rounds : Nat) {stmt : Stmt}
    (arms : stmt.hasArms = true → J.Agree inner other)
    (owns : stmt.opensScope = false → J.owns c) (marked : stmt.Marked J.good) :
    J.relates c (Evaluation.statement inner rounds stmt)
      (Evaluation.statement other rounds stmt) J.KnowsFlow := by
  let L := J.runLogic c
  have evaluates : ∀ {expr : Expr}, expr.Marked J.good → L.Evaluates inner other expr :=
    rows.toValues.evaluates
  have parts := Stmt.marked_iff.mp marked
  match stmt, parts with
  | .declare kind name value, ⟨named, parts⟩ =>
    exact L.declaration (fun expr mem => evaluates (parts expr mem)) fun value known =>
      J.located named (Scoped.declare (owns rfl) known)
  | .defineFunction f, _ => exact J.pure trivial
  | .block body, parts => exact block rows parts
  | .conditional test consequent alternate, ⟨tested, yes, no⟩ =>
    exact L.conditional (evaluates tested) ((arms rfl).executes (owns rfl) yes) fun stmt mem =>
      (arms rfl).executes (owns rfl) (no stmt mem)
  | .whileLoop test body, ⟨tested, inside⟩ =>
    have executes := (arms rfl).executes (owns rfl) inside
    exact L.repeatUntil (L.whileRound executes (evaluates tested)) rounds
  | .doWhileLoop body test, ⟨inside, tested⟩ =>
    have executes := (arms rfl).executes (owns rfl) inside
    exact L.repeatUntil (L.doWhileRound executes (evaluates tested)) rounds
  | .forLoop start test update body, ⟨begins, tested, updated, inside⟩ =>
    exact Scoped.inNew
      (forLoop (arms rfl) rounds (J.owns_inside c) begins tested updated inside)
  | .attempt body handler finalizer, ⟨inside, handles, closes⟩ =>
    exact L.attempt (J.outcome (block rows inside))
      (fun _ => handle rows fun h mem => (handles h mem).2)
      (fun final mem => block rows (closes final mem)) fun _ => ofOutcome
  | .choice subject cases, ⟨chosen, inside⟩ =>
    refine L.choice (evaluates chosen)
      (fun clause mem test eq => evaluates ((Case.marked_iff.mp (inside clause mem)).1 test eq)) ?_
    intro executed tail
    exact Scoped.inNew (clauses rows (J.owns_inside c) fun clause mem =>
      inside clause (tail.subset mem))
  | .giveBack value, parts => exact L.giveBack fun expr mem => evaluates (parts expr mem)
  | .leave, _ | .next, _ | .empty, _ => exact J.pure trivial
  | .evaluate expr, parts => exact L.evaluate (evaluates parts)

end

theorem statement [J.Scoped] (agree : J.Agree inner other) (rounds : Nat) {stmt : Stmt}
    (owns : stmt.opensScope = false → J.owns c) (marked : stmt.Marked J.good) :
    J.relates c (Evaluation.statement inner rounds stmt)
      (Evaluation.statement other rounds stmt) J.KnowsFlow :=
  statement_of_rows agree.rows rounds (fun _ => agree) owns marked

end Judgement

end DarijaScript
