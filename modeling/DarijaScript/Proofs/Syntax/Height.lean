import Mathlib
import DarijaScript.Syntax.Tree

/-!
# The height of trees

How many statements and expressions stand inside each other at most. Functions, clauses and selectors
do not count for themselves, only what is in them.
-/

namespace DarijaScript

mutual

/-- The most expressions and statements on a path down from the expression, itself included. -/
def Expr.height : Expr → Nat
  | .assign _ target value _ => max target.height value.height + 1
  | .logical _ left right => max left.height right.height + 1
  | .binary _ left right => max left.height right.height + 1
  | .unary _ operand => operand.height + 1
  | .update _ _ target _ => target.height + 1
  | .call callee args _ => max callee.height (Expr.heightOfAll args) + 1
  | .construct callee args _ => max callee.height (Expr.heightOfAll args) + 1
  | .member owner property _ => max owner.height property.height + 1
  | .identifier _ => 1
  | .literal _ => 1
  | .this => 1
  | .array elements => Expr.heightOfAll elements + 1
  | .object entries => Expr.heightOfEntries entries + 1
  | .function f => f.height + 1
termination_by structural x => x

def Expr.heightOfAll : List Expr → Nat
  | [] => 0
  | expr :: rest => max expr.height (Expr.heightOfAll rest)
termination_by structural x => x

def Expr.heightOfEntries : List (String × Expr) → Nat
  | [] => 0
  | entry :: rest => max (Expr.heightOfEntry entry) (Expr.heightOfEntries rest)
termination_by structural x => x

def Expr.heightOfEntry : String × Expr → Nat
  | (_, expr) => expr.height
termination_by structural x => x

def Expr.heightOf? : Option Expr → Nat
  | none => 0
  | some expr => expr.height
termination_by structural x => x

/-- The most expressions and statements on a path down from the selector. -/
def Property.height : Property → Nat
  | .named _ => 0
  | .computed key => key.height
termination_by structural x => x

/-- The most expressions and statements on a path down from the function. -/
def Function.height : Function → Nat
  | .mk _ _ body _ => Stmt.heightOfAll body
termination_by structural x => x

/-- The most expressions and statements on a path down from the statement, itself included. -/
def Stmt.height : Stmt → Nat
  | .declare _ _ value => Expr.heightOf? value + 1
  | .defineFunction f => f.height + 1
  | .block body => Stmt.heightOfAll body + 1
  | .conditional test consequent alternate =>
    max (max test.height consequent.height) (Stmt.heightOf? alternate) + 1
  | .whileLoop test body => max test.height body.height + 1
  | .doWhileLoop body test => max body.height test.height + 1
  | .forLoop start test update body =>
    max (max (Stmt.heightOf? start) (Expr.heightOf? test))
      (max (Expr.heightOf? update) body.height) + 1
  | .attempt body handler finalizer =>
    max (max (Stmt.heightOfAll body) (Stmt.heightOfHandler? handler))
      (Stmt.heightOfBody? finalizer) + 1
  | .choice subject cases => max subject.height (Case.heightOfAll cases) + 1
  | .giveBack value => Expr.heightOf? value + 1
  | .leave => 1
  | .next => 1
  | .evaluate expr => expr.height + 1
  | .empty => 1
termination_by structural x => x

/-- The most expressions and statements on a path down from one of the statements. -/
def Stmt.heightOfAll : List Stmt → Nat
  | [] => 0
  | stmt :: rest => max stmt.height (Stmt.heightOfAll rest)
termination_by structural x => x

def Stmt.heightOf? : Option Stmt → Nat
  | none => 0
  | some stmt => stmt.height
termination_by structural x => x

def Stmt.heightOfBody? : Option (List Stmt) → Nat
  | none => 0
  | some body => Stmt.heightOfAll body
termination_by structural x => x

def Stmt.heightOfHandler? : Option (Identifier × List Stmt) → Nat
  | none => 0
  | some handler => Stmt.heightOfHandler handler
termination_by structural x => x

def Stmt.heightOfHandler : Identifier × List Stmt → Nat
  | (_, body) => Stmt.heightOfAll body
termination_by structural x => x

/-- The most expressions and statements on a path down from the clause. -/
def Case.height : Case → Nat
  | .mk test body => max (Expr.heightOf? test) (Stmt.heightOfAll body)
termination_by structural x => x

def Case.heightOfAll : List Case → Nat
  | [] => 0
  | clause :: rest => max clause.height (Case.heightOfAll rest)
termination_by structural x => x

end

variable {n : Nat}

theorem Expr.heightOfAll_le {exprs : List Expr} :
    Expr.heightOfAll exprs ≤ n ↔ ∀ expr ∈ exprs, expr.height ≤ n := by
  induction exprs with
  | nil => simp [heightOfAll]
  | cons expr rest ih => simp [heightOfAll, ih]

theorem Expr.heightOfEntries_le {entries : List (String × Expr)} :
    Expr.heightOfEntries entries ≤ n ↔ ∀ entry ∈ entries, entry.2.height ≤ n := by
  induction entries with
  | nil => simp [heightOfEntries]
  | cons entry rest ih =>
    obtain ⟨key, expr⟩ := entry
    simp [heightOfEntries, heightOfEntry, ih]

theorem Stmt.heightOfAll_le {stmts : List Stmt} :
    Stmt.heightOfAll stmts ≤ n ↔ ∀ stmt ∈ stmts, stmt.height ≤ n := by
  induction stmts with
  | nil => simp [heightOfAll]
  | cons stmt rest ih => simp [heightOfAll, ih]

theorem Case.heightOfAll_le {cases : List Case} :
    Case.heightOfAll cases ≤ n ↔ ∀ clause ∈ cases, clause.height ≤ n := by
  induction cases with
  | nil => simp [heightOfAll]
  | cons clause rest ih => simp [heightOfAll, ih]

end DarijaScript
