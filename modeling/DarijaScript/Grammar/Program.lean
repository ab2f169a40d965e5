import DarijaScript.Grammar.Statement
import DarijaScript.Syntax.Lexer

/-!
# The grammar of programs

The rules of statements and expressions closed up over a number of levels of nesting, and the
reading of whole programs from tokens and from source text.
-/

namespace DarijaScript

namespace Grammar

/-- The rules with the given levels left further in. -/
def rules (levels : Levels) : Rules where
  statement := statement levels
  conditional := conditional levels
  expression := assignment levels
  operand := operand levels

/-- A number of levels, each with one level less left in it than the one before. -/
def levels : Nat → Levels
  | 0 => []
  | n + 1 => rules (levels n) :: levels n

@[simp] theorem length_levels (n : Nat) : (levels n).length = n := by
  induction n with
  | zero => rfl
  | succ n ih => simp [levels, ih]

/-- A statement of a program. -/
def item : Parse Stmt := nestedStatement (levels maxLevels)

/-- An expression on its own. -/
def expression : Parse Expr := nestedExpression (levels maxLevels)

end Grammar

/-- The program that some tokens make up, or all its errors. -/
def parse (tokens : List Token) (source : Nat) : Except (List SyntaxError) (List Stmt) :=
  match Grammar.items (Grammar.levels maxLevels) (fun _ => false) tokens.length
      (Stream.ofTokens tokens source) with
  | .ok program stream =>
    if stream.errors.isEmpty then .ok program else .error stream.errors.toList
  | .error error stream => .error (stream.errors.toList ++ [error])

/-- The expression that some tokens begin with, or its first error. -/
def parseExpression (tokens : List Token) (source : Nat) : Except SyntaxError Expr :=
  match Grammar.expression (Stream.ofTokens tokens source) with
  | .ok expr _ => .ok expr
  | .error error _ => .error error

/-- The program that a source text writes, or its errors: the first one of its characters, or all
those of its tokens. -/
def readProgram (text : String) (source : Nat) : Except (List SyntaxError) (List Stmt) :=
  match tokenize text with
  | .error error => .error [error]
  | .ok tokens => parse tokens source

/-- The expression that a source text begins with, or its first error. -/
def readExpression (text : String) (source : Nat) : Except SyntaxError Expr :=
  match tokenize text with
  | .error error => .error error
  | .ok tokens => parseExpression tokens source

end DarijaScript
