import DarijaScript.Decimal.Shortest
import DarijaScript.Syntax.Layout
import DarijaScript.Syntax.Tree

/-!
# Writing syntax trees

A tree is written so that reading the text gives the tree back. Operands that are operators
themselves stand between parentheses, so the text does not depend on which operator binds tighter.
-/

namespace DarijaScript

open Piece

/-- A literal. An infinite number is written as one that is too large to be finite. -/
def Literal.piece : Literal → Piece
  | .number value =>
    token .number (if value.isInf then "1e999" else Decimal.text value)
  | .string text => token .string text
  | .boolean true => token .boolean trueWord
  | .boolean false => token .boolean "ghalat"
  | .null => keyword .farkha
  | .undefined => keyword .mchmcha

/-- The sign of an operator of one operand, and what separates it from the operand. -/
def UnaryOp.pieces : UnaryOp → List Piece
  | .not => [operator "!"]
  | .negate => [operator "-"]
  | .toNumber => [operator "+"]
  | .typeOf => [keyword .no3, space]

/-- The expression stands between parentheses when it is an operand. -/
def Expr.needsParentheses : Expr → Bool
  | .assign .. | .logical .. | .binary .. | .unary .. | .update .. | .function _ => true
  | _ => false

/-- The expression may be constructed from without parentheses. -/
def Expr.isPlainChain : Expr → Bool
  | .identifier _ => true
  | .this => true
  | .member owner _ _ => owner.isPlainChain
  | _ => false

/-- Parts that stand between parentheses on a condition. -/
def parenthesizedIf (condition : Bool) (pieces : List Piece) : List Piece :=
  if condition then parenthesized pieces else pieces

/-- An expression that begins a statement must not read as a block or a declared function. -/
def statementHead (pieces : List Piece) : List Piece :=
  parenthesizedIf (looksLikeStatement pieces) pieces

/-- Names with commas between them. -/
def namePieces : List Identifier → List Piece
  | [] => []
  | [name] => [token .identifier name.name]
  | name :: rest => token .identifier name.name :: sign ',' :: space :: namePieces rest

/-- The word that declares a name. -/
def DeclarationKind.keyword : DeclarationKind → Keyword
  | .constant => .tabit
  | .variable => .bdl

mutual

/-- An expression; `depth` is the indentation of the line it stands on. -/
def Expr.pieces (depth : Nat) : Expr → List Piece
  | .assign op target value _ =>
    target.pieces depth ++ [space, operator op.text, space] ++ value.pieces depth
  | .logical op left right =>
    parenthesizedIf left.needsParentheses (left.pieces depth) ++ [space, operator op.text, space] ++
      parenthesizedIf right.needsParentheses (right.pieces depth)
  | .binary op left right =>
    parenthesizedIf left.needsParentheses (left.pieces depth) ++ [space, operator op.text, space] ++
      parenthesizedIf right.needsParentheses (right.pieces depth)
  | .unary op operand =>
    op.pieces ++ parenthesizedIf operand.needsParentheses (operand.pieces depth)
  | .update op true target _ =>
    operator op.text :: parenthesizedIf target.needsParentheses (target.pieces depth)
  | .update op false target _ =>
    parenthesizedIf target.needsParentheses (target.pieces depth) ++ [operator op.text]
  | .call callee args _ =>
    parenthesizedIf callee.needsParentheses (callee.pieces depth) ++
      parenthesized (Expr.listPieces depth args)
  | .construct callee args _ =>
    keyword .jdid :: space :: parenthesizedIf (!callee.isPlainChain) (callee.pieces depth) ++
      parenthesized (Expr.listPieces depth args)
  | .member owner property _ =>
    parenthesizedIf owner.needsParentheses (owner.pieces depth) ++ property.pieces depth
  | .identifier name => [token .identifier name.name]
  | .literal value => [value.piece]
  | .this => [keyword .hadi]
  | .array elements => sign '[' :: Expr.listPieces depth elements ++ [sign ']']
  | .object entries => sign '\x7b' :: Expr.entriesPieces depth entries ++ [sign '\x7d']
  | .function f => f.pieces depth
termination_by structural x => x

/-- Expressions with commas between them. -/
def Expr.listPieces (depth : Nat) : List Expr → List Piece
  | [] => []
  | [expr] => expr.pieces depth
  | expr :: rest => expr.pieces depth ++ [sign ',', space] ++ Expr.listPieces depth rest
termination_by structural x => x

/-- Fields with commas between them. -/
def Expr.entriesPieces (depth : Nat) : List (String × Expr) → List Piece
  | [] => []
  | [entry] => Expr.entryPieces depth entry
  | entry :: rest =>
    Expr.entryPieces depth entry ++ [sign ',', space] ++ Expr.entriesPieces depth rest
termination_by structural x => x

/-- A field; its key is always written as a string. -/
def Expr.entryPieces (depth : Nat) : String × Expr → List Piece
  | (key, value) => token .string key :: sign ':' :: space :: value.pieces depth
termination_by structural x => x

/-- An expression that may be left out. -/
def Expr.optionalPieces (depth : Nat) : Option Expr → List Piece
  | none => []
  | some expr => expr.pieces depth
termination_by structural x => x

/-- The selector of a member. -/
def Property.pieces (depth : Nat) : Property → List Piece
  | .named name => [sign '.', word name]
  | .computed key => sign '[' :: key.pieces depth ++ [sign ']']
termination_by structural x => x

/-- A function. -/
def Function.pieces (depth : Nat) : Function → List Piece
  | .mk name params body _ =>
    keyword .dala ::
      (match name with
        | none => []
        | some name => [space, token .identifier name.name]) ++
      parenthesized (namePieces params) ++ space :: sign '\x7b' ::
      Stmt.listPieces (depth + 1) body ++ [line depth, sign '\x7d']
termination_by structural x => x

/-- A statement without the line end behind it. -/
def Stmt.pieces (depth : Nat) : Stmt → List Piece
  | .declare kind name value =>
    keyword kind.keyword :: space :: token .identifier name.name ::
      Stmt.valuePieces depth value ++ [sign ';']
  | .defineFunction f => f.pieces depth
  | .block body => sign '\x7b' :: Stmt.listPieces (depth + 1) body ++ [line depth, sign '\x7d']
  | .conditional test consequent alternate =>
    keyword .ila :: space :: parenthesized (test.pieces depth) ++ space ::
      consequent.pieces depth ++ Stmt.alternatePieces depth alternate
  | .whileLoop test body =>
    keyword .madamt :: space :: parenthesized (test.pieces depth) ++ space :: body.pieces depth
  | .doWhileLoop body test =>
    keyword .dir :: space :: body.pieces depth ++ space :: keyword .madamt :: space ::
      parenthesized (test.pieces depth) ++ [sign ';']
  | .forLoop start test update body =>
    keyword .douz :: space :: sign '(' :: Stmt.startPieces depth start ++ sign ';' :: space ::
      Expr.optionalPieces depth test ++ sign ';' :: space ::
      Expr.optionalPieces depth update ++ sign ')' :: space :: body.pieces depth
  | .attempt body handler finalizer =>
    keyword .jrb :: space :: sign '\x7b' :: Stmt.listPieces (depth + 1) body ++
      [line depth, sign '\x7d'] ++ Stmt.handlerPieces depth handler ++
      Stmt.finalizerPieces depth finalizer
  | .choice subject cases =>
    keyword .bdl3la :: space :: parenthesized (subject.pieces depth) ++ space :: sign '\x7b' ::
      Case.listPieces depth cases ++ [line depth, sign '\x7d']
  | .giveBack none => [keyword .rj3, sign ';']
  | .giveBack (some value) => keyword .rj3 :: space :: value.pieces depth ++ [sign ';']
  | .leave => [keyword .wa9f, sign ';']
  | .next => [keyword .kamml, sign ';']
  | .evaluate expr => statementHead (expr.pieces depth) ++ [sign ';']
  | .empty => [sign ';']
termination_by structural x => x

/-- Statements, each on lines of its own. -/
def Stmt.listPieces (depth : Nat) : List Stmt → List Piece
  | [] => []
  | stmt :: rest => line depth :: stmt.pieces depth ++ Stmt.listPieces depth rest
termination_by structural x => x

/-- The value that a declaration begins with. -/
def Stmt.valuePieces (depth : Nat) : Option Expr → List Piece
  | none => []
  | some value => space :: operator "=" :: space :: value.pieces depth
termination_by structural x => x

/-- The other branch of a condition. -/
def Stmt.alternatePieces (depth : Nat) : Option Stmt → List Piece
  | none => []
  | some stmt => space :: keyword .ella :: space :: stmt.pieces depth
termination_by structural x => x

/-- What a counting loop begins with: a declaration or an expression without its semicolon. -/
def Stmt.startPieces (depth : Nat) : Option Stmt → List Piece
  | none => []
  | some (.evaluate expr) => statementHead (expr.pieces depth)
  | some (.declare kind name value) =>
    keyword kind.keyword :: space :: token .identifier name.name :: Stmt.valuePieces depth value
  | some stmt => stmt.pieces depth
termination_by structural x => x

/-- The handler of exceptions. -/
def Stmt.handlerPieces (depth : Nat) : Option (Identifier × List Stmt) → List Piece
  | none => []
  | some handler => Stmt.handlerBodyPieces depth handler
termination_by structural x => x

/-- The name and the statements of a handler. -/
def Stmt.handlerBodyPieces (depth : Nat) : Identifier × List Stmt → List Piece
  | (name, body) =>
    space :: keyword .msk :: space :: parenthesized [token .identifier name.name] ++ space ::
      sign '\x7b' :: Stmt.listPieces (depth + 1) body ++ [line depth, sign '\x7d']
termination_by structural x => x

/-- The statements that run in every case. -/
def Stmt.finalizerPieces (depth : Nat) : Option (List Stmt) → List Piece
  | none => []
  | some body =>
    space :: keyword .fakhr :: space :: sign '\x7b' :: Stmt.listPieces (depth + 1) body ++
      [line depth, sign '\x7d']
termination_by structural x => x

/-- A clause of a choice. -/
def Case.pieces (depth : Nat) : Case → List Piece
  | .mk test body =>
    line (depth + 1) :: Case.testPieces (depth + 1) test ++ sign ':' ::
      Stmt.listPieces (depth + 2) body
termination_by structural x => x

/-- The head of a clause. -/
def Case.testPieces (depth : Nat) : Option Expr → List Piece
  | none => [keyword .adi]
  | some test => keyword .hala :: space :: test.pieces depth
termination_by structural x => x

/-- The clauses of a choice. -/
def Case.listPieces (depth : Nat) : List Case → List Piece
  | [] => []
  | clause :: rest => clause.pieces depth ++ Case.listPieces depth rest
termination_by structural x => x

end

/-- The text of an expression. -/
def Expr.text (expr : Expr) : String := String.ofList (render (expr.pieces 0))

/-- The text of a statement. -/
def Stmt.text (stmt : Stmt) : String := String.ofList (render (stmt.pieces 0))

/-- The parts of a whole program: every statement ends its line. -/
def programPieces (program : List Stmt) : List Piece :=
  program.flatMap fun stmt => stmt.pieces 0 ++ [line 0]

/-- The text of a whole program. -/
def programText (program : List Stmt) : String := String.ofList (render (programPieces program))

end DarijaScript
