import DarijaScript.Syntax.Position

/-!
# What can be wrong with a source text

The faults of single tokens, the faults of their arrangement, and the words in which each is told.
-/

namespace DarijaScript

/-- A fault in the characters of a source text. -/
inductive LexicalIssue where
  | unexpectedCharacter (c : Char)
  | unterminatedString
  | unterminatedComment
  | invalidNumber (lexeme : String)
  deriving Repr, DecidableEq

/-- The wording of a lexical fault. -/
def LexicalIssue.message : LexicalIssue → String
  | unexpectedCharacter c => "unexpected character `" ++ c.toString ++ "`"
  | unterminatedString => "unterminated string"
  | unterminatedComment => "unterminated block comment"
  | invalidNumber lexeme => "invalid numeric literal `" ++ lexeme ++ "`"

/-- A fault in the order of tokens. The text in it is the token at which it shows. -/
inductive GrammarIssue where
  | unexpectedToken (found : String)
  | missingSign (sign : Char) (found : String)
  | missingIdentifier (found : String)
  | invalidAssignmentTarget (next : String)
  | invalidUpdateTarget (next : String)
  | invalidPropertyName (found : String)
  | missingInitializer (next : String)
  | missingHandler (found : String)
  | missingCase (found : String)
  | nestingTooDeep (found : String)
  | tooManyParameters (count : Nat)
  | tooManyArguments (count : Nat)
  | duplicateDefault
  | breakOutsideLoop
  | continueOutsideLoop
  | returnOutsideFunction
  deriving Repr, DecidableEq

/-- The wording of a fault in the order of tokens. -/
def GrammarIssue.message : GrammarIssue → String
  | unexpectedToken found => "unexpected token `" ++ found ++ "`"
  | missingSign sign found => "expected `" ++ sign.toString ++ "`, found `" ++ found ++ "`"
  | missingIdentifier found => "expected identifier, found `" ++ found ++ "`"
  | invalidAssignmentTarget next => "invalid assignment target before `" ++ next ++ "`"
  | invalidUpdateTarget next => "invalid increment/decrement target before `" ++ next ++ "`"
  | invalidPropertyName found => "invalid property name `" ++ found ++ "`"
  | missingInitializer next => "missing initializer in `tabit` declaration before `" ++ next ++ "`"
  | missingHandler found => "expected `msk` or `fakhr` after `jrb` block, found `" ++ found ++ "`"
  | missingCase found => "expected `7ala` or `3adi` in `bdl3la` body, found `" ++ found ++ "`"
  | nestingTooDeep found => "nesting too deep at `" ++ found ++ "`"
  | tooManyParameters count =>
    "functions cannot take more than 255 parameters, found " ++ count.repr
  | tooManyArguments count => "calls cannot pass more than 255 arguments, found " ++ count.repr
  | duplicateDefault => "more than one `3adi` clause in `bdl3la`"
  | breakOutsideLoop => "`wa9f` outside of a loop or `bdl3la`"
  | continueOutsideLoop => "`kamml` outside of a loop"
  | returnOutsideFunction => "`rj3` outside of a function"

/-- A fault of either kind. -/
inductive SyntaxIssue where
  | lexical (issue : LexicalIssue)
  | grammatical (issue : GrammarIssue)
  deriving Repr, DecidableEq

/-- A fault of a source text and its place. -/
structure SyntaxError where
  issue : SyntaxIssue
  position : Position
  deriving Repr, DecidableEq

namespace SyntaxError

/-- The stage that finds the fault. -/
def stage (error : SyntaxError) : Stage :=
  match error.issue with
  | .lexical _ => .lexing
  | .grammatical _ => .parsing

/-- The wording of the fault. -/
def message (error : SyntaxError) : String :=
  match error.issue with
  | .lexical issue => issue.message
  | .grammatical issue => issue.message

/-- The fault with its stage and place. -/
def report (error : SyntaxError) : String := error.stage.report error.position error.message

end SyntaxError

end DarijaScript
