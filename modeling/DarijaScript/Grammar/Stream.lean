import DarijaScript.Syntax.Issue
import DarijaScript.Syntax.Token
import DarijaScript.Syntax.Tree

/-!
# Reading a stream of tokens

The state of a reader of tokens and the steps that every rule of the grammar is made of. A failure
keeps the state in which it occurred, so that reading can go on behind it.
-/

namespace DarijaScript

/-- The constructs around the statement being read, up to the innermost function. -/
structure Surroundings where
  loops : Nat
  choices : Nat
  inFunction : Bool
  deriving Repr, DecidableEq

/-- No construct is around the statements of a program. -/
def Surroundings.none : Surroundings := ⟨0, 0, false⟩

/-- The tokens ahead and their number, the errors found so far, the constructs around, and the
number that the source text is known by. -/
structure Stream where
  rest : List Token
  ahead : Nat
  ahead_eq : ahead = rest.length
  errors : Array SyntaxError
  surroundings : Surroundings
  source : Nat

namespace Stream

/-- The beginning of a stream. -/
def ofTokens (tokens : List Token) (source : Nat) : Stream :=
  ⟨tokens, tokens.length, rfl, #[], .none, source⟩

/-- The stream behind the next `count` tokens. -/
def skip (stream : Stream) (count : Nat) : Stream :=
  { stream with
    rest := stream.rest.drop count
    ahead := stream.ahead - count
    ahead_eq := by rw [stream.ahead_eq, List.length_drop] }

/-- What is seen behind the last token. -/
def endToken : Token := ⟨.endOfFile, "", .unknown, 0, 0⟩

/-- The next token. -/
def head (stream : Stream) : Token := stream.rest.head?.getD endToken

/-- The stream behind the next token; the end of the file is never passed. -/
def tail (stream : Stream) : Stream :=
  if stream.head.isEnd then stream else stream.skip 1

end Stream

/-- Reads something from a stream of tokens. -/
abbrev Parse := EStateM SyntaxError Stream

namespace Parse

/-- The next token, which stays. -/
def peek : Parse Token := fun stream => .ok stream.head stream

/-- The next token, which is passed unless it is the end of the file. -/
def advance : Parse Token := fun stream => .ok stream.head stream.tail

/-- A fault at a token. -/
def failAt {α : Type} (token : Token) (issue : GrammarIssue) : Parse α :=
  throw ⟨.grammatical issue, token.position⟩

/-- A fault at the next token, told with that token. -/
def failHere {α : Type} (issue : String → GrammarIssue) : Parse α := do
  let token ← peek
  failAt token (issue token.display)

/-- Keeps an error and goes on. -/
def record (error : SyntaxError) : Parse Unit :=
  modify fun stream => { stream with errors := stream.errors.push error }

/-- The number of tokens ahead. -/
def remaining : Parse Nat := fun stream => .ok stream.ahead stream

/-- Passes the next token if it fits. -/
def accept (fits : Token → Bool) : Parse Bool := do
  if fits (← peek) then
    let _ ← advance
    pure true
  else pure false

/-- Passes the next token, which must fit. -/
def expect (fits : Token → Bool) (issue : String → GrammarIssue) : Parse Token := do
  if fits (← peek) then advance else failHere issue

/-- Passes a punctuation sign if it is next. -/
def acceptSign (sign : Char) : Parse Bool := accept (·.isPunctuation sign)

/-- Passes a punctuation sign, which must be next. -/
def expectSign (sign : Char) : Parse Token :=
  expect (·.isPunctuation sign) (.missingSign sign)

/-- Passes a name, which must be next. -/
def identifier : Parse Identifier := do
  let token ← expect (·.kind == .identifier) .missingIdentifier
  pure ⟨token.lexeme, token.position⟩

/-- The outcome of a rule, which may be a fault. -/
def outcome {α : Type} (rule : Parse α) : Parse (Except SyntaxError α) := fun stream =>
  match rule stream with
  | .ok value stream => .ok (.ok value) stream
  | .error error stream => .ok (.error error) stream

/-- Reads with other constructs around; afterwards the former ones are around again. -/
def surroundedBy {α : Type} (change : Surroundings → Surroundings) (rule : Parse α) : Parse α :=
  fun stream =>
    match rule { stream with surroundings := change stream.surroundings } with
    | .ok value after => .ok value { after with surroundings := stream.surroundings }
    | .error error after => .error error { after with surroundings := stream.surroundings }

/-- A keyword at which reading may go on after an error. -/
def isLandmark (keyword : Keyword) : Bool :=
  keyword.beginsStatement || keyword == .hala || keyword == .adi

/-- The number of tokens up to the next boundary of a statement: behind a semicolon, or at a brace,
at the head of a clause or at a word that begins a statement. -/
def boundary : List Token → Nat
  | [] => 0
  | token :: rest =>
    if token.isEnd || token.isPunctuation '\x7b' || token.isPunctuation '\x7d' then 0
    else if token.isPunctuation ';' then 1
    else if token.keyword?.any isLandmark then 0
    else boundary rest + 1

/-- Goes on at the next boundary after a fault before which `before` tokens were ahead; a boundary
that was reached already is passed. -/
def recover (before : Nat) : Parse Unit := do
  modify fun stream => stream.skip (boundary stream.rest)
  if (← remaining) = before then
    let _ ← advance

/-- Things with commas between them, up to a sign; a comma may stand behind the last one. At most
`limit` things are read. -/
def separated {α : Type} (thing : Parse α) (close : Char) : (limit : Nat) → Parse (List α)
  | 0 => pure []
  | limit + 1 => do
    if (← peek).isPunctuation close then pure []
    else
      let first ← thing
      if ← acceptSign ',' then
        let others ← separated thing close limit
        pure (first :: others)
      else pure [first]

/-- One or more things with commas between them. At most `limit` things are read. -/
def separatedTight {α : Type} (thing : Parse α) : (limit : Nat) → Parse (List α)
  | 0 => pure []
  | limit + 1 => do
    let first ← thing
    if ← acceptSign ',' then
      let others ← separatedTight thing limit
      pure (first :: others)
    else pure [first]

end Parse

/-- The rules that may contain each other, one level of nesting further in. -/
structure Rules where
  statement : Parse Stmt
  /-- A condition from its keyword on, without the other statements. -/
  conditional : Parse Stmt
  expression : Parse Expr
  /-- An operand with the operators in front of it. -/
  operand : Parse Expr

/-- The levels of nesting that are left, the next one first. -/
abbrev Levels := List Rules

/-- Reads one level further in, if a level is left. -/
def Levels.deeper {α : Type} (levels : Levels) (rule : Rules → Parse α) : Parse α :=
  match levels with
  | [] => Parse.failHere .nestingTooDeep
  | rules :: _ => rule rules

/-- The most parameters a function may have, and the most arguments of a call. -/
def maxArguments : Nat := 255

/-- The most levels that statements and expressions may nest, each link of a chain of operators,
calls or members counting as one. -/
def maxLevels : Nat := 64

end DarijaScript
