import DarijaScript.Grammar.Expression

/-!
# The grammar of statements

Jumps are only accepted where the constructs around them give them a target, so a function starts
with no loop around it.
-/

namespace DarijaScript.Grammar

open Parse

/-- A statement one level further in. -/
def nestedStatement (levels : Levels) : Parse Stmt := levels.deeper (·.statement)

/-- An expression between parentheses. -/
def parenthesizedExpression (levels : Levels) : Parse Expr := do
  let _ ← expectSign '('
  let expr ← nestedExpression levels
  let _ ← expectSign ')'
  pure expr

/-- A declaration from its keyword on. -/
def declaration (levels : Levels) : Parse Stmt := do
  let keyword ← advance
  let kind := if keyword.isKeyword .tabit then DeclarationKind.constant else .variable
  let name ← identifier
  if ← accept (·.isOperator "=") then
    let value ← nestedExpression levels
    pure (.declare kind name (some value))
  else if kind = .constant then failHere .missingInitializer
  else pure (.declare kind name none)

/-- A declared function from its keyword on. -/
def functionDeclaration (levels : Levels) : Parse Stmt := do
  let keyword ← advance
  let name ← identifier
  let f ← functionFrom levels keyword (some name)
  pure (.defineFunction f)

/-- A condition from its keyword on. -/
def conditional (levels : Levels) : Parse Stmt := do
  let _ ← advance
  let test ← parenthesizedExpression levels
  let consequent ← nestedStatement levels
  let token ← peek
  if token.isKeyword .ella then
    let _ ← advance
    let alternate ← nestedStatement levels
    pure (.conditional test consequent (some alternate))
  else if token.isKeyword .wa9ila then
    let alternate ← levels.deeper (·.conditional)
    pure (.conditional test consequent (some alternate))
  else pure (.conditional test consequent none)

/-- The body of a loop. -/
def loopBody (levels : Levels) : Parse Stmt :=
  surroundedBy (fun around => { around with loops := around.loops + 1 }) (nestedStatement levels)

/-- A loop that tests first, from its keyword on. -/
def whileLoop (levels : Levels) : Parse Stmt := do
  let _ ← advance
  let test ← parenthesizedExpression levels
  let body ← loopBody levels
  pure (.whileLoop test body)

/-- A loop that tests last, from its keyword on. -/
def doWhileLoop (levels : Levels) : Parse Stmt := do
  let _ ← advance
  let body ← loopBody levels
  let _ ← expect (·.isKeyword .madamt) .unexpectedToken
  let test ← parenthesizedExpression levels
  pure (.doWhileLoop body test)

/-- What a counting loop begins with. -/
def loopStart (levels : Levels) : Parse (Option Stmt) := do
  let token ← peek
  if token.isPunctuation ';' then pure none
  else if token.isKeyword .bdl || token.isKeyword .tabit then do
    let start ← declaration levels
    pure (some start)
  else do
    let expr ← nestedExpression levels
    pure (some (.evaluate expr))

/-- An expression that is left out when a sign is next. -/
def expressionUnless (levels : Levels) (sign : Char) : Parse (Option Expr) := do
  if (← peek).isPunctuation sign then pure none
  else do
    let expr ← nestedExpression levels
    pure (some expr)

/-- A counting loop from its keyword on. -/
def forLoop (levels : Levels) : Parse Stmt := do
  let _ ← advance
  let _ ← expectSign '('
  let start ← loopStart levels
  let _ ← expectSign ';'
  let test ← expressionUnless levels ';'
  let _ ← expectSign ';'
  let update ← expressionUnless levels ')'
  let _ ← expectSign ')'
  let body ← loopBody levels
  pure (.forLoop start test update body)

/-- The handler of exceptions, if there is one. -/
def handler (levels : Levels) : Parse (Option (Identifier × List Stmt)) := do
  if ← accept (·.isKeyword .msk) then
    let _ ← expectSign '('
    let name ← identifier
    let _ ← expectSign ')'
    let body ← block levels
    pure (some (name, body))
  else pure none

/-- The statements that run in every case, if there are some. -/
def finalizer (levels : Levels) : Parse (Option (List Stmt)) := do
  if ← accept (·.isKeyword .fakhr) then
    let body ← block levels
    pure (some body)
  else pure none

/-- Statements with a handler, statements that run in every case, or both, from the keyword on. -/
def attempt (levels : Levels) : Parse Stmt := do
  let _ ← advance
  let body ← block levels
  let handler ← handler levels
  let finalizer ← finalizer levels
  if handler.isNone && finalizer.isNone then failHere .missingHandler
  else pure (.attempt body handler finalizer)

/-- A clause behind its head. -/
def clauseFrom (levels : Levels) (test : Option Expr) : Parse Case := do
  let _ ← expectSign ':'
  let body ←
    surroundedBy (fun around => { around with choices := around.choices + 1 }) do
      items levels
        (fun token => token.isKeyword .hala || token.isKeyword .adi || token.isPunctuation '\x7d')
        (← remaining)
  pure (.mk test body)

/-- The clauses of a choice; `hasDefault` says whether one without a test came before. At most
`limit` steps are made. -/
def clauses (levels : Levels) : (hasDefault : Bool) → (limit : Nat) → Parse (List Case)
  | _, 0 => pure []
  | hasDefault, limit + 1 => do
    let token ← peek
    if token.isKeyword .hala then
      let _ ← advance
      let test ← nestedExpression levels
      let first ← clauseFrom levels (some test)
      let others ← clauses levels hasDefault limit
      pure (first :: others)
    else if token.isKeyword .adi then
      let _ ← advance
      if hasDefault then record ⟨.grammatical .duplicateDefault, token.position⟩
      let first ← clauseFrom levels none
      let others ← clauses levels true limit
      pure (first :: others)
    else if token.isPunctuation '\x7d' || token.isEnd then pure []
    else
      record ⟨.grammatical (.missingCase token.display), token.position⟩
      recover (← remaining)
      clauses levels hasDefault limit

/-- A choice from its keyword on. -/
def choice (levels : Levels) : Parse Stmt := do
  let _ ← advance
  let subject ← parenthesizedExpression levels
  let _ ← expectSign '\x7b'
  let cases ← clauses levels false (← remaining)
  let _ ← expectSign '\x7d'
  pure (.choice subject cases)

/-- A return from its keyword on. -/
def giveBack (levels : Levels) : Parse Stmt := do
  let keyword ← advance
  if (← get).surroundings.inFunction then
    let value ← expressionUnless levels ';'
    pure (.giveBack value)
  else failAt keyword .returnOutsideFunction

/-- A statement that leaves a loop or a choice, from its keyword on. -/
def leave : Parse Stmt := do
  let keyword ← advance
  let around := (← get).surroundings
  if around.loops = 0 && around.choices = 0 then failAt keyword .breakOutsideLoop
  else pure .leave

/-- A statement that goes on with the next round of a loop, from its keyword on. -/
def next : Parse Stmt := do
  let keyword ← advance
  if (← get).surroundings.loops = 0 then failAt keyword .continueOutsideLoop else pure .next

/-- A statement and the semicolon behind it. -/
def terminated (rule : Parse Stmt) : Parse Stmt := do
  let stmt ← rule
  let _ ← expectSign ';'
  pure stmt

/-- An expression as a statement. -/
def evaluation (levels : Levels) : Parse Stmt := do
  let expr ← nestedExpression levels
  pure (.evaluate expr)

/-- A statement of any kind. -/
def statement (levels : Levels) : Parse Stmt := do
  let token ← peek
  if token.isPunctuation '\x7b' then
    let body ← block levels
    pure (.block body)
  else if token.isPunctuation ';' then
    let _ ← advance
    pure .empty
  else
    match token.keyword? with
    | some .tabit | some .bdl => terminated (declaration levels)
    | some .dala => functionDeclaration levels
    | some .ila => conditional levels
    | some .madamt => whileLoop levels
    | some .douz => forLoop levels
    | some .jrb => attempt levels
    | some .bdl3la => choice levels
    | some .dir => terminated (doWhileLoop levels)
    | some .rj3 => terminated (giveBack levels)
    | some .wa9f => terminated leave
    | some .kamml => terminated next
    | _ => terminated (evaluation levels)

end DarijaScript.Grammar
