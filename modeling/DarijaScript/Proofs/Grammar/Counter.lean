import DarijaScript.Grammar.Program

/-!
# Reading with a counter of levels

The rules of the grammar once more, for a reader that is not given the levels that are left but counts
those that are open. A nested rule opens a level and sets the counter back when it ends in whatever
way. A chain opens a level for every link and closes them when it is complete, so one that fails midway
leaves them open. Loops and choices count themselves in before their bodies and out behind them.
-/

namespace DarijaScript

/-- A stream of tokens and the number of levels that are open. -/
structure Reader where
  stream : Stream
  depth : Nat

/-- Reads something and counts the levels that are open. -/
abbrev Counting := EStateM SyntaxError Reader

namespace Counting

open Parse Grammar

/-! ### Steps -/

section

variable {α : Type}

/-- A rule that neither opens nor closes a level. -/
def lift (rule : Parse α) : Counting α := fun reader =>
  match rule reader.stream with
  | .ok a after => .ok a ⟨after, reader.depth⟩
  | .error error after => .error error ⟨after, reader.depth⟩

instance : MonadLift Parse Counting := ⟨lift⟩

/-- Reads one level further in, if a level is left. The levels that are open afterwards are those that
were open before. -/
def nested (rule : Counting α) : Counting α := fun reader =>
  if maxLevels ≤ reader.depth then lift (failHere .nestingTooDeep) reader
  else
    match rule ⟨reader.stream, reader.depth + 1⟩ with
    | .ok a after => .ok a ⟨after.stream, reader.depth⟩
    | .error error after => .error error ⟨after.stream, reader.depth⟩

/-- Opens a level for one more link of a chain, if a level is left. -/
def deepen : Counting Unit := fun reader =>
  if maxLevels ≤ reader.depth then lift (failHere .nestingTooDeep) reader
  else .ok () ⟨reader.stream, reader.depth + 1⟩

/-- Closes the levels of the links of a chain. -/
def release (links : Nat) : Counting Unit := fun reader =>
  .ok () ⟨reader.stream, reader.depth - links⟩

/-- The outcome of a rule, which may be a fault. -/
def outcome (rule : Counting α) : Counting (Except SyntaxError α) := fun reader =>
  match rule reader with
  | .ok value after => .ok (.ok value) after
  | .error error after => .ok (.error error) after

/-- Changes what is around before a rule and again behind it, also if it fails. -/
def between (enter leave : Surroundings → Surroundings) (rule : Counting α) : Counting α :=
  fun reader =>
    let change (f : Surroundings → Surroundings) (reader : Reader) : Reader :=
      ⟨{ reader.stream with surroundings := f reader.stream.surroundings }, reader.depth⟩
    match rule (change enter reader) with
    | .ok value after => .ok value (change leave after)
    | .error error after => .error error (change leave after)

/-- Reads inside one more loop. -/
def inLoop (rule : Counting α) : Counting α :=
  between (fun around => { around with loops := around.loops + 1 })
    (fun around => { around with loops := around.loops - 1 }) rule

/-- Reads inside one more choice. -/
def inChoice (rule : Counting α) : Counting α :=
  between (fun around => { around with choices := around.choices + 1 })
    (fun around => { around with choices := around.choices - 1 }) rule

/-- Reads the body of a function, which no loop and no choice is around. What was around the function
is kept aside. -/
def inFunction (rule : Counting α) : Counting α := fun reader =>
  between (fun _ => ⟨0, 0, true⟩) (fun _ => reader.stream.surroundings) rule reader

/-- Things with commas between them, up to a sign; a comma may stand behind the last one. At most
`limit` things are read. -/
def separated (thing : Counting α) (close : Char) : (limit : Nat) → Counting (List α)
  | 0 => pure []
  | limit + 1 => do
    if (← peek).isPunctuation close then pure []
    else
      let first ← thing
      if ← acceptSign ',' then
        let others ← separated thing close limit
        pure (first :: others)
      else pure [first]

/-- One or more things with commas between them. At most `limit` things are read. -/
def separatedTight (thing : Counting α) : (limit : Nat) → Counting (List α)
  | 0 => pure []
  | limit + 1 => do
    let first ← thing
    if ← acceptSign ',' then
      let others ← separatedTight thing limit
      pure (first :: others)
    else pure [first]

end

/-- The rules that may contain each other. -/
structure Rules where
  statement : Counting Stmt
  conditional : Counting Stmt
  expression : Counting Expr
  operand : Counting Expr

/-! ### Expressions -/

section

variable (rules : Rules)

/-- An expression one level further in. -/
def nestedExpression : Counting Expr := nested rules.expression

/-- A statement one level further in. -/
def nestedStatement : Counting Stmt := nested rules.statement

/-- The links of a chain behind its first operand; `links` of them are open. At most `limit` more are
read. -/
def chainFrom (joint : Joint) (operand : Counting Expr) :
    (limit links : Nat) → Expr → Counting Expr
  | 0, _, left => pure left
  | limit + 1, links, left => do
    match joint (← peek) with
    | none =>
      release links
      pure left
    | some join =>
      let _ ← advance
      deepen
      let right ← operand
      chainFrom joint operand limit (links + 1) (join left right)

/-- A chain of operands that associates to the left. A level is open for every link, so there are not
more of them than levels. -/
def chain (joint : Joint) (operand : Counting Expr) : Counting Expr := do
  let first ← operand
  chainFrom joint operand (maxLevels + 1) 0 first

/-- The arguments of a call behind the opening parenthesis `opening`. -/
def arguments (opening : Token) : Counting (List Expr) := do
  let args ←
    if ← acceptSign ')' then pure []
    else do
      let args ← separatedTight (nestedExpression rules) ((← remaining) + 1)
      let _ ← expectSign ')'
      pure args
  if maxArguments < args.length then
    record ⟨.grammatical (.tooManyArguments args.length), opening.position⟩
  pure args

/-- The selection of a member. -/
def memberOf (owner : Expr) : Counting Expr := do
  let token ← advance
  if token.isPunctuation '.' then
    let name ← expect Token.isMemberName .missingIdentifier
    pure (.member owner (.named name.lexeme) token.position)
  else
    let key ← nestedExpression rules
    let _ ← expectSign ']'
    pure (.member owner (.computed key) token.position)

/-- The members behind the constructor of an object. -/
def membersFrom : (limit links : Nat) → Expr → Counting Expr
  | 0, _, owner => pure owner
  | limit + 1, links, owner => do
    let token ← peek
    if token.isPunctuation '.' || token.isPunctuation '[' then
      deepen
      let owner ← memberOf rules owner
      membersFrom limit (links + 1) owner
    else
      release links
      pure owner

/-- The calls and members behind an expression. -/
def callsFrom : (limit links : Nat) → Expr → Counting Expr
  | 0, _, callee => pure callee
  | limit + 1, links, callee => do
    let token ← peek
    if token.isPunctuation '(' then
      deepen
      let _ ← advance
      let args ← arguments rules token
      callsFrom limit (links + 1) (.call callee args token.position)
    else if token.isPunctuation '.' || token.isPunctuation '[' then
      deepen
      let callee ← memberOf rules callee
      callsFrom limit (links + 1) callee
    else
      release links
      pure callee

/-- Statements up to a token that stops them or the end of the file. After a fault reading goes on
at the next boundary. At most `limit` statements are read. -/
def items (stops : Token → Bool) : (limit : Nat) → Counting (List Stmt)
  | 0 => pure []
  | limit + 1 => do
    let token ← peek
    if token.isEnd || stops token then pure []
    else
      let before ← remaining
      match ← outcome (nestedStatement rules) with
      | .ok stmt =>
        let others ← items stops limit
        pure (stmt :: others)
      | .error error =>
        record error
        recover before
        items stops limit

/-- Statements between braces. -/
def block : Counting (List Stmt) := do
  let _ ← expectSign '\x7b'
  let body ← items rules (·.isPunctuation '\x7d') (← remaining)
  let _ ← expectSign '\x7d'
  pure body

/-- The parameters and the body of a function whose keyword is `opening`. -/
def functionFrom (opening : Token) (name : Option Identifier) : Counting Function := do
  let parenthesis ← expectSign '('
  let params ← Parse.separated identifier ')' ((← remaining) + 1)
  let _ ← expectSign ')'
  if maxArguments < params.length then
    record ⟨.grammatical (.tooManyParameters params.length), parenthesis.position⟩
  let body ← inFunction (block rules)
  let source := (← (get : Parse Stream)).source
  pure (.mk name params body ⟨source, opening.position⟩)

/-- A field of an object: a word, a string or a number, which is a key by its text, and a value. -/
def entry : Counting (String × Expr) := do
  let token ← advance
  let key ←
    match token.kind with
    | .identifier | .keyword | .boolean | .string => pure token.lexeme
    | .number =>
      match Decimal.read? token.lexeme.toList with
      | some value => pure (Decimal.text value)
      | none => failAt token (.invalidPropertyName token.display)
    | _ => failAt token (.invalidPropertyName token.display)
  let _ ← expectSign ':'
  let value ← nestedExpression rules
  pure (key, value)

/-- A primary expression other than the construction of an object. -/
def atom : Counting Expr := do
  let token ← advance
  match token.kind with
  | .number =>
    match Decimal.read? token.lexeme.toList with
    | some value => pure (.literal (.number value))
    | none => failAt token (.unexpectedToken token.display)
  | .string => pure (.literal (.string token.lexeme))
  | .boolean => pure (.literal (.boolean (token.lexeme == trueWord)))
  | .identifier => pure (.identifier ⟨token.lexeme, token.position⟩)
  | .keyword =>
    match token.keyword? with
    | some .farkha => pure (.literal .null)
    | some .mchmcha => pure (.literal .undefined)
    | some .hadi => pure .this
    | some .dala =>
      let name ←
        if (← peek).kind == .identifier then do
          let name ← identifier
          pure (some name)
        else pure none
      let f ← functionFrom rules token name
      pure (.function f)
    | _ => failAt token (.unexpectedToken token.display)
  | .punctuation =>
    if token.isPunctuation '(' then
      let expr ← nestedExpression rules
      let _ ← expectSign ')'
      pure expr
    else if token.isPunctuation '[' then
      let elements ← separated (nestedExpression rules) ']' ((← remaining) + 1)
      let _ ← expectSign ']'
      pure (.array elements)
    else if token.isPunctuation '\x7b' then
      let entries ← separated (entry rules) '\x7d' ((← remaining) + 1)
      let _ ← expectSign '\x7d'
      pure (.object entries)
    else failAt token (.unexpectedToken token.display)
  | _ => failAt token (.unexpectedToken token.display)

/-- The construction of an object by a keyword and what stands behind it: members of the
constructor and then at most one list of arguments. -/
def constructFrom (keyword : Token) (callee : Expr) : Counting Expr := do
  let callee ← membersFrom rules (maxLevels + 1) 0 callee
  let token ← peek
  if token.isPunctuation '(' then
    let _ ← advance
    let args ← arguments rules token
    pure (.construct callee args keyword.position)
  else pure (.construct callee [] keyword.position)

/-- A primary expression behind at most `limit` keywords that construct objects. -/
def primaryFrom : (limit : Nat) → Counting Expr
  | 0 => atom rules
  | limit + 1 => do
    let keyword ← peek
    if keyword.isKeyword .jdid then
      let _ ← advance
      let callee ← primaryFrom limit
      constructFrom rules keyword callee
    else atom rules

/-- A primary expression. -/
def primary : Counting Expr := do
  primaryFrom rules (← remaining)

/-- An operand and the update behind it. -/
def updated : Counting Expr := do
  let first ← primary rules
  let target ← callsFrom rules (maxLevels + 1) 0 first
  let token ← peek
  match stepOp? token with
  | none => pure target
  | some op =>
    if target.isReference then
      let _ ← advance
      pure (.update op false target token.position)
    else failHere .invalidUpdateTarget

/-- An operand with the operators in front of it. -/
def operand : Counting Expr := do
  let token ← peek
  match stepOp? token with
  | some op =>
    let _ ← advance
    let target ← nested rules.operand
    if target.isReference then pure (.update op true target token.position)
    else failAt token (.invalidUpdateTarget token.display)
  | none =>
    match unaryOp? token with
    | some op =>
      let _ ← advance
      let expr ← nested rules.operand
      pure (.unary op expr)
    | none => updated rules

/-- Chains of all operators of two operands, the ones that bind tighter inside. -/
def disjunction : Counting Expr :=
  chain (logicalJoint .or) <|
  chain (logicalJoint .and) <|
  chain (binaryJoint [.looseEqual, .looseNotEqual, .strictEqual, .strictNotEqual]) <|
  chain (binaryJoint [.less, .lessEqual, .greater, .greaterEqual]) <|
  chain (binaryJoint [.add, .subtract]) <|
  chain (binaryJoint [.multiply, .divide, .remainder]) (operand rules)

/-- An expression of any kind. -/
def assignment : Counting Expr := do
  let target ← disjunction rules
  let token ← peek
  match assignOp? token with
  | none => pure target
  | some op =>
    if target.isReference then
      let _ ← advance
      let value ← nested rules.expression
      pure (.assign op target value token.position)
    else failHere .invalidAssignmentTarget

/-! ### Statements -/

/-- An expression between parentheses. -/
def parenthesizedExpression : Counting Expr := do
  let _ ← expectSign '('
  let expr ← nestedExpression rules
  let _ ← expectSign ')'
  pure expr

/-- A declaration from its keyword on. -/
def declaration : Counting Stmt := do
  let keyword ← advance
  let kind := if keyword.isKeyword .tabit then DeclarationKind.constant else .variable
  let name ← identifier
  if ← accept (·.isOperator "=") then
    let value ← nestedExpression rules
    pure (.declare kind name (some value))
  else if kind = .constant then failHere .missingInitializer
  else pure (.declare kind name none)

/-- A declared function from its keyword on. -/
def functionDeclaration : Counting Stmt := do
  let keyword ← advance
  let name ← identifier
  let f ← functionFrom rules keyword (some name)
  pure (.defineFunction f)

/-- A condition from its keyword on. -/
def conditional : Counting Stmt := do
  let _ ← advance
  let test ← parenthesizedExpression rules
  let consequent ← nestedStatement rules
  let token ← peek
  if token.isKeyword .ella then
    let _ ← advance
    let alternate ← nestedStatement rules
    pure (.conditional test consequent (some alternate))
  else if token.isKeyword .wa9ila then
    let alternate ← nested rules.conditional
    pure (.conditional test consequent (some alternate))
  else pure (.conditional test consequent none)

/-- The body of a loop. -/
def loopBody : Counting Stmt := inLoop (nestedStatement rules)

/-- A loop that tests first, from its keyword on. -/
def whileLoop : Counting Stmt := do
  let _ ← advance
  let test ← parenthesizedExpression rules
  let body ← loopBody rules
  pure (.whileLoop test body)

/-- A loop that tests last, from its keyword on. -/
def doWhileLoop : Counting Stmt := do
  let _ ← advance
  let body ← loopBody rules
  let _ ← expect (·.isKeyword .madamt) .unexpectedToken
  let test ← parenthesizedExpression rules
  pure (.doWhileLoop body test)

/-- What a counting loop begins with. -/
def loopStart : Counting (Option Stmt) := do
  let token ← peek
  if token.isPunctuation ';' then pure none
  else if token.isKeyword .bdl || token.isKeyword .tabit then do
    let start ← declaration rules
    pure (some start)
  else do
    let expr ← nestedExpression rules
    pure (some (.evaluate expr))

/-- An expression that is left out when a sign is next. -/
def expressionUnless (sign : Char) : Counting (Option Expr) := do
  if (← peek).isPunctuation sign then pure none
  else do
    let expr ← nestedExpression rules
    pure (some expr)

/-- A counting loop from its keyword on. -/
def forLoop : Counting Stmt := do
  let _ ← advance
  let _ ← expectSign '('
  let start ← loopStart rules
  let _ ← expectSign ';'
  let test ← expressionUnless rules ';'
  let _ ← expectSign ';'
  let update ← expressionUnless rules ')'
  let _ ← expectSign ')'
  let body ← loopBody rules
  pure (.forLoop start test update body)

/-- The handler of exceptions, if there is one. -/
def handler : Counting (Option (Identifier × List Stmt)) := do
  if ← accept (·.isKeyword .msk) then
    let _ ← expectSign '('
    let name ← identifier
    let _ ← expectSign ')'
    let body ← block rules
    pure (some (name, body))
  else pure none

/-- The statements that run in every case, if there are some. -/
def finalizer : Counting (Option (List Stmt)) := do
  if ← accept (·.isKeyword .fakhr) then
    let body ← block rules
    pure (some body)
  else pure none

/-- Statements with a handler, statements that run in every case, or both, from the keyword on. -/
def attempt : Counting Stmt := do
  let _ ← advance
  let body ← block rules
  let handler ← handler rules
  let finalizer ← finalizer rules
  if handler.isNone && finalizer.isNone then failHere .missingHandler
  else pure (.attempt body handler finalizer)

/-- A clause behind its head. -/
def clauseFrom (test : Option Expr) : Counting Case := do
  let _ ← expectSign ':'
  let body ←
    inChoice do
      items rules
        (fun token => token.isKeyword .hala || token.isKeyword .adi || token.isPunctuation '\x7d')
        (← remaining)
  pure (.mk test body)

/-- The clauses of a choice; `hasDefault` says whether one without a test came before. At most
`limit` steps are made. -/
def clauses : (hasDefault : Bool) → (limit : Nat) → Counting (List Case)
  | _, 0 => pure []
  | hasDefault, limit + 1 => do
    let token ← peek
    if token.isKeyword .hala then
      let _ ← advance
      let test ← nestedExpression rules
      let first ← clauseFrom rules (some test)
      let others ← clauses hasDefault limit
      pure (first :: others)
    else if token.isKeyword .adi then
      let _ ← advance
      if hasDefault then record ⟨.grammatical .duplicateDefault, token.position⟩
      let first ← clauseFrom rules none
      let others ← clauses true limit
      pure (first :: others)
    else if token.isPunctuation '\x7d' || token.isEnd then pure []
    else
      record ⟨.grammatical (.missingCase token.display), token.position⟩
      recover (← remaining)
      clauses hasDefault limit

/-- A choice from its keyword on. -/
def choice : Counting Stmt := do
  let _ ← advance
  let subject ← parenthesizedExpression rules
  let _ ← expectSign '\x7b'
  let cases ← clauses rules false (← remaining)
  let _ ← expectSign '\x7d'
  pure (.choice subject cases)

/-- A return from its keyword on. -/
def giveBack : Counting Stmt := do
  let keyword ← advance
  if (← (get : Parse Stream)).surroundings.inFunction then
    let value ← expressionUnless rules ';'
    pure (.giveBack value)
  else failAt keyword .returnOutsideFunction

/-- A statement and the semicolon behind it. -/
def terminated (rule : Counting Stmt) : Counting Stmt := do
  let stmt ← rule
  let _ ← expectSign ';'
  pure stmt

/-- An expression as a statement. -/
def evaluation : Counting Stmt := do
  let expr ← nestedExpression rules
  pure (.evaluate expr)

/-- A statement of any kind. -/
def statement : Counting Stmt := do
  let token ← peek
  if token.isPunctuation '\x7b' then
    let body ← block rules
    pure (.block body)
  else if token.isPunctuation ';' then
    let _ ← advance
    pure .empty
  else
    match token.keyword? with
    | some .tabit | some .bdl => terminated (declaration rules)
    | some .dala => functionDeclaration rules
    | some .ila => conditional rules
    | some .madamt => whileLoop rules
    | some .douz => forLoop rules
    | some .jrb => attempt rules
    | some .bdl3la => choice rules
    | some .dir => terminated (doWhileLoop rules)
    | some .rj3 => terminated (giveBack rules)
    | some .wa9f => terminated Grammar.leave
    | some .kamml => terminated Grammar.next
    | _ => terminated (evaluation rules)

end

/-! ### All levels -/

/-- The rules that contain each other at most so many times. As many times as there are levels are
always enough, since the counter stops the next one. -/
def rules : Nat → Rules
  | 0 =>
    { statement := lift (failHere .nestingTooDeep)
      conditional := lift (failHere .nestingTooDeep)
      expression := lift (failHere .nestingTooDeep)
      operand := lift (failHere .nestingTooDeep) }
  | n + 1 =>
    { statement := statement (rules n)
      conditional := conditional (rules n)
      expression := assignment (rules n)
      operand := operand (rules n) }

/-- A statement of a program. -/
def item : Counting Stmt := nestedStatement (rules maxLevels)

/-- An expression on its own. -/
def expression : Counting Expr := nestedExpression (rules maxLevels)

end Counting

end DarijaScript
