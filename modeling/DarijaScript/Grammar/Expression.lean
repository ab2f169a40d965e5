import DarijaScript.Decimal.Shortest
import DarijaScript.Grammar.Stream

/-!
# The grammar of expressions

From the loosest binding to the tightest: assignments, which associate to the right; the chains of
logical, comparing and arithmetic operators, which associate to the left; operators in front of an
operand and behind it; calls and members; and the primary expressions.

Every rule is given the levels of nesting that are left. A group goes one level in, and every
further link of a chain takes a level away from what stands to its right.
-/

namespace DarijaScript.Grammar

open Parse

/-- An expression one level further in. -/
def nestedExpression (levels : Levels) : Parse Expr := levels.deeper (·.expression)

/-- What a token joins two operands to, if it is one of some operators. -/
abbrev Joint := Token → Option (Expr → Expr → Expr)

/-- A logical operator. -/
def logicalJoint (op : Connective) : Joint := fun token =>
  if token.isOperator op.text then some (.logical op) else none

/-- One of some operators of two operands. -/
def binaryJoint (ops : List BinaryOp) : Joint := fun token =>
  (ops.find? fun op => token.isOperator op.text).map .binary

/-- The links of a chain behind its first operand. -/
def chainFrom (joint : Joint) (operand : Levels → Parse Expr) : Levels → Expr → Parse Expr
  | [], left => do
    match joint (← peek) with
    | none => pure left
    | some _ =>
      let _ ← advance
      failHere .nestingTooDeep
  | _ :: levels, left => do
    match joint (← peek) with
    | none => pure left
    | some join =>
      let _ ← advance
      let right ← operand levels
      chainFrom joint operand levels (join left right)

/-- A chain of operands that associates to the left. -/
def chain (joint : Joint) (operand : Levels → Parse Expr) (levels : Levels) : Parse Expr := do
  let first ← operand levels
  chainFrom joint operand levels first

/-- The arguments of a call behind the opening parenthesis `opening`. -/
def arguments (levels : Levels) (opening : Token) : Parse (List Expr) := do
  let args ←
    if ← acceptSign ')' then pure []
    else do
      let args ← separatedTight (nestedExpression levels) ((← remaining) + 1)
      let _ ← expectSign ')'
      pure args
  if maxArguments < args.length then
    record ⟨.grammatical (.tooManyArguments args.length), opening.position⟩
  pure args

/-- The selection of a member. -/
def memberOf (levels : Levels) (owner : Expr) : Parse Expr := do
  let token ← advance
  if token.isPunctuation '.' then
    let name ← expect Token.isMemberName .missingIdentifier
    pure (.member owner (.named name.lexeme) token.position)
  else
    let key ← nestedExpression levels
    let _ ← expectSign ']'
    pure (.member owner (.computed key) token.position)

/-- The members behind the constructor of an object. -/
def membersFrom : Levels → Expr → Parse Expr
  | [], owner => do
    let token ← peek
    if token.isPunctuation '.' || token.isPunctuation '[' then failHere .nestingTooDeep
    else pure owner
  | _ :: levels, owner => do
    let token ← peek
    if token.isPunctuation '.' || token.isPunctuation '[' then
      let owner ← memberOf levels owner
      membersFrom levels owner
    else pure owner

/-- The calls and members behind an expression. -/
def callsFrom : Levels → Expr → Parse Expr
  | [], callee => do
    let token ← peek
    if token.isPunctuation '(' || token.isPunctuation '.' || token.isPunctuation '[' then
      failHere .nestingTooDeep
    else pure callee
  | _ :: levels, callee => do
    let token ← peek
    if token.isPunctuation '(' then
      let _ ← advance
      let args ← arguments levels token
      callsFrom levels (.call callee args token.position)
    else if token.isPunctuation '.' || token.isPunctuation '[' then
      let callee ← memberOf levels callee
      callsFrom levels callee
    else pure callee

/-- Statements up to a token that stops them or the end of the file. After a fault reading goes on
at the next boundary. At most `limit` statements are read. -/
def items (levels : Levels) (stops : Token → Bool) : (limit : Nat) → Parse (List Stmt)
  | 0 => pure []
  | limit + 1 => do
    let token ← peek
    if token.isEnd || stops token then pure []
    else
      let before ← remaining
      match ← outcome (levels.deeper (·.statement)) with
      | .ok stmt =>
        let others ← items levels stops limit
        pure (stmt :: others)
      | .error error =>
        record error
        recover before
        items levels stops limit

/-- Statements between braces. -/
def block (levels : Levels) : Parse (List Stmt) := do
  let _ ← expectSign '\x7b'
  let body ← items levels (·.isPunctuation '\x7d') (← remaining)
  let _ ← expectSign '\x7d'
  pure body

/-- The parameters and the body of a function whose keyword is `opening`. -/
def functionFrom (levels : Levels) (opening : Token) (name : Option Identifier) :
    Parse Function := do
  let parenthesis ← expectSign '('
  let params ← separated identifier ')' ((← remaining) + 1)
  let _ ← expectSign ')'
  if maxArguments < params.length then
    record ⟨.grammatical (.tooManyParameters params.length), parenthesis.position⟩
  let body ← surroundedBy (fun _ => ⟨0, 0, true⟩) (block levels)
  let source := (← get).source
  pure (.mk name params body ⟨source, opening.position⟩)

/-- A field of an object: a word, a string or a number, which is a key by its text, and a value. -/
def entry (levels : Levels) : Parse (String × Expr) := do
  let token ← advance
  let key ←
    match token.kind with
    | .identifier | .keyword | .boolean | .string => pure token.lexeme
    | .number =>
      match Decimal.read? token.lexeme.toList with
      | some value => pure (Decimal.text value)
      | none => failAt token (.invalidPropertyName token.display)
    | _ => failAt token (.invalidPropertyName token.display)
  let _ ← expectSign ':'
  let value ← nestedExpression levels
  pure (key, value)

/-- A primary expression other than the construction of an object. -/
def atom (levels : Levels) : Parse Expr := do
  let token ← advance
  match token.kind with
  | .number =>
    match Decimal.read? token.lexeme.toList with
    | some value => pure (.literal (.number value))
    | none => failAt token (.unexpectedToken token.display)
  | .string => pure (.literal (.string token.lexeme))
  | .boolean => pure (.literal (.boolean (token.lexeme == trueWord)))
  | .identifier => pure (.identifier ⟨token.lexeme, token.position⟩)
  | .keyword =>
    match token.keyword? with
    | some .farkha => pure (.literal .null)
    | some .mchmcha => pure (.literal .undefined)
    | some .hadi => pure .this
    | some .dala =>
      let name ←
        if (← peek).kind == .identifier then do
          let name ← identifier
          pure (some name)
        else pure none
      let f ← functionFrom levels token name
      pure (.function f)
    | _ => failAt token (.unexpectedToken token.display)
  | .punctuation =>
    if token.isPunctuation '(' then
      let expr ← nestedExpression levels
      let _ ← expectSign ')'
      pure expr
    else if token.isPunctuation '[' then
      let elements ← separated (nestedExpression levels) ']' ((← remaining) + 1)
      let _ ← expectSign ']'
      pure (.array elements)
    else if token.isPunctuation '\x7b' then
      let entries ← separated (entry levels) '\x7d' ((← remaining) + 1)
      let _ ← expectSign '\x7d'
      pure (.object entries)
    else failAt token (.unexpectedToken token.display)
  | _ => failAt token (.unexpectedToken token.display)

/-- The keywords that construct objects, as many as are next. -/
def constructors : Parse (List Token) := fun stream =>
  let keywords := stream.rest.takeWhile (·.isKeyword .jdid)
  .ok keywords (stream.skip keywords.length)

/-- The construction of an object by a keyword and what stands behind it: members of the
constructor and then at most one list of arguments. -/
def constructFrom (levels : Levels) (keyword : Token) (callee : Expr) : Parse Expr := do
  let callee ← membersFrom levels callee
  let token ← peek
  if token.isPunctuation '(' then
    let _ ← advance
    let args ← arguments levels token
    pure (.construct callee args keyword.position)
  else pure (.construct callee [] keyword.position)

/-- A primary expression. The last of several constructing keywords takes what stands behind
first. -/
def primary (levels : Levels) : Parse Expr := do
  let keywords ← constructors
  let first ← atom levels
  keywords.foldrM (constructFrom levels) first

/-- The operator that changes a place by one. -/
def stepOp? (token : Token) : Option StepOp :=
  if token.isOperator StepOp.increment.text then some .increment
  else if token.isOperator StepOp.decrement.text then some .decrement
  else none

/-- The operator of one operand that a token in front of it is. -/
def unaryOp? (token : Token) : Option UnaryOp :=
  if token.isKeyword .no3 then some .typeOf
  else if token.kind = .operator ∨ token.kind = .keyword then
    if token.lexeme = "!" then some .not
    else if token.lexeme = "-" then some .negate
    else if token.lexeme = "+" then some .toNumber
    else none
  else none

/-- An operand and the update behind it. -/
def updated (levels : Levels) : Parse Expr := do
  let first ← primary levels
  let target ← callsFrom levels first
  let token ← peek
  match stepOp? token with
  | none => pure target
  | some op =>
    if target.isReference then
      let _ ← advance
      pure (.update op false target token.position)
    else failHere .invalidUpdateTarget

/-- An operand with the operators in front of it. -/
def operand (levels : Levels) : Parse Expr := do
  let token ← peek
  match stepOp? token with
  | some op =>
    let _ ← advance
    let target ← levels.deeper (·.operand)
    if target.isReference then pure (.update op true target token.position)
    else failAt token (.invalidUpdateTarget token.display)
  | none =>
    match unaryOp? token with
    | some op =>
      let _ ← advance
      let expr ← levels.deeper (·.operand)
      pure (.unary op expr)
    | none => updated levels

/-- Products. -/
def product : Levels → Parse Expr := chain (binaryJoint [.multiply, .divide, .remainder]) operand

/-- Sums. -/
def sum : Levels → Parse Expr := chain (binaryJoint [.add, .subtract]) product

/-- Comparisons by size. -/
def comparison : Levels → Parse Expr :=
  chain (binaryJoint [.less, .lessEqual, .greater, .greaterEqual]) sum

/-- Comparisons for equality. -/
def equality : Levels → Parse Expr :=
  chain (binaryJoint [.looseEqual, .looseNotEqual, .strictEqual, .strictNotEqual]) comparison

/-- Conjunctions. -/
def conjunction : Levels → Parse Expr := chain (logicalJoint .and) equality

/-- Disjunctions. -/
def disjunction : Levels → Parse Expr := chain (logicalJoint .or) conjunction

/-- The assignment that a token is. -/
def assignOp? (token : Token) : Option AssignmentOp :=
  if token.kind = .operator then AssignmentOp.ofText? token.lexeme else none

/-- An expression of any kind. -/
def assignment (levels : Levels) : Parse Expr := do
  let target ← disjunction levels
  let token ← peek
  match assignOp? token with
  | none => pure target
  | some op =>
    if target.isReference then
      let _ ← advance
      let value ← levels.deeper (·.expression)
      pure (.assign op target value token.position)
    else failHere .invalidAssignmentTarget

end DarijaScript.Grammar
