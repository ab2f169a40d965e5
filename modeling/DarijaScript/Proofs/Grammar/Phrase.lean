import DarijaScript.Grammar.Expression

/-!
# Phrases

The grammar of the language as derivations: which lists of tokens write which trees. Nothing here
says how a phrase is found. What the rules leave open is closed by conditions of their own: a
branch that may still take another one does not stand in front of it, and a construction without
arguments is not followed by what would belong to it.
-/

namespace DarijaScript

/-- The statement ends with a condition that has no other branch yet. -/
def Stmt.endsOpen : Stmt → Bool
  | .conditional _ _ none => true
  | .conditional _ _ (some alternate) => alternate.endsOpen
  | .whileLoop _ body => body.endsOpen
  | .forLoop _ _ _ body => body.endsOpen
  | _ => false

/-- The statement may begin a counting loop. -/
def Stmt.isStart : Stmt → Bool
  | .declare .. | .evaluate _ => true
  | _ => false

namespace Surroundings

/-- One more loop around. -/
def inLoop (around : Surroundings) : Surroundings := { around with loops := around.loops + 1 }

/-- One more choice around. -/
def inChoice (around : Surroundings) : Surroundings := { around with choices := around.choices + 1 }

/-- The body of a function, whatever is around the function. -/
def ofFunction : Surroundings := ⟨0, 0, true⟩

end Surroundings

namespace Phrase

open Grammar

/-- The chains of operators, the loosest first. -/
def tiers : List Joint :=
  [logicalJoint .or, logicalJoint .and,
    binaryJoint [.looseEqual, .looseNotEqual, .strictEqual, .strictNotEqual],
    binaryJoint [.less, .lessEqual, .greater, .greaterEqual],
    binaryJoint [.add, .subtract],
    binaryJoint [.multiply, .divide, .remainder]]

section

variable {α : Type} (Thing : List Token → α → Prop)

/-- A thing that may be left out. -/
inductive Optionally : List Token → Option α → Prop
  | none : Optionally [] none
  | some {tokens : List Token} {a : α} (thing : Thing tokens a) : Optionally tokens (some a)

/-- Things with commas between them; a comma may stand behind the last one. -/
inductive Listed : List Token → List α → Prop
  | nil : Listed [] []
  | last {tokens : List Token} {a : α} (thing : Thing tokens a) : Listed tokens [a]
  | cons {tokens others : List Token} {a : α} {as : List α} {comma : Token}
      (thing : Thing tokens a) (sign : comma.isPunctuation ',' = true) (rest : Listed others as) :
      Listed (tokens ++ comma :: others) (a :: as)

/-- One or more things with commas between them. -/
inductive Enumerated : List Token → List α → Prop
  | last {tokens : List Token} {a : α} (thing : Thing tokens a) : Enumerated tokens [a]
  | cons {tokens others : List Token} {a : α} {as : List α} {comma : Token}
      (thing : Thing tokens a) (sign : comma.isPunctuation ',' = true)
      (rest : Enumerated others as) : Enumerated (tokens ++ comma :: others) (a :: as)

end

/-- Statements one after the other. -/
inductive Many (Statement : Surroundings → List Token → Stmt → Prop) :
    List Token → List Stmt → Surroundings → Prop
  | nil {around : Surroundings} : Many Statement [] [] around
  | cons {around : Surroundings} {tokens others : List Token} {stmt : Stmt} {stmts : List Stmt}
      (first : Statement around tokens stmt) (rest : Many Statement others stmts around) :
      Many Statement (tokens ++ others) (stmt :: stmts) around

/-- Chains of operators that associate to the left, over operands that bind tighter. -/
inductive Tier (Operand : List Token → Expr → Prop) : List Joint → List Token → Expr → Prop
  | operand {tokens : List Token} {expr : Expr} (operand : Operand tokens expr) :
      Tier Operand [] tokens expr
  | tighter {joint : Joint} {joints : List Joint} {tokens : List Token} {expr : Expr}
      (chain : Tier Operand joints tokens expr) : Tier Operand (joint :: joints) tokens expr
  | link {joint : Joint} {joints : List Joint} {tokens others : List Token} {left right expr : Expr}
      {op : Token} (chain : Tier Operand (joint :: joints) tokens left)
      (joins : (joint op).map (fun join => join left right) = some expr)
      (operand : Tier Operand joints others right) :
      Tier Operand (joint :: joints) (tokens ++ op :: others) expr

/-- What stands behind a head and takes it in. A head that is still open takes such tokens itself, so
they never stand behind it. -/
inductive Suffixed (Head : Bool → List Token → Expr → Prop)
    (Suffix : Expr → List Token → Expr → Prop) : Bool → List Token → Expr → Prop
  | head {isOpen : Bool} {tokens : List Token} {expr : Expr} (head : Head isOpen tokens expr) :
      Suffixed Head Suffix isOpen tokens expr
  | suffix {tokens others : List Token} {owner expr : Expr}
      (chain : Suffixed Head Suffix false tokens owner) (suffix : Suffix owner others expr) :
      Suffixed Head Suffix false (tokens ++ others) expr

/-- A declared name. -/
inductive Name : List Token → Identifier → Prop
  | mk {name : Token} (kind : name.kind = .identifier) : Name [name] ⟨name.lexeme, name.position⟩

/-- The key of a field: a word or a string by its text, or a number by its canonical text. -/
inductive Key : Token → String → Prop
  | word {key : Token} (kind : key.isMemberName = true) : Key key key.lexeme
  | string {key : Token} (kind : key.kind = .string) : Key key key.lexeme
  | number {key : Token} {value : Float} (kind : key.kind = .number)
      (reads : Decimal.read? key.lexeme.toList = some value) : Key key (Decimal.text value)

/-- The tokens do not begin as a block or as a declared function. -/
def NoStatementHead (tokens : List Token) : Prop :=
  ∀ token ∈ tokens.head?, token.isPunctuation '\x7b' = false ∧ token.isKeyword .dala = false

mutual

/-- Primary expressions other than the construction of an object. -/
inductive Atom (source : Nat) : List Token → Expr → Prop
  | number {token : Token} {value : Float} (kind : token.kind = .number)
      (reads : Decimal.read? token.lexeme.toList = some value) :
      Atom source [token] (.literal (.number value))
  | string {token : Token} (kind : token.kind = .string) :
      Atom source [token] (.literal (.string token.lexeme))
  | boolean {token : Token} (kind : token.kind = .boolean) :
      Atom source [token] (.literal (.boolean (token.lexeme == trueWord)))
  | identifier {token : Token} (kind : token.kind = .identifier) :
      Atom source [token] (.identifier ⟨token.lexeme, token.position⟩)
  | null {token : Token} (word : token.isKeyword .farkha = true) :
      Atom source [token] (.literal .null)
  | undefined {token : Token} (word : token.isKeyword .mchmcha = true) :
      Atom source [token] (.literal .undefined)
  | this {token : Token} (word : token.isKeyword .hadi = true) : Atom source [token] .this
  | function {keyword : Token} {names tokens : List Token} {name : Option Identifier} {f : Function}
      (word : keyword.isKeyword .dala = true) (named : Optionally Name names name)
      (rest : FunctionRest source keyword name tokens f) :
      Atom source (keyword :: names ++ tokens) (.function f)
  | group {opening closing : Token} {tokens : List Token} {expr : Expr}
      (opens : opening.isPunctuation '(' = true) (inside : Expression source tokens expr)
      (closes : closing.isPunctuation ')' = true) :
      Atom source (opening :: tokens ++ [closing]) expr
  | array {opening closing : Token} {tokens : List Token} {elements : List Expr}
      (opens : opening.isPunctuation '[' = true)
      (inside : Listed (Expression source) tokens elements)
      (closes : closing.isPunctuation ']' = true) :
      Atom source (opening :: tokens ++ [closing]) (.array elements)
  | object {opening closing : Token} {tokens : List Token} {entries : List (String × Expr)}
      (opens : opening.isPunctuation '\x7b' = true) (inside : Listed (Entry source) tokens entries)
      (closes : closing.isPunctuation '\x7d' = true) :
      Atom source (opening :: tokens ++ [closing]) (.object entries)

/-- A field of an object. -/
inductive Entry (source : Nat) : List Token → String × Expr → Prop
  | mk {token colon : Token} {tokens : List Token} {key : String} {value : Expr}
      (named : Key token key) (sign : colon.isPunctuation ':' = true)
      (written : Expression source tokens value) :
      Entry source (token :: colon :: tokens) (key, value)

/-- The parameters and the body of a function with this keyword and name. -/
inductive FunctionRest (source : Nat) :
    Token → Option Identifier → List Token → Function → Prop
  | mk {keyword opening closing : Token} {name : Option Identifier} {names tokens : List Token}
      {params : List Identifier} {body : List Stmt}
      (opens : opening.isPunctuation '(' = true) (listed : Listed Name names params)
      (closes : closing.isPunctuation ')' = true) (few : params.length ≤ maxArguments)
      (block : Block source .ofFunction tokens body) :
      FunctionRest source keyword name (opening :: names ++ closing :: tokens)
        (.mk name params body ⟨source, keyword.position⟩)

/-- Statements between braces. -/
inductive Block (source : Nat) : Surroundings → List Token → List Stmt → Prop
  | mk {around : Surroundings} {opening closing : Token} {tokens : List Token} {body : List Stmt}
      (opens : opening.isPunctuation '\x7b' = true)
      (inside : Many (Statement source) tokens body around)
      (closes : closing.isPunctuation '\x7d' = true) :
      Block source around (opening :: tokens ++ [closing]) body

/-- The arguments of a call behind the opening parenthesis. -/
inductive Arguments (source : Nat) : List Token → List Expr → Prop
  | none {closing : Token} (closes : closing.isPunctuation ')' = true) :
      Arguments source [closing] []
  | some {closing : Token} {tokens : List Token} {args : List Expr}
      (inside : Enumerated (Expression source) tokens args) (few : args.length ≤ maxArguments)
      (closes : closing.isPunctuation ')' = true) : Arguments source (tokens ++ [closing]) args

/-- The selection of a member. -/
inductive MemberSuffix (source : Nat) : Expr → List Token → Expr → Prop
  | named {owner : Expr} {point name : Token} (sign : point.isPunctuation '.' = true)
      (word : name.isMemberName = true) :
      MemberSuffix source owner [point, name] (.member owner (.named name.lexeme) point.position)
  | computed {owner key : Expr} {opening closing : Token} {tokens : List Token}
      (opens : opening.isPunctuation '[' = true) (inside : Expression source tokens key)
      (closes : closing.isPunctuation ']' = true) :
      MemberSuffix source owner (opening :: tokens ++ [closing])
        (.member owner (.computed key) opening.position)

/-- The selection of a member, or a call. -/
inductive CallSuffix (source : Nat) : Expr → List Token → Expr → Prop
  | member {owner expr : Expr} {tokens : List Token} (member : MemberSuffix source owner tokens expr) :
      CallSuffix source owner tokens expr
  | call {callee : Expr} {opening : Token} {tokens : List Token} {args : List Expr}
      (opens : opening.isPunctuation '(' = true) (passed : Arguments source tokens args) :
      CallSuffix source callee (opening :: tokens) (.call callee args opening.position)

/-- Primary expressions. A construction without arguments is open: the first list of arguments behind
it would be its own. -/
inductive Primary (source : Nat) : Bool → List Token → Expr → Prop
  | atom {tokens : List Token} {expr : Expr} (atom : Atom source tokens expr) :
      Primary source false tokens expr
  | construct {keyword opening : Token} {tokens others : List Token} {callee : Expr}
      {args : List Expr} (word : keyword.isKeyword .jdid = true)
      (constructor : Suffixed (Primary source) (MemberSuffix source) false tokens callee)
      (opens : opening.isPunctuation '(' = true) (passed : Arguments source others args) :
      Primary source false (keyword :: tokens ++ opening :: others)
        (.construct callee args keyword.position)
  | bare {isOpen : Bool} {keyword : Token} {tokens : List Token} {callee : Expr}
      (word : keyword.isKeyword .jdid = true)
      (constructor : Suffixed (Primary source) (MemberSuffix source) isOpen tokens callee) :
      Primary source true (keyword :: tokens) (.construct callee [] keyword.position)

/-- A chain of calls and members, and the update behind it. -/
inductive Updated (source : Nat) : List Token → Expr → Prop
  | plain {isOpen : Bool} {tokens : List Token} {expr : Expr}
      (chain : Suffixed (Primary source) (CallSuffix source) isOpen tokens expr) :
      Updated source tokens expr
  | update {isOpen : Bool} {tokens : List Token} {target : Expr} {sign : Token} {op : StepOp}
      (chain : Suffixed (Primary source) (CallSuffix source) isOpen tokens target)
      (assignable : target.isReference = true) (steps : stepOp? sign = some op) :
      Updated source (tokens ++ [sign]) (.update op false target sign.position)

/-- An operand with the operators in front of it. -/
inductive Operand (source : Nat) : List Token → Expr → Prop
  | update {sign : Token} {op : StepOp} {tokens : List Token} {target : Expr}
      (steps : stepOp? sign = some op) (operand : Operand source tokens target)
      (assignable : target.isReference = true) :
      Operand source (sign :: tokens) (.update op true target sign.position)
  | unary {sign : Token} {op : UnaryOp} {tokens : List Token} {expr : Expr}
      (noStep : stepOp? sign = none) (applies : unaryOp? sign = some op)
      (operand : Operand source tokens expr) : Operand source (sign :: tokens) (.unary op expr)
  | updated {tokens : List Token} {expr : Expr} (updated : Updated source tokens expr) :
      Operand source tokens expr

/-- Expressions. Assignments associate to the right. -/
inductive Expression (source : Nat) : List Token → Expr → Prop
  | chain {tokens : List Token} {expr : Expr} (chain : Tier (Operand source) tiers tokens expr) :
      Expression source tokens expr
  | assign {tokens others : List Token} {target value : Expr} {sign : Token} {op : AssignmentOp}
      (chain : Tier (Operand source) tiers tokens target) (assignable : target.isReference = true)
      (assigns : assignOp? sign = some op) (written : Expression source others value) :
      Expression source (tokens ++ sign :: others) (.assign op target value sign.position)

/-- An expression between parentheses. -/
inductive Parenthesized (source : Nat) : List Token → Expr → Prop
  | mk {opening closing : Token} {tokens : List Token} {expr : Expr}
      (opens : opening.isPunctuation '(' = true) (inside : Expression source tokens expr)
      (closes : closing.isPunctuation ')' = true) :
      Parenthesized source (opening :: tokens ++ [closing]) expr

/-- A declaration without its semicolon. A constant has a value. -/
inductive Declaration (source : Nat) : List Token → Stmt → Prop
  | constant {keyword name sign : Token} {tokens : List Token} {value : Expr}
      (word : keyword.isKeyword .tabit = true) (kind : name.kind = .identifier)
      (assigns : sign.isOperator "=" = true) (written : Expression source tokens value) :
      Declaration source (keyword :: name :: sign :: tokens)
        (.declare .constant ⟨name.lexeme, name.position⟩ (some value))
  | variable {keyword name sign : Token} {tokens : List Token} {value : Expr}
      (word : keyword.isKeyword .bdl = true) (kind : name.kind = .identifier)
      (assigns : sign.isOperator "=" = true) (written : Expression source tokens value) :
      Declaration source (keyword :: name :: sign :: tokens)
        (.declare .variable ⟨name.lexeme, name.position⟩ (some value))
  | uninitialized {keyword name : Token} (word : keyword.isKeyword .bdl = true)
      (kind : name.kind = .identifier) :
      Declaration source [keyword, name]
        (.declare .variable ⟨name.lexeme, name.position⟩ none)

/-- What a counting loop begins with. -/
inductive Start (source : Nat) : List Token → Option Stmt → Prop
  | none : Start source [] none
  | declare {tokens : List Token} {stmt : Stmt} (declaration : Declaration source tokens stmt) :
      Start source tokens (some stmt)
  | evaluate {tokens : List Token} {expr : Expr} (written : Expression source tokens expr) :
      Start source tokens (some (.evaluate expr))

/-- A condition behind its keyword. Another branch belongs to the innermost condition that is
open. -/
inductive Conditional (source : Nat) : Surroundings → List Token → Stmt → Prop
  | alone {around : Surroundings} {tokens others : List Token} {test : Expr} {consequent : Stmt}
      (tested : Parenthesized source tokens test)
      (branch : Statement source around others consequent) :
      Conditional source around (tokens ++ others) (.conditional test consequent none)
  | otherwise {around : Surroundings} {tokens others more : List Token} {keyword : Token}
      {test : Expr} {consequent alternate : Stmt} (tested : Parenthesized source tokens test)
      (branch : Statement source around others consequent) (closed : consequent.endsOpen = false)
      (word : keyword.isKeyword .ella = true) (other : Statement source around more alternate) :
      Conditional source around (tokens ++ others ++ keyword :: more)
        (.conditional test consequent (some alternate))
  | further {around : Surroundings} {tokens others more : List Token} {keyword : Token}
      {test : Expr} {consequent alternate : Stmt} (tested : Parenthesized source tokens test)
      (branch : Statement source around others consequent) (closed : consequent.endsOpen = false)
      (word : keyword.isKeyword .wa9ila = true)
      (other : Conditional source around more alternate) :
      Conditional source around (tokens ++ others ++ keyword :: more)
        (.conditional test consequent (some alternate))

/-- The handler of exceptions. -/
inductive Handler (source : Nat) : Surroundings → List Token → Identifier × List Stmt → Prop
  | mk {around : Surroundings} {keyword opening name closing : Token} {tokens : List Token}
      {body : List Stmt} (word : keyword.isKeyword .msk = true)
      (opens : opening.isPunctuation '(' = true) (kind : name.kind = .identifier)
      (closes : closing.isPunctuation ')' = true) (block : Block source around tokens body) :
      Handler source around (keyword :: opening :: name :: closing :: tokens)
        (⟨name.lexeme, name.position⟩, body)

/-- The clauses of a choice, of which at most one has no test. The Boolean says that one without a
test stands in front of them. -/
inductive Clauses (source : Nat) : Surroundings → Bool → List Token → List Case → Prop
  | nil {around : Surroundings} {hasDefault : Bool} : Clauses source around hasDefault [] []
  | test {around : Surroundings} {hasDefault : Bool} {keyword colon : Token}
      {tokens others more : List Token} {test : Expr} {body : List Stmt} {rest : List Case}
      (word : keyword.isKeyword .hala = true) (tested : Expression source tokens test)
      (sign : colon.isPunctuation ':' = true)
      (inside : Many (Statement source) others body around.inChoice)
      (clauses : Clauses source around hasDefault more rest) :
      Clauses source around hasDefault (keyword :: tokens ++ colon :: others ++ more)
        (.mk (some test) body :: rest)
  | default {around : Surroundings} {keyword colon : Token} {others more : List Token}
      {body : List Stmt} {rest : List Case} (word : keyword.isKeyword .adi = true)
      (sign : colon.isPunctuation ':' = true)
      (inside : Many (Statement source) others body around.inChoice)
      (clauses : Clauses source around true more rest) :
      Clauses source around false (keyword :: colon :: others ++ more) (.mk none body :: rest)

/-- Statements. Jumps stand only where the constructs around them give them a target. -/
inductive Statement (source : Nat) : Surroundings → List Token → Stmt → Prop
  | block {around : Surroundings} {tokens : List Token} {body : List Stmt}
      (block : Block source around tokens body) : Statement source around tokens (.block body)
  | empty {around : Surroundings} {semicolon : Token} (ends : semicolon.isPunctuation ';' = true) :
      Statement source around [semicolon] .empty
  | declare {around : Surroundings} {tokens : List Token} {stmt : Stmt} {semicolon : Token}
      (declaration : Declaration source tokens stmt) (ends : semicolon.isPunctuation ';' = true) :
      Statement source around (tokens ++ [semicolon]) stmt
  | function {around : Surroundings} {keyword name : Token} {tokens : List Token} {f : Function}
      (word : keyword.isKeyword .dala = true) (kind : name.kind = .identifier)
      (rest : FunctionRest source keyword (some ⟨name.lexeme, name.position⟩) tokens f) :
      Statement source around (keyword :: name :: tokens) (.defineFunction f)
  | conditional {around : Surroundings} {keyword : Token} {tokens : List Token} {stmt : Stmt}
      (word : keyword.isKeyword .ila = true) (rest : Conditional source around tokens stmt) :
      Statement source around (keyword :: tokens) stmt
  | whileLoop {around : Surroundings} {keyword : Token} {tokens others : List Token} {test : Expr}
      {body : Stmt} (word : keyword.isKeyword .madamt = true)
      (tested : Parenthesized source tokens test)
      (repeated : Statement source around.inLoop others body) :
      Statement source around (keyword :: tokens ++ others) (.whileLoop test body)
  | doWhileLoop {around : Surroundings} {keyword last semicolon : Token}
      {tokens others : List Token} {test : Expr} {body : Stmt}
      (word : keyword.isKeyword .dir = true) (repeated : Statement source around.inLoop tokens body)
      (again : last.isKeyword .madamt = true) (tested : Parenthesized source others test)
      (ends : semicolon.isPunctuation ';' = true) :
      Statement source around (keyword :: tokens ++ last :: others ++ [semicolon])
        (.doWhileLoop body test)
  | forLoop {around : Surroundings} {keyword opening first second closing : Token}
      {starting testing updating tokens : List Token} {start : Option Stmt}
      {test update : Option Expr} {body : Stmt} (word : keyword.isKeyword .douz = true)
      (opens : opening.isPunctuation '(' = true) (begins : Start source starting start)
      (sign : first.isPunctuation ';' = true)
      (tested : Optionally (Expression source) testing test)
      (sign' : second.isPunctuation ';' = true)
      (updated : Optionally (Expression source) updating update)
      (closes : closing.isPunctuation ')' = true)
      (repeated : Statement source around.inLoop tokens body) :
      Statement source around
        (keyword :: opening :: starting ++ first :: testing ++ second :: updating ++
          closing :: tokens)
        (.forLoop start test update body)
  | handled {around : Surroundings} {keyword : Token} {tokens others : List Token}
      {body : List Stmt} {handler : Identifier × List Stmt}
      (word : keyword.isKeyword .jrb = true) (block : Block source around tokens body)
      (handles : Handler source around others handler) :
      Statement source around (keyword :: tokens ++ others) (.attempt body (some handler) none)
  | finalized {around : Surroundings} {keyword last : Token} {tokens others : List Token}
      {body final : List Stmt} (word : keyword.isKeyword .jrb = true)
      (block : Block source around tokens body) (word' : last.isKeyword .fakhr = true)
      (closing : Block source around others final) :
      Statement source around (keyword :: tokens ++ last :: others)
        (.attempt body none (some final))
  | handledFinalized {around : Surroundings} {keyword last : Token}
      {tokens others more : List Token} {body final : List Stmt}
      {handler : Identifier × List Stmt} (word : keyword.isKeyword .jrb = true)
      (block : Block source around tokens body) (handles : Handler source around others handler)
      (word' : last.isKeyword .fakhr = true) (closing : Block source around more final) :
      Statement source around (keyword :: tokens ++ others ++ last :: more)
        (.attempt body (some handler) (some final))
  | choice {around : Surroundings} {keyword opening closing : Token} {tokens others : List Token}
      {subject : Expr} {cases : List Case} (word : keyword.isKeyword .bdl3la = true)
      (chosen : Parenthesized source tokens subject) (opens : opening.isPunctuation '\x7b' = true)
      (clauses : Clauses source around false others cases)
      (closes : closing.isPunctuation '\x7d' = true) :
      Statement source around (keyword :: tokens ++ opening :: others ++ [closing])
        (.choice subject cases)
  | giveBack {around : Surroundings} {keyword semicolon : Token} {tokens : List Token}
      {value : Option Expr} (word : keyword.isKeyword .rj3 = true)
      (placed : around.inFunction = true) (written : Optionally (Expression source) tokens value)
      (ends : semicolon.isPunctuation ';' = true) :
      Statement source around (keyword :: tokens ++ [semicolon]) (.giveBack value)
  | leave {around : Surroundings} {keyword semicolon : Token}
      (word : keyword.isKeyword .wa9f = true) (placed : 0 < around.loops ∨ 0 < around.choices)
      (ends : semicolon.isPunctuation ';' = true) :
      Statement source around [keyword, semicolon] .leave
  | next {around : Surroundings} {keyword semicolon : Token}
      (word : keyword.isKeyword .kamml = true) (placed : 0 < around.loops)
      (ends : semicolon.isPunctuation ';' = true) :
      Statement source around [keyword, semicolon] .next
  | evaluate {around : Surroundings} {tokens : List Token} {expr : Expr} {semicolon : Token}
      (written : Expression source tokens expr) (headless : NoStatementHead tokens)
      (ends : semicolon.isPunctuation ';' = true) :
      Statement source around (tokens ++ [semicolon]) (.evaluate expr)

end

/-- Whole programs: statements that no construct is around. -/
def Program (source : Nat) (tokens : List Token) (program : List Stmt) : Prop :=
  Many (Statement source) tokens program .none

end Phrase

end DarijaScript
