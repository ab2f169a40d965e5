import DarijaScript.Proofs.Grammar.Criterion
import DarijaScript.Proofs.Lexing.Scan

/-!
# Well-formed trees

What every tree that was read has in common: its names are words, its numbers are not negative, only
places are assigned to, and jumps stand only where the constructs around them give them a target. A
tree that some tokens of a text derive is well-formed.
-/

namespace DarijaScript

/-- The text is a word that is not reserved. -/
structure IsName (name : String) : Prop where
  isWord : IsWord name.toList
  kind : wordKind name = .identifier

mutual

/-- Expressions that can be written and read again. -/
inductive Expr.Formed : Expr → Prop
  | assign {op : AssignmentOp} {target value : Expr} {position : Position}
      (assignable : target.isReference = true) (place : target.Formed) (written : value.Formed) :
      Expr.Formed (.assign op target value position)
  | logical {op : Connective} {left right : Expr} (first : left.Formed) (second : right.Formed) :
      Expr.Formed (.logical op left right)
  | binary {op : BinaryOp} {left right : Expr} (first : left.Formed) (second : right.Formed) :
      Expr.Formed (.binary op left right)
  | unary {op : UnaryOp} {operand : Expr} (inside : operand.Formed) :
      Expr.Formed (.unary op operand)
  | update {op : StepOp} {before : Bool} {target : Expr} {position : Position}
      (assignable : target.isReference = true) (place : target.Formed) :
      Expr.Formed (.update op before target position)
  | call {callee : Expr} {args : List Expr} {position : Position} (called : callee.Formed)
      (passed : ∀ arg ∈ args, arg.Formed) (few : args.length ≤ maxArguments) :
      Expr.Formed (.call callee args position)
  | construct {callee : Expr} {args : List Expr} {position : Position} (called : callee.Formed)
      (passed : ∀ arg ∈ args, arg.Formed) (few : args.length ≤ maxArguments) :
      Expr.Formed (.construct callee args position)
  | named {owner : Expr} {name : String} {position : Position} (inside : owner.Formed)
      (word : IsWord name.toList) : Expr.Formed (.member owner (.named name) position)
  | computed {owner key : Expr} {position : Position} (inside : owner.Formed)
      (selected : key.Formed) : Expr.Formed (.member owner (.computed key) position)
  | identifier {name : Identifier} (named : IsName name.name) : Expr.Formed (.identifier name)
  | number (fields : Decimal.Fields) : Expr.Formed (.literal (.number fields.toFloat))
  | string {text : String} : Expr.Formed (.literal (.string text))
  | boolean {value : Bool} : Expr.Formed (.literal (.boolean value))
  | null : Expr.Formed (.literal .null)
  | undefined : Expr.Formed (.literal .undefined)
  | this : Expr.Formed .this
  | array {elements : List Expr} (inside : ∀ element ∈ elements, element.Formed) :
      Expr.Formed (.array elements)
  | object {entries : List (String × Expr)} (inside : ∀ entry ∈ entries, entry.2.Formed) :
      Expr.Formed (.object entries)
  | function {f : Function} (written : f.Formed) : Expr.Formed (.function f)

/-- Functions that can be written and read again. Whatever is around them is no target for the jumps
in their bodies. -/
inductive Function.Formed : Function → Prop
  | mk {name : Option Identifier} {params : List Identifier} {body : List Stmt} {origin : Origin}
      (named : ∀ own ∈ name, IsName own.name) (listed : ∀ param ∈ params, IsName param.name)
      (few : params.length ≤ maxArguments)
      (inside : ∀ stmt ∈ body, stmt.Formed .ofFunction) :
      Function.Formed (.mk name params body origin)

/-- Statements that can be written and read again within these surroundings. -/
inductive Stmt.Formed : Stmt → Surroundings → Prop
  | constant {around : Surroundings} {name : Identifier} {value : Expr} (named : IsName name.name)
      (written : value.Formed) : Stmt.Formed (.declare .constant name (some value)) around
  | variable {around : Surroundings} {name : Identifier} {value : Option Expr}
      (named : IsName name.name) (written : ∀ expr ∈ value, expr.Formed) :
      Stmt.Formed (.declare .variable name value) around
  | defineFunction {around : Surroundings} {f : Function} (named : f.name.isSome = true)
      (written : f.Formed) : Stmt.Formed (.defineFunction f) around
  | block {around : Surroundings} {body : List Stmt} (inside : ∀ stmt ∈ body, stmt.Formed around) :
      Stmt.Formed (.block body) around
  | conditional {around : Surroundings} {test : Expr} {consequent : Stmt} {alternate : Option Stmt}
      (tested : test.Formed) (branch : consequent.Formed around)
      (other : ∀ stmt ∈ alternate, stmt.Formed around)
      (closed : alternate.isSome = true → consequent.endsOpen = false) :
      Stmt.Formed (.conditional test consequent alternate) around
  | whileLoop {around : Surroundings} {test : Expr} {body : Stmt} (tested : test.Formed)
      (repeated : body.Formed around.inLoop) : Stmt.Formed (.whileLoop test body) around
  | doWhileLoop {around : Surroundings} {test : Expr} {body : Stmt}
      (repeated : body.Formed around.inLoop) (tested : test.Formed) :
      Stmt.Formed (.doWhileLoop body test) around
  | forLoop {around : Surroundings} {start : Option Stmt} {test update : Option Expr} {body : Stmt}
      (simple : ∀ stmt ∈ start, stmt.isStart = true)
      (begins : ∀ stmt ∈ start, stmt.Formed around)
      (tested : ∀ expr ∈ test, expr.Formed) (updated : ∀ expr ∈ update, expr.Formed)
      (repeated : body.Formed around.inLoop) : Stmt.Formed (.forLoop start test update body) around
  | attempt {around : Surroundings} {body : List Stmt} {handler : Option (Identifier × List Stmt)}
      {finalizer : Option (List Stmt)} (inside : ∀ stmt ∈ body, stmt.Formed around)
      (some : handler.isSome = true ∨ finalizer.isSome = true)
      (named : ∀ handling ∈ handler, IsName handling.1.name)
      (handles : ∀ handling ∈ handler, ∀ stmt ∈ handling.2, stmt.Formed around)
      (closing : ∀ final ∈ finalizer, ∀ stmt ∈ final, stmt.Formed around) :
      Stmt.Formed (.attempt body handler finalizer) around
  | choice {around : Surroundings} {subject : Expr} {cases : List Case} (chosen : subject.Formed)
      (tested : ∀ clause ∈ cases, ∀ test ∈ clause.test, test.Formed)
      (inside : ∀ clause ∈ cases, ∀ stmt ∈ clause.body, stmt.Formed around.inChoice)
      (single : (cases.filter (·.test.isNone)).length ≤ 1) :
      Stmt.Formed (.choice subject cases) around
  | giveBack {around : Surroundings} {value : Option Expr} (placed : around.inFunction = true)
      (written : ∀ expr ∈ value, expr.Formed) : Stmt.Formed (.giveBack value) around
  | leave {around : Surroundings} (placed : 0 < around.loops ∨ 0 < around.choices) :
      Stmt.Formed .leave around
  | next {around : Surroundings} (placed : 0 < around.loops) : Stmt.Formed .next around
  | evaluate {around : Surroundings} {expr : Expr} (written : expr.Formed) :
      Stmt.Formed (.evaluate expr) around
  | empty {around : Surroundings} : Stmt.Formed .empty around

end

/-- Being well-formed, as a criterion. Numbers are those that digits can write. -/
def Criterion.formed : Criterion where
  names name := IsName name.name
  members text := IsWord text.toList
  places _ := True
  numbers value := ∃ fields : Decimal.Fields, value = fields.toFloat
  exprs := Expr.Formed
  functions := Function.Formed
  stmts := Stmt.Formed
  ofNumber := by
    rintro _ ⟨fields, rfl⟩
    exact .number fields
  ofString := .string
  ofBoolean := .boolean
  ofNull := .null
  ofUndefined := .undefined
  ofThis := .this
  ofIdentifier := .identifier
  ofArray := .array
  ofObject := .object
  ofFunction := .function
  ofNamed _ := .named
  ofComputed _ := .computed
  ofCall _ := .call
  ofConstruct _ := .construct
  ofUpdate _ := .update
  ofUnary := .unary
  ofLogical := .logical
  ofBinary := .binary
  ofAssign _ := .assign
  ofDefinition := .mk
  ofConstant := .constant
  ofVariable := .variable
  ofDefineFunction := .defineFunction
  ofBlock := .block
  ofConditional := .conditional
  ofWhileLoop := .whileLoop
  ofDoWhileLoop := .doWhileLoop
  ofForLoop := .forLoop
  ofAttempt inside some handles := .attempt inside some (fun own mem => (handles own mem).1)
    (fun own mem => (handles own mem).2)
  ofChoice chosen inside := .choice chosen (fun clause mem => (inside clause mem).1)
    (fun clause mem => (inside clause mem).2)
  ofGiveBack := .giveBack
  ofLeave := .leave
  ofNext := .next
  ofEvaluate := .evaluate
  ofEmpty := .empty

/-! ### Derived trees are well-formed -/

/-- All the tokens are tokens of texts. -/
def AllScanned (tokens : List Token) : Prop := ∀ token ∈ tokens, token.Scanned

theorem Token.Scanned.isName {token : Token} (h : token.Scanned) (kind : token.kind = .identifier) :
    IsName token.lexeme := by
  obtain ⟨same, isWord⟩ := h.isWord (by simp [Token.isMemberName, kind])
  exact ⟨isWord, same.trans kind⟩

theorem Token.Scanned.exists_fields {token : Token} (h : token.Scanned) {value : Float}
    (kind : token.kind = .number) (reads : Decimal.read? token.lexeme.toList = some value) :
    ∃ fields : Decimal.Fields, value = fields.toFloat := by
  obtain ⟨fields, same⟩ := (h.isNumber kind).exists_fields
  exact ⟨fields, Option.some.inj (reads.symm.trans same)⟩

theorem Token.Scanned.admitted {token : Token} (h : token.Scanned) :
    Criterion.formed.Admits token where
  name := h.isName
  member name := (h.isWord name).2
  number := h.exists_fields
  place := trivial

/-- **Programs that the tokens of a text derive are well-formed.** -/
theorem Phrase.Program.formed {source : Nat} {tokens : List Token} {program : List Stmt}
    (h : Phrase.Program source tokens program) (scanned : AllScanned tokens) :
    ∀ stmt ∈ program, stmt.Formed .none :=
  Program.suits (c := .formed) h fun token mem => (scanned token mem).admitted

end DarijaScript
