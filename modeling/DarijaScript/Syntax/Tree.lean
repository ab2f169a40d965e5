import DarijaScript.Syntax.Position

/-!
# Syntax trees

Programs as trees. Nodes that may fail when they run carry the position that is reported then; two
trees have the same shape when they differ in positions only.
-/

namespace DarijaScript

/-- Operators of two operands that compute or compare. -/
inductive BinaryOp where
  | divide
  | multiply
  | remainder
  | add
  | subtract
  | greater
  | greaterEqual
  | less
  | lessEqual
  | looseEqual
  | looseNotEqual
  | strictEqual
  | strictNotEqual
  deriving Repr, DecidableEq

namespace BinaryOp

/-- The spelling of an operator. -/
def text : BinaryOp → String
  | divide => "/"
  | multiply => "*"
  | remainder => "%"
  | add => "+"
  | subtract => "-"
  | greater => ">"
  | greaterEqual => ">="
  | less => "<"
  | lessEqual => "<="
  | looseEqual => "=="
  | looseNotEqual => "!="
  | strictEqual => "==="
  | strictNotEqual => "!=="

/-- Every operator of two operands. -/
def all : List BinaryOp :=
  [divide, multiply, remainder, add, subtract, greater, greaterEqual, less, lessEqual, looseEqual,
    looseNotEqual, strictEqual, strictNotEqual]

/-- The operator with this spelling. -/
def ofText? (text : String) : Option BinaryOp := all.find? (·.text == text)

theorem ofText?_text (op : BinaryOp) : ofText? op.text = some op := by
  cases op <;> decide

end BinaryOp

/-- Operators that may leave their right operand out. -/
inductive Connective where
  | and
  | or
  deriving Repr, DecidableEq

/-- The spelling of a logical operator. -/
def Connective.text : Connective → String
  | and => "&&"
  | or => "||"

/-- Operators of one operand. -/
inductive UnaryOp where
  | not
  | negate
  | toNumber
  | typeOf
  deriving Repr, DecidableEq

/-- Operators that change a place by one. -/
inductive StepOp where
  | increment
  | decrement
  deriving Repr, DecidableEq

/-- The spelling of an update. -/
def StepOp.text : StepOp → String
  | increment => "++"
  | decrement => "--"

/-- Assignments, plain or after an arithmetic operation on the old value. -/
inductive AssignmentOp where
  | assign
  | add
  | subtract
  | multiply
  | divide
  | remainder
  deriving Repr, DecidableEq

namespace AssignmentOp

/-- The spelling of an assignment. -/
def text : AssignmentOp → String
  | assign => "="
  | add => "+="
  | subtract => "-="
  | multiply => "*="
  | divide => "/="
  | remainder => "%="

/-- Every assignment. -/
def all : List AssignmentOp := [assign, add, subtract, multiply, divide, remainder]

/-- The assignment with this spelling. -/
def ofText? (text : String) : Option AssignmentOp := all.find? (·.text == text)

theorem ofText?_text (op : AssignmentOp) : ofText? op.text = some op := by
  cases op <;> decide

/-- The operation applied before the new value is stored. -/
def operation? : AssignmentOp → Option BinaryOp
  | assign => none
  | add => some .add
  | subtract => some .subtract
  | multiply => some .multiply
  | divide => some .divide
  | remainder => some .remainder

end AssignmentOp

/-- A value that is written out in the program. -/
inductive Literal where
  | number (value : Float)
  | string (text : String)
  | boolean (value : Bool)
  | null
  | undefined
  deriving Repr, DecidableEq

/-- Equality of literals as the language compares numbers: zeros are equal and NaN is not. -/
def Literal.same : Literal → Literal → Bool
  | .number a, .number b => a == b
  | .string a, .string b => a == b
  | .boolean a, .boolean b => a == b
  | .null, .null => true
  | .undefined, .undefined => true
  | _, _ => false

/-- A name at a place. -/
structure Identifier where
  name : String
  position : Position
  deriving Repr, DecidableEq

/-- Declared names keep their value or may be assigned. -/
inductive DeclarationKind where
  | constant
  | variable
  deriving Repr, DecidableEq

/-- Which function of which source text: texts are numbered, and a function is known by the position
of its keyword. -/
structure Origin where
  source : Nat
  position : Position
  deriving Repr, DecidableEq

mutual

/-- Expressions. -/
inductive Expr where
  | assign (op : AssignmentOp) (target value : Expr) (position : Position)
  | logical (op : Connective) (left right : Expr)
  | binary (op : BinaryOp) (left right : Expr)
  | unary (op : UnaryOp) (operand : Expr)
  /-- A change by one that answers the new value if it stands before its target, else the old. -/
  | update (op : StepOp) (before : Bool) (target : Expr) (position : Position)
  | call (callee : Expr) (args : List Expr) (position : Position)
  | construct (callee : Expr) (args : List Expr) (position : Position)
  | member (owner : Expr) (property : Property) (position : Position)
  | identifier (name : Identifier)
  | literal (value : Literal)
  | this
  | array (elements : List Expr)
  | object (entries : List (String × Expr))
  | function (f : Function)

/-- What a member is selected by. -/
inductive Property where
  | named (name : String)
  | computed (key : Expr)

/-- Functions, declared or anonymous. -/
inductive Function where
  | mk (name : Option Identifier) (params : List Identifier) (body : List Stmt) (origin : Origin)

/-- Statements. -/
inductive Stmt where
  | declare (kind : DeclarationKind) (name : Identifier) (value : Option Expr)
  | defineFunction (f : Function)
  | block (body : List Stmt)
  | conditional (test : Expr) (consequent : Stmt) (alternate : Option Stmt)
  | whileLoop (test : Expr) (body : Stmt)
  | doWhileLoop (body : Stmt) (test : Expr)
  | forLoop (start : Option Stmt) (test update : Option Expr) (body : Stmt)
  /-- Statements with a handler of exceptions, statements that run in every case, or both. -/
  | attempt (body : List Stmt) (handler : Option (Identifier × List Stmt))
      (finalizer : Option (List Stmt))
  | choice (subject : Expr) (cases : List Case)
  | giveBack (value : Option Expr)
  | leave
  | next
  | evaluate (expr : Expr)
  | empty

/-- A clause of a choice; the one without a test is taken when no other fits. -/
inductive Case where
  | mk (test : Option Expr) (body : List Stmt)

end

namespace Function

/-- The name of a function, if it has one. -/
def name : Function → Option Identifier
  | mk name _ _ _ => name

/-- The parameters of a function. -/
def params : Function → List Identifier
  | mk _ params _ _ => params

/-- The statements of a function. -/
def body : Function → List Stmt
  | mk _ _ body _ => body

/-- Where a function comes from. -/
def origin : Function → Origin
  | mk _ _ _ origin => origin

end Function

instance : Inhabited Expr := ⟨.this⟩

instance : Inhabited Stmt := ⟨.empty⟩

/-- The test of a clause. -/
def Case.test : Case → Option Expr
  | mk test _ => test

/-- The statements of a clause. -/
def Case.body : Case → List Stmt
  | mk _ body => body

/-- The expression may be assigned to. -/
def Expr.isReference : Expr → Bool
  | .identifier _ => true
  | .member _ _ _ => true
  | _ => false

/-- The same names in the same order. -/
def sameNames : List Identifier → List Identifier → Bool
  | [], [] => true
  | a :: as, b :: bs => a.name == b.name && sameNames as bs
  | _, _ => false

/-- The same optional name. -/
def sameName? : Option Identifier → Option Identifier → Bool
  | none, none => true
  | some a, some b => a.name == b.name
  | _, _ => false

mutual

/-- The expressions differ in positions only. -/
def Expr.sameShape : Expr → Expr → Bool
  | .assign op target value _, .assign op' target' value' _ =>
    op == op' && target.sameShape target' && value.sameShape value'
  | .logical op left right, .logical op' left' right' =>
    op == op' && left.sameShape left' && right.sameShape right'
  | .binary op left right, .binary op' left' right' =>
    op == op' && left.sameShape left' && right.sameShape right'
  | .unary op operand, .unary op' operand' => op == op' && operand.sameShape operand'
  | .update op before target _, .update op' before' target' _ =>
    op == op' && before == before' && target.sameShape target'
  | .call callee args _, .call callee' args' _ =>
    callee.sameShape callee' && Expr.sameShapes args args'
  | .construct callee args _, .construct callee' args' _ =>
    callee.sameShape callee' && Expr.sameShapes args args'
  | .member owner property _, .member owner' property' _ =>
    owner.sameShape owner' && property.sameShape property'
  | .identifier name, .identifier name' => name.name == name'.name
  | .literal value, .literal value' => value.same value'
  | .this, .this => true
  | .array elements, .array elements' => Expr.sameShapes elements elements'
  | .object entries, .object entries' => Expr.sameEntries entries entries'
  | .function f, .function f' => f.sameShape f'
  | _, _ => false
termination_by structural x => x

/-- The expressions differ pairwise in positions only. -/
def Expr.sameShapes : List Expr → List Expr → Bool
  | [], [] => true
  | a :: as, b :: bs => a.sameShape b && Expr.sameShapes as bs
  | _, _ => false
termination_by structural x => x

/-- The fields have the same keys, and their values differ in positions only. -/
def Expr.sameEntries : List (String × Expr) → List (String × Expr) → Bool
  | [], [] => true
  | a :: as, b :: bs => Expr.sameEntry a b && Expr.sameEntries as bs
  | _, _ => false
termination_by structural x => x

/-- The fields have the same key, and their values differ in positions only. -/
def Expr.sameEntry : String × Expr → String × Expr → Bool
  | (key, a), (key', b) => key == key' && a.sameShape b
termination_by structural x => x

/-- The optional expressions differ in positions only. -/
def Expr.sameShape? : Option Expr → Option Expr → Bool
  | none, none => true
  | some a, some b => a.sameShape b
  | _, _ => false
termination_by structural x => x

/-- The selectors differ in positions only. -/
def Property.sameShape : Property → Property → Bool
  | .named name, .named name' => name == name'
  | .computed key, .computed key' => key.sameShape key'
  | _, _ => false
termination_by structural x => x

/-- The functions differ in positions only. -/
def Function.sameShape : Function → Function → Bool
  | .mk name params body _, .mk name' params' body' _ =>
    sameName? name name' && sameNames params params' && Stmt.sameShapes body body'
termination_by structural x => x

/-- The statements differ in positions only. -/
def Stmt.sameShape : Stmt → Stmt → Bool
  | .declare kind name value, .declare kind' name' value' =>
    kind == kind' && name.name == name'.name && Expr.sameShape? value value'
  | .defineFunction f, .defineFunction f' => f.sameShape f'
  | .block body, .block body' => Stmt.sameShapes body body'
  | .conditional test consequent alternate, .conditional test' consequent' alternate' =>
    test.sameShape test' && consequent.sameShape consequent' &&
      Stmt.sameShape? alternate alternate'
  | .whileLoop test body, .whileLoop test' body' => test.sameShape test' && body.sameShape body'
  | .doWhileLoop body test, .doWhileLoop body' test' =>
    body.sameShape body' && test.sameShape test'
  | .forLoop start test update body, .forLoop start' test' update' body' =>
    Stmt.sameShape? start start' && Expr.sameShape? test test' &&
      Expr.sameShape? update update' && body.sameShape body'
  | .attempt body handler finalizer, .attempt body' handler' finalizer' =>
    Stmt.sameShapes body body' && Stmt.sameHandler? handler handler' &&
      Stmt.sameBody? finalizer finalizer'
  | .choice subject cases, .choice subject' cases' =>
    subject.sameShape subject' && Case.sameShapes cases cases'
  | .giveBack value, .giveBack value' => Expr.sameShape? value value'
  | .leave, .leave => true
  | .next, .next => true
  | .evaluate expr, .evaluate expr' => expr.sameShape expr'
  | .empty, .empty => true
  | _, _ => false
termination_by structural x => x

/-- The statements differ pairwise in positions only. -/
def Stmt.sameShapes : List Stmt → List Stmt → Bool
  | [], [] => true
  | a :: as, b :: bs => a.sameShape b && Stmt.sameShapes as bs
  | _, _ => false
termination_by structural x => x

/-- The optional statements differ in positions only. -/
def Stmt.sameShape? : Option Stmt → Option Stmt → Bool
  | none, none => true
  | some a, some b => a.sameShape b
  | _, _ => false
termination_by structural x => x

/-- The optional statement lists differ in positions only. -/
def Stmt.sameBody? : Option (List Stmt) → Option (List Stmt) → Bool
  | none, none => true
  | some a, some b => Stmt.sameShapes a b
  | _, _ => false
termination_by structural x => x

/-- The optional handlers differ in positions only. -/
def Stmt.sameHandler? :
    Option (Identifier × List Stmt) → Option (Identifier × List Stmt) → Bool
  | none, none => true
  | some a, some b => Stmt.sameHandler a b
  | _, _ => false
termination_by structural x => x

/-- The handlers differ in positions only. -/
def Stmt.sameHandler : Identifier × List Stmt → Identifier × List Stmt → Bool
  | (name, body), (name', body') => name.name == name'.name && Stmt.sameShapes body body'
termination_by structural x => x

/-- The clauses differ in positions only. -/
def Case.sameShape : Case → Case → Bool
  | .mk test body, .mk test' body' => Expr.sameShape? test test' && Stmt.sameShapes body body'
termination_by structural x => x

/-- The clauses differ pairwise in positions only. -/
def Case.sameShapes : List Case → List Case → Bool
  | [], [] => true
  | a :: as, b :: bs => a.sameShape b && Case.sameShapes as bs
  | _, _ => false
termination_by structural x => x

end

end DarijaScript
