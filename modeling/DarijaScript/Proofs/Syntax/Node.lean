import DarijaScript.Proofs.Syntax.Formed

/-!
# The nodes of trees

The names, functions and choices that a tree contains, at any depth. A condition on them holds for a
tree exactly if it holds for its parts and for the node on top.
-/

namespace DarijaScript

/-- What is looked at in a tree. -/
inductive Node where
  | name (name : String)
  | function (f : Function)
  | choice (cases : List Case)

mutual

/-- The nodes of an expression. -/
def Expr.nodes : Expr → List Node
  | .assign _ target value _ => target.nodes ++ value.nodes
  | .logical _ left right => left.nodes ++ right.nodes
  | .binary _ left right => left.nodes ++ right.nodes
  | .unary _ operand => operand.nodes
  | .update _ _ target _ => target.nodes
  | .call callee args _ => callee.nodes ++ Expr.nodesOfAll args
  | .construct callee args _ => callee.nodes ++ Expr.nodesOfAll args
  | .member owner property _ => owner.nodes ++ property.nodes
  | .identifier name => [.name name.name]
  | .literal _ => []
  | .this => []
  | .array elements => Expr.nodesOfAll elements
  | .object entries => Expr.nodesOfEntries entries
  | .function f => f.nodes
termination_by structural x => x

def Expr.nodesOfAll : List Expr → List Node
  | [] => []
  | expr :: rest => expr.nodes ++ Expr.nodesOfAll rest
termination_by structural x => x

def Expr.nodesOfEntries : List (String × Expr) → List Node
  | [] => []
  | entry :: rest => Expr.nodesOfEntry entry ++ Expr.nodesOfEntries rest
termination_by structural x => x

def Expr.nodesOfEntry : String × Expr → List Node
  | (_, expr) => expr.nodes
termination_by structural x => x

def Expr.nodesOf? : Option Expr → List Node
  | none => []
  | some expr => expr.nodes
termination_by structural x => x

/-- The nodes of a selector. -/
def Property.nodes : Property → List Node
  | .named _ => []
  | .computed key => key.nodes
termination_by structural x => x

/-- The nodes of a function, which is one itself. -/
def Function.nodes : Function → List Node
  | .mk name params body origin =>
    .function (.mk name params body origin) ::
      (name.toList ++ params).map (fun name => .name name.name) ++ Stmt.nodesOfAll body
termination_by structural x => x

/-- The nodes of a statement. -/
def Stmt.nodes : Stmt → List Node
  | .declare _ name value => .name name.name :: Expr.nodesOf? value
  | .defineFunction f => f.nodes
  | .block body => Stmt.nodesOfAll body
  | .conditional test consequent alternate =>
    test.nodes ++ consequent.nodes ++ Stmt.nodesOf? alternate
  | .whileLoop test body => test.nodes ++ body.nodes
  | .doWhileLoop body test => body.nodes ++ test.nodes
  | .forLoop start test update body =>
    Stmt.nodesOf? start ++ Expr.nodesOf? test ++ Expr.nodesOf? update ++ body.nodes
  | .attempt body handler finalizer =>
    Stmt.nodesOfAll body ++ Stmt.nodesOfHandler? handler ++ Stmt.nodesOfBody? finalizer
  | .choice subject cases => .choice cases :: subject.nodes ++ Case.nodesOfAll cases
  | .giveBack value => Expr.nodesOf? value
  | .leave => []
  | .next => []
  | .evaluate expr => expr.nodes
  | .empty => []
termination_by structural x => x

def Stmt.nodesOfAll : List Stmt → List Node
  | [] => []
  | stmt :: rest => stmt.nodes ++ Stmt.nodesOfAll rest
termination_by structural x => x

def Stmt.nodesOf? : Option Stmt → List Node
  | none => []
  | some stmt => stmt.nodes
termination_by structural x => x

def Stmt.nodesOfBody? : Option (List Stmt) → List Node
  | none => []
  | some body => Stmt.nodesOfAll body
termination_by structural x => x

def Stmt.nodesOfHandler? : Option (Identifier × List Stmt) → List Node
  | none => []
  | some handler => Stmt.nodesOfHandler handler
termination_by structural x => x

def Stmt.nodesOfHandler : Identifier × List Stmt → List Node
  | (name, body) => .name name.name :: Stmt.nodesOfAll body
termination_by structural x => x

/-- The nodes of a clause. -/
def Case.nodes : Case → List Node
  | .mk test body => Expr.nodesOf? test ++ Stmt.nodesOfAll body
termination_by structural x => x

def Case.nodesOfAll : List Case → List Node
  | [] => []
  | clause :: rest => clause.nodes ++ Case.nodesOfAll rest
termination_by structural x => x

end

section

variable (check : Node → Prop)

/-- All nodes of the tree meet the condition. -/
def Expr.Meets (expr : Expr) : Prop := ∀ node ∈ expr.nodes, check node

/-- All nodes of the tree meet the condition. -/
def Property.Meets (property : Property) : Prop := ∀ node ∈ property.nodes, check node

/-- All nodes of the tree meet the condition. -/
def Function.Meets (f : Function) : Prop := ∀ node ∈ f.nodes, check node

/-- All nodes of the tree meet the condition. -/
def Stmt.Meets (stmt : Stmt) : Prop := ∀ node ∈ stmt.nodes, check node

/-- All nodes of the tree meet the condition. -/
def Case.Meets (clause : Case) : Prop := ∀ node ∈ clause.nodes, check node

end

variable {check : Node → Prop}

/-! ### Nested parts -/

@[simp] theorem forall_nodesOfAll_expr {exprs : List Expr} :
    (∀ node ∈ Expr.nodesOfAll exprs, check node) ↔ ∀ expr ∈ exprs, expr.Meets check := by
  induction exprs with
  | nil => simp [Expr.nodesOfAll]
  | cons expr rest ih => simp [Expr.nodesOfAll, or_imp, forall_and, ih, Expr.Meets]

@[simp] theorem forall_nodesOfEntries {entries : List (String × Expr)} :
    (∀ node ∈ Expr.nodesOfEntries entries, check node) ↔
      ∀ entry ∈ entries, entry.2.Meets check := by
  induction entries with
  | nil => simp [Expr.nodesOfEntries]
  | cons entry rest ih =>
    obtain ⟨key, expr⟩ := entry
    simp [Expr.nodesOfEntries, Expr.nodesOfEntry, or_imp, forall_and, ih, Expr.Meets]

@[simp] theorem forall_nodesOf?_expr {expr : Option Expr} :
    (∀ node ∈ Expr.nodesOf? expr, check node) ↔ ∀ e ∈ expr, e.Meets check := by
  cases expr <;> simp [Expr.nodesOf?, Expr.Meets]

@[simp] theorem forall_nodesOfAll_stmt {stmts : List Stmt} :
    (∀ node ∈ Stmt.nodesOfAll stmts, check node) ↔ ∀ stmt ∈ stmts, stmt.Meets check := by
  induction stmts with
  | nil => simp [Stmt.nodesOfAll]
  | cons stmt rest ih => simp [Stmt.nodesOfAll, or_imp, forall_and, ih, Stmt.Meets]

@[simp] theorem forall_nodesOf?_stmt {stmt : Option Stmt} :
    (∀ node ∈ Stmt.nodesOf? stmt, check node) ↔ ∀ s ∈ stmt, s.Meets check := by
  cases stmt <;> simp [Stmt.nodesOf?, Stmt.Meets]

@[simp] theorem forall_nodesOfBody? {body : Option (List Stmt)} :
    (∀ node ∈ Stmt.nodesOfBody? body, check node) ↔ ∀ b ∈ body, ∀ stmt ∈ b, stmt.Meets check := by
  cases body <;> simp [Stmt.nodesOfBody?]

@[simp] theorem forall_nodesOfHandler? {handler : Option (Identifier × List Stmt)} :
    (∀ node ∈ Stmt.nodesOfHandler? handler, check node) ↔
      ∀ h ∈ handler, check (.name h.1.name) ∧ ∀ stmt ∈ h.2, stmt.Meets check := by
  rcases handler with _ | ⟨name, body⟩ <;> simp [Stmt.nodesOfHandler?, Stmt.nodesOfHandler]

@[simp] theorem forall_nodesOfAll_case {cases : List Case} :
    (∀ node ∈ Case.nodesOfAll cases, check node) ↔ ∀ clause ∈ cases, clause.Meets check := by
  induction cases with
  | nil => simp [Case.nodesOfAll]
  | cons clause rest ih => simp [Case.nodesOfAll, or_imp, forall_and, ih, Case.Meets]

/-! ### Parts -/

section

variable (check)

/-- The parts of an expression and the node on top meet the condition. -/
def Expr.PartsMeet : Expr → Prop
  | .assign _ target value _ => target.Meets check ∧ value.Meets check
  | .logical _ left right => left.Meets check ∧ right.Meets check
  | .binary _ left right => left.Meets check ∧ right.Meets check
  | .unary _ operand => operand.Meets check
  | .update _ _ target _ => target.Meets check
  | .call callee args _ => callee.Meets check ∧ ∀ arg ∈ args, arg.Meets check
  | .construct callee args _ => callee.Meets check ∧ ∀ arg ∈ args, arg.Meets check
  | .member owner property _ => owner.Meets check ∧ property.Meets check
  | .identifier name => check (.name name.name)
  | .literal _ => True
  | .this => True
  | .array elements => ∀ element ∈ elements, element.Meets check
  | .object entries => ∀ entry ∈ entries, entry.2.Meets check
  | .function f => f.Meets check

/-- The part of a selector meets the condition. -/
def Property.PartsMeet : Property → Prop
  | .named _ => True
  | .computed key => key.Meets check

/-- The parts of a statement and the node on top meet the condition. -/
def Stmt.PartsMeet : Stmt → Prop
  | .declare _ name value => check (.name name.name) ∧ ∀ expr ∈ value, expr.Meets check
  | .defineFunction f => f.Meets check
  | .block body => ∀ stmt ∈ body, stmt.Meets check
  | .conditional test consequent alternate =>
    test.Meets check ∧ consequent.Meets check ∧ ∀ stmt ∈ alternate, stmt.Meets check
  | .whileLoop test body => test.Meets check ∧ body.Meets check
  | .doWhileLoop body test => body.Meets check ∧ test.Meets check
  | .forLoop start test update body =>
    (∀ stmt ∈ start, stmt.Meets check) ∧ (∀ expr ∈ test, expr.Meets check) ∧
      (∀ expr ∈ update, expr.Meets check) ∧ body.Meets check
  | .attempt body handler finalizer =>
    (∀ stmt ∈ body, stmt.Meets check) ∧
      (∀ h ∈ handler, check (.name h.1.name) ∧ ∀ stmt ∈ h.2, stmt.Meets check) ∧
        ∀ final ∈ finalizer, ∀ stmt ∈ final, stmt.Meets check
  | .choice subject cases =>
    check (.choice cases) ∧ subject.Meets check ∧ ∀ clause ∈ cases, clause.Meets check
  | .giveBack value => ∀ expr ∈ value, expr.Meets check
  | .leave => True
  | .next => True
  | .evaluate expr => expr.Meets check
  | .empty => True

end

theorem Expr.meets_iff {expr : Expr} : expr.Meets check ↔ expr.PartsMeet check := by
  cases expr
  all_goals
    simp only [PartsMeet, Meets, Property.Meets, Function.Meets, nodes, List.mem_append, or_imp,
      forall_and, forall_nodesOfAll_expr, forall_nodesOfEntries, List.mem_singleton, forall_eq,
      List.not_mem_nil, false_imp_iff, implies_true]

theorem Property.meets_iff {property : Property} :
    property.Meets check ↔ property.PartsMeet check := by
  cases property <;> simp [PartsMeet, Meets, Expr.Meets, nodes]

theorem Function.meets_iff {f : Function} :
    f.Meets check ↔ check (.function f) ∧ (∀ name ∈ f.name, check (.name name.name)) ∧
      (∀ name ∈ f.params, check (.name name.name)) ∧ ∀ stmt ∈ f.body, stmt.Meets check := by
  obtain ⟨name, params, body, origin⟩ := f
  simp [Meets, nodes, or_imp, forall_and, Function.name, Function.params, Function.body]

theorem Stmt.meets_iff {stmt : Stmt} : stmt.Meets check ↔ stmt.PartsMeet check := by
  cases stmt
  all_goals
    simp only [PartsMeet, Meets, Expr.Meets, Function.Meets, nodes, List.mem_append, List.mem_cons,
      or_imp, forall_and, forall_eq, forall_nodesOfAll_stmt, forall_nodesOf?_stmt,
      forall_nodesOf?_expr, forall_nodesOfBody?, forall_nodesOfHandler?, forall_nodesOfAll_case,
      List.not_mem_nil, false_imp_iff, implies_true, and_assoc]

theorem Case.meets_iff {clause : Case} :
    clause.Meets check ↔
      (∀ test ∈ clause.test, test.Meets check) ∧ ∀ stmt ∈ clause.body, stmt.Meets check := by
  obtain ⟨test, body⟩ := clause
  simp [Meets, nodes, or_imp, forall_and, Case.test, Case.body]

end DarijaScript
