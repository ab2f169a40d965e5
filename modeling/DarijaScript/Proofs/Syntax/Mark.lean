import DarijaScript.Proofs.Syntax.Node

/-!
# Marks of trees

The names that a tree contains and the places of those of its nodes that have one, at any depth. A
condition on these marks holds for a tree exactly if it holds for its parts and for the node on top.
-/

namespace DarijaScript

/-- A name that is declared or used, or the place of another node: of a call, of the construction of
an object, of a member, of an assignment or of an update. -/
inductive Mark where
  | name (identifier : Identifier)
  | place (position : Position)

/-- Where the mark stands. -/
def Mark.position : Mark → Position
  | name identifier => identifier.position
  | place position => position

mutual

/-- The marks of an expression. -/
def Expr.marks : Expr → List Mark
  | .assign _ target value position => .place position :: target.marks ++ value.marks
  | .logical _ left right => left.marks ++ right.marks
  | .binary _ left right => left.marks ++ right.marks
  | .unary _ operand => operand.marks
  | .update _ _ target position => .place position :: target.marks
  | .call callee args position => .place position :: callee.marks ++ Expr.marksOfAll args
  | .construct callee args position => .place position :: callee.marks ++ Expr.marksOfAll args
  | .member owner property position => .place position :: owner.marks ++ property.marks
  | .identifier name => [.name name]
  | .literal _ => []
  | .this => []
  | .array elements => Expr.marksOfAll elements
  | .object entries => Expr.marksOfEntries entries
  | .function f => f.marks
termination_by structural x => x

def Expr.marksOfAll : List Expr → List Mark
  | [] => []
  | expr :: rest => expr.marks ++ Expr.marksOfAll rest
termination_by structural x => x

def Expr.marksOfEntries : List (String × Expr) → List Mark
  | [] => []
  | entry :: rest => Expr.marksOfEntry entry ++ Expr.marksOfEntries rest
termination_by structural x => x

def Expr.marksOfEntry : String × Expr → List Mark
  | (_, expr) => expr.marks
termination_by structural x => x

def Expr.marksOf? : Option Expr → List Mark
  | none => []
  | some expr => expr.marks
termination_by structural x => x

/-- The marks of a selector. -/
def Property.marks : Property → List Mark
  | .named _ => []
  | .computed key => key.marks
termination_by structural x => x

/-- The marks of a function. -/
def Function.marks : Function → List Mark
  | .mk name params body _ => (name.toList ++ params).map .name ++ Stmt.marksOfAll body
termination_by structural x => x

/-- The marks of a statement. -/
def Stmt.marks : Stmt → List Mark
  | .declare _ name value => .name name :: Expr.marksOf? value
  | .defineFunction f => f.marks
  | .block body => Stmt.marksOfAll body
  | .conditional test consequent alternate =>
    test.marks ++ consequent.marks ++ Stmt.marksOf? alternate
  | .whileLoop test body => test.marks ++ body.marks
  | .doWhileLoop body test => body.marks ++ test.marks
  | .forLoop start test update body =>
    Stmt.marksOf? start ++ Expr.marksOf? test ++ Expr.marksOf? update ++ body.marks
  | .attempt body handler finalizer =>
    Stmt.marksOfAll body ++ Stmt.marksOfHandler? handler ++ Stmt.marksOfBody? finalizer
  | .choice subject cases => subject.marks ++ Case.marksOfAll cases
  | .giveBack value => Expr.marksOf? value
  | .leave => []
  | .next => []
  | .evaluate expr => expr.marks
  | .empty => []
termination_by structural x => x

/-- The marks of some statements. -/
def Stmt.marksOfAll : List Stmt → List Mark
  | [] => []
  | stmt :: rest => stmt.marks ++ Stmt.marksOfAll rest
termination_by structural x => x

def Stmt.marksOf? : Option Stmt → List Mark
  | none => []
  | some stmt => stmt.marks
termination_by structural x => x

def Stmt.marksOfBody? : Option (List Stmt) → List Mark
  | none => []
  | some body => Stmt.marksOfAll body
termination_by structural x => x

def Stmt.marksOfHandler? : Option (Identifier × List Stmt) → List Mark
  | none => []
  | some handler => Stmt.marksOfHandler handler
termination_by structural x => x

def Stmt.marksOfHandler : Identifier × List Stmt → List Mark
  | (name, body) => .name name :: Stmt.marksOfAll body
termination_by structural x => x

/-- The marks of a clause. -/
def Case.marks : Case → List Mark
  | .mk test body => Expr.marksOf? test ++ Stmt.marksOfAll body
termination_by structural x => x

def Case.marksOfAll : List Case → List Mark
  | [] => []
  | clause :: rest => clause.marks ++ Case.marksOfAll rest
termination_by structural x => x

end

section

variable (good : Mark → Prop)

/-- All marks of the tree meet the condition. -/
def Expr.Marked (expr : Expr) : Prop := ∀ mark ∈ expr.marks, good mark

/-- All marks of the tree meet the condition. -/
def Property.Marked (property : Property) : Prop := ∀ mark ∈ property.marks, good mark

/-- All marks of the tree meet the condition. -/
def Function.Marked (f : Function) : Prop := ∀ mark ∈ f.marks, good mark

/-- All marks of the tree meet the condition. -/
def Stmt.Marked (stmt : Stmt) : Prop := ∀ mark ∈ stmt.marks, good mark

/-- All marks of the tree meet the condition. -/
def Case.Marked (clause : Case) : Prop := ∀ mark ∈ clause.marks, good mark

end

variable {good : Mark → Prop}

/-! ### Nested parts -/

@[simp] theorem forall_marksOfAll_expr {exprs : List Expr} :
    (∀ mark ∈ Expr.marksOfAll exprs, good mark) ↔ ∀ expr ∈ exprs, expr.Marked good := by
  induction exprs with
  | nil => simp [Expr.marksOfAll]
  | cons expr rest ih => simp [Expr.marksOfAll, or_imp, forall_and, ih, Expr.Marked]

@[simp] theorem forall_marksOfEntries {entries : List (String × Expr)} :
    (∀ mark ∈ Expr.marksOfEntries entries, good mark) ↔
      ∀ entry ∈ entries, entry.2.Marked good := by
  induction entries with
  | nil => simp [Expr.marksOfEntries]
  | cons entry rest ih =>
    obtain ⟨key, expr⟩ := entry
    simp [Expr.marksOfEntries, Expr.marksOfEntry, or_imp, forall_and, ih, Expr.Marked]

@[simp] theorem forall_marksOf?_expr {expr : Option Expr} :
    (∀ mark ∈ Expr.marksOf? expr, good mark) ↔ ∀ e ∈ expr, e.Marked good := by
  cases expr <;> simp [Expr.marksOf?, Expr.Marked]

@[simp] theorem forall_marksOfAll_stmt {stmts : List Stmt} :
    (∀ mark ∈ Stmt.marksOfAll stmts, good mark) ↔ ∀ stmt ∈ stmts, stmt.Marked good := by
  induction stmts with
  | nil => simp [Stmt.marksOfAll]
  | cons stmt rest ih => simp [Stmt.marksOfAll, or_imp, forall_and, ih, Stmt.Marked]

@[simp] theorem forall_marksOf?_stmt {stmt : Option Stmt} :
    (∀ mark ∈ Stmt.marksOf? stmt, good mark) ↔ ∀ s ∈ stmt, s.Marked good := by
  cases stmt <;> simp [Stmt.marksOf?, Stmt.Marked]

@[simp] theorem forall_marksOfBody? {body : Option (List Stmt)} :
    (∀ mark ∈ Stmt.marksOfBody? body, good mark) ↔ ∀ b ∈ body, ∀ stmt ∈ b, stmt.Marked good := by
  cases body <;> simp [Stmt.marksOfBody?]

@[simp] theorem forall_marksOfHandler? {handler : Option (Identifier × List Stmt)} :
    (∀ mark ∈ Stmt.marksOfHandler? handler, good mark) ↔
      ∀ h ∈ handler, good (.name h.1) ∧ ∀ stmt ∈ h.2, stmt.Marked good := by
  rcases handler with _ | ⟨name, body⟩ <;> simp [Stmt.marksOfHandler?, Stmt.marksOfHandler]

@[simp] theorem forall_marksOfAll_case {cases : List Case} :
    (∀ mark ∈ Case.marksOfAll cases, good mark) ↔ ∀ clause ∈ cases, clause.Marked good := by
  induction cases with
  | nil => simp [Case.marksOfAll]
  | cons clause rest ih => simp [Case.marksOfAll, or_imp, forall_and, ih, Case.Marked]

/-! ### Parts -/

section

variable (good)

/-- The parts of an expression and the node on top meet the condition. -/
def Expr.PartsMarked : Expr → Prop
  | .assign _ target value position =>
    good (.place position) ∧ target.Marked good ∧ value.Marked good
  | .logical _ left right => left.Marked good ∧ right.Marked good
  | .binary _ left right => left.Marked good ∧ right.Marked good
  | .unary _ operand => operand.Marked good
  | .update _ _ target position => good (.place position) ∧ target.Marked good
  | .call callee args position =>
    good (.place position) ∧ callee.Marked good ∧ ∀ arg ∈ args, arg.Marked good
  | .construct callee args position =>
    good (.place position) ∧ callee.Marked good ∧ ∀ arg ∈ args, arg.Marked good
  | .member owner property position =>
    good (.place position) ∧ owner.Marked good ∧ property.Marked good
  | .identifier name => good (.name name)
  | .literal _ => True
  | .this => True
  | .array elements => ∀ element ∈ elements, element.Marked good
  | .object entries => ∀ entry ∈ entries, entry.2.Marked good
  | .function f => f.Marked good

/-- The part of a selector meets the condition. -/
def Property.PartsMarked : Property → Prop
  | .named _ => True
  | .computed key => key.Marked good

/-- The parts of a statement and the node on top meet the condition. -/
def Stmt.PartsMarked : Stmt → Prop
  | .declare _ name value => good (.name name) ∧ ∀ expr ∈ value, expr.Marked good
  | .defineFunction f => f.Marked good
  | .block body => ∀ stmt ∈ body, stmt.Marked good
  | .conditional test consequent alternate =>
    test.Marked good ∧ consequent.Marked good ∧ ∀ stmt ∈ alternate, stmt.Marked good
  | .whileLoop test body => test.Marked good ∧ body.Marked good
  | .doWhileLoop body test => body.Marked good ∧ test.Marked good
  | .forLoop start test update body =>
    (∀ stmt ∈ start, stmt.Marked good) ∧ (∀ expr ∈ test, expr.Marked good) ∧
      (∀ expr ∈ update, expr.Marked good) ∧ body.Marked good
  | .attempt body handler finalizer =>
    (∀ stmt ∈ body, stmt.Marked good) ∧
      (∀ h ∈ handler, good (.name h.1) ∧ ∀ stmt ∈ h.2, stmt.Marked good) ∧
        ∀ final ∈ finalizer, ∀ stmt ∈ final, stmt.Marked good
  | .choice subject cases => subject.Marked good ∧ ∀ clause ∈ cases, clause.Marked good
  | .giveBack value => ∀ expr ∈ value, expr.Marked good
  | .leave => True
  | .next => True
  | .evaluate expr => expr.Marked good
  | .empty => True

end

theorem Expr.marked_iff {expr : Expr} : expr.Marked good ↔ expr.PartsMarked good := by
  cases expr
  all_goals
    simp only [PartsMarked, Marked, Property.Marked, Function.Marked, marks, List.mem_append,
      List.mem_cons, or_imp, forall_and, forall_marksOfAll_expr, forall_marksOfEntries, forall_eq,
      List.not_mem_nil, false_imp_iff, implies_true, and_assoc, and_true]

theorem Property.marked_iff {property : Property} :
    property.Marked good ↔ property.PartsMarked good := by
  cases property <;> simp [PartsMarked, Marked, Expr.Marked, marks]

theorem Function.marked_iff {f : Function} :
    f.Marked good ↔ (∀ name ∈ f.name, good (.name name)) ∧
      (∀ name ∈ f.params, good (.name name)) ∧ ∀ stmt ∈ f.body, stmt.Marked good := by
  obtain ⟨name, params, body, origin⟩ := f
  simp [Marked, marks, or_imp, forall_and, Function.name, Function.params, Function.body]

theorem Stmt.marked_iff {stmt : Stmt} : stmt.Marked good ↔ stmt.PartsMarked good := by
  cases stmt
  all_goals
    simp only [PartsMarked, Marked, Expr.Marked, Function.Marked, marks, List.mem_append,
      List.mem_cons, or_imp, forall_and, forall_eq, forall_marksOfAll_stmt, forall_marksOf?_stmt,
      forall_marksOf?_expr, forall_marksOfBody?, forall_marksOfHandler?, forall_marksOfAll_case,
      List.not_mem_nil, false_imp_iff, implies_true, and_assoc]

theorem Case.marked_iff {clause : Case} :
    clause.Marked good ↔
      (∀ test ∈ clause.test, test.Marked good) ∧ ∀ stmt ∈ clause.body, stmt.Marked good := by
  obtain ⟨test, body⟩ := clause
  simp [Marked, marks, or_imp, forall_and, Case.test, Case.body]

/-! ### Nodes -/

/-- The condition on nodes follows from the one on the marks of the trees below them. -/
structure Node.Follows (good : Mark → Prop) (check : Node → Prop) : Prop where
  name : ∀ name, good (.name name) → check (.name name.name)
  function : ∀ f : Function, f.Marked good → check (.function f)
  choice : ∀ cases : List Case, (∀ clause ∈ cases, clause.Marked good) → check (.choice cases)

variable {check : Node → Prop}

mutual

theorem Expr.Marked.meets (follows : Node.Follows good check) {expr : Expr}
    (h : expr.Marked good) : expr.Meets check := by
  rw [Expr.meets_iff]
  have parts := Expr.marked_iff.mp h
  match expr, parts with
  | .assign _ _ _ _, ⟨_, first, second⟩ => exact ⟨first.meets follows, second.meets follows⟩
  | .logical _ _ _, ⟨first, second⟩ | .binary _ _ _, ⟨first, second⟩ =>
    exact ⟨first.meets follows, second.meets follows⟩
  | .unary _ _, parts | .update _ _ _ _, ⟨_, parts⟩ => exact parts.meets follows
  | .call _ args _, ⟨_, first, others⟩ | .construct _ args _, ⟨_, first, others⟩ =>
    exact ⟨first.meets follows, meets_exprs follows others⟩
  | .member _ _ _, ⟨_, first, second⟩ => exact ⟨first.meets follows, second.meets follows⟩
  | .identifier name, parts => exact follows.name name parts
  | .literal _, _ | .this, _ => trivial
  | .array elements, parts => exact meets_exprs follows parts
  | .object entries, parts => exact meets_entries follows parts
  | .function f, parts => exact Function.Marked.meets follows parts
termination_by structural expr

theorem meets_exprs (follows : Node.Follows good check) {exprs : List Expr}
    (h : ∀ expr ∈ exprs, expr.Marked good) :
    ∀ expr ∈ exprs, expr.Meets check := by
  match exprs with
  | [] => simp
  | expr :: rest =>
    obtain ⟨first, others⟩ := List.forall_mem_cons.mp h
    exact List.forall_mem_cons.mpr ⟨first.meets follows, meets_exprs follows others⟩
termination_by structural exprs

theorem meets_entries (follows : Node.Follows good check) {entries : List (String × Expr)}
    (h : ∀ entry ∈ entries, entry.2.Marked good) :
    ∀ entry ∈ entries, entry.2.Meets check := by
  match entries with
  | [] => simp
  | (key, expr) :: rest =>
    obtain ⟨first, others⟩ := List.forall_mem_cons.mp h
    exact List.forall_mem_cons.mpr ⟨Expr.Marked.meets follows first, meets_entries follows others⟩
termination_by structural entries

theorem meets_expr? (follows : Node.Follows good check) {expr : Option Expr}
    (h : ∀ e ∈ expr, e.Marked good) :
    ∀ e ∈ expr, e.Meets check := by
  match expr with
  | none => simp
  | some e =>
    rintro _ ⟨⟩
    exact (h e rfl).meets follows
termination_by structural expr

theorem Property.Marked.meets (follows : Node.Follows good check) {property : Property}
    (h : property.Marked good) :
    property.Meets check := by
  rw [Property.meets_iff]
  match property, Property.marked_iff.mp h with
  | .named _, _ => trivial
  | .computed _, inside => exact Expr.Marked.meets follows inside
termination_by structural property

theorem Function.Marked.meets (follows : Node.Follows good check) {f : Function}
    (h : f.Marked good) : f.Meets check := by
  have own := follows.function f h
  match f with
  | .mk name params body origin =>
    obtain ⟨named, bound, inside⟩ := Function.marked_iff.mp h
    exact Function.meets_iff.mpr ⟨own, fun name mem => follows.name name (named name mem),
      fun name mem => follows.name name (bound name mem), meets_stmts follows inside⟩
termination_by structural f

theorem Stmt.Marked.meets (follows : Node.Follows good check) {stmt : Stmt}
    (h : stmt.Marked good) : stmt.Meets check := by
  rw [Stmt.meets_iff]
  match stmt, Stmt.marked_iff.mp h with
  | .declare _ name _, ⟨named, parts⟩ => exact ⟨follows.name name named, meets_expr? follows parts⟩
  | .defineFunction _, parts => exact Function.Marked.meets follows parts
  | .block _, parts => exact meets_stmts follows parts
  | .conditional _ _ _, ⟨first, second, third⟩ =>
    exact ⟨Expr.Marked.meets follows first, Stmt.Marked.meets follows second,
      meets_stmt? follows third⟩
  | .whileLoop _ _, ⟨first, second⟩ =>
    exact ⟨Expr.Marked.meets follows first, Stmt.Marked.meets follows second⟩
  | .doWhileLoop _ _, ⟨first, second⟩ =>
    exact ⟨Stmt.Marked.meets follows first, Expr.Marked.meets follows second⟩
  | .forLoop _ _ _ _, ⟨first, second, third, fourth⟩ =>
    exact ⟨meets_stmt? follows first, meets_expr? follows second, meets_expr? follows third,
      Stmt.Marked.meets follows fourth⟩
  | .attempt _ _ _, ⟨first, second, third⟩ =>
    exact ⟨meets_stmts follows first, meets_handler follows second, meets_body follows third⟩
  | .choice _ cases, ⟨first, others⟩ =>
    exact ⟨follows.choice cases others, Expr.Marked.meets follows first, meets_cases follows others⟩
  | .giveBack _, parts => exact meets_expr? follows parts
  | .leave, _ | .next, _ | .empty, _ => trivial
  | .evaluate _, parts => exact Expr.Marked.meets follows parts
termination_by structural stmt

theorem meets_stmts (follows : Node.Follows good check) {stmts : List Stmt}
    (h : ∀ stmt ∈ stmts, stmt.Marked good) :
    ∀ stmt ∈ stmts, stmt.Meets check := by
  match stmts with
  | [] => simp
  | stmt :: rest =>
    obtain ⟨first, others⟩ := List.forall_mem_cons.mp h
    exact List.forall_mem_cons.mpr ⟨first.meets follows, meets_stmts follows others⟩
termination_by structural stmts

theorem meets_stmt? (follows : Node.Follows good check) {stmt : Option Stmt}
    (h : ∀ s ∈ stmt, s.Marked good) :
    ∀ s ∈ stmt, s.Meets check := by
  match stmt with
  | none => simp
  | some s =>
    rintro _ ⟨⟩
    exact (h s rfl).meets follows
termination_by structural stmt

theorem meets_body (follows : Node.Follows good check) {body : Option (List Stmt)}
    (h : ∀ b ∈ body, ∀ stmt ∈ b, stmt.Marked good) : ∀ b ∈ body, ∀ stmt ∈ b, stmt.Meets check := by
  match body with
  | none => simp
  | some b =>
    rintro _ ⟨⟩
    exact meets_stmts follows (h b rfl)
termination_by structural body

theorem meets_handler (follows : Node.Follows good check)
    {handler : Option (Identifier × List Stmt)}
    (h : ∀ own ∈ handler, good (.name own.1) ∧ ∀ stmt ∈ own.2, stmt.Marked good) :
    ∀ own ∈ handler, check (.name own.1.name) ∧ ∀ stmt ∈ own.2, stmt.Meets check := by
  match handler with
  | none => simp
  | some (name, body) =>
    rintro _ ⟨⟩
    obtain ⟨named, inside⟩ := h _ rfl
    exact ⟨follows.name name named, meets_stmts follows inside⟩
termination_by structural handler

theorem Case.Marked.meets (follows : Node.Follows good check) {clause : Case}
    (h : clause.Marked good) : clause.Meets check := by
  match clause with
  | .mk _ _ =>
    obtain ⟨tested, inside⟩ := Case.marked_iff.mp h
    exact Case.meets_iff.mpr ⟨meets_expr? follows tested, meets_stmts follows inside⟩
termination_by structural clause

theorem meets_cases (follows : Node.Follows good check) {cases : List Case}
    (h : ∀ clause ∈ cases, clause.Marked good) :
    ∀ clause ∈ cases, clause.Meets check := by
  match cases with
  | [] => simp
  | clause :: rest =>
    obtain ⟨first, others⟩ := List.forall_mem_cons.mp h
    exact List.forall_mem_cons.mpr ⟨first.meets follows, meets_cases follows others⟩
termination_by structural cases

end

end DarijaScript
