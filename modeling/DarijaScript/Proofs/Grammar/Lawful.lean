import DarijaScript.Proofs.Grammar.Acceptance
import DarijaScript.Proofs.Syntax.Formed

/-!
# Lawful trees

What is asked of the shape of a tree, whatever its names and literals are: jumps have a target in
their own function, only places are assigned to, and nothing is missing or listed too often. It is
decided by one walk through the tree, and every tree that is read passes it, also where its tokens
come from no text.
-/

namespace DarijaScript

mutual

/-- The expression is lawful at every node. -/
def Expr.isLawful : Expr → Bool
  | .assign _ target value _ => target.isReference && target.isLawful && value.isLawful
  | .logical _ left right => left.isLawful && right.isLawful
  | .binary _ left right => left.isLawful && right.isLawful
  | .unary _ operand => operand.isLawful
  | .update _ _ target _ => target.isReference && target.isLawful
  | .call callee args _ => args.length ≤ maxArguments && callee.isLawful && Expr.areLawful args
  | .construct callee args _ =>
    args.length ≤ maxArguments && callee.isLawful && Expr.areLawful args
  | .member owner property _ => owner.isLawful && property.isLawful
  | .identifier _ => true
  | .literal _ => true
  | .this => true
  | .array elements => Expr.areLawful elements
  | .object entries => Expr.areLawfulEntries entries
  | .function f => f.isLawful
termination_by structural x => x

def Expr.areLawful : List Expr → Bool
  | [] => true
  | expr :: rest => expr.isLawful && Expr.areLawful rest
termination_by structural x => x

def Expr.areLawfulEntries : List (String × Expr) → Bool
  | [] => true
  | entry :: rest => Expr.isLawfulEntry entry && Expr.areLawfulEntries rest
termination_by structural x => x

def Expr.isLawfulEntry : String × Expr → Bool
  | (_, expr) => expr.isLawful
termination_by structural x => x

def Expr.isLawful? : Option Expr → Bool
  | none => true
  | some expr => expr.isLawful
termination_by structural x => x

/-- The selector is lawful at every node. -/
def Property.isLawful : Property → Bool
  | .named _ => true
  | .computed key => key.isLawful
termination_by structural x => x

/-- The function is lawful at every node. Jumps in its body have no target around the function. -/
def Function.isLawful : Function → Bool
  | .mk _ params body _ => params.length ≤ maxArguments && Stmt.areLawful body .ofFunction
termination_by structural x => x

/-- The statement is lawful at every node when these constructs are around it. -/
def Stmt.isLawful : Stmt → Surroundings → Bool
  | .declare kind _ value, _ => (kind != .constant || value.isSome) && Expr.isLawful? value
  | .defineFunction f, _ => f.name.isSome && f.isLawful
  | .block body, around => Stmt.areLawful body around
  | .conditional test consequent alternate, around =>
    test.isLawful && consequent.isLawful around && Stmt.isLawful? alternate around
  | .whileLoop test body, around => test.isLawful && body.isLawful around.inLoop
  | .doWhileLoop body test, around => body.isLawful around.inLoop && test.isLawful
  | .forLoop start test update body, around =>
    start.all Stmt.isStart && Stmt.isLawful? start around && Expr.isLawful? test &&
      Expr.isLawful? update && body.isLawful around.inLoop
  | .attempt body handler finalizer, around =>
    (handler.isSome || finalizer.isSome) && Stmt.areLawful body around &&
      Stmt.isLawfulHandler? handler around && Stmt.isLawfulBody? finalizer around
  | .choice subject cases, around =>
    cases.countP (·.test.isNone) ≤ 1 && subject.isLawful && Case.areLawful cases around.inChoice
  | .giveBack value, around => around.inFunction && Expr.isLawful? value
  | .leave, around => 0 < around.loops || 0 < around.choices
  | .next, around => 0 < around.loops
  | .evaluate expr, _ => expr.isLawful
  | .empty, _ => true
termination_by structural x => x

/-- The statements are lawful at every node when these constructs are around them. -/
def Stmt.areLawful : List Stmt → Surroundings → Bool
  | [], _ => true
  | stmt :: rest, around => stmt.isLawful around && Stmt.areLawful rest around
termination_by structural x => x

def Stmt.isLawful? : Option Stmt → Surroundings → Bool
  | none, _ => true
  | some stmt, around => stmt.isLawful around
termination_by structural x => x

def Stmt.isLawfulBody? : Option (List Stmt) → Surroundings → Bool
  | none, _ => true
  | some body, around => Stmt.areLawful body around
termination_by structural x => x

def Stmt.isLawfulHandler? : Option (Identifier × List Stmt) → Surroundings → Bool
  | none, _ => true
  | some handler, around => Stmt.isLawfulHandler handler around
termination_by structural x => x

def Stmt.isLawfulHandler : Identifier × List Stmt → Surroundings → Bool
  | (_, body), around => Stmt.areLawful body around
termination_by structural x => x

/-- The clause is lawful at every node when these constructs are around its statements. -/
def Case.isLawful : Case → Surroundings → Bool
  | .mk test body, around => Expr.isLawful? test && Stmt.areLawful body around
termination_by structural x => x

def Case.areLawful : List Case → Surroundings → Bool
  | [], _ => true
  | clause :: rest, around => clause.isLawful around && Case.areLawful rest around
termination_by structural x => x

end

/-! ### Nested parts -/

@[simp] theorem Expr.areLawful_iff {exprs : List Expr} :
    Expr.areLawful exprs = true ↔ ∀ expr ∈ exprs, expr.isLawful = true := by
  induction exprs with
  | nil => simp [Expr.areLawful]
  | cons expr rest ih => simp [Expr.areLawful, ih]

@[simp] theorem Expr.areLawfulEntries_iff {entries : List (String × Expr)} :
    Expr.areLawfulEntries entries = true ↔ ∀ entry ∈ entries, entry.2.isLawful = true := by
  induction entries with
  | nil => simp [Expr.areLawfulEntries]
  | cons entry rest ih =>
    obtain ⟨key, expr⟩ := entry
    simp [Expr.areLawfulEntries, Expr.isLawfulEntry, ih]

@[simp] theorem Expr.isLawful?_iff {expr : Option Expr} :
    Expr.isLawful? expr = true ↔ ∀ e ∈ expr, e.isLawful = true := by
  cases expr <;> simp [Expr.isLawful?]

section

variable {around : Surroundings}

@[simp] theorem Stmt.areLawful_iff {stmts : List Stmt} :
    Stmt.areLawful stmts around = true ↔ ∀ stmt ∈ stmts, stmt.isLawful around = true := by
  induction stmts with
  | nil => simp [Stmt.areLawful]
  | cons stmt rest ih => simp [Stmt.areLawful, ih]

@[simp] theorem Stmt.isLawful?_iff {stmt : Option Stmt} :
    Stmt.isLawful? stmt around = true ↔ ∀ s ∈ stmt, s.isLawful around = true := by
  cases stmt <;> simp [Stmt.isLawful?]

@[simp] theorem Stmt.isLawfulBody?_iff {body : Option (List Stmt)} :
    Stmt.isLawfulBody? body around = true ↔
      ∀ b ∈ body, ∀ stmt ∈ b, stmt.isLawful around = true := by
  cases body <;> simp [Stmt.isLawfulBody?]

@[simp] theorem Stmt.isLawfulHandler?_iff {handler : Option (Identifier × List Stmt)} :
    Stmt.isLawfulHandler? handler around = true ↔
      ∀ h ∈ handler, ∀ stmt ∈ h.2, stmt.isLawful around = true := by
  rcases handler with _ | ⟨name, body⟩ <;> simp [Stmt.isLawfulHandler?, Stmt.isLawfulHandler]

@[simp] theorem Case.areLawful_iff {cases : List Case} :
    Case.areLawful cases around = true ↔
      ∀ clause ∈ cases, (∀ test ∈ clause.test, test.isLawful = true) ∧
        ∀ stmt ∈ clause.body, stmt.isLawful around = true := by
  induction cases with
  | nil => simp [Case.areLawful]
  | cons clause rest ih =>
    obtain ⟨test, body⟩ := clause
    simp [Case.areLawful, Case.isLawful, ih, Case.test, Case.body]

end

/-! ### Derived trees are lawful -/

/-- Being lawful, as a criterion. It asks nothing of what the tokens put into a tree. -/
def Criterion.lawful : Criterion where
  names _ := True
  members _ := True
  places _ := True
  numbers _ := True
  exprs expr := expr.isLawful = true
  functions f := f.isLawful = true
  stmts stmt around := stmt.isLawful around = true
  ofNumber _ := rfl
  ofString := rfl
  ofBoolean := rfl
  ofNull := rfl
  ofUndefined := rfl
  ofThis := rfl
  ofIdentifier _ := rfl
  ofArray inside := Expr.areLawful_iff.mpr inside
  ofObject inside := Expr.areLawfulEntries_iff.mpr inside
  ofFunction written := written
  ofNamed _ inside _ := by simp [Expr.isLawful, Property.isLawful, inside]
  ofComputed _ inside selected := by simp [Expr.isLawful, Property.isLawful, inside, selected]
  ofCall _ called passed few := by simpa [Expr.isLawful, few, called] using passed
  ofConstruct _ called passed few := by simpa [Expr.isLawful, few, called] using passed
  ofUpdate _ assignable inside := by simp [Expr.isLawful, assignable, inside]
  ofUnary inside := inside
  ofLogical first second := by simp [Expr.isLawful, first, second]
  ofBinary first second := by simp [Expr.isLawful, first, second]
  ofAssign _ assignable inside written := by simp [Expr.isLawful, assignable, inside, written]
  ofDefinition _ _ few inside := by simpa [Function.isLawful, few] using inside
  ofConstant _ written := by simpa [Stmt.isLawful] using written
  ofVariable _ written := by simpa [Stmt.isLawful] using written
  ofDefineFunction named written := by simp [Stmt.isLawful, named, written]
  ofBlock inside := Stmt.areLawful_iff.mpr inside
  ofConditional tested branch other _ := by simpa [Stmt.isLawful, tested, branch] using other
  ofWhileLoop tested repeated := by simp [Stmt.isLawful, tested, repeated]
  ofDoWhileLoop repeated tested := by simp [Stmt.isLawful, repeated, tested]
  ofForLoop {around start _ _ _} simple begins tested updated repeated := by
    have starts : start.all Stmt.isStart = true := by simpa [Option.all_eq_true] using simple
    simpa [Stmt.isLawful, starts, repeated] using ⟨⟨begins, tested⟩, updated⟩
  ofAttempt inside some handles closing := by
    simpa [Stmt.isLawful] using
      ⟨⟨⟨some, inside⟩, fun name body mem => (handles (name, body) mem).2⟩, closing⟩
  ofChoice chosen inside single := by
    rw [← List.countP_eq_length_filter] at single
    simpa [Stmt.isLawful, chosen, single] using inside
  ofGiveBack placed written := by simpa [Stmt.isLawful, placed] using written
  ofLeave placed := by simpa [Stmt.isLawful] using placed
  ofNext placed := by simpa [Stmt.isLawful] using placed
  ofEvaluate written := written
  ofEmpty := rfl

theorem Token.admitted_lawful (token : Token) : Criterion.lawful.Admits token where
  name _ := trivial
  member _ := trivial
  number _ _ := trivial
  place := trivial

/-! ### Programs -/

/-- **What is read is lawful.** Whatever the tokens are, with or without an end of the file, every
program that is read from them is lawful at every node. -/
theorem parse_lawful {tokens : List Token} {source : Nat} {program : List Stmt}
    (read : parse tokens source = .ok program) : Stmt.areLawful program .none = true := by
  obtain ⟨rest, reads⟩ := gives_of_parse read
  obtain ⟨_, _, written⟩ := Grammar.sound_items _ _ _ reads
  exact Stmt.areLawful_iff.mpr
    (Phrase.suits_many (c := .lawful) written fun token _ => token.admitted_lawful)

/-- A function that leaves a loop and gives a value back is read, and it is lawful. -/
theorem parse_lawful_function : ∃ tokens program,
    tokenize "dala f(a) { madamt (a) { wa9f; } rj3 a; }" = .ok tokens ∧
    parse tokens 0 = .ok program ∧ Stmt.areLawful program .none = true := by
  have read : (readProgram "dala f(a) { madamt (a) { wa9f; } rj3 a; }" 0).isOk = true := by
    decide +kernel
  obtain ⟨tokens, program, lexed, parsed⟩ := parse_of_readProgram read
  exact ⟨tokens, program, lexed, parsed, parse_lawful parsed⟩

end DarijaScript
