import DarijaScript.Proofs.Grammar.Phrase

/-!
# Criteria for trees

What is said of every tree that some tokens derive is mostly put together from what is said of its
parts and of what the tokens put into it: names, members, numbers and places. A criterion says what
is asked of all these. The derivations are gone through once here, for every criterion that holds of
a tree as soon as it holds of the parts that the grammar builds the tree from.
-/

namespace DarijaScript

/-- What is asked of trees, and of the names, members, places and numbers in them. It holds of a tree
that the grammar builds if it holds of the parts. There what the grammar itself asks of the tree, such
as few arguments or a target of a jump, is known. -/
structure Criterion where
  names : Identifier → Prop
  members : String → Prop
  places : Position → Prop
  numbers : Float → Prop
  exprs : Expr → Prop
  functions : Function → Prop
  stmts : Stmt → Surroundings → Prop
  ofNumber {value : Float} (read : numbers value) : exprs (.literal (.number value))
  ofString {text : String} : exprs (.literal (.string text))
  ofBoolean {value : Bool} : exprs (.literal (.boolean value))
  ofNull : exprs (.literal .null)
  ofUndefined : exprs (.literal .undefined)
  ofThis : exprs .this
  ofIdentifier {name : Identifier} (named : names name) : exprs (.identifier name)
  ofArray {elements : List Expr} (inside : ∀ element ∈ elements, exprs element) :
    exprs (.array elements)
  ofObject {entries : List (String × Expr)} (inside : ∀ entry ∈ entries, exprs entry.2) :
    exprs (.object entries)
  ofFunction {f : Function} (written : functions f) : exprs (.function f)
  ofNamed {owner : Expr} {name : String} {position : Position} (placed : places position)
    (inside : exprs owner) (selected : members name) :
    exprs (.member owner (.named name) position)
  ofComputed {owner key : Expr} {position : Position} (placed : places position)
    (inside : exprs owner) (selected : exprs key) :
    exprs (.member owner (.computed key) position)
  ofCall {callee : Expr} {args : List Expr} {position : Position} (placed : places position)
    (called : exprs callee) (passed : ∀ arg ∈ args, exprs arg)
    (few : args.length ≤ maxArguments) : exprs (.call callee args position)
  ofConstruct {callee : Expr} {args : List Expr} {position : Position} (placed : places position)
    (called : exprs callee) (passed : ∀ arg ∈ args, exprs arg)
    (few : args.length ≤ maxArguments) : exprs (.construct callee args position)
  ofUpdate {op : StepOp} {before : Bool} {target : Expr} {position : Position}
    (placed : places position) (assignable : target.isReference = true)
    (inside : exprs target) : exprs (.update op before target position)
  ofUnary {op : UnaryOp} {operand : Expr} (inside : exprs operand) : exprs (.unary op operand)
  ofLogical {op : Connective} {left right : Expr} (first : exprs left) (second : exprs right) :
    exprs (.logical op left right)
  ofBinary {op : BinaryOp} {left right : Expr} (first : exprs left) (second : exprs right) :
    exprs (.binary op left right)
  ofAssign {op : AssignmentOp} {target value : Expr} {position : Position}
    (placed : places position) (assignable : target.isReference = true)
    (inside : exprs target) (written : exprs value) : exprs (.assign op target value position)
  ofDefinition {name : Option Identifier} {params : List Identifier} {body : List Stmt}
    {origin : Origin} (named : ∀ own ∈ name, names own) (listed : ∀ param ∈ params, names param)
    (few : params.length ≤ maxArguments) (inside : ∀ stmt ∈ body, stmts stmt .ofFunction) :
    functions (.mk name params body origin)
  ofConstant {around : Surroundings} {name : Identifier} {value : Expr} (named : names name)
    (written : exprs value) : stmts (.declare .constant name (some value)) around
  ofVariable {around : Surroundings} {name : Identifier} {value : Option Expr}
    (named : names name) (written : ∀ expr ∈ value, exprs expr) :
    stmts (.declare .variable name value) around
  ofDefineFunction {around : Surroundings} {f : Function} (named : f.name.isSome = true)
    (written : functions f) : stmts (.defineFunction f) around
  ofBlock {around : Surroundings} {body : List Stmt} (inside : ∀ stmt ∈ body, stmts stmt around) :
    stmts (.block body) around
  ofConditional {around : Surroundings} {test : Expr} {consequent : Stmt} {alternate : Option Stmt}
    (tested : exprs test) (branch : stmts consequent around)
    (other : ∀ stmt ∈ alternate, stmts stmt around)
    (closed : alternate.isSome = true → consequent.endsOpen = false) :
    stmts (.conditional test consequent alternate) around
  ofWhileLoop {around : Surroundings} {test : Expr} {body : Stmt} (tested : exprs test)
    (repeated : stmts body around.inLoop) : stmts (.whileLoop test body) around
  ofDoWhileLoop {around : Surroundings} {test : Expr} {body : Stmt}
    (repeated : stmts body around.inLoop) (tested : exprs test) :
    stmts (.doWhileLoop body test) around
  ofForLoop {around : Surroundings} {start : Option Stmt} {test update : Option Expr} {body : Stmt}
    (simple : ∀ stmt ∈ start, stmt.isStart = true) (begins : ∀ stmt ∈ start, stmts stmt around)
    (tested : ∀ expr ∈ test, exprs expr) (updated : ∀ expr ∈ update, exprs expr)
    (repeated : stmts body around.inLoop) : stmts (.forLoop start test update body) around
  ofAttempt {around : Surroundings} {body : List Stmt} {handler : Option (Identifier × List Stmt)}
    {finalizer : Option (List Stmt)} (inside : ∀ stmt ∈ body, stmts stmt around)
    (some : handler.isSome = true ∨ finalizer.isSome = true)
    (handles : ∀ own ∈ handler, names own.1 ∧ ∀ stmt ∈ own.2, stmts stmt around)
    (closing : ∀ final ∈ finalizer, ∀ stmt ∈ final, stmts stmt around) :
    stmts (.attempt body handler finalizer) around
  ofChoice {around : Surroundings} {subject : Expr} {cases : List Case} (chosen : exprs subject)
    (inside : ∀ clause ∈ cases, (∀ test ∈ clause.test, exprs test) ∧
      ∀ stmt ∈ clause.body, stmts stmt around.inChoice)
    (single : (cases.filter (·.test.isNone)).length ≤ 1) :
    stmts (.choice subject cases) around
  ofGiveBack {around : Surroundings} {value : Option Expr} (placed : around.inFunction = true)
    (written : ∀ expr ∈ value, exprs expr) : stmts (.giveBack value) around
  ofLeave {around : Surroundings} (placed : 0 < around.loops ∨ 0 < around.choices) :
    stmts .leave around
  ofNext {around : Surroundings} (placed : 0 < around.loops) : stmts .next around
  ofEvaluate {around : Surroundings} {expr : Expr} (written : exprs expr) :
    stmts (.evaluate expr) around
  ofEmpty {around : Surroundings} : stmts .empty around

namespace Criterion

/-- What a tree can have from the token is as the criterion asks. -/
structure Admits (c : Criterion) (token : Token) : Prop where
  name : token.kind = .identifier → c.names ⟨token.lexeme, token.position⟩
  member : token.isMemberName = true → c.members token.lexeme
  number {value : Float} : token.kind = .number →
    Decimal.read? token.lexeme.toList = some value → c.numbers value
  place : c.places token.position

/-- What a tree can have from the tokens is as the criterion asks. -/
def AdmitsAll (c : Criterion) (tokens : List Token) : Prop := ∀ token ∈ tokens, c.Admits token

variable {c : Criterion} {tokens others : List Token}

theorem admitsAll_cons {token : Token} :
    c.AdmitsAll (token :: tokens) ↔ c.Admits token ∧ c.AdmitsAll tokens :=
  List.forall_mem_cons

theorem admitsAll_append :
    c.AdmitsAll (tokens ++ others) ↔ c.AdmitsAll tokens ∧ c.AdmitsAll others :=
  List.forall_mem_append

end Criterion

namespace Phrase

open Grammar Criterion

/-! ### What the grammar asks of trees -/

/-- A token between two operands joins them logically or as the operands of an operation. -/
theorem join_shape {joint : Joint} (mem : joint ∈ tiers) {op : Token} {join : Expr → Expr → Expr}
    (found : joint op = some join) :
    (∃ connective, join = .logical connective) ∨ ∃ binary, join = .binary binary := by
  simp only [tiers, List.mem_cons, List.not_mem_nil, or_false] at mem
  rcases mem with rfl | rfl | rfl | rfl | rfl | rfl
  all_goals
    simp only [logicalJoint, binaryJoint, Option.map_eq_some_iff, Option.ite_none_right_eq_some,
      Option.some.injEq] at found
  · exact .inl ⟨_, found.2.symm⟩
  · exact .inl ⟨_, found.2.symm⟩
  all_goals
    obtain ⟨binary, -, eq⟩ := found
    exact .inr ⟨binary, eq.symm⟩

variable {source : Nat} {tokens : List Token}

theorem FunctionRest.name_eq {keyword : Token} {name : Option Identifier} {f : Function}
    (h : FunctionRest source keyword name tokens f) : f.name = name := by
  cases h
  rfl

/-- At most one clause of a choice has no test, and none behind one without a test. -/
theorem Clauses.single {hasDefault : Bool} {cases : List Case} {around : Surroundings}
    (h : Clauses source around hasDefault tokens cases) :
    (cases.filter (·.test.isNone)).length ≤ if hasDefault then 0 else 1 := by
  induction cases generalizing hasDefault tokens with
  | nil => simp
  | cons first rest ih =>
    cases h with
    | test _ _ _ _ clauses => simpa [List.filter_cons, Case.test] using ih clauses
    | default _ _ _ clauses => simpa [List.filter_cons, Case.test] using ih clauses

/-! ### Names -/

variable {c : Criterion}

theorem Name.suits {name : Identifier} (h : Name tokens name) (within : c.AdmitsAll tokens) :
    c.names name := by
  obtain ⟨kind⟩ := h
  exact (admitsAll_cons.mp within).1.name kind

theorem Listed.suits_names {names : List Identifier} (h : Listed Name tokens names)
    (within : c.AdmitsAll tokens) : ∀ name ∈ names, c.names name := by
  induction h with
  | nil => simp
  | last thing => simpa using thing.suits within
  | cons thing _ _ ih =>
    obtain ⟨first, -, rest⟩ := by simpa only [admitsAll_append, admitsAll_cons] using within
    exact List.forall_mem_cons.mpr ⟨thing.suits first, ih rest⟩

theorem Optionally.suits_name {name : Option Identifier} (h : Optionally Name tokens name)
    (within : c.AdmitsAll tokens) : ∀ own ∈ name, c.names own := by
  cases h with
  | none => simp
  | some thing => simpa using thing.suits within

/-! ### Derived trees -/

/-- The operators that join two operands make one expression of them. -/
theorem suits_join {joint : Joint} (mem : joint ∈ tiers) {op : Token} {left right expr : Expr}
    (joins : (joint op).map (fun join => join left right) = some expr) (first : c.exprs left)
    (second : c.exprs right) : c.exprs expr := by
  obtain ⟨join, found, rfl⟩ := Option.map_eq_some_iff.mp joins
  rcases join_shape mem found with ⟨_, rfl⟩ | ⟨_, rfl⟩
  · exact c.ofLogical first second
  · exact c.ofBinary first second

mutual

theorem Atom.suits {tokens : List Token} {expr : Expr} (h : Atom source tokens expr)
    (within : c.AdmitsAll tokens) : c.exprs expr := by
  match h with
  | .number kind reads =>
    exact c.ofNumber ((admitsAll_cons.mp within).1.number kind reads)
  | .string _ => exact c.ofString
  | .boolean _ => exact c.ofBoolean
  | .identifier kind => exact c.ofIdentifier ((admitsAll_cons.mp within).1.name kind)
  | .null _ => exact c.ofNull
  | .undefined _ => exact c.ofUndefined
  | .this _ => exact c.ofThis
  | .function _ named rest =>
    obtain ⟨⟨-, names⟩, tokens⟩ := by simpa only [admitsAll_append, admitsAll_cons] using within
    exact c.ofFunction (rest.suits (named.suits_name names) tokens)
  | .group _ inside _ =>
    obtain ⟨⟨-, tokens⟩, -⟩ := by simpa only [admitsAll_append, admitsAll_cons] using within
    exact inside.suits tokens
  | .array _ inside _ =>
    obtain ⟨⟨-, tokens⟩, -⟩ := by simpa only [admitsAll_append, admitsAll_cons] using within
    exact c.ofArray (suits_listed inside tokens)
  | .object _ inside _ =>
    obtain ⟨⟨-, tokens⟩, -⟩ := by simpa only [admitsAll_append, admitsAll_cons] using within
    exact c.ofObject (suits_entries inside tokens)
termination_by structural h

theorem suits_listed {tokens : List Token} {exprs : List Expr}
    (h : Listed (Expression source) tokens exprs) (within : c.AdmitsAll tokens) :
    ∀ expr ∈ exprs, c.exprs expr := by
  match h with
  | .nil => simp
  | .last thing => simpa using thing.suits within
  | .cons thing _ rest =>
    obtain ⟨first, -, others⟩ := by simpa only [admitsAll_append, admitsAll_cons] using within
    exact List.forall_mem_cons.mpr ⟨thing.suits first, suits_listed rest others⟩
termination_by structural h

theorem suits_enumerated {tokens : List Token} {exprs : List Expr}
    (h : Enumerated (Expression source) tokens exprs) (within : c.AdmitsAll tokens) :
    ∀ expr ∈ exprs, c.exprs expr := by
  match h with
  | .last thing => simpa using thing.suits within
  | .cons thing _ rest =>
    obtain ⟨first, -, others⟩ := by simpa only [admitsAll_append, admitsAll_cons] using within
    exact List.forall_mem_cons.mpr ⟨thing.suits first, suits_enumerated rest others⟩
termination_by structural h

theorem suits_optionally {tokens : List Token} {expr : Option Expr}
    (h : Optionally (Expression source) tokens expr) (within : c.AdmitsAll tokens) :
    ∀ inside ∈ expr, c.exprs inside := by
  match h with
  | .none => simp
  | .some thing => simpa using thing.suits within
termination_by structural h

theorem suits_entries {tokens : List Token} {entries : List (String × Expr)}
    (h : Listed (Entry source) tokens entries) (within : c.AdmitsAll tokens) :
    ∀ entry ∈ entries, c.exprs entry.2 := by
  match h with
  | .nil => simp
  | .last thing => simpa using thing.suits within
  | .cons thing _ rest =>
    obtain ⟨first, -, others⟩ := by simpa only [admitsAll_append, admitsAll_cons] using within
    exact List.forall_mem_cons.mpr ⟨thing.suits first, suits_entries rest others⟩
termination_by structural h

theorem Entry.suits {tokens : List Token} {entry : String × Expr} (h : Entry source tokens entry)
    (within : c.AdmitsAll tokens) : c.exprs entry.2 := by
  match h with
  | .mk _ _ written =>
    obtain ⟨-, -, tokens⟩ := by simpa only [admitsAll_cons] using within
    exact written.suits tokens
termination_by structural h

theorem FunctionRest.suits {keyword : Token} {name : Option Identifier} {tokens : List Token}
    {f : Function} (h : FunctionRest source keyword name tokens f)
    (named : ∀ own ∈ name, c.names own) (within : c.AdmitsAll tokens) : c.functions f := by
  match h with
  | .mk _ listed _ few block =>
    obtain ⟨⟨-, names⟩, -, tokens⟩ := by
      simpa only [admitsAll_append, admitsAll_cons] using within
    exact c.ofDefinition named (listed.suits_names names) few (block.suits tokens)
termination_by structural h

theorem Block.suits {tokens : List Token} {body : List Stmt} {around : Surroundings}
    (h : Block source around tokens body) (within : c.AdmitsAll tokens) :
    ∀ stmt ∈ body, c.stmts stmt around := by
  match h with
  | .mk _ inside _ =>
    obtain ⟨⟨-, tokens⟩, -⟩ := by simpa only [admitsAll_append, admitsAll_cons] using within
    exact suits_many inside tokens
termination_by structural h

theorem suits_many {tokens : List Token} {body : List Stmt} {around : Surroundings}
    (h : Many (Statement source) tokens body around) (within : c.AdmitsAll tokens) :
    ∀ stmt ∈ body, c.stmts stmt around := by
  match h with
  | .nil => simp
  | .cons first rest =>
    obtain ⟨tokens, others⟩ := admitsAll_append.mp within
    exact List.forall_mem_cons.mpr ⟨first.suits tokens, suits_many rest others⟩
termination_by structural h

theorem Arguments.suits {tokens : List Token} {args : List Expr}
    (h : Arguments source tokens args) (within : c.AdmitsAll tokens) :
    (∀ arg ∈ args, c.exprs arg) ∧ args.length ≤ maxArguments := by
  match h with
  | .none _ => simp
  | .some inside few _ =>
    obtain ⟨tokens, -⟩ := admitsAll_append.mp within
    exact ⟨suits_enumerated inside tokens, few⟩
termination_by structural h

theorem MemberSuffix.suits {owner expr : Expr} {tokens : List Token}
    (h : MemberSuffix source owner tokens expr) (inside : c.exprs owner)
    (within : c.AdmitsAll tokens) : c.exprs expr := by
  match h with
  | .named _ word =>
    obtain ⟨point, name, -⟩ := by simpa only [admitsAll_cons] using within
    exact c.ofNamed point.place inside (name.member word)
  | .computed _ key _ =>
    obtain ⟨⟨opening, tokens⟩, -⟩ := by simpa only [admitsAll_append, admitsAll_cons] using within
    exact c.ofComputed opening.place inside (key.suits tokens)
termination_by structural h

theorem CallSuffix.suits {owner expr : Expr} {tokens : List Token}
    (h : CallSuffix source owner tokens expr) (inside : c.exprs owner)
    (within : c.AdmitsAll tokens) : c.exprs expr := by
  match h with
  | .member member => exact member.suits inside within
  | .call _ passed =>
    obtain ⟨opening, tokens⟩ := admitsAll_cons.mp within
    obtain ⟨args, few⟩ := passed.suits tokens
    exact c.ofCall opening.place inside args few
termination_by structural h

theorem Primary.suits {isOpen : Bool} {tokens : List Token} {expr : Expr}
    (h : Primary source isOpen tokens expr) (within : c.AdmitsAll tokens) : c.exprs expr := by
  match h with
  | .atom atom => exact atom.suits within
  | .construct _ constructor _ passed =>
    obtain ⟨⟨keyword, tokens⟩, -, others⟩ := by
      simpa only [admitsAll_append, admitsAll_cons] using within
    obtain ⟨args, few⟩ := passed.suits others
    exact c.ofConstruct keyword.place (suits_members constructor tokens) args few
  | .bare _ constructor =>
    obtain ⟨keyword, tokens⟩ := admitsAll_cons.mp within
    exact c.ofConstruct keyword.place (suits_members constructor tokens) (by simp) (by simp)
termination_by structural h

theorem suits_members {isOpen : Bool} {tokens : List Token} {expr : Expr}
    (h : Suffixed (Primary source) (MemberSuffix source) isOpen tokens expr)
    (within : c.AdmitsAll tokens) : c.exprs expr := by
  match h with
  | .head head => exact head.suits within
  | .suffix chain suffix =>
    obtain ⟨tokens, others⟩ := admitsAll_append.mp within
    exact suffix.suits (suits_members chain tokens) others
termination_by structural h

theorem suits_calls {isOpen : Bool} {tokens : List Token} {expr : Expr}
    (h : Suffixed (Primary source) (CallSuffix source) isOpen tokens expr)
    (within : c.AdmitsAll tokens) : c.exprs expr := by
  match h with
  | .head head => exact head.suits within
  | .suffix chain suffix =>
    obtain ⟨tokens, others⟩ := admitsAll_append.mp within
    exact suffix.suits (suits_calls chain tokens) others
termination_by structural h

theorem Updated.suits {tokens : List Token} {expr : Expr} (h : Updated source tokens expr)
    (within : c.AdmitsAll tokens) : c.exprs expr := by
  match h with
  | .plain chain => exact suits_calls chain within
  | .update chain assignable _ =>
    obtain ⟨tokens, sign, -⟩ := by simpa only [admitsAll_append, admitsAll_cons] using within
    exact c.ofUpdate sign.place assignable (suits_calls chain tokens)
termination_by structural h

theorem Operand.suits {tokens : List Token} {expr : Expr} (h : Operand source tokens expr)
    (within : c.AdmitsAll tokens) : c.exprs expr := by
  match h with
  | .update _ operand assignable =>
    obtain ⟨sign, tokens⟩ := admitsAll_cons.mp within
    exact c.ofUpdate sign.place assignable (operand.suits tokens)
  | .unary _ _ operand => exact c.ofUnary (operand.suits (admitsAll_cons.mp within).2)
  | .updated updated => exact updated.suits within
termination_by structural h

theorem suits_tier {joints : List Joint} {tokens : List Token} {expr : Expr}
    (h : Tier (Operand source) joints tokens expr) (known : ∀ joint ∈ joints, joint ∈ tiers)
    (within : c.AdmitsAll tokens) : c.exprs expr := by
  match h with
  | .operand operand => exact operand.suits within
  | .tighter chain =>
    exact suits_tier chain (fun _ mem => known _ (List.mem_cons_of_mem _ mem)) within
  | .link chain joins operand =>
    obtain ⟨tokens, -, others⟩ := by simpa only [admitsAll_append, admitsAll_cons] using within
    exact suits_join (known _ (by simp)) joins (suits_tier chain known tokens)
      (suits_tier operand (fun _ mem => known _ (List.mem_cons_of_mem _ mem)) others)
termination_by structural h

theorem Expression.suits {tokens : List Token} {expr : Expr} (h : Expression source tokens expr)
    (within : c.AdmitsAll tokens) : c.exprs expr := by
  match h with
  | .chain chain => exact suits_tier chain (fun _ mem => mem) within
  | .assign chain assignable _ written =>
    obtain ⟨tokens, sign, others⟩ := by simpa only [admitsAll_append, admitsAll_cons] using within
    exact c.ofAssign sign.place assignable (suits_tier chain (fun _ mem => mem) tokens)
      (written.suits others)
termination_by structural h

theorem Parenthesized.suits {tokens : List Token} {expr : Expr}
    (h : Parenthesized source tokens expr) (within : c.AdmitsAll tokens) : c.exprs expr := by
  match h with
  | .mk _ inside _ =>
    obtain ⟨⟨-, tokens⟩, -⟩ := by simpa only [admitsAll_append, admitsAll_cons] using within
    exact inside.suits tokens
termination_by structural h

theorem Declaration.suits {tokens : List Token} {stmt : Stmt} {around : Surroundings}
    (h : Declaration source tokens stmt) (within : c.AdmitsAll tokens) :
    c.stmts stmt around ∧ stmt.isStart = true := by
  match h with
  | .constant _ kind _ written =>
    obtain ⟨-, name, -, tokens⟩ := by simpa only [admitsAll_cons] using within
    exact ⟨c.ofConstant (name.name kind) (written.suits tokens), rfl⟩
  | .variable _ kind _ written =>
    obtain ⟨-, name, -, tokens⟩ := by simpa only [admitsAll_cons] using within
    exact ⟨c.ofVariable (name.name kind) (by simpa using written.suits tokens), rfl⟩
  | .uninitialized _ kind =>
    obtain ⟨-, name, -⟩ := by simpa only [admitsAll_cons] using within
    exact ⟨c.ofVariable (name.name kind) (by simp), rfl⟩
termination_by structural h

theorem Start.suits {tokens : List Token} {start : Option Stmt} (h : Start source tokens start)
    (around : Surroundings) (within : c.AdmitsAll tokens) :
    ∀ stmt ∈ start, c.stmts stmt around ∧ stmt.isStart = true := by
  match h with
  | .none => simp
  | .declare declaration => simpa using declaration.suits within
  | .evaluate written => simpa using ⟨c.ofEvaluate (written.suits within), rfl⟩
termination_by structural h

theorem Conditional.suits {tokens : List Token} {stmt : Stmt} {around : Surroundings}
    (h : Conditional source around tokens stmt) (within : c.AdmitsAll tokens) :
    c.stmts stmt around := by
  match h with
  | .alone tested branch =>
    obtain ⟨tokens, others⟩ := admitsAll_append.mp within
    exact c.ofConditional (tested.suits tokens) (branch.suits others) (by simp) (by simp)
  | .otherwise tested branch closed _ other =>
    obtain ⟨⟨tokens, others⟩, -, more⟩ := by
      simpa only [admitsAll_append, admitsAll_cons] using within
    exact c.ofConditional (tested.suits tokens) (branch.suits others)
      (by simpa using other.suits more) (fun _ => closed)
  | .further tested branch closed _ other =>
    obtain ⟨⟨tokens, others⟩, -, more⟩ := by
      simpa only [admitsAll_append, admitsAll_cons] using within
    exact c.ofConditional (tested.suits tokens) (branch.suits others)
      (by simpa using other.suits more) (fun _ => closed)
termination_by structural h

theorem Handler.suits {tokens : List Token} {handler : Identifier × List Stmt}
    {around : Surroundings} (h : Handler source around tokens handler)
    (within : c.AdmitsAll tokens) :
    c.names handler.1 ∧ ∀ stmt ∈ handler.2, c.stmts stmt around := by
  match h with
  | .mk _ _ kind _ block =>
    obtain ⟨-, -, name, -, tokens⟩ := by simpa only [admitsAll_cons] using within
    exact ⟨name.name kind, block.suits tokens⟩
termination_by structural h

theorem Clauses.suits {hasDefault : Bool} {tokens : List Token} {cases : List Case}
    {around : Surroundings} (h : Clauses source around hasDefault tokens cases)
    (within : c.AdmitsAll tokens) : ∀ clause ∈ cases, (∀ test ∈ clause.test, c.exprs test) ∧
      ∀ stmt ∈ clause.body, c.stmts stmt around.inChoice := by
  match h with
  | .nil => simp
  | .test _ tested _ inside clauses =>
    obtain ⟨⟨⟨-, tokens⟩, -, others⟩, more⟩ := by
      simpa only [admitsAll_append, admitsAll_cons] using within
    refine List.forall_mem_cons.mpr ⟨⟨?_, suits_many inside others⟩, clauses.suits more⟩
    simpa [Case.test] using tested.suits tokens
  | .default _ _ inside clauses =>
    obtain ⟨⟨-, -, others⟩, more⟩ := by simpa only [admitsAll_append, admitsAll_cons] using within
    refine List.forall_mem_cons.mpr ⟨⟨?_, suits_many inside others⟩, clauses.suits more⟩
    simp [Case.test]
termination_by structural h

theorem Statement.suits {tokens : List Token} {stmt : Stmt} {around : Surroundings}
    (h : Statement source around tokens stmt) (within : c.AdmitsAll tokens) :
    c.stmts stmt around := by
  match h with
  | .block block => exact c.ofBlock (block.suits within)
  | .empty _ => exact c.ofEmpty
  | .declare declaration _ => exact (declaration.suits (admitsAll_append.mp within).1).1
  | .function _ kind rest =>
    obtain ⟨-, name, tokens⟩ := by simpa only [admitsAll_cons] using within
    exact c.ofDefineFunction (by simp [rest.name_eq])
      (rest.suits (by simpa using name.name kind) tokens)
  | .conditional _ rest => exact rest.suits (admitsAll_cons.mp within).2
  | .whileLoop _ tested repeated =>
    obtain ⟨⟨-, tokens⟩, others⟩ := by simpa only [admitsAll_append, admitsAll_cons] using within
    exact c.ofWhileLoop (tested.suits tokens) (repeated.suits others)
  | .doWhileLoop _ repeated _ tested _ =>
    obtain ⟨⟨⟨-, tokens⟩, -, others⟩, -⟩ := by
      simpa only [admitsAll_append, admitsAll_cons] using within
    exact c.ofDoWhileLoop (repeated.suits tokens) (tested.suits others)
  | .forLoop _ _ begins _ tested _ updated _ repeated =>
    obtain ⟨⟨⟨⟨-, -, starting⟩, -, testing⟩, -, updating⟩, -, tokens⟩ := by
      simpa only [admitsAll_append, admitsAll_cons] using within
    exact c.ofForLoop (fun stmt mem => (begins.suits around starting stmt mem).2)
      (fun stmt mem => (begins.suits around starting stmt mem).1) (suits_optionally tested testing)
      (suits_optionally updated updating) (repeated.suits tokens)
  | .handled _ block handles =>
    obtain ⟨⟨-, tokens⟩, others⟩ := by simpa only [admitsAll_append, admitsAll_cons] using within
    exact c.ofAttempt (block.suits tokens) (.inl rfl) (by simpa using handles.suits others)
      (by simp)
  | .finalized _ block _ closing =>
    obtain ⟨⟨-, tokens⟩, -, others⟩ := by
      simpa only [admitsAll_append, admitsAll_cons] using within
    exact c.ofAttempt (block.suits tokens) (.inr rfl) (by simp)
      (by simpa using closing.suits others)
  | .handledFinalized _ block handles _ closing =>
    obtain ⟨⟨⟨-, tokens⟩, others⟩, -, more⟩ := by
      simpa only [admitsAll_append, admitsAll_cons] using within
    exact c.ofAttempt (block.suits tokens) (.inl rfl) (by simpa using handles.suits others)
      (by simpa using closing.suits more)
  | .choice _ chosen _ clauses _ =>
    obtain ⟨⟨⟨-, tokens⟩, -, others⟩, -⟩ := by
      simpa only [admitsAll_append, admitsAll_cons] using within
    exact c.ofChoice (chosen.suits tokens) (clauses.suits others) clauses.single
  | .giveBack _ placed written _ =>
    obtain ⟨⟨-, tokens⟩, -⟩ := by simpa only [admitsAll_append, admitsAll_cons] using within
    exact c.ofGiveBack placed (suits_optionally written tokens)
  | .leave _ placed _ => exact c.ofLeave placed
  | .next _ placed _ => exact c.ofNext placed
  | .evaluate written _ _ => exact c.ofEvaluate (written.suits (admitsAll_append.mp within).1)
termination_by structural h

end

/-- **Programs that admitted tokens derive suit the criterion.** -/
theorem Program.suits {program : List Stmt} (h : Program source tokens program)
    (within : c.AdmitsAll tokens) : ∀ stmt ∈ program, c.stmts stmt .none :=
  suits_many h within

end Phrase

end DarijaScript
