import DarijaScript.Evaluation.Statement
import DarijaScript.Proofs.Evaluation.ExpressionRules
import DarijaScript.Proofs.Syntax.Declared

/-!
# The rules of statements in step

If the activities of two interpreters are in step, then so is everything that the rules of statements
make of them. In a tracked setting the statements that are executed in one scope, one list after the
other, must not declare a function under the name of a constant that may be there already.
-/

namespace DarijaScript

theorem Run.outcome_inScope {α : Type} (id : ScopeId) (steps : Run α) :
    outcome (inScope id steps) = inScope id (outcome steps) := by
  funext machine
  simp only [outcome, inScope]
  rcases steps { machine with scope := id } with _ | ⟨_ | _, _⟩ <;> rfl

theorem Run.declare_ok {name : String} {value : Value} {assignable : Bool} {start after : Machine}
    (h : declare name value assignable start = .ok () after) :
    after = { start with store := start.store.define start.scope name ⟨value, assignable⟩ } := by
  change (if start.store.declares start.scope name then fault (.redeclaration name)
    else define start.scope name value assignable : Run Unit) start = _ at h
  split at h
  · cases h
  · cases h
    rfl

theorem Run.declare_of_free {name : String} {value : Value} {assignable : Bool} {start : Machine}
    (free : start.store.binding? start.scope name = none) :
    declare name value assignable start =
      .ok () { start with store := start.store.define start.scope name ⟨value, assignable⟩ } := by
  have undeclared : start.store.declares start.scope name = false := by
    rw [Store.declares_eq, free]
    rfl
  change (if start.store.declares start.scope name then fault (.redeclaration name)
    else define start.scope name value assignable : Run Unit) start = _
  rw [undeclared]
  rfl

theorem Run.of_located_ok {α : Type} {steps : Run α} {position : Position} {start after : Machine}
    {value : α} (h : located position steps start = .ok value after) :
    steps start = .ok value after := by
  unfold located at h
  split at h
  · next eq =>
    cases h
    exact eq
  · cases h
  · cases h

/-- A declaration that ends binds its name to its value in the active scope. -/
theorem declaration_binds {inner : Interpreter} {kind : DeclarationKind} {name : Identifier}
    {expr : Expr} {start after : Machine} {flow : Completion}
    (ended : Evaluation.declaration inner kind name (some expr) start = .ok flow after)
    (active : after.scope < after.store.scopes.size) :
    ∃ value middle, inner.expression expr start = .ok value middle ∧
      after.store.binding? after.scope name.name = some ⟨value, kind = .variable⟩ := by
  obtain ⟨value, middle, evaluated, rest⟩ := Run.of_bind_ok ended
  obtain ⟨_, bound, declared, last⟩ := Run.of_bind_ok rest
  cases last
  obtain rfl := Run.declare_ok (Run.of_located_ok declared)
  refine ⟨value, middle, evaluated, ?_⟩
  rw [Store.size_define] at active
  rw [Store.binding?_define, if_pos ⟨rfl, rfl, active⟩]

namespace Setting

open Evaluation

variable {S : Setting} {c c' : Context} {inner other : Interpreter}

theorem handle_eq (inner : Interpreter) (name : Identifier) (body : List Stmt)
    (exception : Exception) :
    handle inner (some (name, body)) (.error exception) = (do
      let id ← Run.newScope
      Run.define id name.name exception.value true
      Pure.pure id) >>= fun id => Run.inScope id (Run.outcome (Evaluation.items inner body)) := by
  simp only [handle, bind_assoc, pure_bind, Run.outcome_inScope]

theorem mem_functionNames_of_mem {stmts : List Stmt} {f : Function} {name : Identifier}
    (mem : .defineFunction f ∈ stmts) (named : f.name = some name) :
    name.name ∈ functionNames stmts := by
  induction stmts with
  | nil => cases mem
  | cons stmt rest ih =>
    rcases List.mem_cons.mp mem with rfl | later
    · exact List.mem_append_left _ (by simp [named])
    · cases stmt with
      | defineFunction _ => exact List.mem_append_right _ (ih later)
      | _ => exact ih later

theorem InStep.hoist {stmts : List Stmt} (known : ∀ stmt ∈ stmts, stmt.Meets S.check)
    (free : S.tracked → ∀ name ∈ functionNames stmts, name ∉ c.constants) :
    S.InStep c c (Evaluation.hoist stmts) (Evaluation.hoist stmts) fun _ => True := by
  apply (S.stepLogic c).hoist
  intro f name mem named
  have meets : ∀ id, (Value.function f id).Meets S.check := fun _ =>
    Stmt.meets_iff.mp (known _ mem)
  exact InStep.define (fun id _ => meets id) fun tracked =>
    free tracked _ (mem_functionNames_of_mem mem named)

variable (agree : S.Agree c.depth c.nesting inner other)

include agree

theorem InStep.sequence {stmts : List Stmt} (known : ∀ stmt ∈ stmts, stmt.Meets S.check)
    (named : constantsOf stmts ⊆ c.constants) :
    S.InStep c c (Evaluation.sequence inner stmts) (Evaluation.sequence other stmts)
      (Completion.Meets S.check) :=
  (S.stepLogic c).sequence fun stmt mem =>
    agree.statement (known stmt mem) fun _ constant =>
      named (List.mem_flatMap.mpr ⟨stmt, mem, constant⟩)

/-- Statements in the active scope, whose constants before and after have known names. -/
theorem InStep.items {names : List String} {stmts : List Stmt}
    (known : ∀ stmt ∈ stmts, stmt.Meets S.check) (before : c.constants ⊆ names)
    (named : constantsOf stmts ⊆ names)
    (free : S.tracked → ∀ name ∈ functionNames stmts, name ∉ c.constants) :
    S.InStep c (c.knowing names) (Evaluation.items inner stmts) (Evaluation.items other stmts)
      (Completion.Meets S.check) := by
  have more := Context.within_knowing before
  apply (InStep.hoist known free).bindGrowing more
  intro _ _
  exact (InStep.sequence (c := c.knowing names) agree known named).of_within more

theorem InStep.block {stmts : List Stmt} (known : ∀ stmt ∈ stmts, stmt.Meets S.check) :
    S.InStep c c (Evaluation.block inner stmts) (Evaluation.block other stmts)
      (Completion.Meets S.check) := by
  have inside := InStep.items (c := c.knowing []) agree known (List.nil_subset _)
    (List.Subset.refl _) fun _ _ _ => List.not_mem_nil
  exact .inOpened .newScope inside rfl rfl

omit agree in
/-- What a declaration binds in the active scope is a constant only under a known name. -/
theorem InStep.declared {kind : DeclarationKind} {name : Identifier} {value : Value}
    (named : kind = .constant → name.name ∈ c.constants) (meets : value.Meets S.check) :
    S.InStep c c (Run.located name.position (Run.declare name.name value (kind = .variable)))
      (Run.located name.position (Run.declare name.name value (kind = .variable)))
      fun _ => True := by
  have constant : decide (kind = .variable) = false → name.name ∈ c.constants := by
    intro fixed
    match kind, named, fixed with
    | .constant, named, _ => exact named rfl
  exact (InStep.declare meets fun _ => constant).located name.position

theorem InStep.handle {handler : Option (Identifier × List Stmt)}
    {result : Except Exception Completion}
    (known : ∀ h ∈ handler, S.check (.name h.1.name) ∧ ∀ stmt ∈ h.2, stmt.Meets S.check)
    (ended : S.IsOutcome (Completion.Meets S.check) result) :
    S.InStep c c (Evaluation.handle inner handler result) (Evaluation.handle other handler result)
      (S.IsOutcome (Completion.Meets S.check)) := by
  match result, handler with
  | .ok _, _ => exact .pure ended
  | .error _, none => exact .pure ended
  | .error exception, some (name, body) =>
    obtain ⟨-, all⟩ := known _ rfl
    have meets : exception.value.Meets S.check := by
      cases exception with
      | fault _ _ => trivial
      | raised value _ => exact ended
    rw [handle_eq, handle_eq]
    have opens : S.Opens c [] (do
        let id ← Run.newScope
        Run.define id name.name exception.value true
        Pure.pure id) :=
      Opens.newScope.bind fun id => .define (fun _ => meets) (fun _ => List.not_mem_nil)
        (List.nil_subset _) nofun
    have inside := InStep.items (c := c.knowing []) agree all (List.nil_subset _)
      (List.Subset.refl _) fun _ _ _ => List.not_mem_nil
    exact .inOpened opens inside.outcome rfl rfl

theorem InStep.forLoop (rounds : Nat) {start : Option Stmt} {test update : Option Expr}
    {body : Stmt} (begins : ∀ stmt ∈ start, stmt.Meets S.check)
    (tested : ∀ expr ∈ test, expr.Meets S.check) (updated : ∀ expr ∈ update, expr.Meets S.check)
    (known : body.Meets S.check) :
    S.InStep c c (Evaluation.statement inner rounds (.forLoop start test update body))
      (Evaluation.statement other rounds (.forLoop start test update body))
      (Completion.Meets S.check) := by
  let names := (start.map Stmt.constants).getD [] ++ body.constants
  have first : ∀ stmt ∈ start, stmt.constants ⊆ names := by
    rintro stmt ⟨⟩
    exact List.subset_append_left _ _
  -- a round may renew its scope, so the active one at the end need not be that of the beginning
  let inside := (c.knowing names).unsettled
  have agree : S.Agree inside.depth inside.nesting inner other := agree
  have evaluates : ∀ {expr : Expr}, expr.Meets S.check →
      (S.stepLogic inside).Evaluates inner other expr := agree.expression
  have loop : S.InStep inside inside (Evaluation.forLoop inner rounds start test update body)
      (Evaluation.forLoop other rounds start test update body) (Completion.Meets S.check) :=
    (S.stepLogic inside).forLoop (agree.statement known (List.subset_append_right _ _))
      InStep.renewScope (fun expr mem => evaluates (tested expr mem))
      (fun expr mem => evaluates (updated expr mem))
      fun stmt mem => agree.statement (begins stmt mem) (first stmt mem)
  exact .inOpened .newScope (loop.of_within ⟨rfl, rfl, List.nil_subset _, nofun⟩) rfl rfl

/-- The clauses share a scope: what one of them declares is there for those behind it. -/
theorem InStep.clauses {cases : List Case} (known : ∀ clause ∈ cases, clause.Meets S.check)
    (steady : S.tracked → Steady cases) :
    ∀ before : List String, (S.tracked → ∀ clause ∈ cases,
        ∀ name ∈ functionNames clause.body, name ∉ before) →
      ∃ names, before ⊆ names ∧
        S.InStep (c.knowing before) (c.knowing names) (Evaluation.clauses inner cases)
          (Evaluation.clauses other cases) (Completion.Meets S.check) := by
  induction cases with
  | nil => exact fun before _ => ⟨before, List.Subset.refl _, .pure trivial⟩
  | cons clause rest ih =>
    intro before free
    obtain ⟨first, others⟩ := List.forall_mem_cons.mp known
    have body := InStep.items (c := c.knowing before) agree (Case.meets_iff.mp first).2
      (List.subset_append_left _ (constantsOf clause.body)) (List.subset_append_right _ _)
      fun tracked => free tracked clause List.mem_cons_self
    have later : S.tracked → ∀ other ∈ rest, ∀ name ∈ functionNames other.body,
        name ∉ before ++ constantsOf clause.body := by
      intro tracked other mem name declared
      rw [List.mem_append, not_or]
      refine ⟨free tracked other (List.mem_cons_of_mem _ mem) name declared, fun constant => ?_⟩
      exact (List.pairwise_cons.mp (steady tracked)).1 other mem name constant declared
    obtain ⟨names, sub, further⟩ := ih others
      (fun tracked => (List.pairwise_cons.mp (steady tracked)).2) _ later
    refine ⟨names, List.Subset.trans (List.subset_append_left _ _) sub, ?_⟩
    have more : (c.knowing (before ++ constantsOf clause.body)).Within (c.knowing names) :=
      ⟨rfl, rfl, sub, id⟩
    apply body.bindGrowing more
    intro flow meets
    split
    · exact further
    · exact (InStep.pure trivial).mono more fun _ h => h
    · exact (InStep.pure meets).mono more fun _ h => h

/-- The rule of statements. -/
theorem InStep.statement (rounds : Nat) {stmt : Stmt} (known : stmt.Meets S.check)
    (named : stmt.constants ⊆ c.constants) :
    S.InStep c c (Evaluation.statement inner rounds stmt) (Evaluation.statement other rounds stmt)
      (Completion.Meets S.check) := by
  let L := S.stepLogic c
  have evaluates : ∀ {expr : Expr}, expr.Meets S.check → L.Evaluates inner other expr :=
    agree.expression
  have parts := Stmt.meets_iff.mp known
  match stmt, parts with
  | .declare kind name value, parts =>
    refine L.declaration (fun expr mem => evaluates (parts.2 expr mem)) fun value meets => ?_
    refine InStep.declared (fun constant => ?_) meets
    subst constant
    exact named List.mem_cons_self
  | .defineFunction f, _ => exact .pure trivial
  | .block body, parts => exact .block agree parts
  | .conditional test consequent none, ⟨tested, yes, _⟩ =>
    refine L.conditional (evaluates tested) (agree.statement yes named) ?_
    rintro _ ⟨⟩
  | .conditional test consequent (some alternate), ⟨tested, yes, no⟩ =>
    obtain ⟨ofYes, ofNo⟩ := List.append_subset.mp named
    refine L.conditional (evaluates tested) (agree.statement yes ofYes) ?_
    rintro _ ⟨⟩
    exact agree.statement (no alternate rfl) ofNo
  | .whileLoop test body, ⟨tested, inside⟩ =>
    exact L.repeatUntil (L.whileRound (agree.statement inside named) (evaluates tested)) rounds
  | .doWhileLoop body test, ⟨inside, tested⟩ =>
    exact L.repeatUntil (L.doWhileRound (agree.statement inside named) (evaluates tested)) rounds
  | .forLoop start test update body, ⟨begins, tested, updated, inside⟩ =>
    exact .forLoop agree rounds begins tested updated inside
  | .attempt body handler finalizer, ⟨inside, handles, closes⟩ =>
    exact L.attempt (InStep.block agree inside).outcome (fun _ => .handle agree handles)
      (fun final mem => .block agree (closes final mem)) fun _ => .ofOutcome
  | .choice subject cases, ⟨checked, chosen, inside⟩ =>
    refine L.choice (evaluates chosen)
      (fun clause mem test eq => evaluates ((Case.meets_iff.mp (inside clause mem)).1 test eq)) ?_
    intro executed tail
    obtain ⟨names, -, row⟩ := InStep.clauses (c := c) agree
      (fun clause mem => inside clause (tail.subset mem))
      (fun tracked => (S.steady tracked cases checked).sublist tail.sublist) []
      fun _ _ _ _ _ => List.not_mem_nil
    exact .inOpened .newScope row rfl rfl
  | .giveBack value, parts => exact L.giveBack fun expr mem => evaluates (parts expr mem)
  | .leave, _ | .next, _ | .empty, _ => exact .pure trivial
  | .evaluate expr, parts => exact L.evaluate (evaluates parts)

end Setting

end DarijaScript
