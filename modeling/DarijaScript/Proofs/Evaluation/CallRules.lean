import DarijaScript.Evaluation.Interpreter
import DarijaScript.Proofs.Evaluation.StatementRules

/-!
# The rules of calls and programs in step

A function of the program is executed one call deeper, in a scope of its own that holds one constant:
the receiver. All other values are called at the same counters.
-/

namespace DarijaScript

/-- The value is a function of the program. -/
def Value.isOwn : Value → Bool
  | .function _ _ => true
  | _ => false

theorem Run.asCall_inScope {α : Type} (id : ScopeId) (steps : Run α) :
    asCall (inScope id steps) = inScope id (asCall steps) := by
  funext machine
  simp only [asCall, inScope]
  rcases steps { machine with depth := machine.depth + 1, scope := id } with _ | _ <;> rfl

namespace Setting

open Evaluation

variable {S : Setting} {c c' : Context} {inner other : Interpreter}

theorem Fills.pure {names : List String} {id : ScopeId} :
    S.Fills c names names id (Pure.pure ()) :=
  fun _ opened known => ⟨opened, rfl, rfl, known⟩

theorem Fills.bindParameters {names : List String} {id : ScopeId} {params : List Identifier}
    (known : ∀ param ∈ params, S.check (.name param.name))
    (free : S.tracked → ∀ param ∈ params, param.name ∉ names) :
    ∀ {args : List Value}, (∀ arg ∈ args, arg.Meets S.check) →
      S.Fills c names names id (Evaluation.bindParameters id params args) := by
  induction params with
  | nil => exact fun _ => .pure
  | cons param rest ih =>
    intro args passed
    obtain ⟨-, others⟩ := List.forall_mem_cons.mp known
    have further := @ih others fun tracked param mem => free tracked param (List.mem_cons_of_mem _ mem)
    have unbound : S.tracked → param.name ∉ names := fun tracked => free tracked param List.mem_cons_self
    cases args with
    | nil =>
      have first : S.Fills c names names id (Run.define id param.name .undefined true) :=
        .define (fun _ => trivial) unbound (List.Subset.refl _) nofun
      exact first.bind (further passed)
    | cons arg args =>
      obtain ⟨meets, all⟩ := List.forall_mem_cons.mp passed
      have first : S.Fills c names names id (Run.define id param.name arg true) :=
        .define (fun _ => meets) unbound (List.Subset.refl _) nofun
      exact first.bind (further all)

theorem Fills.bindCall {f : Function} {closure id : ScopeId} {receiver : Value}
    {args : List Value} (known : f.Meets S.check) (owner : receiver.Meets S.check)
    (passed : ∀ arg ∈ args, arg.Meets S.check) :
    S.Fills c [] [Keyword.hadi.text] id (Evaluation.bindCall f closure receiver args id) := by
  obtain ⟨-, -, params, -⟩ := Function.meets_iff.mp known
  have own : S.Fills c [] [] id (Evaluation.bindOwnName id f closure) := by
    unfold Evaluation.bindOwnName
    split
    · exact .define (fun _ => known) (fun _ => List.not_mem_nil) (List.Subset.refl _) nofun
    · exact .pure
  have receives : S.Fills c [] [Keyword.hadi.text] id
      (Run.define id Keyword.hadi.text receiver false) :=
    .define (fun _ => owner) (fun _ => List.not_mem_nil) (List.nil_subset _) fun _ =>
      List.mem_cons_self
  have free : S.tracked → ∀ param ∈ f.params, param.name ∉ [Keyword.hadi.text] := by
    intro tracked param mem same
    exact S.named tracked _ (params param mem) (List.mem_singleton.mp same)
  exact own.bind (receives.bind (.bindParameters params free passed))

theorem meets_result {check : Node → Prop} {flow : Completion} (known : flow.Meets check) :
    flow.result.Meets check := by
  cases flow with
  | giveBack value => exact known
  | normal | leave | next => trivial

theorem mem_functionNames {check : Node → Prop} {stmts : List Stmt}
    (known : ∀ stmt ∈ stmts, stmt.Meets check) :
    ∀ name ∈ functionNames stmts, check (.name name) := by
  induction stmts with
  | nil => exact nofun
  | cons stmt rest ih =>
    obtain ⟨first, others⟩ := List.forall_mem_cons.mp known
    intro name mem
    match stmt with
    | .defineFunction f =>
      rcases List.mem_append.mp mem with own | later
      · obtain ⟨ident, bound, rfl⟩ := Option.map_eq_some_iff.mp (Option.mem_toList.mp own)
        have meets : f.Meets check := Stmt.meets_iff.mp first
        exact (Function.meets_iff.mp meets).2.1 ident bound
      · exact ih others name later
    | .declare _ _ _ | .block _ | .conditional _ _ _ | .whileLoop _ _ | .doWhileLoop _ _
    | .forLoop _ _ _ _ | .attempt _ _ _ | .choice _ _ | .giveBack _ | .leave | .next
    | .evaluate _ | .empty => exact ih others name mem

theorem InStep.callFunction
    (agree : c.depth < S.limits.calls → S.Agree (c.depth + 1) c.nesting inner other)
    {f : Function} {closure : ScopeId} {receiver : Value} {args : List Value}
    (known : f.Meets S.check) (owner : receiver.Meets S.check)
    (passed : ∀ arg ∈ args, arg.Meets S.check) :
    S.InStep c c (Evaluation.callFunction inner f closure receiver args)
      (Evaluation.callFunction other f closure receiver args) (Value.Meets S.check) := by
  obtain ⟨-, -, -, body⟩ := Function.meets_iff.mp known
  have opens : S.Opens c [Keyword.hadi.text] (Evaluation.callScope f closure receiver args) :=
    (Opens.newChild closure).bind fun id => .bindCall known owner passed
  unfold Evaluation.callFunction
  apply InStep.mayCall.bind
  intro more eq
  split
  · next yes =>
    have room : c.depth < S.limits.calls := of_decide_eq_true (eq.symm.trans yes)
    have free : S.tracked → ∀ name ∈ functionNames f.body, name ∉ [Keyword.hadi.text] := by
      intro tracked name mem same
      exact S.named tracked _ (mem_functionNames body name mem) (List.mem_singleton.mp same)
    have executed := InStep.items (c := c.called.knowing [Keyword.hadi.text]) (agree room) body
      (List.subset_append_left _ (constantsOf f.body)) (List.subset_append_right _ _) free
    have called : S.InStep (c.knowing [Keyword.hadi.text])
        (c.knowing ([Keyword.hadi.text] ++ constantsOf f.body)) _ _ _ :=
      .asCall executed rfl
    have inside := InStep.inOpened opens called rfl rfl
    have result := inside.bind fun flow meets => InStep.pure (meets_result meets)
    simpa only [bind_assoc, Run.asCall_inScope] using result
  · exact .fault _

/-- The rule of calls. -/
theorem InStep.invoke {callee receiver : Value} {args : List Value}
    (own : callee.isOwn = true → c.depth < S.limits.calls →
      S.Agree (c.depth + 1) c.nesting inner other)
    (builtin : callee.isOwn = false → S.Agree c.depth c.nesting inner other)
    (known : callee.Meets S.check) (owner : receiver.Meets S.check)
    (passed : ∀ arg ∈ args, arg.Meets S.check) :
    S.InStep c c (Evaluation.invoke inner callee receiver args)
      (Evaluation.invoke other callee receiver args) (Value.Meets S.check) := by
  cases callee with
  | function f closure => exact .callFunction (own rfl) known owner passed
  | builtin b => exact (S.stepLogic c).builtin b (fun asks => S.hosts b asks known) passed
  | arrayMethod method id => exact (S.stepLogic c).arrayMethod (builtin rfl).call method id passed
  | stringMethod method text => exact (S.stepLogic c).stringMethod method text
  | _ => exact (S.stepLogic c).faultAt fun _ => rfl

/-! ### Programs -/

theorem InStep.drain (agree : S.Agree c.depth c.nesting inner other) (firings : Nat) :
    S.InStep c c (Evaluation.drain inner firings) (Evaluation.drain other firings)
      fun _ => True :=
  (S.stepLogic c).drain .nextAppointment (.fault _) agree.call firings

theorem InStep.program {names : List String} {stmts : List Stmt}
    (agree : S.Agree c.depth c.nesting inner other) (known : ∀ stmt ∈ stmts, stmt.Meets S.check)
    (before : c.constants ⊆ names) (named : constantsOf stmts ⊆ names)
    (free : S.tracked → ∀ name ∈ functionNames stmts, name ∉ c.constants) :
    S.InStep c (c.knowing names) (Evaluation.program inner stmts)
      (Evaluation.program other stmts) fun _ => True :=
  (InStep.items agree known before named free).bind fun _ _ =>
    InStep.drain (c := c.knowing names) agree maxFirings

end Setting

end DarijaScript
