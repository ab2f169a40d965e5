import DarijaScript.Proofs.Evaluation.Frame

/-!
# Calls are lexically scoped

A call does not look at the scope from which it is made. A function of the program is executed inside
the scope in which it was made, and no built-in function or method asks for a name: the functions that
they call back are called as all others.
-/

namespace DarijaScript

/-- The steps do not look at the active scope, and what they give is known. -/
structure Run.Lexical {α : Type} (steps : Run α) (known : α → Prop) : Prop where
  unscoped : steps.Unscoped
  known : ∀ machine value after, steps machine = .ok value after → known value

namespace Run.Lexical

variable {α β : Type} {steps : Run α} {known : α → Prop}

theorem bind {next : α → Run β} {known' : β → Prop} (h : steps.Lexical known)
    (h' : ∀ value, known value → (next value).Lexical known') :
    (steps >>= next).Lexical known' where
  unscoped := by
    intro machine id
    change EStateM.bind steps next _ = Ending.within id (EStateM.bind steps next machine)
    unfold EStateM.bind
    rw [h.unscoped machine id]
    cases ended : steps machine with
    | ok value after => exact (h' value (h.known machine value after ended)).unscoped after id
    | error interruption after => rfl
  known := by
    intro machine
    change ∀ value after, EStateM.bind steps next machine = .ok value after → _
    unfold EStateM.bind
    cases ended : steps machine with
    | ok value after => exact (h' value (h.known machine value after ended)).known after
    | error interruption after => exact nofun

theorem located (h : steps.Lexical known) (position : Position) :
    (Run.located position steps).Lexical known where
  unscoped := h.unscoped.located position
  known := by
    intro machine
    unfold Run.located
    match ended : steps machine with
    | .ok value after =>
      rintro _ _ ⟨⟩
      exact h.known machine value after ended
    | .error (.exception _) _ | .error .outOfFuel _ => exact nofun

theorem outcome {raises : Exception → Prop} (h : steps.Lexical known)
    (raised : ∀ e, raises e) :
    (Run.outcome steps).Lexical (Judgement.IsOutcome raises known) where
  unscoped := h.unscoped.outcome
  known := by
    intro machine
    unfold Run.outcome
    match ended : steps machine with
    | .ok value after =>
      rintro _ _ ⟨⟩
      exact h.known machine value after ended
    | .error (.exception e) _ =>
      rintro _ _ ⟨⟩
      exact raised e
    | .error .outOfFuel _ => exact nofun

theorem asCall (h : steps.Lexical known) : (Run.asCall steps).Lexical known where
  unscoped := h.unscoped.asCall
  known := by
    intro machine
    unfold Run.asCall
    dsimp only
    cases ended : steps { machine with depth := machine.depth + 1 } with
    | ok value after =>
      rintro _ _ ⟨⟩
      exact h.known _ value after ended
    | error _ _ => exact nofun

end Run.Lexical

/-- Runs that do not look at the active scope. Nothing is asked of trees. -/
def Judgement.lexical : Judgement where
  Context := Unit
  relates := fun _ steps _ known => steps.Lexical known
  good := fun _ => True
  owns := fun _ => True
  inside := id
  loose := id
  raises := fun _ e => e.value.Meets (Node.Marked fun _ => True)
  owns_inside := fun _ => trivial
  raises_inside := id
  raises_fault := fun _ => trivial
  raises_raised := id
  known := id
  pure := fun known => ⟨.pure _, by rintro _ _ _ ⟨⟩; exact known⟩
  bind := .bind
  raise := fun _ => ⟨.throw _, nofun⟩
  outOfFuel := ⟨.throw _, nofun⟩
  located := fun _ h => h.located _
  outcome := fun h => h.outcome fun _ => Value.meets_of_forall Node.marked_true _
  readStore := fun known => ⟨.readStore _, by
    rintro _ _ _ ⟨⟩
    exact known _ (Store.meets_of_forall Node.marked_true _)⟩
  changeStore := fun _ _ _ => ⟨.changeStore _, fun _ _ _ _ => trivial⟩
  surrounding := fun h => ⟨h.unscoped, fun _ _ _ _ => trivial⟩
  asCall := .asCall

/-- The call of a function of the program, whatever its body does. -/
theorem callFunction_unscoped (inner : Interpreter) (f : Function) (closure : ScopeId)
    (receiver : Value) (args : List Value) :
    (Evaluation.callFunction inner f closure receiver args).Unscoped := by
  apply Run.Unscoped.mayCall.bind
  intro more
  cases more
  · exact .fault _
  · apply (Run.OnStore.callScope f closure receiver args).unscoped.bind
    intro id
    have executed : (Run.asCall (Run.inScope id (Evaluation.items inner f.body))).Unscoped :=
      (Run.Unscoped.inScope id _).asCall
    exact executed.bind fun flow => .pure _

theorem call_unscoped (fuel : Nat) :
    ∀ callee receiver args, (Machine.call fuel callee receiver args).Unscoped := by
  have knows : ∀ value, Judgement.lexical.Knows value := Value.meets_of_forall Node.marked_true
  induction fuel with
  | zero => exact fun _ _ _ => .throw _
  | succ fuel ih =>
    intro callee receiver args
    have calls : Judgement.lexical.Calls () (Machine.call fuel) (Machine.call fuel) :=
      fun callee receiver args _ _ _ => ⟨ih callee receiver args, fun _ _ _ _ => knows _⟩
    by_cases own : callee.isOwn = true
    · cases callee with
      | function f closure => exact callFunction_unscoped _ f closure receiver args
      | _ => cases own
    · have called : Run.Lexical (Evaluation.invoke (interpreter fuel) callee receiver args) _ :=
        Judgement.invoke_foreign calls (Bool.not_eq_true _ ▸ own) fun arg _ => knows arg
      exact called.unscoped

/-- **Calls are lexically, never dynamically, scoped.** Whatever is called, in machines that differ in
the active scope alone the call comes to the same end: both or neither end within the bound, with the
same value or exception, output, calls of the host and waiting callbacks, and with the same contents of
all scopes, objects and arrays. Either machine has its own active scope again. -/
theorem calls_lexically_scoped (fuel : Nat) (callee receiver : Value) (args : List Value)
    (machine : Machine) (other : ScopeId) :
    Machine.call fuel callee receiver args (machine.within other) =
        Ending.within other (Machine.call fuel callee receiver args machine) ∧
      (Ending.machine (Machine.call fuel callee receiver args machine)).scope = machine.scope := by
  have unscoped := call_unscoped fuel callee receiver args
  refine ⟨unscoped machine other, ?_⟩
  have itself : Machine.call fuel callee receiver args machine =
      Ending.within machine.scope (Machine.call fuel callee receiver args machine) :=
    unscoped machine machine.scope
  rw [itself]
  cases Machine.call fuel callee receiver args machine <;> rfl

end DarijaScript
