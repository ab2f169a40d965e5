import DarijaScript.Proofs.Evaluation.Frame
import DarijaScript.Proofs.Evaluation.Judgement.Calls
import DarijaScript.Proofs.Evaluation.Reaching

/-!
# Programs take no time

Nothing that is executed, evaluated or called moves the clock of the agenda, and nothing but the
calls of the waiting callbacks can meet the bound on their number.
-/

namespace DarijaScript

/-- The exception is the fault of the bound on callbacks. -/
def Exception.isFiringLimit : Exception → Bool
  | .fault f _ => f.isFiringLimit
  | .raised _ _ => false

theorem Exception.isFiringLimit_located (e : Exception) (position : Position) :
    (e.located position).isFiringLimit = e.isFiringLimit := by
  cases e <;> rfl

/-- The run ends at the given time, not with the fault of the bound on callbacks, and a value that it
gives is known. -/
def Ending.Timeless {α : Type} (clock : Float) (known : α → Prop) : Ending α → Prop
  | .ok value after => after.agenda.clock = clock ∧ known value
  | .error (.exception e) after => after.agenda.clock = clock ∧ e.isFiringLimit = false
  | .error .outOfFuel after => after.agenda.clock = clock

/-- The steps take no time. -/
def Run.Timeless {α : Type} (steps : Run α) (known : α → Prop) : Prop :=
  ∀ machine, Ending.Timeless machine.agenda.clock known (steps machine)

namespace Run.Timeless

variable {α β : Type} {steps : Run α} {known : α → Prop}

theorem pure {value : α} (fine : known value) : Timeless (Pure.pure value) known :=
  fun _ => ⟨rfl, fine⟩

theorem fault {f : Fault} (ordinary : f.isFiringLimit = false) :
    (Run.fault f : Run α).Timeless known := fun _ => ⟨rfl, ordinary⟩

theorem readStore {read : Store → α} (fine : ∀ store, known (read store)) :
    (Run.readStore read).Timeless known := fun _ => ⟨rfl, fine _⟩

theorem changeStore (change : Store → Store) :
    (Run.changeStore change).Timeless fun _ => True := fun _ => ⟨rfl, trivial⟩

theorem scope : Run.scope.Timeless fun _ => True := fun _ => ⟨rfl, trivial⟩

theorem bind {next : α → Run β} {known' : β → Prop} (h : steps.Timeless known)
    (h' : ∀ value, known value → (next value).Timeless known') :
    (steps >>= next).Timeless known' := by
  intro machine
  have first := h machine
  match ended : steps machine with
  | .ok value after =>
    rw [ended] at first
    obtain ⟨same, fine⟩ := first
    rw [Run.bind_ok ended, ← same]
    exact h' value fine after
  | .error (.exception e) after | .error .outOfFuel after =>
    rw [ended] at first
    rw [Run.bind_error ended]
    exact first

theorem mono {known' : α → Prop} (h : steps.Timeless known)
    (better : ∀ value, known value → known' value) : steps.Timeless known' := by
  have ended := h.bind fun value fine => pure (better value fine)
  rwa [bind_pure] at ended

theorem onStore (h : steps.OnStore) (fine : ∀ value, known value) : steps.Timeless known := by
  obtain ⟨value, change, eq⟩ := h
  intro machine
  rw [eq]
  exact ⟨rfl, fine _⟩

theorem located (h : steps.Timeless known) (position : Position) :
    (Run.located position steps).Timeless known := by
  intro machine
  have ends := h machine
  unfold Run.located
  match ended : steps machine with
  | .ok _ _ | .error .outOfFuel _ =>
    rw [ended] at ends
    exact ends
  | .error (.exception e) _ =>
    rw [ended] at ends
    exact ⟨ends.1, (e.isFiringLimit_located position).trans ends.2⟩

theorem outcome (h : steps.Timeless known) :
    (Run.outcome steps).Timeless (Judgement.IsOutcome (·.isFiringLimit = false) known) := by
  intro machine
  have ends := h machine
  unfold Run.outcome
  match ended : steps machine with
  | .ok _ _ | .error .outOfFuel _ | .error (.exception _) _ =>
    rw [ended] at ends
    exact ends

/-- Steps in a machine that is entered for them and left when they have ended. -/
theorem restored {machine : Machine} {ending : Ending α} {back : Machine → Machine}
    (h : Ending.Timeless machine.agenda.clock known ending)
    (same : ∀ after, (back after).agenda = after.agenda) :
    Ending.Timeless machine.agenda.clock known (Setting.restored back ending) := by
  have clock (after : Machine) : (back after).agenda.clock = after.agenda.clock :=
    congrArg Agenda.clock (same after)
  match ending with
  | .ok _ _ | .error (.exception _) _ => exact ⟨(clock _).trans h.1, h.2⟩
  | .error .outOfFuel _ => exact (clock _).trans h

theorem inScope (h : steps.Timeless known) (id : ScopeId) :
    (Run.inScope id steps).Timeless known := fun machine =>
  restored (h { machine with scope := id }) fun _ => rfl

theorem asCall (h : steps.Timeless known) : (Run.asCall steps).Timeless known := fun machine =>
  restored (h { machine with depth := machine.depth + 1 }) fun _ => rfl

theorem deeper (h : steps.Timeless known) : (Run.deeper steps).Timeless known := by
  intro machine
  by_cases room : machine.nesting < machine.limits.nesting
  · rw [Run.deeper_of_lt steps room]
    exact restored (h { machine with nesting := machine.nesting + 1 }) fun _ => rfl
  · have refused : Run.deeper steps machine =
        Run.fault (.nestingLimit machine.limits.nesting) machine := if_pos (Nat.le_of_not_lt room)
    rw [refused]
    exact ⟨rfl, rfl⟩

/-- Steps in a scope that is opened for them. -/
theorem inOpened {opening : Run ScopeId} (opens : opening.Timeless fun _ => True)
    (h : steps.Timeless known) : (opening >>= fun id => Run.inScope id steps).Timeless known :=
  opens.bind fun id _ => h.inScope id

theorem newScope : Run.newScope.Timeless fun _ => True :=
  scope.bind fun parent _ => onStore (.newChild parent) fun _ => trivial

theorem newScopeWith (name : String) (value : Value) :
    (Run.newScopeWith name value).Timeless fun _ => True :=
  newScope.bind fun _ _ => (changeStore _).bind fun _ _ => pure trivial

theorem lookup {name : String} {known : Value → Prop} (fine : ∀ value, known value) :
    (Run.lookup name).Timeless known := by
  intro machine
  rw [Run.lookup_apply]
  cases machine.store.lookup? machine.scope name with
  | none => exact ⟨rfl, rfl⟩
  | some value => exact ⟨rfl, fine value⟩

theorem assign (name : String) (value : Value) :
    (Run.assign name value).Timeless fun _ => True := by
  intro machine
  rw [Run.assign_apply]
  cases machine.store.resolve? machine.scope name with
  | none => exact ⟨rfl, rfl⟩
  | some found =>
    dsimp only
    split
    · exact ⟨rfl, trivial⟩
    · exact ⟨rfl, rfl⟩

theorem declare (name : String) (value : Value) (assignable : Bool) :
    (Run.declare name value assignable).Timeless fun _ => True := by
  apply scope.bind
  intro id _
  have asked : (Run.readStore (·.declares id name)).Timeless fun _ => True :=
    readStore fun _ => trivial
  apply asked.bind
  intro bound _
  cases bound
  · exact changeStore fun store => store.define id name ⟨value, assignable⟩
  · exact fault rfl

end Run.Timeless

/-- Runs that take no time. Nothing is asked of trees. -/
def Judgement.timeless : Judgement where
  Context := Unit
  relates := fun _ steps _ known => steps.Timeless known
  good := fun _ => True
  owns := fun _ => True
  inside := id
  loose := id
  raises := fun _ e => e.isFiringLimit = false
  owns_inside := fun _ => trivial
  raises_inside := id
  raises_fault := id
  raises_raised := fun _ => rfl
  known := fun {_ e} _ => e.value_meets
  pure := .pure
  bind := .bind
  raise := fun ordinary _ => ⟨rfl, ordinary⟩
  outOfFuel := fun _ => rfl
  located := fun _ h => h.located _
  outcome := .outcome
  readStore := fun fine => .readStore fun _ => fine _ (Store.meets_of_forall Node.marked_true _)
  changeStore := fun _ _ _ => .changeStore _
  surrounding := by
    intro α _ steps surrounding machine
    obtain ⟨value, after, eq, -, -⟩ := surrounding.gives machine
    have still := surrounding.clock machine
    rw [eq] at still ⊢
    exact ⟨still, trivial⟩
  asCall := .asCall

instance : Judgement.timeless.Scoped where
  scope := Run.Timeless.scope
  assign := fun _ => .assign _ _
  receiver := Run.Timeless.lookup (Value.meets_of_forall Node.marked_true)
  define := fun _ _ _ => Run.Timeless.scope.bind fun _ _ => .changeStore _
  declare := fun _ _ => .declare _ _ _
  renewScope := fun _ _ => ⟨rfl, trivial⟩
  inNew := .inOpened .newScope
  inHandler := fun _ => .inOpened (.newScopeWith _ _)

instance : Judgement.timeless.Entering where
  inCall := fun _ _ _ _ => .inOpened (.onStore (.callScope _ _ _ _) fun _ => trivial)

instance : Judgement.timeless.Limited where
  mayCall := fun _ => ⟨rfl, trivial⟩
  deeper := .deeper

/-- A call takes no time, and what it raises is not the fault of the bound on callbacks. -/
theorem Machine.call_timeless (fuel : Nat) (callee receiver : Value) (args : List Value) :
    (Machine.call fuel callee receiver args).Timeless fun _ => True := by
  have knows : ∀ value, Judgement.timeless.Knows value := Value.meets_of_forall Node.marked_true
  have called : Run.Timeless (Machine.call fuel callee receiver args) Judgement.timeless.Knows :=
    (Judgement.respects_interpreter fuel).call (c := ()) callee receiver args (knows _) (knows _)
      fun _ _ => knows _
  exact called.mono fun _ _ => trivial

end DarijaScript
