import DarijaScript.Evaluation.Call
import DarijaScript.Proofs.Evaluation.Steps

/-!
# Steps that do not count

A machine counts the calls, statements and expressions that are going on, and refuses more of them
than its limits allow. All other steps neither read the counters and the limits nor change them: they
do the same under others.
-/

namespace DarijaScript

/-- The machine with the counters and the limits of another one. -/
def Machine.counting (machine like : Machine) : Machine :=
  { machine with depth := like.depth, nesting := like.nesting, limits := like.limits }

/-- The same end with the counters and the limits of another machine. -/
abbrev Ending.counting {α : Type} (like : Machine) (ending : Ending α) : Ending α :=
  Setting.restored (·.counting like) ending

/-- The steps do the same whatever is counted and allowed. -/
def Run.Uncounted {α : Type} (steps : Run α) : Prop :=
  ∀ machine like, steps (machine.counting like) = Ending.counting like (steps machine)

/-- The steps give a value and change the machine in nothing but its store, of which alone both
depend. -/
def Run.OnStore {α : Type} (steps : Run α) : Prop :=
  ∃ (value : Store → α) (change : Store → Store), ∀ machine,
    steps machine = .ok (value machine.store) { machine with store := change machine.store }

/-- A new scope inside the active one in which a name is bound. -/
def Run.newScopeWith (name : String) (value : Value) : Run ScopeId := do
  let id ← newScope
  define id name value true
  pure id

namespace Run.OnStore

variable {α β : Type} {steps : Run α} {id : ScopeId}

theorem pure (value : α) : (Pure.pure value : Run α).OnStore :=
  ⟨fun _ => value, fun store => store, fun _ => rfl⟩

theorem readStore (read : Store → α) : (Run.readStore read).OnStore :=
  ⟨read, fun store => store, fun _ => rfl⟩

theorem changeStore (change : Store → Store) : (Run.changeStore change).OnStore :=
  ⟨fun _ => (), change, fun _ => rfl⟩

theorem bind {next : α → Run β} (h : steps.OnStore) (h' : ∀ value, (next value).OnStore) :
    (steps >>= next).OnStore := by
  obtain ⟨value, change, first⟩ := h
  choose value' change' second using h'
  refine ⟨fun store => value' (value store) (change store),
    fun store => change' (value store) (change store), fun machine => ?_⟩
  change EStateM.bind steps next machine = _
  rw [EStateM.bind, first machine]
  exact second (value machine.store) _

theorem define (name : String) (value : Value) (assignable : Bool) :
    (Run.define id name value assignable).OnStore := changeStore _

theorem newChild (parent : ScopeId) : (Run.newChild parent).OnStore :=
  (readStore _).bind fun id => (changeStore _).bind fun _ => pure id

theorem bindParameters (params : List Identifier) :
    ∀ args, (Evaluation.bindParameters id params args).OnStore := by
  induction params with
  | nil => exact fun _ => pure ()
  | cons param rest ih =>
    intro args
    cases args with
    | nil => exact (define _ _ _).bind fun _ => ih []
    | cons arg args => exact (define _ _ _).bind fun _ => ih args

theorem callScope (f : Function) (closure : ScopeId) (receiver : Value) (args : List Value) :
    (Evaluation.callScope f closure receiver args).OnStore := by
  have ownName : ∀ id, (Evaluation.bindOwnName id f closure).OnStore := by
    intro id
    unfold Evaluation.bindOwnName
    split
    · exact define _ _ _
    · exact pure ()
  apply (newChild closure).bind
  intro id
  have bound : (Evaluation.bindCall f closure receiver args id).OnStore :=
    (ownName id).bind fun _ => (define _ _ _).bind fun _ => bindParameters f.params args
  exact bound.bind fun _ => pure id

/-- Such steps do not count. -/
theorem uncounted (h : steps.OnStore) : steps.Uncounted := by
  obtain ⟨value, change, eq⟩ := h
  intro machine like
  rw [eq, eq]
  rfl

end Run.OnStore

namespace Run.Uncounted

variable {α β : Type} {steps : Run α} {id : ScopeId}

/-- Such steps leave the counters and the limits as they are. -/
theorem balanced (h : steps.Uncounted) (machine : Machine) :
    steps machine = Ending.counting machine (steps machine) := h machine machine

theorem pure (value : α) : (Pure.pure value : Run α).Uncounted := fun _ _ => rfl

theorem throw (interruption : Interruption) :
    (MonadExcept.throw interruption : Run α).Uncounted := fun _ _ => rfl

theorem fault (f : Fault) : (Run.fault f : Run α).Uncounted := throw _

theorem readStore (read : Store → α) : (Run.readStore read).Uncounted := fun _ _ => rfl

theorem changeStore (change : Store → Store) : (Run.changeStore change).Uncounted :=
  fun _ _ => rfl

theorem scope : Run.scope.Uncounted := fun _ _ => rfl

theorem bind {next : α → Run β} (h : steps.Uncounted) (h' : ∀ value, (next value).Uncounted) :
    (steps >>= next).Uncounted := by
  intro machine like
  change EStateM.bind steps next _ = Ending.counting like (EStateM.bind steps next machine)
  unfold EStateM.bind
  rw [h machine like]
  cases steps machine with
  | ok value after => exact h' value after like
  | error interruption after => rfl

/-! ### Names and scopes -/

theorem lookup (name : String) : (Run.lookup name).Uncounted := by
  apply scope.bind
  intro id
  apply (readStore _).bind
  intro found
  cases found with
  | none => exact fault _
  | some value => exact pure value

theorem assign (name : String) (value : Value) : (Run.assign name value).Uncounted := by
  apply scope.bind
  intro id
  apply (readStore _).bind
  intro found
  cases found with
  | none => exact fault _
  | some place =>
    dsimp only
    split
    · exact changeStore _
    · exact fault _

theorem define (name : String) (value : Value) (assignable : Bool) :
    (Run.define id name value assignable).Uncounted := changeStore _

theorem declare (name : String) (value : Value) (assignable : Bool) :
    (Run.declare name value assignable).Uncounted := by
  apply scope.bind
  intro id
  apply (readStore _).bind
  intro bound
  cases bound
  · exact define _ _ _
  · exact fault _

theorem renewScope : Run.renewScope.Uncounted := fun _ _ => rfl

theorem newScope : Run.newScope.Uncounted :=
  scope.bind fun parent => (OnStore.newChild parent).uncounted

theorem newScopeWith (name : String) (value : Value) : (Run.newScopeWith name value).Uncounted :=
  newScope.bind fun id => (define _ _ _).bind fun _ => pure id

theorem nextAppointment : Run.nextAppointment.Uncounted := by
  intro machine like
  have same : (machine.counting like).agenda.pop = machine.agenda.pop := rfl
  unfold Run.nextAppointment
  rw [same]
  cases machine.agenda.pop <;> rfl

end Run.Uncounted

end DarijaScript
