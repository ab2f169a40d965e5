import DarijaScript.Proofs.Evaluation.Counting

/-!
# Steps that do not look at the active scope

Most steps of the machine neither look at the active scope nor change it: they do the same whatever
scope is active. Steps in a scope of their own are of this kind, whatever they do there.
-/

namespace DarijaScript

/-- The machine with another active scope. -/
def Machine.within (machine : Machine) (id : ScopeId) : Machine := { machine with scope := id }

/-- The same end with another active scope. -/
abbrev Ending.within {α : Type} (id : ScopeId) (ending : Ending α) : Ending α :=
  Setting.restored (·.within id) ending

/-- The steps do the same whatever scope is active, and leave it active. -/
def Run.Unscoped {α : Type} (steps : Run α) : Prop :=
  ∀ machine id, steps (machine.within id) = Ending.within id (steps machine)

/-- Steps that give a value whatever the machine is like, and leave to it what is counted, the active
scope, the store and the clock. -/
structure Run.Surrounding {α : Type} (steps : Run α) : Prop where
  uncounted : steps.Uncounted
  unscoped : steps.Unscoped
  gives : ∀ machine, ∃ value after, steps machine = .ok value after ∧
    after.store = machine.store ∧ after.scope = machine.scope
  clock : ∀ machine, (Ending.machine (steps machine)).agenda.clock = machine.agenda.clock

namespace Run.Unscoped

variable {α β : Type} {steps : Run α}

theorem pure (value : α) : (Pure.pure value : Run α).Unscoped := fun _ _ => rfl

theorem throw (interruption : Interruption) :
    (MonadExcept.throw interruption : Run α).Unscoped := fun _ _ => rfl

theorem fault (f : Fault) : (Run.fault f : Run α).Unscoped := throw _

theorem readStore (read : Store → α) : (Run.readStore read).Unscoped := fun _ _ => rfl

theorem changeStore (change : Store → Store) : (Run.changeStore change).Unscoped :=
  fun _ _ => rfl

theorem mayCall : Run.mayCall.Unscoped := fun _ _ => rfl

theorem bind {next : α → Run β} (h : steps.Unscoped) (h' : ∀ value, (next value).Unscoped) :
    (steps >>= next).Unscoped := by
  intro machine id
  change EStateM.bind steps next _ = Ending.within id (EStateM.bind steps next machine)
  unfold EStateM.bind
  rw [h machine id]
  cases steps machine with
  | ok value after => exact h' value after id
  | error interruption after => rfl

theorem located (h : steps.Unscoped) (position : Position) :
    (Run.located position steps).Unscoped := by
  intro machine id
  unfold Run.located
  rw [h machine id]
  rcases steps machine with _ | ⟨_ | _, _⟩ <;> rfl

theorem outcome (h : steps.Unscoped) : (Run.outcome steps).Unscoped := by
  intro machine id
  unfold Run.outcome
  rw [h machine id]
  rcases steps machine with _ | ⟨_ | _, _⟩ <;> rfl

theorem asCall (h : steps.Unscoped) : (Run.asCall steps).Unscoped := by
  intro machine id
  have entered : ({ machine.within id with depth := (machine.within id).depth + 1 } : Machine) =
      ({ machine with depth := machine.depth + 1 } : Machine).within id := rfl
  unfold Run.asCall
  dsimp only
  rw [entered, h]
  rcases steps { machine with depth := machine.depth + 1 } with _ | _ <;> rfl

/-- In a scope of their own, steps of every kind do not look at the one that was active before. -/
theorem inScope (own : ScopeId) (steps : Run α) : (Run.inScope own steps).Unscoped := by
  intro machine id
  have entered : ({ machine.within id with scope := own } : Machine) = { machine with scope := own } :=
    rfl
  unfold Run.inScope
  dsimp only
  rw [entered]
  rcases steps { machine with scope := own } with _ | _ <;> rfl

end Run.Unscoped

/-- Steps that work on the store alone do not look at the active scope. -/
theorem Run.OnStore.unscoped {α : Type} {steps : Run α} (h : steps.OnStore) : steps.Unscoped := by
  obtain ⟨value, change, eq⟩ := h
  intro machine id
  rw [eq, eq]
  rfl

end DarijaScript
