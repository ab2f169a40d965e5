import DarijaScript.Proofs.Evaluation.Reaching

/-!
# Balanced execution

However an activity returns, the active scope and the counters of the machine are what they were
before. While a program runs, the counters count the activities that are going on, and never exceed
their limits.
-/

namespace DarijaScript

/-- The run returns in a machine with the same active scope and the same counters. -/
def Balanced {α : Type} (machine : Machine) : Ending α → Prop
  | .error .outOfFuel _ => True
  | .ok _ after | .error (.exception _) after =>
    after.scope = machine.scope ∧ after.depth = machine.depth ∧ after.nesting = machine.nesting

theorem Setting.InStep.balanced {α : Type} {machine : Machine} {names : List String} {x y : Run α}
    {good : α → Prop}
    (h : (plain machine).InStep ⟨machine.depth, machine.nesting, names, true⟩
      ⟨machine.depth, machine.nesting, names, true⟩ x y good) :
    Balanced machine (x machine) := by
  have ends := h.joint machine (fits_plain machine names)
  match ending : x machine with
  | .ok _ _ =>
    rw [ending] at ends
    exact ⟨ends.2.2.settled rfl, ends.2.2.fits.depth, ends.2.2.fits.nesting⟩
  | .error (.exception _) _ =>
    rw [ending] at ends
    exact ⟨ends.2.2.settled rfl, ends.2.2.fits.depth, ends.2.2.fits.nesting⟩
  | .error .outOfFuel _ => trivial

section

variable (fuel : Nat) (machine : Machine)

theorem statement_balanced (stmt : Stmt) :
    Balanced machine ((interpreter fuel).statement stmt machine) := by
  have agree := (Setting.plain machine).agree_interpreter fuel machine.depth machine.nesting
  exact (agree.statements stmt.constants true stmt (fun _ _ => trivial)
    (List.Subset.refl _)).balanced

theorem evaluate_balanced (expr : Expr) :
    Balanced machine (Machine.evaluate fuel expr machine) := by
  have agree := (Setting.plain machine).agree_interpreter fuel machine.depth machine.nesting
  exact (agree.expressions [] true expr fun _ _ => trivial).balanced

end

/-- At every moment of a run the counters count the activities that are going on. -/
theorem counters_of_reaches {program : List Stmt} {start : Machine} {moment : Moment}
    (reached : Reaches program start moment) :
    moment.machine.depth = start.depth + ownCalls moment.around ∧
      moment.machine.nesting = start.nesting + trees (moment.activity :: moment.around) ∧
      ownCalls moment.around ≤ start.limits.calls - start.depth ∧
      trees (moment.activity :: moment.around) ≤ start.limits.nesting - start.nesting := by
  have sound := Setting.sound_of_reaches (Setting.fits_plain start []) False.elim rfl
    (fun _ _ _ _ => trivial) False.elim reached
  exact ⟨sound.calls, sound.nested, sound.fewCalls, sound.fewTrees⟩

end DarijaScript
