import DarijaScript.Proofs.Evaluation.Limits

/-!
# Compound assignments

A compound assignment to a variable is the assignment of the operation written out, in which the right
operand stands one level deeper. So both come to the same end unless the evaluation is nested too deep,
but for the places of exceptions: an operation that is written out has a place for its left operand.
-/

namespace DarijaScript

/-- The nesting is not too deep anywhere in the evaluation: it makes no difference what happens in place
of the fault that says so. -/
def NestsWithin (fuel : Nat) (expr : Expr) (start : Machine) : Prop :=
  ∀ refusal : Refusal, refusal.FaultsCalls →
    (refusing refusal fuel).expression expr start = Machine.evaluate fuel expr start

/-! ### One level deeper -/

section

variable {mark : Host} {fuel : Nat} {expr : Expr} {machine deep : Machine}

theorem tracks_evaluation (mark : Host) {refusal : Refusal} (faults : refusal.FaultsCalls) (fuel : Nat)
    (expr : Expr) :
    Tracks True mark ((refusing (.stopTrees mark) fuel).expression expr)
      ((refusing refusal fuel).expression expr) (Judgement.tracks True mark).Knows :=
  (agree_refusing (.stopTrees mark faults) fuel).expression (c := ()) fun _ _ => trivial

theorem Machine.RoomierBy.refl (even : Prop) (machine : Machine) : machine.RoomierBy even machine :=
  ⟨.refl machine, fun _ => ⟨rfl, rfl⟩⟩

/-- The nesting is nowhere too deep exactly if the run is not stopped where it is. -/
theorem nestsWithin_iff (other : mark ≠ machine.host) :
    NestsWithin fuel expr machine ↔
      ¬ Stops mark ((refusing (.stopTrees mark) fuel).expression expr) machine := by
  constructor
  · intro within
    rw [Stops, within (.stopTrees mark) fun _ _ _ _ => rfl]
    exact not_stops_evaluate other
  · intro calm refusal faults
    have like : ∀ {refusal : Refusal}, refusal.FaultsCalls →
        (refusing refusal fuel).expression expr machine = Ending.counting machine
          ((refusing (.stopTrees mark) fuel).expression expr machine) := fun faults =>
      ((tracks_evaluation mark faults fuel expr machine machine (.refl True machine)).resolve_left
        calm).1
    have plain : (refusing .fault fuel).expression expr machine = _ := like fun _ _ _ _ => rfl
    rw [Machine.evaluate, ← refusing_fault, plain]
    exact like faults

/-- An expression at which the run is not stopped is evaluated one level deeper. -/
theorem room_of_calm
    (calm : ¬ Stops mark ((refusing (.stopTrees mark) (fuel + 1)).expression expr) machine) :
    machine.nesting < machine.limits.nesting ∧
      ¬ Stops mark (Evaluation.expression (refusing (.stopTrees mark) fuel) expr)
        { machine with nesting := machine.nesting + 1 } := by
  have room : machine.nesting < machine.limits.nesting := by
    refine Nat.lt_of_not_le fun full => calm ?_
    exact ⟨_, Run.unlessRefused_of_refuses ((Machine.refuses_tree rfl).mpr full), rfl⟩
  refine ⟨room, fun stops => calm ?_⟩
  have allowed : ¬ machine.refuses (.expression expr) = true :=
    mt (Machine.refuses_tree rfl).mp (Nat.not_le.mpr room)
  obtain ⟨after, eq, left⟩ := stops.deeper room
  exact ⟨after, (Run.unlessRefused_of_allows allowed).trans eq, left⟩

/-- An expression at which the run is not stopped has the same end one level higher, and leaves the
counters as they are. -/
theorem evaluate_shallower
    (calm : ¬ Stops mark ((refusing (.stopTrees mark) fuel).expression expr) deep)
    (roomier : deep.RoomierBy True machine) :
    Machine.evaluate fuel expr machine =
        Ending.counting machine (Machine.evaluate fuel expr deep) ∧
      Ending.counting deep (Machine.evaluate fuel expr deep) = Machine.evaluate fuel expr deep := by
  have tracks : Tracks True mark ((refusing (.stopTrees mark) fuel).expression expr)
      (Machine.evaluate fuel expr) (Judgement.tracks True mark).Knows := by
    rw [Machine.evaluate, ← refusing_fault]
    exact tracks_evaluation mark (fun _ _ _ _ => rfl) fuel expr
  obtain ⟨same, balanced, -⟩ := (tracks deep deep (.refl True deep)).resolve_left calm
  rw [balanced] at same
  rw [same]
  exact ⟨((tracks deep machine roomier).resolve_left calm).1, balanced⟩

end

/-! ### Assignments to variables -/

section

open Run

variable {inner : Interpreter} {target : Identifier} {value : Expr} {position : Position}

end

/-! ### The operation written out -/

section

open Run

variable {fuel : Nat} {op : AssignmentOp} {operation : BinaryOp} {target place source : Identifier}
  {value : Expr} {position other : Position} {machine : Machine} {old : Value}

/-- The machine in which the parts of an expression are evaluated. -/
abbrev Machine.nested (machine : Machine) : Machine := { machine with nesting := machine.nesting + 1 }

end

end DarijaScript
