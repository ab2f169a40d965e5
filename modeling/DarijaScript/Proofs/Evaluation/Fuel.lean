import DarijaScript.Proofs.Evaluation.Frame
import DarijaScript.Proofs.Evaluation.Judgement.Calls
import DarijaScript.Proofs.Evaluation.Reaching

/-!
# More fuel

The bound on a run matters only to a run that reaches it. Every other run comes to the same end under
every greater bound, so what it does may be told without a bound.
-/

namespace DarijaScript

/-- The run has come to an end of its own, and not to its bound. -/
def Ending.isOver {α : Type} : Ending α → Bool
  | .error .outOfFuel _ => false
  | _ => true

/-- The second run comes to the same end as the first one, unless that one comes to its bound. -/
def Run.Prolonged {α : Type} (x y : Run α) (known : α → Prop) : Prop :=
  ∀ machine, Ending.isOver (x machine) = true →
    y machine = x machine ∧ ∀ value after, x machine = .ok value after → known value

namespace Run.Prolonged

variable {α β : Type} {x y : Run α} {known : α → Prop} {known' : β → Prop}

theorem self (fine : ∀ machine value after, x machine = .ok value after → known value) :
    x.Prolonged x known := fun machine _ => ⟨rfl, fine machine⟩

theorem outOfFuel (y : Run α) : Prolonged (throw .outOfFuel) y known := fun _ ends => nomatch ends

theorem bind {f g : α → Run β} (h : x.Prolonged y known)
    (h' : ∀ value, known value → (f value).Prolonged (g value) known') :
    (x >>= f).Prolonged (y >>= g) known' := by
  intro machine ends
  have first := h machine
  cases ended : x machine with
  | ok value after =>
    rw [ended] at first
    obtain ⟨same, fine⟩ := first rfl
    rw [Run.bind_ok ended] at ends ⊢
    rw [Run.bind_ok same]
    exact h' value (fine value after rfl) after ends
  | error interruption after =>
    rw [ended] at first
    rw [Run.bind_error ended] at ends ⊢
    cases interruption with
    | outOfFuel => cases ends
    | exception e =>
      rw [Run.bind_error (first rfl).1]
      exact ⟨rfl, nofun⟩

/-- Steps in a machine that is entered for them, and something made of their ends. -/
theorem around {f : Machine → Ending α → Ending β} (enter : Machine → Machine)
    (h : x.Prolonged y known)
    (ends : ∀ machine after, (f machine (.error .outOfFuel after)).isOver = false)
    (fine : ∀ machine ending, (∀ value after, ending = .ok value after → known value) →
      ∀ value after, f machine ending = .ok value after → known' value) :
    Prolonged (fun machine => f machine (x (enter machine)))
      (fun machine => f machine (y (enter machine))) known' := by
  intro machine ends'
  dsimp only at ends' ⊢
  have inner : Ending.isOver (x (enter machine)) = true := by
    match ended : x (enter machine) with
    | .ok _ _ | .error (.exception _) _ => rfl
    | .error .outOfFuel _ => rw [ended, ends] at ends'; cases ends'
  obtain ⟨same, all⟩ := h (enter machine) inner
  rw [same]
  exact ⟨rfl, fine machine _ all⟩

theorem restored (enter : Machine → Machine) (back : Machine → Machine → Machine)
    (h : x.Prolonged y known) :
    Prolonged (fun machine => Setting.restored (back machine) (x (enter machine)))
      (fun machine => Setting.restored (back machine) (y (enter machine))) known := by
  apply h.around enter
  · exact fun _ _ => rfl
  · rintro machine (⟨value, after⟩ | ⟨interruption, after⟩) all _ _ ⟨⟩
    exact all value after rfl

theorem located (h : x.Prolonged y known) (position : Position) :
    (Run.located position x).Prolonged (Run.located position y) known := by
  refine h.around (f := fun machine ending => Run.located position (fun _ => ending) machine) id
    (fun _ _ => rfl) ?_
  rintro machine (⟨value, after⟩ | ⟨_ | _, after⟩) all _ _ ⟨⟩
  exact all value after rfl

theorem outcome {raises : Exception → Prop} (h : x.Prolonged y known) (raised : ∀ e, raises e) :
    (Run.outcome x).Prolonged (Run.outcome y) (Judgement.IsOutcome raises known) := by
  refine h.around (f := fun machine ending => Run.outcome (fun _ => ending) machine) id
    (fun _ _ => rfl) ?_
  rintro machine (⟨value, after⟩ | ⟨e | _, after⟩) all _ _ ⟨⟩
  · exact all value after rfl
  · exact raised e

theorem inScope (h : x.Prolonged y known) (id : ScopeId) :
    (Run.inScope id x).Prolonged (Run.inScope id y) known :=
  h.restored (fun machine => { machine with scope := id })
    fun machine after => { after with scope := machine.scope }

/-- Steps in a scope that is opened for them. -/
theorem inOpened {opening : Run ScopeId} (h : x.Prolonged y known) :
    (opening >>= fun id => Run.inScope id x).Prolonged (opening >>= fun id => Run.inScope id y)
      known :=
  (self fun _ _ _ _ => trivial).bind fun id _ => h.inScope id

theorem asCall (h : x.Prolonged y known) :
    (Run.asCall x).Prolonged (Run.asCall y) known :=
  h.restored (fun machine => { machine with depth := machine.depth + 1 })
    fun machine after => { after with depth := machine.depth }

theorem deeper (h : x.Prolonged y known) : (Run.deeper x).Prolonged (Run.deeper y) known := by
  intro machine ends
  by_cases room : machine.nesting < machine.limits.nesting
  · have entered := h.restored (fun machine => { machine with nesting := machine.nesting + 1 })
      (fun machine after => { after with nesting := machine.nesting }) machine
    rw [Run.deeper_of_lt x room] at ends ⊢
    rw [Run.deeper_of_lt y room]
    exact entered ends
  · have refused (steps : Run α) : Run.deeper steps machine =
        Run.fault (.nestingLimit machine.limits.nesting) machine := if_pos (Nat.le_of_not_lt room)
    rw [refused, refused]
    exact ⟨rfl, nofun⟩

/-- A loop that may go round more often. -/
theorem repeatUntil {x y : Run (Option α)} {known : α → Prop}
    (h : x.Prolonged y fun result => ∀ value ∈ result, known value) {rounds more : Nat}
    (le : rounds ≤ more) :
    (Run.repeatUntil x rounds).Prolonged (Run.repeatUntil y more) known := by
  induction rounds generalizing more with
  | zero => exact outOfFuel _
  | succ rounds ih =>
    obtain ⟨more, rfl⟩ := Nat.exists_eq_succ_of_ne_zero (Nat.ne_of_gt (Nat.lt_of_lt_of_le
      (Nat.succ_pos rounds) le))
    apply h.bind
    intro result fine
    cases result with
    | some value =>
      apply self
      rintro _ _ _ ⟨⟩
      exact fine value rfl
    | none => exact ih (Nat.le_of_succ_le_succ le)

end Run.Prolonged

/-- Runs under a greater bound. Nothing is asked of trees and exceptions. -/
def Judgement.prolongs : Judgement where
  Context := Unit
  relates := fun _ => Run.Prolonged
  good := fun _ => True
  owns := fun _ => True
  inside := id
  loose := id
  raises := fun _ _ => True
  owns_inside := fun _ => trivial
  raises_inside := fun _ => trivial
  raises_fault := fun _ => trivial
  raises_raised := fun _ => trivial
  known := fun {_ e} _ => e.value_meets
  pure := fun known => .self (by rintro _ _ _ ⟨⟩; exact known)
  bind := .bind
  raise := fun _ => .self nofun
  outOfFuel := .outOfFuel _
  located := fun _ h => h.located _
  outcome := fun h => h.outcome fun _ => trivial
  readStore := fun known => .self (by
    rintro _ _ _ ⟨⟩
    exact known _ (Store.meets_of_forall Node.marked_true _))
  changeStore := fun _ _ _ => .self fun _ _ _ _ => trivial
  surrounding := fun _ => .self fun _ _ _ _ => trivial
  asCall := .asCall

instance : Judgement.prolongs.Scoped where
  scope := Run.Prolonged.self fun _ _ _ _ => trivial
  assign := fun _ => Run.Prolonged.self fun _ _ _ _ => trivial
  receiver := Run.Prolonged.self fun _ _ _ _ => Value.meets_of_forall Node.marked_true _
  define := fun _ _ _ => Run.Prolonged.self fun _ _ _ _ => trivial
  declare := fun _ _ => Run.Prolonged.self fun _ _ _ _ => trivial
  renewScope := fun _ => Run.Prolonged.self fun _ _ _ _ => trivial
  inNew := Run.Prolonged.inOpened
  inHandler := fun _ => Run.Prolonged.inOpened

instance : Judgement.prolongs.Entering where
  inCall := fun _ _ _ _ => Run.Prolonged.inOpened

instance : Judgement.prolongs.Limited where
  mayCall := Run.Prolonged.self fun _ _ _ _ => trivial
  deeper := Run.Prolonged.deeper

section

variable {inner other : Interpreter} (agree : Judgement.prolongs.Agree inner other)

include agree

/-- The rule of statements, in which loops may go round more often. -/
theorem Run.Prolonged.statement {rounds more : Nat} (le : rounds ≤ more) (stmt : Stmt) :
    (Evaluation.statement inner rounds stmt).Prolonged (Evaluation.statement other more stmt)
      Judgement.prolongs.KnowsFlow := by
  let L := Judgement.prolongs.runLogic ()
  have evaluates : ∀ expr : Expr, L.Evaluates inner other expr := fun _ =>
    agree.expression (c := ()) fun _ _ => trivial
  have executes : ∀ stmt : Stmt, L.Executes inner other stmt := fun _ =>
    agree.executes (c := ()) trivial fun _ _ => trivial
  have judged : (Evaluation.statement inner more stmt).Prolonged
      (Evaluation.statement other more stmt) Judgement.prolongs.KnowsFlow :=
    Judgement.statement (c := ()) agree more (fun _ => trivial) fun _ _ => trivial
  cases stmt with
  | whileLoop test inside =>
    exact .repeatUntil (L.whileRound (executes inside) (evaluates test)) le
  | doWhileLoop inside test =>
    exact .repeatUntil (L.doWhileRound (executes inside) (evaluates test)) le
  | forLoop start test update inside =>
    have renewed : L.holds Run.renewScope fun _ => True :=
      Judgement.Scoped.renewScope (J := Judgement.prolongs) (c := ()) trivial
    have round (renews : Bool) :
        (Run.repeatUntil (Evaluation.forRound inner renews test update inside) rounds).Prolonged
          (Run.repeatUntil (Evaluation.forRound other renews test update inside) more)
          Judgement.prolongs.KnowsFlow :=
      .repeatUntil (L.forRound (executes inside) renewed (fun _ _ => evaluates _)
        fun _ _ => evaluates _) le
    apply Run.Prolonged.inOpened
    cases start with
    | none => exact round false
    | some stmt =>
      have begun : (inner.statement stmt).Prolonged (other.statement stmt)
          Judgement.prolongs.KnowsFlow := executes stmt
      exact begun.bind fun _ _ => round _
  -- the other statements do not look at the number of rounds
  | giveBack value => cases value <;> exact judged
  | _ => exact judged

end

theorem prolongs_interpreter {fuel more : Nat} (le : fuel ≤ more) :
    Judgement.prolongs.Agree (interpreter fuel) (interpreter more) := by
  induction fuel generalizing more with
  | zero =>
    exact {
      statement := fun _ _ => Run.Prolonged.outOfFuel _
      expression := fun _ => Run.Prolonged.outOfFuel _
      call := fun _ _ _ _ _ _ => Run.Prolonged.outOfFuel _ }
  | succ fuel ih =>
    obtain ⟨more, rfl⟩ := Nat.exists_eq_succ_of_ne_zero (Nat.ne_of_gt (Nat.lt_of_lt_of_le
      (Nat.succ_pos fuel) le))
    have agree := ih (Nat.le_of_succ_le_succ le)
    exact {
      statement := fun _ _ =>
        Run.Prolonged.deeper (.statement agree (Nat.le_of_succ_le_succ le) _)
      expression := fun marked => Judgement.Limited.deeper (Judgement.expression agree.values marked)
      call := Judgement.invoke agree.rows }

/-- A call that comes to an end under a bound comes to the same end under every greater one. -/
theorem Machine.call_of_le {fuel more : Nat} (le : fuel ≤ more) {callee receiver : Value}
    {args : List Value} {machine : Machine}
    (ends : Ending.isOver (Machine.call fuel callee receiver args machine) = true) :
    Machine.call more callee receiver args machine =
      Machine.call fuel callee receiver args machine := by
  have knows : ∀ value, Judgement.prolongs.Knows value := Value.meets_of_forall Node.marked_true
  have prolonged : Run.Prolonged (Machine.call fuel callee receiver args)
      (Machine.call more callee receiver args) Judgement.prolongs.Knows :=
    (prolongs_interpreter le).call (c := ()) callee receiver args (knows _) (knows _)
      fun _ _ => knows _
  exact (prolonged machine ends).1

end DarijaScript
