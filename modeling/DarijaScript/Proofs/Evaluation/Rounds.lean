import DarijaScript.Proofs.Evaluation.Balance
import DarijaScript.Proofs.Evaluation.Spared

/-!
# The rounds of a counting loop

A counting loop that begins with a declaration gives every round variables of its own. The stages of
its rounds are told here as a relation, which the run of the loop goes through; what one step from a
stage to the next one does to the scopes is carried on to all later stages.
-/

namespace DarijaScript

/-! ### Growth -/

/-- Scopes stay, each inside the same one. Nothing else is asked. -/
def Invariant.growing : Invariant where
  good := fun _ => True
  mayBind := fun _ => True
  fits := fun _ _ => True
  changes := Store.Grows
  raises := fun _ => True
  refl := .refl
  trans := .trans
  others := fun same _ => .of_scopes_eq same
  binds := fun _ => .define _ _
  assigns := fun _ _ _ _ => .define _ _
  adds := .addScope
  kept := fun _ _ => trivial
  next := fun _ => trivial
  enters := fun _ => trivial
  renews := fun _ => trivial
  receiver := fun _ _ => trivial
  nesting := fun _ => trivial
  located := fun _ _ => trivial

instance : Invariant.growing.Receiving where
  receives := fun _ _ _ => trivial

/-- Steps that are judged with growth in mind keep the scopes, whatever the machine is like. -/
theorem Invariant.grows {α : Type} {steps : Run α} {known : α → Prop}
    (held : growing.Holds ⟨True, True⟩ steps known) (machine : Machine) :
    machine.store.Grows (Ending.machine (steps machine)).store :=
  (held machine ⟨Store.meets_of_forall Node.marked_true _, trivial, id⟩).changes

/-- The machine that follows has the same active scope, and all scopes of the first one are still
there, each inside the same one. -/
structure Machine.Onward (machine after : Machine) : Prop where
  grown : machine.store.Grows after.store
  scope : after.scope = machine.scope

namespace Machine.Onward

variable {fuel : Nat} {machine middle after : Machine}

theorem refl (machine : Machine) : machine.Onward machine := ⟨.refl _, rfl⟩

theorem trans (h : machine.Onward middle) (h' : middle.Onward after) : machine.Onward after :=
  ⟨h.grown.trans h'.grown, h'.scope.trans h.scope⟩

theorem statement_grows (fuel : Nat) (stmt : Stmt) (machine : Machine) :
    machine.store.Grows (Ending.machine ((interpreter fuel).statement stmt machine)).store := by
  let J := Invariant.growing.toJudgement
  have respects : J.Respects (interpreter fuel) := Judgement.respects_interpreter fuel
  have judged : J.holds ⟨True, True⟩ ((interpreter fuel).statement stmt) J.KnowsFlow :=
    respects.statement trivial fun _ _ => trivial
  exact Invariant.grows judged machine

theorem evaluate_grows (fuel : Nat) (expr : Expr) (machine : Machine) :
    machine.store.Grows (Ending.machine (Machine.evaluate fuel expr machine)).store := by
  let J := Invariant.growing.toJudgement
  have respects : J.Respects (interpreter fuel) := Judgement.respects_interpreter fuel
  have judged : J.holds ⟨True, True⟩ (Machine.evaluate fuel expr) J.Knows :=
    respects.expression fun _ _ => trivial
  exact Invariant.grows judged machine

theorem of_statement {stmt : Stmt} {flow : Completion}
    (ended : (interpreter fuel).statement stmt machine = .ok flow after) : machine.Onward after := by
  have grown := statement_grows fuel stmt machine
  have balanced := statement_balanced fuel machine stmt
  rw [ended] at grown balanced
  exact ⟨grown, balanced.1⟩

theorem of_evaluate {expr : Expr} {value : Value}
    (ended : (interpreter fuel).expression expr machine = .ok value after) :
    machine.Onward after := by
  have grown := evaluate_grows fuel expr machine
  have balanced := evaluate_balanced fuel machine expr
  rw [Machine.evaluate, ended] at grown balanced
  exact ⟨grown, balanced.1⟩

theorem of_goesOn {test : Option Expr} {goes : Bool}
    (ended : Evaluation.goesOn (interpreter fuel) test machine = .ok goes after) :
    machine.Onward after := by
  cases test with
  | none =>
    cases ended
    exact .refl _
  | some expr =>
    obtain ⟨value, middle, evaluated, held⟩ := Run.of_bind_ok ended
    cases held
    exact .of_evaluate evaluated

theorem of_stepOn {update : Option Expr}
    (ended : Evaluation.stepOn (interpreter fuel) false update machine = .ok () after) :
    machine.Onward after := by
  cases update with
  | none =>
    cases ended
    exact .refl _
  | some expr =>
    obtain ⟨value, middle, evaluated, done⟩ := Run.of_bind_ok ended
    cases done
    exact .of_evaluate evaluated

end Machine.Onward

/-! ### Stages -/

/-- A counting loop that begins with a declaration. -/
structure CountingLoop where
  kind : DeclarationKind
  name : Identifier
  value : Option Expr
  test : Option Expr
  update : Option Expr
  body : Stmt

/-- The stages of a round: about to update the variables that were copied from the round before, which
the first round has no need of, about to test, about to execute the body, and at its end, which is a
normal one or on to the next round. -/
inductive RoundStage where
  | update
  | test
  | body
  | ended

/-- The stages of a round in their order. -/
def RoundStage.place : RoundStage → Nat
  | update => 0
  | test => 1
  | body => 2
  | ended => 3

/-- The machine in which the declaration of a loop is executed: inside the loop statement, in a new
scope. -/
def Machine.opened (machine : Machine) : Machine :=
  { machine with
    store := machine.store.addChild machine.scope
    scope := machine.store.nextScope
    nesting := machine.nesting + 1 }

namespace CountingLoop

variable (loop : CountingLoop)

/-- The declaration. -/
def start : Stmt := .declare loop.kind loop.name loop.value

/-- The statement. -/
def stmt : Stmt := .forLoop (some loop.start) loop.test loop.update loop.body

/-- Executed under a bound from a machine, the loop comes to a stage of a round. -/
inductive Comes (fuel : Nat) (machine : Machine) : Nat → RoundStage → Machine → Prop
  | first {flow : Completion} {begun : Machine} (room : machine.nesting < machine.limits.nesting)
      (bound : 0 < fuel)
      (declared : (interpreter fuel).statement loop.start machine.opened = .ok flow begun) :
    Comes fuel machine 0 .test begun
  | body {round : Nat} {begun tested : Machine} (comes : Comes fuel machine round .test begun)
      (goes : Evaluation.goesOn (interpreter fuel) loop.test begun = .ok true tested) :
    Comes fuel machine round .body tested
  | ended {round : Nat} {tested done : Machine} {flow : Completion}
      (comes : Comes fuel machine round .body tested)
      (executed : (interpreter fuel).statement loop.body tested = .ok flow done)
      (onward : Evaluation.afterRound flow = none) : Comes fuel machine round .ended done
  | update {round : Nat} {done renewed : Machine} (comes : Comes fuel machine round .ended done)
      (bound : round + 1 < fuel) (copied : Run.renewScope done = .ok () renewed) :
    Comes fuel machine (round + 1) .update renewed
  | test {round : Nat} {renewed begun : Machine}
      (comes : Comes fuel machine (round + 1) .update renewed)
      (updated : Evaluation.stepOn (interpreter fuel) false loop.update renewed = .ok () begun) :
    Comes fuel machine (round + 1) .test begun

/-- What is left of the loop at a stage of a round, with at most the given number of rounds behind
this one. -/
def rest (inner : Interpreter) (rounds : Nat) : RoundStage → Run Completion
  | .update => do
    Evaluation.stepOn inner false loop.update
    Run.repeatUntil (Evaluation.forRound inner true loop.test loop.update loop.body) (rounds + 1)
  | .test =>
    Run.repeatUntil (Evaluation.forRound inner true loop.test loop.update loop.body) (rounds + 1)
  | .body => do
    let flow ← inner.statement loop.body
    match Evaluation.afterRound flow with
    | some flow => pure flow
    | none =>
      Evaluation.stepOn inner true loop.update
      Run.repeatUntil (Evaluation.forRound inner true loop.test loop.update loop.body) rounds
  | .ended => do
    Evaluation.stepOn inner true loop.update
    Run.repeatUntil (Evaluation.forRound inner true loop.test loop.update loop.body) rounds

variable {loop} {fuel round later rounds : Nat} {stage laterStage : RoundStage}
  {machine now after begun : Machine} {inner : Interpreter}

theorem rest_test : loop.rest inner rounds .test = (do
    if ← Evaluation.goesOn inner loop.test then loop.rest inner rounds .body else pure .normal) := by
  simp only [rest, Run.repeatUntil, Evaluation.forRound, bind_assoc]
  refine bind_congr fun goes => ?_
  cases goes
  · rfl
  · simp only [if_true, bind_assoc]
    refine bind_congr fun flow => ?_
    cases Evaluation.afterRound flow with
    | some flow => rfl
    | none => simp only [bind_assoc, pure_bind]

/-- The run of the loop goes through the stages. -/
theorem Comes.run_eq (comes : loop.Comes fuel machine round stage now) :
    (interpreter (fuel + 1)).statement loop.stmt machine =
      Setting.restored (fun after => { after with scope := machine.scope, nesting := machine.nesting })
        (loop.rest (interpreter fuel) (fuel - 1 - round) stage now) := by
  induction comes with
  | @first _ begun room bound declared =>
    have looped : Evaluation.forLoop (interpreter fuel) fuel (some loop.start) loop.test loop.update
        loop.body machine.opened = loop.rest (interpreter fuel) (fuel - 1) .test begun := by
      rw [rest, Nat.sub_add_cancel bound]
      exact Run.bind_ok declared
    change Run.deeper (Evaluation.statement (interpreter fuel) fuel loop.stmt) machine = _
    rw [Run.deeper_of_lt _ room, Nat.sub_zero, ← looped]
    change Setting.restored _ (Setting.restored ({ · with scope := machine.scope })
      (Evaluation.forLoop _ _ _ _ _ _ machine.opened)) = _
    cases Evaluation.forLoop (interpreter fuel) fuel (some loop.start) loop.test loop.update
      loop.body machine.opened <;> rfl
  | body _ goes ih =>
    rw [ih, rest_test, Run.bind_ok goes]
    rfl
  | ended _ executed onward ih =>
    rw [ih]
    refine congrArg _ ((Run.bind_ok executed).trans ?_)
    rw [onward]
    rfl
  | @update round done renewed _ bound copied ih =>
    have copying : loop.rest (interpreter fuel) (fuel - 1 - round) .ended = (do
        Run.renewScope
        loop.rest (interpreter fuel) (fuel - 1 - (round + 1)) .update) := by
      have one : fuel - 1 - round = fuel - 1 - (round + 1) + 1 := by omega
      rw [one]
      simp only [rest, Evaluation.stepOn, if_true, bind_assoc]
      rfl
    rw [ih, copying, Run.bind_ok copied]
  | test _ updated ih =>
    rw [ih]
    exact congrArg _ (Run.bind_ok updated)

/-- The loop comes to a stage of a round in one machine only. -/
theorem Comes.unique (comes : loop.Comes fuel machine round stage now)
    (again : loop.Comes fuel machine round stage after) : after = now := by
  induction comes generalizing after with
  | first _ _ declared =>
    cases again with
    | first _ _ declared' =>
      cases declared.symm.trans declared'
      rfl
  | body _ goes ih =>
    cases again with
    | body comes goes' =>
      obtain rfl := ih comes
      cases goes.symm.trans goes'
      rfl
  | ended _ executed _ ih =>
    cases again with
    | ended comes executed' _ =>
      obtain rfl := ih comes
      cases executed.symm.trans executed'
      rfl
  | update _ _ copied ih =>
    cases again with
    | update comes _ copied' =>
      obtain rfl := ih comes
      cases copied.symm.trans copied'
      rfl
  | test _ updated ih =>
    cases again with
    | test comes updated' =>
      obtain rfl := ih comes
      cases updated.symm.trans updated'
      rfl

/-! ### Scopes of rounds -/

/-- What a machine at one stage has become at a later stage: the same round goes on in its scope, and
the scope of another one is new. -/
structure Past (round later : Nat) (machine after : Machine) : Prop where
  grown : machine.store.Grows after.store
  scope : round = later → after.scope = machine.scope
  new : round < later → machine.store.scopes.size ≤ after.scope

theorem Past.self (round : Nat) (machine : Machine) : Past round round machine machine :=
  ⟨.refl _, fun _ => rfl, fun less => absurd less (Nat.lt_irrefl _)⟩

theorem Past.onward (past : Past round later machine now) (onward : now.Onward after) :
    Past round later machine after where
  grown := past.grown.trans onward.grown
  scope := fun same => onward.scope.trans (past.scope same)
  new := fun less => onward.scope ▸ past.new less

theorem Past.renew (past : Past round later machine now) (order : round ≤ later)
    (copied : Run.renewScope now = .ok () after) : Past round (later + 1) machine after := by
  cases copied
  exact {
    grown := past.grown.trans (.addSnapshot _)
    scope := fun same => by omega
    new := fun _ => past.grown.size_le }

theorem RoundStage.eq_of_place (same : 4 * round + stage.place = 4 * later + laterStage.place) :
    round = later ∧ stage = laterStage := by
  cases stage <;> cases laterStage <;> simp only [RoundStage.place] at same <;>
    first
      | exact ⟨by omega, rfl⟩
      | omega

theorem Comes.place_pos (comes : loop.Comes fuel machine round stage now) :
    0 < 4 * round + stage.place := by
  cases comes <;> simp only [RoundStage.place] <;> omega

theorem RoundStage.place_le (less : round < later) :
    4 * round + stage.place ≤ 4 * later + laterStage.place := by
  cases stage <;> simp only [RoundStage.place] <;> omega

/-- What a step does to the machine is carried on to all later stages. -/
theorem Comes.past (comes : loop.Comes fuel machine round stage now)
    (further : loop.Comes fuel machine later laterStage after)
    (order : 4 * round + stage.place ≤ 4 * later + laterStage.place) : Past round later now after := by
  have same : ∀ {later laterStage after}, loop.Comes fuel machine later laterStage after →
      4 * round + stage.place = 4 * later + laterStage.place → Past round later now after := by
    intro later laterStage after further place
    obtain ⟨rfl, rfl⟩ := RoundStage.eq_of_place place
    cases comes.unique further
    exact .self _ _
  induction further with
  | first room bound declared =>
    exact same (.first room bound declared) (Nat.le_antisymm order comes.place_pos)
  | body comes' goes ih =>
    rcases Nat.eq_or_lt_of_le order with place | before
    · exact same (.body comes' goes) place
    · exact (ih (Nat.lt_succ_iff.mp before)).onward (.of_goesOn goes)
  | ended comes' executed onward ih =>
    rcases Nat.eq_or_lt_of_le order with place | before
    · exact same (.ended comes' executed onward) place
    · exact (ih (Nat.lt_succ_iff.mp before)).onward (.of_statement executed)
  | @update later _ _ comes' bound copied ih =>
    rcases Nat.eq_or_lt_of_le order with place | before
    · exact same (.update comes' bound copied) place
    · have order : 4 * round + stage.place ≤ 4 * later + RoundStage.ended.place := by
        simp only [RoundStage.place] at before ⊢
        omega
      exact (ih order).renew (by simp only [RoundStage.place] at order; omega) copied
  | test comes' updated ih =>
    rcases Nat.eq_or_lt_of_le order with place | before
    · exact same (.test comes' updated) place
    · exact (ih (Nat.lt_succ_iff.mp before)).onward (.of_stepOn updated)

/-- The active scope is one that the loop has opened, inside the one in which the loop stands. -/
structure OfRound (machine now : Machine) : Prop where
  grown : machine.store.Grows now.store
  new : machine.store.scopes.size ≤ now.scope
  inside : ∃ scope, now.store.scopes[now.scope]? = some scope ∧ scope.parent = some machine.scope

theorem OfRound.onward (h : OfRound machine now) (onward : now.Onward after) :
    OfRound machine after where
  grown := h.grown.trans onward.grown
  new := onward.scope ▸ h.new
  inside := by
    obtain ⟨scope, found, around⟩ := h.inside
    obtain ⟨kept, found, same⟩ := onward.grown _ trivial _ found
    exact ⟨kept, onward.scope ▸ found, Eq.trans same around⟩

theorem ofRound_opened (machine : Machine) : OfRound machine machine.opened where
  grown := .addScope _
  new := Nat.le_refl _
  inside := ⟨⟨[], some machine.scope⟩,
    by simp [Machine.opened, Store.addChild, Store.addScope, Store.nextScope], rfl⟩

/-- The copy of a scope has the names, values and constants of the scope itself, and its parent. -/
theorem getElem?_renewed (copied : Run.renewScope now = .ok () after)
    (inside : now.scope < now.store.scopes.size) :
    after.store.scopes[after.scope]? = now.store.scopes[now.scope]? := by
  cases copied
  have found : now.store.scopes[now.scope]? = some now.store.scopes[now.scope] :=
    Array.getElem?_eq_getElem inside
  simp [Store.addSnapshot, found, Store.addScope, Store.nextScope]

theorem OfRound.lt_size (h : OfRound machine now) : now.scope < now.store.scopes.size := by
  obtain ⟨_, found, -⟩ := h.inside
  exact (Array.getElem?_eq_some_iff.mp found).1

theorem OfRound.renew (h : OfRound machine now) (copied : Run.renewScope now = .ok () after) :
    OfRound machine after := by
  have same := getElem?_renewed copied h.lt_size
  cases copied
  exact {
    grown := h.grown.trans (.addSnapshot _)
    new := h.grown.size_le
    inside := by
      rw [same]
      exact h.inside }

theorem Comes.ofRound (comes : loop.Comes fuel machine round stage now) : OfRound machine now := by
  induction comes with
  | first _ _ declared => exact (ofRound_opened machine).onward (.of_statement declared)
  | body _ goes ih => exact ih.onward (.of_goesOn goes)
  | ended _ executed _ ih => exact ih.onward (.of_statement executed)
  | update _ _ copied ih => exact ih.renew copied
  | test _ updated ih => exact ih.onward (.of_stepOn updated)

/-! ### Rounds that are over -/

section

variable {J : Judgement} [J.Scoped] {c : J.Context}

/-- What is left of the loop is judged if every mark is a good one. -/
theorem rest_holds (respects : J.Respects inner) (owns : J.owns c) (good : ∀ mark, J.good mark)
    (rounds : Nat) (stage : RoundStage) :
    J.holds c (loop.rest inner rounds stage) J.KnowsFlow := by
  let L := J.runLogic c
  have evaluates : ∀ expr : Expr, L.Evaluates inner inner expr := fun _ =>
    respects.expression fun mark _ => good mark
  have body : L.Executes inner inner loop.body :=
    respects.executes owns fun mark _ => good mark
  have renewed : J.holds c Run.renewScope fun _ => True := Judgement.Scoped.renewScope owns
  have step : ∀ renews, J.holds c (Evaluation.stepOn inner renews loop.update) fun _ => True :=
    fun _ => L.stepOn renewed fun _ _ => evaluates _
  have go : ∀ rounds, J.holds c (Run.repeatUntil
      (Evaluation.forRound inner true loop.test loop.update loop.body) rounds) J.KnowsFlow :=
    L.repeatUntil (L.forRound body renewed (fun _ _ => evaluates _) fun _ _ => evaluates _)
  cases stage with
  | update => exact J.bind (step false) fun _ _ => go _
  | test => exact go _
  | body =>
    apply J.bind body
    intro flow known
    split
    · next ends eq => exact J.pure (meets_afterRound known _ eq)
    · exact J.bind (step true) fun _ _ => go _
  | ended => exact J.bind (step true) fun _ _ => go _

end

/-- The scope of a round is still there at every stage of a later one, apart from the active scope. -/
theorem Comes.apart {chain : List ScopeId} (outwards : machine.store.Chain machine.scope chain)
    (comes : loop.Comes fuel machine round stage now)
    (further : loop.Comes fuel machine later laterStage after) (less : round < later) :
    now.scope < after.store.scopes.size ∧ after.store.Apart now.scope after.scope := by
  have own := comes.ofRound
  have other := further.ofRound
  have past := comes.past further (RoundStage.place_le less)
  obtain ⟨scope, found, around⟩ := other.inside
  refine ⟨Nat.lt_of_lt_of_le own.lt_size past.grown.size_le, after.scope :: chain,
    .inside found around (outwards.mono other.grown), fun mem => ?_⟩
  rcases List.mem_cons.mp mem with same | mem
  · exact absurd own.lt_size (Nat.not_lt.mpr (same ▸ past.new less))
  · exact absurd (outwards.lt_size _ mem) (Nat.not_lt.mpr own.new)

/-- The scope of a round is left when the loop has ended. -/
theorem Comes.hasLeft_loop {chain : List ScopeId}
    (outwards : machine.store.Chain machine.scope chain)
    (comes : loop.Comes fuel machine round stage now) :
    (Ending.machine ((interpreter (fuel + 1)).statement loop.stmt machine)).HasLeft now.scope := by
  have own := comes.ofRound
  have grown : now.store.Grows
      (Ending.machine (loop.rest (interpreter fuel) (fuel - 1 - round) stage now)).store := by
    let J := Invariant.growing.toJudgement
    have held : J.holds ⟨True, True⟩ (loop.rest (interpreter fuel) (fuel - 1 - round) stage)
        J.KnowsFlow :=
      rest_holds (Judgement.respects_interpreter fuel) trivial (fun _ => trivial) _ stage
    exact Invariant.grows held now
  have ended : ∀ after : Machine, now.store.Grows after.store → after.scope = machine.scope →
      after.HasLeft now.scope := by
    intro after grown same
    refine Machine.hasLeft (Nat.lt_of_lt_of_le own.lt_size grown.size_le) ⟨chain, ?_, ?_⟩
    · rw [same]
      exact outwards.mono (own.grown.trans grown)
    · exact fun mem => absurd (outwards.lt_size _ mem) (Nat.not_lt.mpr own.new)
  rw [comes.run_eq]
  cases run : loop.rest (interpreter fuel) (fuel - 1 - round) stage now with
  | ok flow after | error interruption after =>
    rw [run] at grown
    exact ended _ grown rfl

end CountingLoop

/-- **Each round of a counting loop has its own variables.** The run of a loop that begins with a
declaration goes through the stages of its rounds. All stages of a round have the same active scope,
inside the one in which the loop stands. The scope of the next round was not there during the round;
it has the same parent, and begins with the names, values and constants that the scope of the round has
at the end of the body. At every stage of a later round, and when the loop has ended, the scope of the
round is not met on the way outwards from the active one, and what is done from there on changes it
through the calls of functions made in it or inside it only. The way outwards from where the loop
stands ends, as it does in every store that the operations on scopes build. -/
theorem rounds_have_own_variables (loop : CountingLoop) (fuel : Nat) {machine : Machine}
    {chain : List ScopeId} (outwards : machine.store.Chain machine.scope chain) :
    (∀ round stage now, loop.Comes fuel machine round stage now →
      (interpreter (fuel + 1)).statement loop.stmt machine = Setting.restored
        (fun after => { after with scope := machine.scope, nesting := machine.nesting })
        (loop.rest (interpreter fuel) (fuel - 1 - round) stage now)) ∧
    (∀ round stage now, loop.Comes fuel machine round stage now →
      (now.store.scopes[now.scope]?).map Scope.parent = some (some machine.scope) ∧
      ∀ stage after, loop.Comes fuel machine round stage after → after.scope = now.scope) ∧
    (∀ round done renewed, loop.Comes fuel machine round .ended done →
      loop.Comes fuel machine (round + 1) .update renewed →
        (∀ stage now, loop.Comes fuel machine round stage now →
          now.store.scopes[renewed.scope]? = none) ∧
        renewed.store.scopes[renewed.scope]? = done.store.scopes[done.scope]? ∧
        renewed.store.scopes[done.scope]? = done.store.scopes[done.scope]?) ∧
    (∀ round stage now, loop.Comes fuel machine round stage now →
      ∀ later laterStage after, round < later → loop.Comes fuel machine later laterStage after →
        after.HasLeft now.scope ∧
        ∀ rounds, after.LeavesAlone now.scope (loop.rest · rounds laterStage)) ∧
    ∀ round stage now, loop.Comes fuel machine round stage now →
      (Ending.machine ((interpreter (fuel + 1)).statement loop.stmt machine)).HasLeft now.scope := by
  refine ⟨fun _ _ _ comes => comes.run_eq, ?_, ?_, ?_,
    fun _ _ _ comes => comes.hasLeft_loop outwards⟩
  · intro round stage now comes
    obtain ⟨scope, found, around⟩ := comes.ofRound.inside
    refine ⟨by rw [found, ← around]; rfl, fun stage after again => ?_⟩
    rcases Nat.le_total (4 * round + _) (4 * round + _) with order | order
    · exact (comes.past again order).scope rfl
    · exact ((again.past comes order).scope rfl).symm
  · intro round done renewed comes further
    cases further with
    | update comes' bound copied =>
      obtain rfl := comes.unique comes'
      have inside := comes.ofRound.lt_size
      refine ⟨fun stage now again => ?_, CountingLoop.getElem?_renewed copied inside, ?_⟩
      · have past := again.past (.update comes bound copied)
          (CountingLoop.RoundStage.place_le (Nat.lt_succ_self round))
        exact Array.getElem?_eq_none (past.new (Nat.lt_succ_self round))
      · cases copied
        exact (Store.Spares.addSnapshot _).getElem?_eq inside
  · intro round stage now comes later laterStage after less further
    obtain ⟨inside, apart⟩ := comes.apart outwards further less
    let J := (Invariant.spared now.scope).toJudgement
    refine ⟨Machine.hasLeft inside apart, fun rounds => ?_⟩
    have owns : J.owns (⟨True, True⟩ : Stance) := trivial
    have held : ∀ inner, J.Respects inner →
        J.holds ⟨True, True⟩ (loop.rest inner rounds laterStage) J.KnowsFlow :=
      fun inner respects => CountingLoop.rest_holds respects owns (fun _ => trivial) _ _
    exact Machine.leavesAlone inside apart held

/-- An endless loop that does nothing. -/
def idleLoop : CountingLoop where
  kind := .variable
  name := ⟨"i", .unknown⟩
  value := none
  test := none
  update := none
  body := .empty

/-- The second round of the endless loop begins with the variable of the first one, which it has left. -/
theorem rounds_have_own_variables_idle :
    ∃ machine done renewed, machine.store.Chain machine.scope [1, 0] ∧
      idleLoop.Comes 2 machine 0 .ended done ∧ idleLoop.Comes 2 machine 1 .update renewed ∧
      renewed.store.scopes[renewed.scope]? = done.store.scopes[done.scope]? ∧
      renewed.HasLeft done.scope := by
  have outwards : (Machine.initial (.scripted [] [] [] [])).store.Chain 1 [1, 0] :=
    .inside rfl rfl (.outermost rfl rfl)
  have begun : idleLoop.Comes 2 (Machine.initial (.scripted [] [] [] [])) 0 .test _ :=
    .first (by decide) (by decide) rfl
  have done : idleLoop.Comes 2 (Machine.initial (.scripted [] [] [] [])) 0 .ended _ :=
    .ended (.body begun rfl) rfl rfl
  have renewed : idleLoop.Comes 2 (Machine.initial (.scripted [] [] [] [])) 1 .update _ :=
    .update done (by decide) rfl
  obtain ⟨-, -, next, later, -⟩ := rounds_have_own_variables idleLoop 2 outwards
  exact ⟨_, _, _, outwards, done, renewed, (next _ _ _ done renewed).2.1,
    (later _ _ _ done _ _ _ Nat.zero_lt_one renewed).1⟩

end DarijaScript
