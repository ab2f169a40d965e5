import DarijaScript.Proofs.Evaluation.Reaching
import DarijaScript.Proofs.Printing.RoundTrip

/-!
# Jumps

A well-formed statement ends in a jump only where the constructs around it give this jump a target.
Every construct that is a target takes the jump, so no jump leaves a function or a program.
-/

namespace DarijaScript

/-- The constructs around a statement give its jump a target. -/
def Completion.Suits (around : Surroundings) : Completion → Prop
  | .normal => True
  | .giveBack _ => around.inFunction = true
  | .leave => 0 < around.loops ∨ 0 < around.choices
  | .next => 0 < around.loops

/-- Whatever the run returns, from whatever machine, is as the condition says. -/
structure Gives {α : Type} (x : Run α) (good : α → Prop) : Prop where
  returned : ∀ {machine value after}, x machine = .ok value after → good value

namespace Gives

variable {α β : Type} {x : Run α} {good : α → Prop}

theorem any : Gives x fun _ => True := ⟨fun _ => trivial⟩

theorem pure {value : α} (h : good value) : Gives (pure value) good := by
  constructor
  intro machine given after eq
  cases eq
  exact h

theorem throw {interruption : Interruption} : Gives (throw interruption : Run α) good := by
  constructor
  intro machine given after eq
  cases eq

theorem bind {f : α → Run β} {good' : β → Prop} (first : Gives x good)
    (next : ∀ value, good value → Gives (f value) good') : Gives (x >>= f) good' := by
  constructor
  intro machine given after eq
  change EStateM.bind x f machine = _ at eq
  unfold EStateM.bind at eq
  cases ending : x machine with
  | ok value middle =>
    rw [ending] at eq
    exact (next value (first.returned ending)).returned eq
  | error interruption middle =>
    rw [ending] at eq
    cases eq

theorem after {x : Run β} {f : β → Run α} (next : ∀ value, Gives (f value) good) :
    Gives (x >>= f) good := any.bind fun value _ => next value

theorem mono {good' : α → Prop} (h : Gives x good) (better : ∀ value, good value → good' value) :
    Gives x good' := ⟨fun eq => better _ (h.returned eq)⟩

theorem inScope {id : ScopeId} (h : Gives x good) : Gives (Run.inScope id x) good := by
  constructor
  intro machine value after eq
  unfold Run.inScope at eq
  dsimp only at eq
  cases ending : x { machine with scope := id } with
  | ok given middle =>
    rw [ending] at eq
    cases eq
    exact h.returned ending
  | error interruption middle =>
    rw [ending] at eq
    cases eq

theorem deeper (h : Gives x good) : Gives (Run.deeper x) good := by
  constructor
  intro machine value after eq
  unfold Run.deeper at eq
  dsimp only at eq
  split at eq
  · cases eq
  · cases ending : x { machine with nesting := machine.nesting + 1 } with
    | ok given middle =>
      rw [ending] at eq
      cases eq
      exact h.returned ending
    | error interruption middle =>
      rw [ending] at eq
      cases eq

theorem outcome (h : Gives x good) :
    Gives (Run.outcome x) fun result => ∀ value, result = .ok value → good value := by
  constructor
  intro machine result after eq value ended
  unfold Run.outcome at eq
  subst ended
  cases ending : x machine with
  | ok given middle =>
    rw [ending] at eq
    cases eq
    exact h.returned ending
  | error interruption middle =>
    rw [ending] at eq
    cases interruption <;> cases eq

theorem ofOutcome {result : Except Exception α} (h : ∀ value, result = .ok value → good value) :
    Gives (Run.ofOutcome result) good := by
  cases result with
  | ok value => exact .pure (h value rfl)
  | error exception => exact .throw

theorem repeatUntil {x : Run (Option α)}
    (h : Gives x fun result => ∀ value ∈ result, good value) (rounds : Nat) :
    Gives (Run.repeatUntil x rounds) good := by
  induction rounds with
  | zero => exact .throw
  | succ rounds ih =>
    apply h.bind
    intro result known
    cases result with
    | some value => exact .pure (known value rfl)
    | none => exact ih

end Gives

/-! ### Rules -/

section

open Evaluation

variable {inner : Interpreter} {around : Surroundings}
  (suits : ∀ stmt around, stmt.Formed around → Gives (inner.statement stmt) (Completion.Suits around))

include suits

theorem suits_items {stmts : List Stmt} (formed : ∀ stmt ∈ stmts, stmt.Formed around) :
    Gives (items inner stmts) (Completion.Suits around) := by
  apply Gives.after
  intro _
  induction stmts with
  | nil => exact .pure trivial
  | cons stmt rest ih =>
    obtain ⟨first, others⟩ := List.forall_mem_cons.mp formed
    apply (suits stmt around first).bind
    intro flow suited
    split
    · exact ih others
    · exact .pure suited

theorem suits_block {stmts : List Stmt} (formed : ∀ stmt ∈ stmts, stmt.Formed around) :
    Gives (block inner stmts) (Completion.Suits around) :=
  .after fun _ => (suits_items suits formed).inScope

omit suits in
/-- A loop takes the jumps of its body. -/
theorem suits_afterRound {flow : Completion} (suited : flow.Suits around.inLoop) :
    ∀ result ∈ afterRound flow, result.Suits around := by
  intro result mem
  cases flow with
  | normal | next => cases mem
  | leave =>
    cases mem
    trivial
  | giveBack value =>
    cases mem
    exact suited

omit suits in
theorem suits_done : ∀ result ∈ some Completion.normal, result.Suits around := by
  rintro _ ⟨⟩
  trivial

omit suits in
theorem suits_declaration {kind : DeclarationKind} {name : Identifier} {value : Option Expr} :
    Gives (declaration inner kind name value) (Completion.Suits around) := by
  cases value
  all_goals
    apply Gives.after
    intro value
    exact .after fun _ => .pure trivial

theorem suits_whileRound {test : Expr} {body : Stmt} (formed : body.Formed around.inLoop) :
    Gives (whileRound inner test body) fun result => ∀ flow ∈ result, flow.Suits around := by
  apply Gives.after
  intro goes
  split
  · apply (suits body _ formed).bind
    exact fun flow suited => .pure (suits_afterRound suited)
  · exact .pure suits_done

theorem suits_doWhileRound {test : Expr} {body : Stmt} (formed : body.Formed around.inLoop) :
    Gives (doWhileRound inner body test) fun result => ∀ flow ∈ result, flow.Suits around := by
  apply (suits body _ formed).bind
  intro flow suited
  split
  · next ends eq => exact .pure (eq ▸ suits_afterRound suited)
  · apply Gives.after
    intro goes
    split
    · exact .pure nofun
    · exact .pure suits_done

theorem suits_forRound {renews : Bool} {test update : Option Expr} {body : Stmt}
    (formed : body.Formed around.inLoop) :
    Gives (forRound inner renews test update body) fun result =>
      ∀ flow ∈ result, flow.Suits around := by
  apply Gives.after
  intro goes
  split
  · apply (suits body _ formed).bind
    intro flow suited
    split
    · next ends eq => exact .pure (eq ▸ suits_afterRound suited)
    · exact .after fun _ => .pure nofun
  · exact .pure suits_done

theorem suits_forLoop {rounds : Nat} {start : Option Stmt} {test update : Option Expr} {body : Stmt}
    (formed : body.Formed around.inLoop) :
    Gives (forLoop inner rounds start test update body) (Completion.Suits around) := by
  cases start with
  | none => exact .repeatUntil (suits_forRound suits formed) rounds
  | some stmt => exact .after fun _ => .repeatUntil (suits_forRound suits formed) rounds

theorem suits_clauses {cases : List Case}
    (formed : ∀ clause ∈ cases, ∀ stmt ∈ clause.body, stmt.Formed around.inChoice) :
    Gives (clauses inner cases) (Completion.Suits around) := by
  induction cases with
  | nil => exact .pure trivial
  | cons clause rest ih =>
    obtain ⟨first, others⟩ := List.forall_mem_cons.mp formed
    apply (suits_items suits first).bind
    intro flow suited
    cases flow with
    | normal => exact ih others
    | leave => exact .pure trivial
    | next => exact .pure suited
    | giveBack value => exact .pure suited

omit suits in
theorem gives_matchingClauses {value : Value} {cases : List Case} :
    Gives (matchingClauses inner value cases) fun result => ∀ chosen ∈ result, chosen ⊆ cases := by
  induction cases with
  | nil => exact .pure nofun
  | cons clause rest ih =>
    have further := ih.mono fun result known chosen mem =>
      List.subset_cons_of_subset clause (known chosen mem)
    unfold matchingClauses
    split
    · exact further
    · apply Gives.after
      intro found
      split
      · apply Gives.pure
        rintro _ ⟨⟩
        exact List.Subset.refl _
      · exact further

theorem suits_choice {subject : Expr} {cases : List Case}
    (formed : ∀ clause ∈ cases, ∀ stmt ∈ clause.body, stmt.Formed around.inChoice) :
    Gives (choice inner subject cases) (Completion.Suits around) := by
  apply Gives.after
  intro value
  apply gives_matchingClauses.bind
  intro matching known
  have chosen : matching.getD (defaultClauses cases) ⊆ cases := by
    cases matching with
    | none => exact (List.dropWhile_suffix _).subset
    | some chosen => exact known chosen rfl
  split
  · exact .pure trivial
  · apply Gives.after
    intro id
    exact (suits_clauses suits fun clause mem => formed clause (chosen mem)).inScope

theorem suits_handle {handler : Option (Identifier × List Stmt)}
    {result : Except Exception Completion}
    (handles : ∀ handling ∈ handler, ∀ stmt ∈ handling.2, stmt.Formed around)
    (ended : ∀ flow, result = .ok flow → flow.Suits around) :
    Gives (handle inner handler result) fun result =>
      ∀ flow, result = .ok flow → flow.Suits around := by
  match result, handler with
  | .ok _, _ => exact .pure ended
  | .error _, none => exact .pure ended
  | .error exception, some (name, body) =>
    apply Gives.after
    intro id
    apply Gives.after
    intro _
    exact (suits_items suits (handles _ rfl)).inScope.outcome

theorem suits_attempt {body : List Stmt} {handler : Option (Identifier × List Stmt)}
    {finalizer : Option (List Stmt)} (formed : ∀ stmt ∈ body, stmt.Formed around)
    (handles : ∀ handling ∈ handler, ∀ stmt ∈ handling.2, stmt.Formed around)
    (closing : ∀ final ∈ finalizer, ∀ stmt ∈ final, stmt.Formed around) :
    Gives (attempt inner body handler finalizer) (Completion.Suits around) := by
  apply (suits_block suits formed).outcome.bind
  intro first ended
  apply (suits_handle suits handles ended).bind
  intro result ended
  cases finalizer with
  | none => exact .ofOutcome ended
  | some final =>
    apply (suits_block suits (closing final rfl)).bind
    intro flow suited
    split
    · exact .ofOutcome ended
    · exact .pure suited

theorem suits_conditional {test : Expr} {consequent : Stmt} {alternate : Option Stmt}
    (formed : consequent.Formed around) (other : ∀ stmt ∈ alternate, stmt.Formed around) :
    Gives (conditional inner test consequent alternate) (Completion.Suits around) := by
  apply Gives.after
  intro decided
  split
  · exact suits consequent around formed
  · cases alternate with
    | none => exact .pure trivial
    | some stmt => exact suits stmt around (other stmt rfl)

theorem suits_statement (rounds : Nat) {stmt : Stmt} (formed : stmt.Formed around) :
    Gives (statement inner rounds stmt) (Completion.Suits around) := by
  match stmt, formed with
  | .declare kind name value, _ => exact suits_declaration
  | .defineFunction _, _ | .empty, _ => exact .pure trivial
  | .block _, .block inside => exact suits_block suits inside
  | .conditional _ _ _, .conditional _ branch other _ => exact suits_conditional suits branch other
  | .whileLoop _ _, .whileLoop _ repeated =>
    exact .repeatUntil (suits_whileRound suits repeated) rounds
  | .doWhileLoop _ _, .doWhileLoop repeated _ =>
    exact .repeatUntil (suits_doWhileRound suits repeated) rounds
  | .forLoop _ _ _ _, .forLoop _ _ _ _ repeated =>
    exact .after fun _ => (suits_forLoop suits repeated).inScope
  | .attempt _ _ _, .attempt inside _ _ handles closing =>
    exact suits_attempt suits inside handles closing
  | .choice _ _, .choice _ _ inside _ => exact suits_choice suits inside
  | .giveBack none, .giveBack placed _ => exact .pure placed
  | .giveBack (some expr), .giveBack placed _ => exact .after fun _ => .pure placed
  | .leave, .leave placed => exact .pure placed
  | .next, .next placed => exact .pure placed
  | .evaluate _, _ => exact .after fun _ => .pure trivial

end

/-- A well-formed statement ends in a jump only where this jump has a target. -/
theorem interpreter_suits (fuel : Nat) :
    ∀ (stmt : Stmt) (around : Surroundings), stmt.Formed around →
      Gives ((interpreter fuel).statement stmt) (Completion.Suits around) := by
  induction fuel with
  | zero => exact fun _ _ _ => .throw
  | succ fuel ih => exact fun stmt around formed => (suits_statement ih fuel formed).deeper

/-- A body that is well-formed in a function ends normally or gives a value back. -/
theorem body_ends {f : Function} (formed : f.Formed) (fuel : Nat) {machine after : Machine}
    {flow : Completion} (ended : Evaluation.items (interpreter fuel) f.body machine = .ok flow after) :
    flow = .normal ∨ ∃ value, flow = .giveBack value := by
  obtain ⟨_, _, _, inside⟩ := formed
  have suited := (suits_items (interpreter_suits fuel) inside).returned ended
  cases flow with
  | normal => exact .inl rfl
  | giveBack value => exact .inr ⟨value, rfl⟩
  | leave => rcases suited with loops | choices <;> contradiction
  | next => contradiction

/-- In the run of a program that was read, the body of every function that is called, by the program,
by a built-in function or when its time has come, ends normally or gives a value back, and the program
itself ends normally. -/
theorem jumps_stay_inside {text : String} {source : Nat} {program : List Stmt}
    (read : readProgram text source = .ok program) (host : Host) :
    (∀ (moment : Moment) (f : Function) (closure : ScopeId) (receiver : Value) (args : List Value),
      Reaches program (Machine.initial host) moment →
        moment.activity = .call (.function f closure) receiver args →
          ∀ (fuel : Nat) (machine after : Machine) (flow : Completion),
            Evaluation.items (interpreter fuel) f.body machine = .ok flow after →
              flow = .normal ∨ ∃ value, flow = .giveBack value) ∧
    ∀ (fuel : Nat) (after : Machine) (flow : Completion),
      Machine.execute fuel program (Machine.initial host) = .ok flow after → flow = .normal := by
  have formed := formed_of_readProgram read
  constructor
  · intro moment f closure receiver args reached activity fuel machine after flow ended
    have fits := Setting.fits_initial (S := .about Node.Formed (Machine.initial host)) rfl rfl
    have sound := Setting.sound_of_reaches fits False.elim rfl
      (fun stmt mem => (formed stmt mem).meets) False.elim reached
    have known := sound.known
    rw [activity] at known
    have called : f.Meets Node.Formed := known.1
    exact body_ends (Function.meets_iff.mp called).1 fuel ended
  · intro fuel after flow ended
    have suited := (suits_items (interpreter_suits fuel) formed).returned ended
    cases flow with
    | normal => rfl
    | giveBack value => cases suited
    | leave => rcases suited with loops | choices <;> contradiction
    | next => contradiction

/-- What was read is the call of a function where it is written. -/
def isCallOfFunction : Except (List SyntaxError) (List Stmt) → Bool
  | .ok [.evaluate (.call (.function _) [] _)] => true
  | _ => false

/-- A function that is called where it is written is called. -/
theorem reaches_call (f : Function) (position : Position) (host : Host) :
    ∃ moment, Reaches [.evaluate (.call (.function f) [] position)] (Machine.initial host) moment ∧
      moment.activity = .call (.function f 1) .undefined [] := by
  let called : Expr := .call (.function f) [] position
  let moment : Moment := ⟨.call (.function f 1) .undefined [],
    [.expression called, .statement (.evaluate called)], { Machine.initial host with nesting := 2 }⟩
  obtain ⟨mark, other⟩ := exists_host_ne host
  have quiet : ∀ around machine, ∀ activity : Activity, activity.isTree = true →
      stopAt moment mark ⟨activity, around, machine⟩ = none := by
    intro around machine activity tree
    apply stopAt_of_ne
    intro same
    have called : activity = moment.activity := congrArg Moment.activity same
    rw [called] at tree
    cases tree
  have room : ∀ nesting, nesting < 3 → nesting < Limits.standard.nesting :=
    fun nesting few => Nat.lt_trans few (by decide)
  have callee : Evaluation.callee (watched (stopAt moment mark) 2 moment.around) (.function f)
      { Machine.initial host with nesting := 2 } =
        .ok (.function f 1, .undefined) { Machine.initial host with nesting := 2 } :=
    Run.bind_ok (watched_expression (room 2 (by decide)) (quiet _ _ _ rfl) rfl (quiet _ _ _ rfl)
      rfl)
  have stopped : Stops mark (Machine.executeWatched (stopAt moment mark) 4
      [.evaluate (.call (.function f) [] position)]) (Machine.initial host) := by
    apply Stops.bind
    apply Stops.after rfl
    apply Stops.bind
    apply Stops.statement (room 0 (by decide)) (quiet _ _ _ rfl)
    apply Stops.bind
    apply Stops.expression (room 1 (by decide)) (quiet _ _ _ rfl)
    apply Stops.after callee
    apply Stops.after rfl
    exact Stops.call_here.located position
  exact ⟨moment, reaches_of_stops other stopped, rfl⟩

theorem jumps_stay_inside_call :
    ∃ program moment f, readProgram "(dala () \x7b\x7d)();" 0 = .ok program ∧
      Reaches program (Machine.initial (.scripted [] [] [] [])) moment ∧
      moment.activity = .call (.function f 1) .undefined [] ∧
      ∀ fuel machine after flow, Evaluation.items (interpreter fuel) f.body machine = .ok flow after →
        flow = .normal ∨ ∃ value, flow = .giveBack value := by
  have shape : isCallOfFunction (readProgram "(dala () \x7b\x7d)();" 0) = true := by decide +kernel
  unfold isCallOfFunction at shape
  split at shape
  · next f position read =>
    obtain ⟨moment, reached, activity⟩ := reaches_call f position (.scripted [] [] [] [])
    exact ⟨_, moment, f, read, reached, activity,
      (jumps_stay_inside read _).1 moment f 1 .undefined [] reached activity⟩
  · cases shape

end DarijaScript
