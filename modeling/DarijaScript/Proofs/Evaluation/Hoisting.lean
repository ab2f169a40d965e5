import DarijaScript.Proofs.Evaluation.Balance
import DarijaScript.Proofs.Evaluation.Coinciding
import DarijaScript.Proofs.Evaluation.Frame

/-!
# Hoisting

The execution of a function declaration does nothing: its name was bound before the first statement of
the list in which it stands. So wherever a run reaches a declaration the name is bound in the active
scope itself, unless the declaration stands in no list, as an arm of a condition or of a loop.

A watch that interrupts other declarations only makes no difference to any run: by induction on the
bound, all that is done under it is the same from machines whose active scope is there.
-/

namespace DarijaScript

/-- The innermost activity is a statement with arms, so what is executed in it stands alone. -/
def standsAlone : List Activity → Bool
  | .statement stmt :: _ => stmt.hasArms
  | _ => false

/-- If the statement is a function declaration, then its name is bound in the active scope itself. -/
def Machine.Hoisted (machine : Machine) (stmt : Stmt) : Prop :=
  ∀ f name, stmt = .defineFunction f → f.name = some name →
    machine.store.declares machine.scope name.name = true

/-! ### Binding functions -/

/-- The active scope is there. Nothing is asked of names, trees and exceptions. -/
def Invariant.present : Invariant where
  good := fun _ => True
  mayBind := fun _ => True
  fits := fun store id => id < store.scopes.size
  changes := Store.Extends
  raises := fun _ => True
  refl := Store.extends_refl
  trans := Store.extends_trans
  others := fun same _ => Store.extends_of_scopes_eq same
  binds := fun _ => Store.extends_define
  assigns := fun _ _ _ _ => Store.extends_define
  adds := Store.extends_addScope
  kept := fun inside changes => changes.lt_size inside
  next := fun _ => trivial
  enters := fun _ => (Store.size_addChild _).symm ▸ Nat.lt_succ_self _
  renews := fun _ => (Store.size_addSnapshot _).symm ▸ Nat.lt_succ_self _
  receiver := fun _ _ => trivial
  nesting := fun _ => trivial
  located := fun _ _ => trivial

instance : Invariant.present.Receiving where
  receives := fun _ _ bound => Store.lt_size_of_contains (Store.contains_of_declares bound)

theorem Invariant.fits_present {c : Stance} {machine : Machine}
    (inside : machine.scope < machine.store.scopes.size) : present.Fits c machine :=
  ⟨Store.meets_of_forall Node.marked_true _, inside, fun _ => trivial⟩

instance : Invariant.present.toComparing.Draining where
  next := by
    intro c
    have next : Invariant.present.Holds c Run.nextAppointment fun _ => True := .nextAppointment
    have knows := Value.meets_of_forall Node.marked_true
    exact (Invariant.present.toComparing.runLogic c).mono next.coincides fun _ _ _ _ =>
      ⟨knows _, fun _ _ => knows _⟩
  limit := ⟨trivial, .inl trivial⟩

/-- The functions declared among some statements are bound, and all that was bound still is. -/
theorem exists_hoist (stmts : List Stmt) (machine : Machine)
    (inside : machine.scope < machine.store.scopes.size) :
    ∃ store, Evaluation.hoist stmts machine = .ok () { machine with store := store } ∧
      machine.store.Extends store ∧
        ∀ stmt ∈ stmts, Machine.Hoisted { machine with store := store } stmt := by
  induction stmts generalizing machine with
  | nil => exact ⟨machine.store, rfl, .of_scopes_eq .refl rfl, fun _ mem => by cases mem⟩
  | cons stmt rest ih =>
    match stmt with
    | .defineFunction f =>
      cases named : f.name with
      | none =>
        obtain ⟨store, ran, further, hoisted⟩ := ih machine inside
        refine ⟨store, ?_, further, List.forall_mem_cons.mpr ⟨?_, hoisted⟩⟩
        · unfold Evaluation.hoist
          rw [named]
          exact ran
        · rintro _ name ⟨⟩ found
          rw [named] at found
          cases found
      | some name =>
        let binding : Binding := ⟨.function f machine.scope, true⟩
        obtain ⟨store, ran, further, hoisted⟩ := ih
          { machine with store := machine.store.define machine.scope name.name binding }
          (by rwa [Store.size_define])
        refine ⟨store, ?_, .trans .trans Store.extends_define further,
          List.forall_mem_cons.mpr ⟨?_, hoisted⟩⟩
        · unfold Evaluation.hoist
          rw [named]
          exact ran
        · rintro _ found ⟨⟩ same
          rw [named] at same
          cases same
          exact further.declares (Store.declares_define inside)
    | .declare _ _ _ | .block _ | .conditional _ _ _ | .whileLoop _ _ | .doWhileLoop _ _
    | .forLoop _ _ _ _ | .attempt _ _ _ | .choice _ _ | .giveBack _ | .leave | .next
    | .evaluate _ | .empty =>
      obtain ⟨store, ran, further, hoisted⟩ := ih machine inside
      exact ⟨store, ran, further, List.forall_mem_cons.mpr ⟨(by rintro _ _ ⟨⟩), hoisted⟩⟩

/-- What has been bound before a statement is still bound in the active scope after it. -/
theorem hoisted_after {fuel : Nat} {stmt other : Stmt} {machine after : Machine} {flow : Completion}
    (inside : machine.scope < machine.store.scopes.size)
    (ended : (interpreter fuel).statement stmt machine = .ok flow after)
    (hoisted : machine.Hoisted other) :
    after.scope < after.store.scopes.size ∧ after.Hoisted other := by
  let J := Invariant.present.toJudgement
  have executed : J.holds ⟨True, False⟩ ((interpreter fuel).statement stmt) J.KnowsFlow :=
    (Judgement.respects_interpreter fuel).statement trivial fun _ _ => trivial
  have kept := executed machine (Invariant.fits_present inside)
  have balanced := statement_balanced fuel machine stmt
  rw [ended] at kept balanced
  refine ⟨kept.2.fits.active, fun f name eq named => ?_⟩
  rw [balanced.1]
  exact kept.2.changes.declares (hoisted f name eq named)

/-! ### Watching declarations -/

/-- The watch interrupts function declarations only that are in a list and whose names the active scope
does not bind itself. -/
def Watch.IgnoresHoisted (watch : Watch) : Prop :=
  ∀ moment : Moment, (∀ stmt, moment.activity = .statement stmt →
    standsAlone moment.around = true ∨ moment.machine.Hoisted stmt) → watch moment = none

section

variable {watch : Watch} {activity : Activity} {around : List Activity} {α : Type} {steps : Run α}

/-- An activity at whose beginning and ends the run is not interrupted. -/
theorem Run.watched_eq {machine : Machine} (quiet : watch ⟨activity, around, machine⟩ = none)
    (quiet' : ∀ after, watch ⟨.ended activity, around, after⟩ = none) :
    Run.watched watch activity around steps machine = steps machine := by
  rw [Run.watched, Run.bind_ok (Run.passing_of_quiet () quiet)]
  cases ended : steps machine with
  | ok value after =>
    rw [Run.bind_ok ended]
    exact Run.passing_of_quiet value (quiet' after)
  | error interruption after => rw [Run.bind_error ended]

/-- The ends of activities are not interrupted. -/
theorem Watch.IgnoresHoisted.ended (ignores : watch.IgnoresHoisted) (after : Machine) :
    watch ⟨.ended activity, around, after⟩ = none := ignores _ (by rintro _ ⟨⟩)

/-- Expressions and calls are not interrupted. -/
theorem Invariant.Coincides.watched {I : Invariant} {c : Stance} {steps' : Run α}
    {known : α → Prop} (h : I.Coincides c steps steps' known) (ignores : watch.IgnoresHoisted)
    (other : ∀ stmt, activity ≠ .statement stmt) :
    I.Coincides c steps (Run.watched watch activity around steps') known where
  holds := h.holds
  same := fun machine fits =>
    (Run.watched_eq (ignores _ fun stmt eq => absurd eq (other stmt)) ignores.ended).trans
      (h.same machine fits)

end

/-- Under the watch, what is done inside some activities is the same from machines whose active scope is
there, but for statements that are neither alone nor hoisted. -/
structure Unmoved (watch : Watch) (fuel : Nat) (around : List Activity) : Prop where
  values : Invariant.present.toComparing.Values (interpreter fuel) (watched watch fuel around)
  statement : ∀ stmt machine, machine.scope < machine.store.scopes.size →
    standsAlone around = true ∨ machine.Hoisted stmt →
      (watched watch fuel around).statement stmt machine =
        (interpreter fuel).statement stmt machine

namespace Unmoved

variable {watch : Watch} {fuel : Nat} {around : List Activity}

theorem sequence (h : Unmoved watch fuel around) (stmts : List Stmt) (machine : Machine)
    (inside : machine.scope < machine.store.scopes.size)
    (hoisted : ∀ stmt ∈ stmts, machine.Hoisted stmt) :
    Evaluation.sequence (watched watch fuel around) stmts machine =
      Evaluation.sequence (interpreter fuel) stmts machine := by
  induction stmts generalizing machine with
  | nil => rfl
  | cons stmt rest ih =>
    obtain ⟨first, others⟩ := List.forall_mem_cons.mp hoisted
    have same := h.statement stmt machine inside (.inr first)
    unfold Evaluation.sequence
    cases ended : (interpreter fuel).statement stmt machine with
    | error interruption after =>
      rw [ended] at same
      rw [Run.bind_error ended, Run.bind_error same]
    | ok flow after =>
      rw [ended] at same
      rw [Run.bind_ok ended, Run.bind_ok same]
      split
      · exact ih after (hoisted_after inside ended first).1 fun other mem =>
          (hoisted_after inside ended (others other mem)).2
      · rfl

/-- Lists of statements are executed alike, since their functions are bound first. -/
theorem rows (h : Unmoved watch fuel around) :
    Invariant.present.toComparing.Rows (interpreter fuel) (watched watch fuel around) where
  toValues := h.values
  items := by
    intro c stmts owns marked
    have executed : Invariant.present.toComparing.holds c (Evaluation.items (interpreter fuel) stmts)
        Invariant.present.toComparing.KnowsFlow :=
      Judgement.items (Judgement.respects_interpreter fuel) owns marked
    refine ⟨executed.holds, fun machine fits => ?_⟩
    obtain ⟨store, ran, further, hoisted⟩ := exists_hoist stmts machine fits.active
    unfold Evaluation.items
    rw [Run.bind_ok ran, Run.bind_ok ran]
    exact h.sequence stmts _ (further.lt_size fits.active) hoisted

/-- Arms are executed alike, since no declaration that stands alone is interrupted. -/
theorem agree (h : Unmoved watch fuel around) (alone : standsAlone around = true) :
    Invariant.present.toComparing.Agree (interpreter fuel) (watched watch fuel around) where
  statement := by
    intro c stmt owns marked
    have executed : Invariant.present.toComparing.holds c ((interpreter fuel).statement stmt)
        Invariant.present.toComparing.KnowsFlow :=
      (Judgement.respects_interpreter fuel).statement owns marked
    exact ⟨executed.holds, fun machine fits => h.statement stmt machine fits.active (.inl alone)⟩
  expression := h.values.expression
  call := h.values.call

end Unmoved

/-- A watch that ignores what is hoisted makes no difference. -/
theorem unmoved {watch : Watch} (ignores : watch.IgnoresHoisted) (fuel : Nat) :
    ∀ around, Unmoved watch fuel around := by
  let J := Invariant.present.toComparing
  induction fuel with
  | zero => exact fun _ => ⟨Judgement.agree_zero.values, fun _ _ _ _ => rfl⟩
  | succ fuel ih =>
    refine fun around => ⟨⟨?_, ?_⟩, fun stmt machine inside fine => ?_⟩
    · intro c expr marked
      have evaluated := Judgement.expression (c := c) (ih (.expression expr :: around)).values marked
      exact (evaluated.watched ignores (by rintro _ ⟨⟩)).deeper
    · intro c callee receiver args known owner passed
      have called := Judgement.invoke (c := c) (ih (.call callee receiver args :: around)).rows callee
        receiver args known owner passed
      exact called.watched ignores (by rintro _ ⟨⟩)
    · apply Run.deeper_congr
      have inner := ih (.statement stmt :: around)
      have executed : J.relates ⟨True, False⟩ (Evaluation.statement (interpreter fuel) fuel stmt)
          (Evaluation.statement (watched watch fuel (.statement stmt :: around)) fuel stmt)
          J.KnowsFlow :=
        Judgement.statement_of_rows inner.rows fuel inner.agree (fun _ => trivial) fun _ _ => trivial
      have quiet : watch ⟨.statement stmt, around, { machine with nesting := machine.nesting + 1 }⟩ =
          none := ignores _ (by rintro _ ⟨⟩; exact fine)
      exact (Run.watched_eq quiet ignores.ended).trans
        (executed.same _ (Invariant.fits_present inside))

/-- **Function declarations are hoisted, unless they stand alone.** Wherever the run of a program
reaches a function declaration in a list of statements, and not as an arm of a condition or of a loop,
its name is bound in the active scope itself. -/
theorem function_hoisted {program : List Stmt} {start : Machine} {moment : Moment} {f : Function}
    {name : Identifier} (inside : start.scope < start.store.scopes.size)
    (reached : Reaches program start moment)
    (declares : moment.activity = .statement (.defineFunction f)) (named : f.name = some name)
    (among : standsAlone moment.around = false) :
    moment.machine.store.declares moment.machine.scope name.name = true := by
  obtain ⟨fuel, watch, only, differs⟩ := reached
  apply Classical.byContradiction
  intro unbound
  apply differs
  have ignores : watch.IgnoresHoisted := by
    intro other fine
    apply only
    rintro rfl
    rcases fine _ declares with alone | hoisted
    · rw [among] at alone
      cases alone
    · exact unbound (hoisted f name rfl named)
  have marked : ∀ stmt ∈ program, stmt.Marked Invariant.present.good := fun _ _ _ _ => trivial
  have executed := Judgement.program (J := Invariant.present.toComparing) (c := ⟨True, False⟩)
    (unmoved ignores fuel []).rows trivial marked
  exact executed.same start (Invariant.fits_present inside)

theorem function_hoisted_single :
    ∃ f name moment, Reaches [.defineFunction f] (Machine.initial (.scripted [] [] [] [])) moment ∧
      moment.activity = .statement (.defineFunction f) ∧ f.name = some name ∧
        moment.machine.store.declares moment.machine.scope name.name = true := by
  let start := Machine.initial (.scripted [] [] [] [])
  let name : Identifier := ⟨"f", ⟨1, 6⟩⟩
  let f : Function := ⟨some name, [], [], ⟨0, ⟨1, 1⟩⟩⟩
  obtain ⟨mark, other⟩ := exists_host_ne start.host
  have inside : start.scope < start.store.scopes.size := by decide
  obtain ⟨store, ran, -, -⟩ := exists_hoist [.defineFunction f] start inside
  have stopped : Stops mark (Machine.executeWatched (stopAt
      ⟨.statement (.defineFunction f), [], { start with store := store, nesting := 1 }⟩ mark) 1
      [.defineFunction f]) start := by
    apply Stops.bind
    apply Stops.after ran
    exact (Stops.statement_here (show 0 < Limits.standard.nesting by decide)).bind
  have reached := reaches_of_stops other stopped
  exact ⟨f, name, _, reached, rfl, rfl, function_hoisted inside reached rfl rfl rfl⟩

/-- Where the run reaches the declaration of a function as the arm of a condition, no name is bound in
the active scope. -/
theorem function_not_hoisted (f : Function) (host : Host) :
    ∃ moment, Reaches [.conditional (.literal (.boolean true)) (.defineFunction f) none]
        (Machine.initial host) moment ∧
      moment.activity = .statement (.defineFunction f) ∧
        ∀ name, moment.machine.store.declares moment.machine.scope name = false := by
  let start := Machine.initial host
  let test : Expr := .literal (.boolean true)
  let condition : Stmt := .conditional test (.defineFunction f) none
  obtain ⟨mark, other⟩ := exists_host_ne host
  let moment : Moment :=
    ⟨.statement (.defineFunction f), [.statement condition], { start with nesting := 2 }⟩
  have stopped : Stops mark (Machine.executeWatched (stopAt moment mark) 2 [condition]) start := by
    have quiet : stopAt moment mark ⟨.statement condition, [], { start with nesting := 1 }⟩ =
        none := by
      apply stopAt_of_length
      exact Nat.zero_ne_one
    have quiet' : ∀ activity machine, activity ≠ .statement (.defineFunction f) →
        stopAt moment mark ⟨activity, [.statement condition], machine⟩ = none := fun _ _ ne =>
      stopAt_of_ne (fun same => ne (congrArg Moment.activity same)) mark
    have evaluated : (watched (stopAt moment mark) 1 [.statement condition]).expression test
        { start with nesting := 1 } = .ok (.boolean true) { start with nesting := 1 } := by
      apply watched_expression (show 1 < Limits.standard.nesting by decide)
      · exact quiet' _ _ nofun
      · rfl
      · exact quiet' _ _ nofun
      · rfl
    have tested : Evaluation.holds (watched (stopAt moment mark) 1 [.statement condition]) test
        { start with nesting := 1 } = .ok true { start with nesting := 1 } :=
      Run.bind_ok evaluated
    have room : start.nesting < start.limits.nesting := show 0 < Limits.standard.nesting by decide
    apply Stops.bind
    apply Stops.after rfl
    apply Stops.bind
    apply Stops.statement room quiet
    apply Stops.after tested
    exact Stops.statement_here (show 1 < Limits.standard.nesting by decide)
  exact ⟨moment, reaches_of_stops other stopped, rfl, fun _ => rfl⟩

end DarijaScript
