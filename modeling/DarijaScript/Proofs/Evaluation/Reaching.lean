import DarijaScript.Proofs.Evaluation.Moments

/-!
# Reaching a moment

A run that is stopped at a moment and leaves a mark there reaches this moment. Nothing handles a stop,
so the mark is seen at the end of the run.
-/

namespace DarijaScript

open Classical in
/-- The run is stopped at one moment and leaves a mark: another host. -/
noncomputable def stopAt (moment : Moment) (mark : Host) : Watch := fun other =>
  if other = moment then some (.outOfFuel, { moment.machine with host := mark }) else none

theorem stopAt_self (moment : Moment) (mark : Host) :
    stopAt moment mark moment = some (.outOfFuel, { moment.machine with host := mark }) := if_pos rfl

theorem stopAt_of_ne {moment other : Moment} (ne : other ≠ moment) (mark : Host) :
    stopAt moment mark other = none := if_neg ne

theorem stopAt_of_length {moment other : Moment}
    (ne : other.around.length ≠ moment.around.length) (mark : Host) :
    stopAt moment mark other = none :=
  stopAt_of_ne (fun eq => ne (congrArg (·.around.length) eq)) mark

/-- The run is stopped and leaves the mark. -/
def Stops {α : Type} (mark : Host) (x : Run α) (machine : Machine) : Prop :=
  ∃ after, x machine = .error .outOfFuel after ∧ after.host = mark

theorem Run.deeper_of_lt {α : Type} (steps : Run α) {machine : Machine}
    (room : machine.nesting < machine.limits.nesting) :
    Run.deeper steps machine = Setting.restored ({ · with nesting := machine.nesting })
      (steps { machine with nesting := machine.nesting + 1 }) := by
  rw [Run.deeper, if_neg (Nat.not_le.mpr room)]
  rfl

theorem Run.located_of_ok {α : Type} {steps : Run α} {position : Position} {start after : Machine}
    {value : α} (h : steps start = .ok value after) :
    located position steps start = .ok value after := by
  rw [located, h]

theorem Run.lookup_of_binding? (machine : Machine) {name : String} {binding : Binding}
    (h : machine.store.binding? machine.scope name = some binding) :
    lookup name machine = .ok binding.value machine := by
  have found : machine.store.lookup? machine.scope name = some binding.value := by
    rw [Store.lookup?, Store.resolve?_of_binding? h]
    rfl
  rw [lookup_apply, found]
  rfl

namespace Stops

variable {α β : Type} {mark : Host} {x : Run α} {machine middle : Machine}

theorem bind {f : α → Run β} (first : Stops mark x machine) : Stops mark (x >>= f) machine := by
  obtain ⟨after, eq, left⟩ := first
  exact ⟨after, Run.bind_error eq, left⟩

theorem after {f : α → Run β} {value : α} (first : x machine = .ok value middle)
    (next : Stops mark (f value) middle) : Stops mark (x >>= f) machine := by
  obtain ⟨after, eq, left⟩ := next
  exact ⟨after, (Run.bind_ok first).trans eq, left⟩

theorem located (h : Stops mark x machine) (position : Position) :
    Stops mark (Run.located position x) machine := by
  obtain ⟨after, eq, left⟩ := h
  refine ⟨after, ?_, left⟩
  rw [Run.located, eq]

theorem deeper (room : machine.nesting < machine.limits.nesting)
    (h : Stops mark x { machine with nesting := machine.nesting + 1 }) :
    Stops mark (Run.deeper x) machine := by
  obtain ⟨after, eq, left⟩ := h
  rw [Stops, Run.deeper_of_lt x room, eq]
  exact ⟨_, rfl, left⟩

theorem inScope {id : ScopeId} (h : Stops mark x { machine with scope := id }) :
    Stops mark (Run.inScope id x) machine := by
  obtain ⟨after, eq, left⟩ := h
  rw [Stops, Run.inScope, eq]
  exact ⟨_, rfl, left⟩

end Stops

section

variable {watch : Watch} {mark : Host} {around : List Activity} {machine : Machine} {fuel : Nat}

theorem Run.passing_of_quiet {α : Type} {activity : Activity} (value : α)
    (quiet : watch ⟨activity, around, machine⟩ = none) :
    Run.passing watch activity around value machine = .ok value machine := by
  rw [Run.passing, quiet]

/-- An activity at whose beginning and end the run is not interrupted. -/
theorem Run.watched_of_quiet {α : Type} {activity : Activity} {steps : Run α} {value : α}
    {after : Machine} (quiet : watch ⟨activity, around, machine⟩ = none)
    (ended : steps machine = .ok value after)
    (quiet' : watch ⟨.ended activity, around, after⟩ = none) :
    Run.watched watch activity around steps machine = .ok value after := by
  rw [Run.watched, Run.bind_ok (Run.passing_of_quiet () quiet), Run.bind_ok ended]
  exact Run.passing_of_quiet value quiet'

theorem watched_statement {stmt : Stmt} {flow : Completion} {after : Machine}
    (room : machine.nesting < machine.limits.nesting)
    (quiet : watch ⟨.statement stmt, around, { machine with nesting := machine.nesting + 1 }⟩ =
      none)
    (executed : Evaluation.statement (watched watch fuel (.statement stmt :: around)) fuel stmt
      { machine with nesting := machine.nesting + 1 } =
        .ok flow { after with nesting := machine.nesting + 1 })
    (quiet' : watch ⟨.ended (.statement stmt), around,
      { after with nesting := machine.nesting + 1 }⟩ = none)
    (same : after.nesting = machine.nesting) :
    (watched watch (fuel + 1) around).statement stmt machine = .ok flow after := by
  have entered := Run.deeper_of_lt (Run.watched watch (.statement stmt) around
    (Evaluation.statement (watched watch fuel (.statement stmt :: around)) fuel stmt)) room
  rw [Run.watched_of_quiet quiet executed quiet', ← same] at entered
  exact entered

theorem watched_expression {expr : Expr} {value : Value} {after : Machine}
    (room : machine.nesting < machine.limits.nesting)
    (quiet : watch ⟨.expression expr, around, { machine with nesting := machine.nesting + 1 }⟩ =
      none)
    (evaluated : Evaluation.expression (watched watch fuel (.expression expr :: around)) expr
      { machine with nesting := machine.nesting + 1 } =
        .ok value { after with nesting := machine.nesting + 1 })
    (quiet' : watch ⟨.ended (.expression expr), around,
      { after with nesting := machine.nesting + 1 }⟩ = none)
    (same : after.nesting = machine.nesting) :
    (watched watch (fuel + 1) around).expression expr machine = .ok value after := by
  have entered := Run.deeper_of_lt (Run.watched watch (.expression expr) around
    (Evaluation.expression (watched watch fuel (.expression expr :: around)) expr)) room
  rw [Run.watched_of_quiet quiet evaluated quiet', ← same] at entered
  exact entered

theorem watched_call {callee receiver value : Value} {args : List Value} {after : Machine}
    (quiet : watch ⟨.call callee receiver args, around, machine⟩ = none)
    (called : Evaluation.invoke (watched watch fuel (.call callee receiver args :: around)) callee
      receiver args machine = .ok value after)
    (quiet' : watch ⟨.ended (.call callee receiver args), around, after⟩ = none) :
    (watched watch (fuel + 1) around).call callee receiver args machine = .ok value after :=
  Run.watched_of_quiet quiet called quiet'

/-- An activity at whose beginning the run is not interrupted stops if its steps do. -/
theorem stops_watched {α : Type} {activity : Activity} {steps : Run α}
    (quiet : watch ⟨activity, around, machine⟩ = none) (h : Stops mark steps machine) :
    Stops mark (Run.watched watch activity around steps) machine :=
  .after (Run.passing_of_quiet () quiet) h.bind

theorem stops_here {α : Type} {activity : Activity} {steps : Run α} :
    Stops mark (Run.watched (stopAt ⟨activity, around, machine⟩ mark) activity around steps)
      machine := by
  apply Stops.bind
  rw [Stops, Run.passing, stopAt_self]
  exact ⟨_, rfl, rfl⟩

theorem stops_ended {α : Type} {activity : Activity} {steps : Run α} {value : α} {after : Machine}
    (ended : steps machine = .ok value after) :
    Stops mark (Run.watched (stopAt ⟨.ended activity, around, after⟩ mark) activity around steps)
      machine := by
  have quiet : stopAt ⟨.ended activity, around, after⟩ mark ⟨activity, around, machine⟩ = none := by
    apply stopAt_of_ne
    intro same
    have eq : activity = .ended activity := congrArg Moment.activity same
    cases eq
  apply Stops.after (Run.passing_of_quiet () quiet)
  apply Stops.after ended
  rw [Stops, Run.passing, stopAt_self]
  exact ⟨_, rfl, rfl⟩

theorem Stops.statement {stmt : Stmt} (room : machine.nesting < machine.limits.nesting)
    (quiet : watch ⟨.statement stmt, around, { machine with nesting := machine.nesting + 1 }⟩ =
      none)
    (h : Stops mark (Evaluation.statement (watched watch fuel (.statement stmt :: around)) fuel stmt)
      { machine with nesting := machine.nesting + 1 }) :
    Stops mark ((watched watch (fuel + 1) around).statement stmt) machine :=
  .deeper room (stops_watched quiet h)

theorem Stops.expression {expr : Expr} (room : machine.nesting < machine.limits.nesting)
    (quiet : watch ⟨.expression expr, around, { machine with nesting := machine.nesting + 1 }⟩ =
      none)
    (h : Stops mark (Evaluation.expression (watched watch fuel (.expression expr :: around)) expr)
      { machine with nesting := machine.nesting + 1 }) :
    Stops mark ((watched watch (fuel + 1) around).expression expr) machine :=
  .deeper room (stops_watched quiet h)

theorem Stops.call {callee receiver : Value} {args : List Value}
    (quiet : watch ⟨.call callee receiver args, around, machine⟩ = none)
    (h : Stops mark (Evaluation.invoke (watched watch fuel (.call callee receiver args :: around))
      callee receiver args) machine) :
    Stops mark ((watched watch (fuel + 1) around).call callee receiver args) machine :=
  stops_watched quiet h

theorem Stops.call_here {callee receiver : Value} {args : List Value} :
    Stops mark ((watched (stopAt ⟨.call callee receiver args, around, machine⟩ mark)
      (fuel + 1) around).call callee receiver args) machine := stops_here

theorem Stops.statement_here {stmt : Stmt} (room : machine.nesting < machine.limits.nesting) :
    Stops mark ((watched (stopAt
      ⟨.statement stmt, around, { machine with nesting := machine.nesting + 1 }⟩ mark)
      (fuel + 1) around).statement stmt) machine := .deeper room stops_here

end

/-- There is another host. -/
theorem exists_host_ne (host : Host) : ∃ mark, mark ≠ host := by
  refine ⟨{ host with confirm := fun log message => !host.confirm log message }, fun same => ?_⟩
  have answer := congrFun (congrFun (congrArg Host.confirm same) #[]) ""
  simp at answer

/-- No run leaves a mark by itself. -/
theorem not_stops_executeAll {program : List Stmt} {start : Machine} {mark : Host} {fuel : Nat}
    (other : mark ≠ start.host) : ¬ Stops mark (Machine.executeAll fuel program) start := by
  rintro ⟨after, eq, left⟩
  have run := Setting.InStep.program
    (c := ⟨start.depth, start.nesting, constantsOf program, true⟩)
    ((Setting.plain start).agree_interpreter fuel _ _) (fun _ _ _ _ => trivial)
    (List.Subset.refl _) (List.Subset.refl _) False.elim
  have ends := run.joint start (Setting.fits_plain start (constantsOf program))
  rw [← Machine.executeAll, eq] at ends
  exact other (left.symm.trans (ends.1 id).2)

theorem not_stops_evaluate {expr : Expr} {start : Machine} {mark : Host} {fuel : Nat}
    (other : mark ≠ start.host) : ¬ Stops mark (Machine.evaluate fuel expr) start := by
  rintro ⟨after, eq, left⟩
  have agree := (Setting.plain start).agree_interpreter fuel start.depth start.nesting
  have ends := (agree.expressions [] true expr fun _ _ => trivial).joint start
    (Setting.fits_plain start [])
  rw [← Machine.evaluate, eq] at ends
  exact other (left.symm.trans (ends.1 id).2)

theorem reaches_of_stops {program : List Stmt} {start : Machine} {moment : Moment} {mark : Host}
    {fuel : Nat} (other : mark ≠ start.host)
    (stops : Stops mark (Machine.executeWatched (stopAt moment mark) fuel program) start) :
    Reaches program start moment := by
  refine ⟨fuel, stopAt moment mark, fun _ ne => stopAt_of_ne ne mark, fun same => ?_⟩
  rw [Stops, same] at stops
  exact not_stops_executeAll other stops

end DarijaScript
