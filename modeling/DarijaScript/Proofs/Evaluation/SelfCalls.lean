import DarijaScript.Program
import DarijaScript.Proofs.Builtin.Methods
import DarijaScript.Proofs.Evaluation.Reaching

/-!
# Built-in functions that call themselves

A method of arrays that calls what it is passed for every element can be an element of its own array.
If it is passed to itself, it calls itself, which no counter sees: however many calls one asks for, as
many of them are going on at some moment.
-/

namespace DarijaScript

theorem Run.located_arrayMethod (machine : Machine) (id : ArrayId) (method : ArrayMethod)
    (position : Position) :
    located position (member (.array id) (.string method.name)) machine =
      .ok (.arrayMethod method id) machine := by
  apply located_of_ok
  change ofExcept (machine.store.member (.array id) (.string method.name)) machine = _
  rw [Store.member_arrayMethod]
  rfl

/-- A method of a named array. -/
def methodOf (name : String) (method : ArrayMethod) (start position : Position) : Expr :=
  .member (.identifier ⟨name, start⟩) (.named method.name) position

/-- A method of a named array is called with a method of the same array. -/
def passing (name : String) (method passed : ArrayMethod) (spot : Nat → Position) : Expr :=
  .call (methodOf name method (spot 0) (spot 1)) [methodOf name passed (spot 2) (spot 3)] (spot 4)

section

variable {watch : Watch} (machine : Machine) {around : List Activity} {fuel length : Nat}
  {id : ArrayId} {name : String} {assignable : Bool}
  (quiet : ∀ moment, moment.around.length < length → watch moment = none)
  (bound : machine.store.binding? machine.scope name = some ⟨.array id, assignable⟩)

include quiet bound

theorem evaluated_name (start : Position) (short : around.length < length)
    (room : machine.nesting < machine.limits.nesting) :
    (watched watch (fuel + 1) around).expression (.identifier ⟨name, start⟩) machine =
      .ok (.array id) machine := by
  let entered : Machine := { machine with nesting := machine.nesting + 1 }
  have found : Evaluation.expression
      (watched watch fuel (.expression (.identifier ⟨name, start⟩) :: around))
      (.identifier ⟨name, start⟩) entered = .ok (.array id) entered :=
    Run.located_of_ok (Run.lookup_of_binding? entered bound)
  exact watched_expression room (quiet _ short) found (quiet _ short) rfl

theorem callee_methodOf (method : ArrayMethod) (start position : Position)
    (short : around.length < length) (room : machine.nesting < machine.limits.nesting) :
    Evaluation.callee (watched watch (fuel + 1) around) (methodOf name method start position)
      machine = .ok (.arrayMethod method id, .array id) machine := by
  have owner : (watched watch (fuel + 1) around).expression (.identifier ⟨name, start⟩) machine =
      .ok (.array id) machine := evaluated_name machine quiet bound start short room
  have selected := Run.located_arrayMethod machine id method position
  exact (Run.bind_ok owner).trans ((Run.bind_ok rfl).trans (Run.bind_ok selected))

theorem arguments_methodOf (method : ArrayMethod) (start position : Position)
    (short : around.length + 1 < length) (room : machine.nesting + 1 < machine.limits.nesting) :
    Evaluation.arguments (watched watch (fuel + 2) around) [methodOf name method start position]
      machine = .ok [.arrayMethod method id] machine := by
  let expr : Expr := methodOf name method start position
  let entered : Machine := { machine with nesting := machine.nesting + 1 }
  have owner : (watched watch (fuel + 1) (.expression expr :: around)).expression
      (.identifier ⟨name, start⟩) entered = .ok (.array id) entered :=
    evaluated_name entered quiet bound start short room
  have selected := Run.located_arrayMethod entered id method position
  have found : Evaluation.expression (watched watch (fuel + 1) (.expression expr :: around)) expr
      entered = .ok (.arrayMethod method id) entered :=
    (Run.bind_ok owner).trans ((Run.bind_ok rfl).trans selected)
  have outer : around.length < length := Nat.lt_of_succ_lt short
  have value : (watched watch (fuel + 2) around).expression expr machine =
      .ok (.arrayMethod method id) machine :=
    watched_expression (Nat.lt_of_succ_lt room) (quiet _ outer) found (quiet _ outer) rfl
  change Evaluation.expressions _ _ machine = _
  exact (Run.bind_ok value).trans (Run.bind_ok rfl)

/-- A method of the array is put into the array. -/
theorem evaluated_push (passed : ArrayMethod) (spot : Nat → Position)
    (short : around.length + 2 < length) (room : machine.nesting + 2 < machine.limits.nesting) :
    ∃ value, (watched watch (fuel + 3) around).expression (passing name .push passed spot) machine =
      .ok value { machine with
        store := machine.store.modifyArray id (· ++ [Value.arrayMethod passed id]) } := by
  let expr : Expr := passing name .push passed spot
  let inside : List Activity := .expression expr :: around
  let entered : Machine := { machine with nesting := machine.nesting + 1 }
  let pushed : Machine := { entered with
    store := machine.store.modifyArray id (· ++ [Value.arrayMethod passed id]) }
  let size : Value := .ofNat (pushed.store.elements id).size
  have within : inside.length < length := Nat.lt_of_succ_lt short
  have outer : around.length < length := Nat.lt_of_succ_lt within
  have callee : Evaluation.callee (watched watch (fuel + 2) inside)
      (methodOf name .push (spot 0) (spot 1)) entered =
        .ok (.arrayMethod .push id, .array id) entered :=
    callee_methodOf entered quiet bound .push _ _ within (Nat.lt_of_succ_lt room)
  have args : Evaluation.arguments (watched watch (fuel + 2) inside)
      [methodOf name passed (spot 2) (spot 3)] entered = .ok [.arrayMethod passed id] entered :=
    arguments_methodOf entered quiet bound passed _ _ short room
  have called : (watched watch (fuel + 2) inside).call (.arrayMethod .push id) (.array id)
      [.arrayMethod passed id] entered = .ok size pushed :=
    watched_call (quiet _ within) rfl (quiet _ within)
  have evaluated : Evaluation.expression (watched watch (fuel + 2) inside) expr entered =
      .ok size pushed :=
    (Run.bind_ok callee).trans ((Run.bind_ok (Run.located_of_ok args)).trans
      (Run.located_of_ok called))
  refine ⟨size, watched_expression ?_ (quiet _ outer) evaluated (quiet _ outer) rfl⟩
  exact Nat.lt_of_succ_lt (Nat.lt_of_succ_lt room)

theorem executed_push (passed : ArrayMethod) (spot : Nat → Position)
    (short : around.length + 3 < length) (room : machine.nesting + 3 < machine.limits.nesting) :
    (watched watch (fuel + 4) around).statement (.evaluate (passing name .push passed spot))
      machine = .ok .normal { machine with
        store := machine.store.modifyArray id (· ++ [Value.arrayMethod passed id]) } := by
  let stmt : Stmt := .evaluate (passing name .push passed spot)
  let entered : Machine := { machine with nesting := machine.nesting + 1 }
  have outer : around.length < length := by omega
  have level : machine.nesting < machine.limits.nesting := by omega
  have pushed : ∃ size, (watched watch (fuel + 3) (.statement stmt :: around)).expression
      (passing name .push passed spot) entered = .ok size { entered with
        store := machine.store.modifyArray id (· ++ [Value.arrayMethod passed id]) } :=
    evaluated_push entered quiet bound passed spot short room
  obtain ⟨size, pushed⟩ := pushed
  exact watched_statement level (quiet _ outer) (Run.bind_ok pushed) (quiet _ outer) rfl

/-- What stops the call of a method stops the expression. -/
theorem stops_passing {mark : Host} (method passed : ArrayMethod) (spot : Nat → Position)
    (short : around.length + 2 < length) (room : machine.nesting + 2 < machine.limits.nesting)
    (h : Stops mark ((watched watch (fuel + 2) (.expression (passing name method passed spot) ::
        around)).call (.arrayMethod method id) (.array id) [.arrayMethod passed id])
      { machine with nesting := machine.nesting + 1 }) :
    Stops mark ((watched watch (fuel + 3) around).expression (passing name method passed spot))
      machine := by
  let inside : List Activity := .expression (passing name method passed spot) :: around
  let entered : Machine := { machine with nesting := machine.nesting + 1 }
  have within : inside.length < length := Nat.lt_of_succ_lt short
  have callee : Evaluation.callee (watched watch (fuel + 2) inside)
      (methodOf name method (spot 0) (spot 1)) entered =
        .ok (.arrayMethod method id, .array id) entered :=
    callee_methodOf entered quiet bound method _ _ within (Nat.lt_of_succ_lt room)
  have args : Evaluation.arguments (watched watch (fuel + 2) inside)
      [methodOf name passed (spot 2) (spot 3)] entered = .ok [.arrayMethod passed id] entered :=
    arguments_methodOf entered quiet bound passed _ _ short room
  apply Stops.expression (Nat.lt_of_succ_lt (Nat.lt_of_succ_lt room))
    (quiet _ (Nat.lt_of_succ_lt within))
  apply Stops.after callee
  apply Stops.after (Run.located_of_ok args)
  exact h.located _

end

theorem executed_declaration {watch : Watch} (machine : Machine) {around : List Activity}
    {fuel length : Nat} {name : String} (start : Position)
    (quiet : ∀ moment, moment.around.length < length → watch moment = none)
    (free : machine.store.binding? machine.scope name = none) (short : around.length + 1 < length)
    (room : machine.nesting + 1 < machine.limits.nesting) :
    (watched watch (fuel + 2) around).statement (.declare .variable ⟨name, start⟩ (some (.array [])))
      machine = .ok .normal { machine with
        store := (machine.store.addArray #[]).define machine.scope name
          ⟨.array machine.store.arrays.size, true⟩ } := by
  let stmt : Stmt := .declare .variable ⟨name, start⟩ (some (.array []))
  let entered : Machine := { machine with nesting := machine.nesting + 1 }
  let allocated : Machine := { entered with store := machine.store.addArray #[] }
  let array : Value := .array machine.store.arrays.size
  let declared : Machine := { allocated with
    store := allocated.store.define machine.scope name ⟨array, true⟩ }
  have outer : around.length < length := Nat.lt_of_succ_lt short
  have value : (watched watch (fuel + 1) (.statement stmt :: around)).expression (.array [])
      entered = .ok array allocated :=
    watched_expression room (quiet _ short) rfl (quiet _ short) rfl
  have binds : Run.located start (Run.declare name array true) allocated = .ok () declared :=
    Run.located_of_ok (Run.declare_of_free free)
  have executed : Evaluation.statement (watched watch (fuel + 1) (.statement stmt :: around))
      (fuel + 1) stmt entered = .ok .normal declared :=
    (Run.bind_ok value).trans (Run.bind_ok binds)
  exact watched_statement (Nat.lt_of_succ_lt room) (quiet _ outer) executed (quiet _ outer) rfl

/-- The method of the first array that calls what it is passed for every element. -/
abbrev Value.again : Value := .arrayMethod .forEach 0

/-- The method is called by itself, for the first element of the array. -/
def Activity.again : Activity := .call .again .undefined [.again, .ofNat 0, .array 0]

section

variable {mark : Host} (machine : Machine) (elements : machine.store.elements 0 = #[.again])

include elements

theorem stops_forEach {watch : Watch} {fuel : Nat} {around : List Activity} {receiver : Value}
    {rest : List Value}
    (h : Stops mark ((watched watch fuel around).call .again .undefined
      [.again, .ofNat 0, .array 0]) machine) :
    Stops mark (Evaluation.invoke (watched watch fuel around) .again receiver (.again :: rest))
      machine := by
  have callback : Builtins.callbackArgument (.again :: rest) machine = .ok .again machine := rfl
  have listed : Builtins.elementsOf (.array 0) machine = .ok [.again] machine := by
    change EStateM.Result.ok (machine.store.elements 0).toList machine = _
    rw [elements]
  apply Stops.after callback
  apply Stops.after listed
  apply Stops.bind
  exact Stops.bind h

/-- If an array holds its own method, the method calls itself again and again. -/
theorem stops_again (count : Nat) (around : List Activity) :
    Stops mark ((watched (stopAt ⟨.again, List.replicate count .again ++ around, machine⟩ mark)
      (count + 1) around).call .again .undefined [.again, .ofNat 0, .array 0]) machine := by
  induction count generalizing around with
  | zero => exact Stops.call_here
  | succ count ih =>
    have further := ih (.again :: around)
    have pile : List.replicate count Activity.again ++ .again :: around =
        List.replicate (count + 1) .again ++ around := by
      rw [List.replicate_succ', List.append_assoc]
      rfl
    rw [pile] at further
    apply Stops.call
    · apply stopAt_of_length
      simp
    · exact stops_forEach machine elements further

end

/-- The array's method is called with itself: the moment at which it has called itself so often. -/
def Moment.again (machine : Machine) (called : Expr) (count : Nat) : Moment :=
  ⟨.again, List.replicate (count + 1) .again ++
    [.call .again (.array 0) [.again], .expression called, .statement (.evaluate called)],
    { machine with nesting := machine.nesting + 2 }⟩

theorem Moment.calls_again (machine : Machine) (called : Expr) (count : Nat) :
    ((Moment.again machine called count).activity ::
      (Moment.again machine called count).around).countP Activity.isCall = count + 3 := by
  have pile : (List.replicate (count + 1) Activity.again).countP Activity.isCall = count + 1 := by
    simp [List.countP_replicate, Activity.again, Activity.isCall]
  have others : (Moment.again machine called count).activity.isCall = true := rfl
  rw [List.countP_cons, if_pos others, Moment.again, List.countP_append, pile]
  simp [List.countP_cons, Activity.isCall]

theorem quiet_again (machine : Machine) (called : Expr) (count : Nat) (mark : Host) (moment : Moment)
    (short : moment.around.length < count + 4) :
    stopAt (Moment.again machine called count) mark moment = none := by
  apply stopAt_of_length
  simp [Moment.again]
  omega

theorem stops_selfCall {mark : Host} (machine : Machine) {name : String} (spot : Nat → Position)
    (count : Nat) (bound : machine.store.binding? machine.scope name = some ⟨.array 0, true⟩)
    (elements : machine.store.elements 0 = #[.again])
    (room : machine.nesting + 3 < machine.limits.nesting) :
    Stops mark ((watched (stopAt (.again machine (passing name .forEach .forEach spot) count) mark)
      (count + 5) []).statement (.evaluate (passing name .forEach .forEach spot))) machine := by
  let called : Expr := passing name .forEach .forEach spot
  let entered : Machine := { machine with nesting := machine.nesting + 2 }
  have quiet := quiet_again machine called count mark
  have again : Stops mark ((watched (stopAt (.again machine called count) mark) (count + 2)
      [.call .again (.array 0) [.again], .expression called, .statement (.evaluate called)]).call
        .again .undefined [.again, .ofNat 0, .array 0]) entered :=
    stops_again entered elements (count + 1) _
  apply Stops.statement
  · omega
  · exact quiet _ (by simp)
  apply Stops.bind
  apply stops_passing { machine with nesting := machine.nesting + 1 } quiet bound
  · simp
  · exact room
  apply Stops.call
  · exact quiet _ (by simp)
  · exact stops_forEach entered elements again

/-- An array is given its own method, which is then called with itself. -/
def selfCalling (name : String) (spot : Nat → Position) : List Stmt :=
  [.declare .variable ⟨name, spot 0⟩ (some (.array [])),
    .evaluate (passing name .push .forEach fun i => spot (i + 1)),
    .evaluate (passing name .forEach .forEach fun i => spot (i + 6))]

/-- The machine in which the named array holds its own method. -/
def Machine.holding (name : String) (host : Host) : Machine :=
  { Machine.initial host with
    store := ((Store.initial.addArray #[]).define Store.programScope name
      ⟨.array 0, true⟩).modifyArray 0 (· ++ [Value.again]) }

theorem reaches_again (name : String) (spot : Nat → Position) (host : Host) (count : Nat) :
    Reaches (selfCalling name spot) (Machine.initial host)
      (.again (.holding name host) (passing name .forEach .forEach fun i => spot (i + 6)) count) := by
  let called : Expr := passing name .forEach .forEach fun i => spot (i + 6)
  let declared : Machine := { Machine.initial host with
    store := (Store.initial.addArray #[]).define Store.programScope name ⟨.array 0, true⟩ }
  obtain ⟨mark, other⟩ := exists_host_ne host
  have quiet := quiet_again (.holding name host) called count mark
  have room : 3 < Limits.standard.nesting := by decide
  have bound : declared.store.binding? Store.programScope name = some ⟨.array 0, true⟩ := by
    have inside : Store.programScope < (Store.initial.addArray #[]).scopes.size := by decide
    exact (Store.binding?_define _ _ _).trans (if_pos ⟨rfl, rfl, inside⟩)
  have declares : (watched (stopAt (.again (.holding name host) called count) mark) (count + 5)
      []).statement (.declare .variable ⟨name, spot 0⟩ (some (.array []))) (Machine.initial host) =
        .ok .normal declared :=
    executed_declaration (Machine.initial host) (spot 0) quiet (Store.binding?_programScope name)
      (by simp) (show 1 < Limits.standard.nesting by decide)
  have pushes : (watched (stopAt (.again (.holding name host) called count) mark) (count + 5)
      []).statement (.evaluate (passing name .push .forEach fun i => spot (i + 1))) declared =
        .ok .normal (.holding name host) :=
    executed_push declared quiet bound .forEach _ (by simp) room
  have stopped : Stops mark (Machine.executeWatched
      (stopAt (.again (.holding name host) called count) mark) (count + 5) (selfCalling name spot))
      (Machine.initial host) := by
    apply Stops.bind
    apply Stops.after rfl
    apply Stops.after declares
    apply Stops.after pushes
    apply Stops.bind
    exact stops_selfCall (.holding name host) _ count bound rfl room
  exact reaches_of_stops other stopped

/-- What was read is a program in which an array calls the function in it, which is its own. -/
def callsItself : Except (List SyntaxError) (List Stmt) → Bool
  | .ok [.declare .variable a (some (.array [])),
      .evaluate (.call (.member (.identifier b) (.named zid) _)
        [.member (.identifier c) (.named first) _] _),
      .evaluate (.call (.member (.identifier d) (.named second) _)
        [.member (.identifier e) (.named third) _] _)] =>
    [b.name, c.name, d.name, e.name] == [a.name, a.name, a.name, a.name] &&
      [zid, first, second, third] == [ArrayMethod.push.name, ArrayMethod.forEach.name,
        ArrayMethod.forEach.name, ArrayMethod.forEach.name]
  | _ => false

/-- **No number bounds the calls that are going on at once.** In one program, which has neither loops
nor functions, more calls than any number are going on at some moment. -/
theorem builtin_calls_unbounded (host : Host) : ∃ program,
    readProgram "bdl a = []; a.zid(a.kol_wahed); a.kol_wahed(a.kol_wahed);" 0 = .ok program ∧
      ∀ count, ∃ moment, Reaches program (Machine.initial host) moment ∧
        count < (moment.activity :: moment.around).countP Activity.isCall := by
  have shape : callsItself
      (readProgram "bdl a = []; a.zid(a.kol_wahed); a.kol_wahed(a.kol_wahed);" 0) = true := by
    decide +kernel
  unfold callsItself at shape
  split at shape
  · next a b zid p c first q r d second p' e third q' r' read =>
    obtain ⟨_, start⟩ := a
    obtain ⟨_, b⟩ := b
    obtain ⟨_, c⟩ := c
    obtain ⟨_, d⟩ := d
    obtain ⟨_, e⟩ := e
    simp only [Bool.and_eq_true, beq_iff_eq, List.cons.injEq, and_true] at shape
    obtain ⟨⟨rfl, rfl, rfl, rfl⟩, rfl, rfl, rfl, rfl⟩ := shape
    let spots : List Position := [start, b, p, c, q, r, d, p', e, q', r']
    refine ⟨_, read, fun count => ⟨_, reaches_again _ (spots.getD · start) host count, ?_⟩⟩
    rw [Moment.calls_again]
    omega
  · cases shape

end DarijaScript
