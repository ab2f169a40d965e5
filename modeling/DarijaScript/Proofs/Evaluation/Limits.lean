import DarijaScript.Program
import DarijaScript.Proofs.Evaluation.Frame
import DarijaScript.Proofs.Evaluation.Judgement.Calls
import DarijaScript.Proofs.Evaluation.Reaching

/-!
# Limits

The limits of a machine make a difference to a run only where they refuse something to it. So a run
to which nothing is refused goes on in the same way in a machine that allows more of everything or in
which less is going on, and leaves the counters there as it has found them.
-/

namespace DarijaScript

/-! ### Refusals -/

/-- The limits of the machine do not allow the activity to begin. -/
def Machine.refuses (machine : Machine) (activity : Activity) : Bool :=
  activity.isTree && decide (machine.limits.nesting ≤ machine.nesting) ||
    activity.isOwnCall && decide (machine.limits.calls ≤ machine.depth)

/-- What happens in place of a refused activity. -/
abbrev Refusal := Activity → Machine → Interruption × Machine

/-- The faults of the limits. -/
def Refusal.fault : Refusal
  | .call (.function f _) _ _, machine =>
    (.exception (.fault (.callDepth f.signature) .unknown), machine)
  | _, machine => (.exception (.fault (.nestingLimit machine.limits.nesting) .unknown), machine)

/-- The whole run is stopped and leaves a mark: another host. -/
def Refusal.stop (mark : Host) : Refusal := fun _ machine =>
  (.outOfFuel, { machine with host := mark })

/-- Calls are refused with their fault; at a statement or an expression the whole run is stopped. -/
def Refusal.stopTrees (mark : Host) : Refusal := fun activity machine =>
  if activity.isTree then Refusal.stop mark activity machine else Refusal.fault activity machine

/-- Calls are refused with their fault. -/
def Refusal.FaultsCalls (refusal : Refusal) : Prop :=
  ∀ callee receiver args machine, refusal (.call callee receiver args) machine =
    Refusal.fault (.call callee receiver args) machine

/-- An activity that may be refused. -/
def Run.unlessRefused {α : Type} (refusal : Refusal) (activity : Activity) (steps : Run α) :
    Run α := fun machine =>
  if machine.refuses activity then
    .error (refusal activity machine).1 (refusal activity machine).2
  else steps machine

/-- The activities under a bound, with another end of those that are refused. -/
def refusing (refusal : Refusal) : (fuel : Nat) → Interpreter
  | 0 =>
    { statement := fun _ => throw .outOfFuel
      expression := fun _ => throw .outOfFuel
      call := fun _ _ _ => throw .outOfFuel }
  | fuel + 1 =>
    { statement := fun stmt =>
        Run.unlessRefused refusal (.statement stmt)
          (Run.deeper (Evaluation.statement (refusing refusal fuel) fuel stmt))
      expression := fun expr =>
        Run.unlessRefused refusal (.expression expr)
          (Run.deeper (Evaluation.expression (refusing refusal fuel) expr))
      call := fun callee receiver args =>
        Run.unlessRefused refusal (.call callee receiver args)
          (Evaluation.invoke (refusing refusal fuel) callee receiver args) }

/-- A run of a program with another end of what is refused. -/
def Machine.executeRefusing (refusal : Refusal) (fuel : Nat) (program : List Stmt) : Run Unit :=
  Evaluation.program (refusing refusal fuel) program

/-- The limits refuse nothing to the run of a program: it makes no difference what happens in place of
the faults with which they refuse. -/
def WithinLimits (fuel : Nat) (program : List Stmt) (start : Machine) : Prop :=
  ∀ refusal, Machine.executeRefusing refusal fuel program start =
    Machine.executeAll fuel program start

theorem Machine.refuses_tree {machine : Machine} {activity : Activity}
    (tree : activity.isTree = true) :
    machine.refuses activity = true ↔ machine.limits.nesting ≤ machine.nesting := by
  simp [refuses, tree, Activity.isOwnCall_of_isTree tree]

theorem Machine.refuses_function {machine : Machine} {f : Function} {closure : ScopeId}
    {receiver : Value} {args : List Value} :
    machine.refuses (.call (.function f closure) receiver args) = true ↔
      machine.limits.calls ≤ machine.depth := by
  simp [refuses, Value.isOwn]

/-! ### The faults of the limits -/

section

variable {α : Type} {refusal : Refusal} {activity : Activity} {steps : Run α} {machine : Machine}

theorem Run.unlessRefused_of_refuses (refused : machine.refuses activity = true) :
    Run.unlessRefused refusal activity steps machine =
      .error (refusal activity machine).1 (refusal activity machine).2 := if_pos refused

theorem Run.unlessRefused_of_allows (allowed : ¬ machine.refuses activity = true) :
    Run.unlessRefused refusal activity steps machine = steps machine := if_neg allowed

theorem Run.unlessRefused_tree (activity : Activity) (tree : activity.isTree = true) :
    Run.unlessRefused .fault activity (Run.deeper steps) = Run.deeper steps := by
  funext machine
  by_cases refused : machine.refuses activity = true
  · have full := (Machine.refuses_tree tree).mp refused
    rw [unlessRefused_of_refuses refused, Run.deeper, if_pos full]
    cases activity with
    | call callee _ _ => cases tree
    | _ => rfl
  · exact unlessRefused_of_allows refused

theorem Run.unlessRefused_call (inner : Interpreter) (callee receiver : Value)
    (args : List Value) :
    Run.unlessRefused .fault (.call callee receiver args)
      (Evaluation.invoke inner callee receiver args) =
        Evaluation.invoke inner callee receiver args := by
  funext machine
  by_cases refused : machine.refuses (.call callee receiver args) = true
  · rw [unlessRefused_of_refuses refused]
    cases callee with
    | function f closure =>
      have busy := Nat.not_lt.mpr (Machine.refuses_function.mp refused)
      change _ = Evaluation.callFunction inner f closure receiver args machine
      rw [Evaluation.callFunction_eq_ite, if_neg busy]
      rfl
    | _ => cases refused
  · exact unlessRefused_of_allows refused

/-- With the faults of the limits the runs are those of the interpreter. -/
theorem refusing_fault (fuel : Nat) : refusing .fault fuel = interpreter fuel := by
  induction fuel with
  | zero => rfl
  | succ fuel ih =>
    simp only [refusing, interpreter, ih, Run.unlessRefused_call,
      Run.unlessRefused_tree (.statement _) rfl, Run.unlessRefused_tree (.expression _) rfl]

end

/-! ### More room -/

/-- The second machine differs from the first one only in that it allows at least as much and that
at most as much is going on in it. -/
structure Machine.Roomier (start roomy : Machine) : Prop where
  alike : roomy = start.counting roomy
  calls : start.limits.calls ≤ roomy.limits.calls
  nesting : start.limits.nesting ≤ roomy.limits.nesting
  depth : roomy.depth ≤ start.depth
  nested : roomy.nesting ≤ start.nesting

namespace Machine

variable {start roomy : Machine}

theorem Roomier.refl (machine : Machine) : machine.Roomier machine :=
  ⟨rfl, Nat.le_refl _, Nat.le_refl _, Nat.le_refl _, Nat.le_refl _⟩

/-- What the roomier machine refuses is refused by the other one. -/
theorem Roomier.refuses (h : start.Roomier roomy) {activity : Activity}
    (refused : roomy.refuses activity = true) : start.refuses activity = true := by
  simp only [Machine.refuses, Bool.or_eq_true, Bool.and_eq_true, decide_eq_true_eq] at refused ⊢
  rcases refused with ⟨tree, full⟩ | ⟨call, full⟩
  · exact .inl ⟨tree, h.nesting.trans (full.trans h.nested)⟩
  · exact .inr ⟨call, h.calls.trans (full.trans h.depth)⟩

end Machine

/-- A roomier machine. In an even one just as many calls are going on, of just as many. -/
structure Machine.RoomierBy (even : Prop) (start roomy : Machine) : Prop extends
    Machine.Roomier start roomy where
  even : even → roomy.depth = start.depth ∧ roomy.limits.calls = start.limits.calls

/-- The machines at the end of steps that leave the counters alone. -/
theorem Machine.RoomierBy.ended {even : Prop} {start roomy after : Machine}
    (h : start.RoomierBy even roomy) (balanced : after.counting start = after) :
    after.RoomierBy even (after.counting roomy) := by
  rw [← balanced]
  exact ⟨⟨rfl, h.calls, h.nesting, h.depth, h.nested⟩, h.even⟩

/-- From a machine and a roomier one, the runs end alike and leave the counters alone, unless the
first run is stopped with the mark. -/
def Echoes {α : Type} (mark : Host) (start roomy : Machine) (x y : Run α) (known : α → Prop) :
    Prop :=
  Stops mark x start ∨
    y roomy = Ending.counting roomy (x start) ∧ Ending.counting start (x start) = x start ∧
      ∀ value after, x start = .ok value after → known value

/-- The second run follows the first one from every roomier machine, or from the even ones. -/
def Tracks {α : Type} (even : Prop) (mark : Host) (x y : Run α) (known : α → Prop) : Prop :=
  ∀ start roomy, start.RoomierBy even roomy → Echoes mark start roomy x y known

variable {α β : Type} {even : Prop} {mark : Host}

theorem Echoes.congr {x x' y y' : Run α} {known : α → Prop} {start roomy : Machine}
    (h : Echoes mark start roomy x y known) (first : x' start = x start)
    (second : y' roomy = y roomy) : Echoes mark start roomy x' y' known := by
  unfold Echoes Stops at h ⊢
  rwa [first, second]

/-- Something made of the values and exceptions alone with which the runs end. -/
theorem Echoes.map {x y : Run α} {known : α → Prop} {known' : β → Prop} {start roomy : Machine}
    (h : Echoes mark start roomy x y known) {f : Ending α → Ending β}
    (commutes : ∀ like ending, f (Ending.counting like ending) = Ending.counting like (f ending))
    (stopped : ∀ after, f (.error .outOfFuel after) = .error .outOfFuel after)
    (fine : ∀ ending, (∀ value after, ending = .ok value after → known value) →
      ∀ value after, f ending = .ok value after → known' value) :
    Echoes mark start roomy (fun machine => f (x machine)) (fun machine => f (y machine))
      known' := by
  rcases h with ⟨after, stops, left⟩ | ⟨same, balanced, all⟩
  · exact .inl ⟨after, (congrArg f stops).trans (stopped after), left⟩
  · have echo : f (y roomy) = Ending.counting roomy (f (x start)) := by
      rw [same, commutes]
    have kept : Ending.counting start (f (x start)) = f (x start) := by
      rw [← commutes, balanced]
    exact .inr ⟨echo, kept, fine _ all⟩

/-- Steps in a machine that is entered for them and left when they have ended. -/
theorem Echoes.restored {x y : Run α} {known : α → Prop} {start roomy : Machine}
    (enter : Machine → Machine) (back : Machine → Machine → Machine)
    (h : Echoes mark (enter start) (enter roomy) x y known) (roomier : start.Roomier roomy)
    (commutes : ∀ like after, start.Roomier like →
      back like (after.counting (enter like)) = (back start after).counting like)
    (host : ∀ after, (back start after).host = after.host) :
    Echoes mark start roomy (fun machine => Setting.restored (back machine) (x (enter machine)))
      (fun machine => Setting.restored (back machine) (y (enter machine))) known := by
  rcases h with ⟨after, stops, left⟩ | ⟨same, balanced, fine⟩
  · refine .inl ⟨back start after, ?_, (host after).trans left⟩
    dsimp only
    rw [stops]
    rfl
  have both : ∀ like, start.Roomier like →
      Setting.restored (back like) (Ending.counting (enter like) (x (enter start))) =
        Ending.counting like (Setting.restored (back start) (x (enter start))) := by
    intro like room
    cases x (enter start) with
    | ok value after => exact congrArg _ (commutes like after room)
    | error interruption after => exact congrArg _ (commutes like after room)
  refine .inr ⟨?_, ?_, ?_⟩
  · dsimp only
    rw [same, both roomy roomier]
  · have kept := both start (.refl start)
    rw [balanced] at kept
    exact kept.symm
  · intro value after
    dsimp only
    cases ended : x (enter start) with
    | ok value' after' =>
      rintro ⟨⟩
      exact fine value after' ended
    | error => exact nofun

namespace Tracks

variable {x y : Run α} {known : α → Prop}

theorem of_uncounted (h : x.Uncounted)
    (fine : ∀ machine value after, x machine = .ok value after → known value) :
    Tracks even mark x x known := by
  intro start roomy roomier
  refine .inr ⟨?_, (h.balanced start).symm, fine start⟩
  calc
    x roomy = x (start.counting roomy) := congrArg x roomier.alike
    _ = Ending.counting roomy (x start) := h start roomy

theorem bind {f g : α → Run β} {known' : β → Prop} (h : Tracks even mark x y known)
    (h' : ∀ value, known value → Tracks even mark (f value) (g value) known') :
    Tracks even mark (x >>= f) (y >>= g) known' := by
  intro start roomy roomier
  rcases h start roomy roomier with stops | ⟨same, balanced, fine⟩
  · exact .inl stops.bind
  cases ended : x start with
  | error interruption middle =>
    rw [ended] at same balanced
    refine .inr ⟨?_, ?_, ?_⟩
    · rw [Run.bind_error same, Run.bind_error ended]
      rfl
    · rw [Run.bind_error ended]
      injection balanced with _ balanced
      exact congrArg _ balanced
    · rw [Run.bind_error ended]
      exact nofun
  | ok value middle =>
    rw [ended] at same balanced
    have balanced : middle.counting start = middle := by
      injection balanced
    have next := h' value (fine value middle ended) _ _ (roomier.ended balanced)
    rcases next with stops | ⟨same', balanced', fine'⟩
    · exact .inl (.after ended stops)
    refine .inr ⟨?_, ?_, ?_⟩
    · rw [Run.bind_ok ended, Run.bind_ok same]
      exact same'
    · rw [Run.bind_ok ended]
      rw [← balanced] at balanced'
      rwa [← balanced]
    · rw [Run.bind_ok ended]
      exact fine'

theorem located (h : Tracks even mark x y known) (position : Position) :
    Tracks even mark (Run.located position x) (Run.located position y) known := by
  intro start roomy roomier
  refine (h start roomy roomier).map
    (f := fun ending => Run.located position (fun _ => ending) start) ?_ (fun _ => rfl) ?_
  · rintro like (_ | ⟨_ | _, _⟩) <;> rfl
  · rintro (⟨value, after⟩ | ⟨_ | _, _⟩) all _ _ ⟨⟩
    exact all value after rfl

theorem outcome {raises : Exception → Prop} (h : Tracks even mark x y known)
    (raised : ∀ e, raises e) :
    Tracks even mark (Run.outcome x) (Run.outcome y) (Judgement.IsOutcome raises known) := by
  intro start roomy roomier
  refine (h start roomy roomier).map
    (f := fun ending => Run.outcome (fun _ => ending) start) ?_ (fun _ => rfl) ?_
  · rintro like (_ | ⟨_ | _, _⟩) <;> rfl
  · rintro (⟨value, after⟩ | ⟨e | _, after⟩) all _ _ ⟨⟩
    · exact all value after rfl
    · exact raised e

theorem inScope (h : Tracks even mark x y known) (id : ScopeId) :
    Tracks even mark (Run.inScope id x) (Run.inScope id y) known := by
  intro start roomy roomier
  have inner : ({ start with scope := id } : Machine).RoomierBy even { roomy with scope := id } := by
    refine { roomier with alike := ?_ }
    exact congrArg (fun machine => { machine with scope := id }) roomier.alike
  refine (h _ _ inner).restored (fun machine => { machine with scope := id })
    (fun machine after => { after with scope := machine.scope }) roomier.toRoomier ?_ fun _ => rfl
  intro like after room
  rw [room.alike]
  rfl

/-- Steps in a scope that is opened for them. -/
theorem inOpened {opening : Run ScopeId} (opens : opening.Uncounted) (h : Tracks even mark x y known) :
    Tracks even mark (opening >>= fun id => Run.inScope id x) (opening >>= fun id => Run.inScope id y)
      known :=
  (of_uncounted opens fun _ _ _ _ => trivial).bind fun id _ => h.inScope id

theorem asCall (h : Tracks even mark x y known) :
    Tracks even mark (Run.asCall x) (Run.asCall y) known := by
  intro start roomy roomier
  have inner : ({ start with depth := start.depth + 1 } : Machine).RoomierBy even
      { roomy with depth := roomy.depth + 1 } := by
    have evenly : even → roomy.depth + 1 = start.depth + 1 ∧
        roomy.limits.calls = start.limits.calls := fun same =>
      ⟨congrArg (· + 1) (roomier.even same).1, (roomier.even same).2⟩
    refine { roomier with depth := Nat.succ_le_succ roomier.depth, even := evenly, alike := ?_ }
    exact congrArg (fun machine => { machine with depth := roomy.depth + 1 }) roomier.alike
  exact (h _ _ inner).restored (fun machine => { machine with depth := machine.depth + 1 })
    (fun machine after => { after with depth := machine.depth }) roomier.toRoomier
    (fun _ _ _ => rfl) fun _ => rfl

/-- Steps one level deeper, where that is not too deep. -/
theorem deeper (h : Tracks even mark x y known) {start roomy : Machine}
    (roomier : start.RoomierBy even roomy)
    (room : start.nesting < start.limits.nesting) :
    Echoes mark start roomy (Run.deeper x) (Run.deeper y) known := by
  have room' : roomy.nesting < roomy.limits.nesting :=
    Nat.lt_of_le_of_lt roomier.nested (Nat.lt_of_lt_of_le room roomier.nesting)
  have inner : ({ start with nesting := start.nesting + 1 } : Machine).RoomierBy even
      { roomy with nesting := roomy.nesting + 1 } := by
    refine { roomier with nested := Nat.succ_le_succ roomier.nested, alike := ?_ }
    exact congrArg (fun machine => { machine with nesting := roomy.nesting + 1 }) roomier.alike
  have entered := (h _ _ inner).restored
    (fun machine => { machine with nesting := machine.nesting + 1 })
    (fun machine after => { after with nesting := machine.nesting }) roomier.toRoomier
    (fun _ _ _ => rfl) fun _ => rfl
  exact entered.congr (Run.deeper_of_lt x room) (Run.deeper_of_lt y room')

/-- An activity that is refused stops the first run. -/
theorem unlessRefused {first second : Refusal} {activity : Activity}
    (stops : ∀ machine, first activity machine = Refusal.stop mark activity machine)
    (h : ∀ start roomy, start.RoomierBy even roomy → ¬ start.refuses activity = true →
      Echoes mark start roomy x y known) :
    Tracks even mark (Run.unlessRefused first activity x) (Run.unlessRefused second activity y)
      known := by
  intro start roomy roomier
  by_cases refused : start.refuses activity = true
  · refine .inl ⟨{ start with host := mark }, ?_, rfl⟩
    rw [Run.unlessRefused_of_refuses refused, stops]
    rfl
  · exact (h start roomy roomier refused).congr (Run.unlessRefused_of_allows refused)
      (Run.unlessRefused_of_allows (mt roomier.refuses refused))

/-- A call that is refused in even machines alike. -/
theorem unlessRefusedEven {first second : Refusal} {activity : Activity} {e : Exception}
    (same : even) (call : activity.isTree = false)
    (faults : ∀ machine, first activity machine = (.exception e, machine))
    (faults' : ∀ machine, second activity machine = (.exception e, machine))
    (h : ∀ start roomy, start.RoomierBy even roomy → ¬ start.refuses activity = true →
      Echoes mark start roomy x y known) :
    Tracks even mark (Run.unlessRefused first activity x) (Run.unlessRefused second activity y)
      known := by
  intro start roomy roomier
  by_cases refused : start.refuses activity = true
  · have refused' : roomy.refuses activity = true := by
      obtain ⟨depth, calls⟩ := roomier.even same
      simp only [Machine.refuses, call, depth, calls, Bool.false_and, Bool.false_or] at refused ⊢
      exact refused
    have raised : Tracks even mark (throw (.exception e) : Run α) (throw (.exception e)) known :=
      of_uncounted (.throw _) (by rintro _ _ _ ⟨⟩)
    refine (raised start roomy roomier).congr ?_ ?_
    · rw [Run.unlessRefused_of_refuses refused, faults]
      rfl
    · rw [Run.unlessRefused_of_refuses refused', faults']
      rfl
  · exact (h start roomy roomier refused).congr (Run.unlessRefused_of_allows refused)
      (Run.unlessRefused_of_allows (mt roomier.refuses refused))

/-- A statement or an expression that may be refused. -/
theorem tree {first second : Refusal} {activity : Activity} (tree : activity.isTree = true)
    (stops : ∀ machine, first activity machine = Refusal.stop mark activity machine)
    (h : Tracks even mark x y known) :
    Tracks even mark (Run.unlessRefused first activity (Run.deeper x))
      (Run.unlessRefused second activity (Run.deeper y)) known := by
  apply unlessRefused stops
  intro start roomy roomier allowed
  exact h.deeper roomier (Nat.not_le.mp (mt (Machine.refuses_tree tree).mpr allowed))

end Tracks

/-- A run that may be stopped by a refusal is followed from roomier machines. Nothing is asked of
trees and exceptions. -/
def Judgement.tracks (even : Prop) (mark : Host) : Judgement where
  Context := Unit
  relates := fun _ => Tracks even mark
  good := fun _ => True
  owns := fun _ => True
  inside := id
  loose := id
  raises := fun _ _ => True
  owns_inside := fun _ => trivial
  raises_inside := fun _ => trivial
  raises_fault := fun _ => trivial
  raises_raised := fun _ => trivial
  known := fun {_ e} _ => e.value_meets
  pure := fun known => .of_uncounted (.pure _) (by rintro _ _ _ ⟨⟩; exact known)
  bind := .bind
  raise := fun _ => .of_uncounted (.throw _) nofun
  outOfFuel := .of_uncounted (.throw _) nofun
  located := fun _ h => h.located _
  outcome := fun h => h.outcome fun _ => trivial
  readStore := fun known => .of_uncounted (.readStore _) (by
    rintro _ _ _ ⟨⟩
    exact known _ (Store.meets_of_forall Node.marked_true _))
  changeStore := fun _ _ _ => .of_uncounted (.changeStore _) fun _ _ _ _ => trivial
  surrounding := fun h => .of_uncounted h.uncounted fun _ _ _ _ => trivial
  asCall := .asCall

instance (even : Prop) (mark : Host) : (Judgement.tracks even mark).Scoped where
  scope := Tracks.of_uncounted .scope fun _ _ _ _ => trivial
  assign := fun _ => Tracks.of_uncounted (.assign _ _) fun _ _ _ _ => trivial
  receiver := Tracks.of_uncounted (.lookup _) fun _ _ _ _ => Value.meets_of_forall Node.marked_true _
  define := fun _ _ _ => Tracks.of_uncounted (.bind .scope fun _ => .define _ _ _)
    fun _ _ _ _ => trivial
  declare := fun _ _ => Tracks.of_uncounted (.declare _ _ _) fun _ _ _ _ => trivial
  renewScope := fun _ => Tracks.of_uncounted .renewScope fun _ _ _ _ => trivial
  inNew := fun h => Tracks.inOpened .newScope h
  inHandler := fun _ h => Tracks.inOpened (.newScopeWith _ _) h

instance (even : Prop) (mark : Host) : (Judgement.tracks even mark).Entering where
  inCall := fun _ _ _ _ h => Tracks.inOpened (Run.OnStore.callScope _ _ _ _).uncounted h

/-! ### Programs -/

/-- The first refusal stops the run at statements and expressions, and at calls too unless both refuse
them with the same exception, which makes no difference in even machines. -/
structure Refusal.Matches (even : Prop) (mark : Host) (first second : Refusal) : Prop where
  trees : ∀ activity machine, activity.isTree = true →
    first activity machine = Refusal.stop mark activity machine
  calls : ∀ f closure receiver args,
    (∀ machine, first (.call (.function f closure) receiver args) machine =
      Refusal.stop mark (.call (.function f closure) receiver args) machine) ∨
    even ∧ ∃ e : Exception, ∀ machine,
      first (.call (.function f closure) receiver args) machine = (.exception e, machine) ∧
      second (.call (.function f closure) receiver args) machine = (.exception e, machine)

theorem Refusal.Matches.stop (mark : Host) (refusal : Refusal) :
    Matches False mark (.stop mark) refusal where
  trees := fun _ _ _ => rfl
  calls := fun _ _ _ _ => .inl fun _ => rfl

theorem Refusal.Matches.stopTrees (mark : Host) {refusal : Refusal}
    (faults : refusal.FaultsCalls) : Matches True mark (.stopTrees mark) refusal where
  trees := fun _ _ tree => if_pos tree
  calls := fun _ _ _ _ => .inr ⟨trivial, _, fun _ => ⟨rfl, faults _ _ _ _⟩⟩

section

variable {first second : Refusal} {inner other : Interpreter}
  (agree : (Judgement.tracks even mark).Agree inner other)

include agree

/-- The call of a function of the program, which may be refused. -/
theorem Tracks.ownCall (alike : Refusal.Matches even mark first second) {f : Function}
    {closure : ScopeId} {receiver : Value} {args : List Value}
    (known : (Judgement.tracks even mark).Knows (.function f closure))
    (owner : (Judgement.tracks even mark).Knows receiver)
    (passed : ∀ arg ∈ args, (Judgement.tracks even mark).Knows arg) :
    Tracks even mark
      (Run.unlessRefused first (.call (.function f closure) receiver args)
        (Evaluation.callFunction inner f closure receiver args))
      (Run.unlessRefused second (.call (.function f closure) receiver args)
        (Evaluation.callFunction other f closure receiver args))
      (Judgement.tracks even mark).Knows := by
  have called : ∀ start roomy : Machine, start.RoomierBy even roomy →
      ¬ start.refuses (.call (.function f closure) receiver args) = true →
        Echoes mark start roomy (Evaluation.callFunction inner f closure receiver args)
          (Evaluation.callFunction other f closure receiver args)
          (Judgement.tracks even mark).Knows := by
    intro start roomy roomier allowed
    have room := Nat.not_le.mp (mt Machine.refuses_function.mpr allowed)
    have room' : roomy.depth < roomy.limits.calls :=
      Nat.lt_of_le_of_lt roomier.depth (Nat.lt_of_lt_of_le room roomier.calls)
    have executed : Tracks even mark _ _ (Judgement.tracks even mark).Knows :=
      Judgement.executeFunction (c := ()) agree.rows known owner passed
    apply (executed start roomy roomier).congr
    · exact (Evaluation.callFunction_eq_ite _ _ _ _ _ _).trans (if_pos room)
    · exact (Evaluation.callFunction_eq_ite _ _ _ _ _ _).trans (if_pos room')
  rcases alike.calls f closure receiver args with stops | ⟨same, e, faults⟩
  · exact .unlessRefused stops called
  · exact .unlessRefusedEven same rfl (fun machine => (faults machine).1)
      (fun machine => (faults machine).2) called

/-- Other calls are not refused. -/
theorem Tracks.foreignCall {callee receiver : Value} {args : List Value}
    (foreign : callee.isOwn = false)
    (passed : ∀ arg ∈ args, (Judgement.tracks even mark).Knows arg) :
    Tracks even mark
      (Run.unlessRefused first (.call callee receiver args)
        (Evaluation.invoke inner callee receiver args))
      (Run.unlessRefused second (.call callee receiver args)
        (Evaluation.invoke other callee receiver args))
      (Judgement.tracks even mark).Knows := by
  have free : ∀ machine : Machine, ¬ machine.refuses (.call callee receiver args) = true := by
    simp [Machine.refuses, foreign]
  have invoked : Tracks even mark (Evaluation.invoke inner callee receiver args)
      (Evaluation.invoke other callee receiver args) (Judgement.tracks even mark).Knows :=
    Judgement.invoke_foreign (c := ()) agree.call foreign passed
  intro start roomy roomier
  exact (invoked start roomy roomier).congr (Run.unlessRefused_of_allows (free start))
    (Run.unlessRefused_of_allows (free roomy))

end

/-- A run that is stopped by a refusal agrees with one in which any other thing happens in its
place. -/
theorem agree_refusing {first second : Refusal} (alike : Refusal.Matches even mark first second)
    (fuel : Nat) :
    (Judgement.tracks even mark).Agree (refusing first fuel) (refusing second fuel) := by
  let J := Judgement.tracks even mark
  induction fuel with
  | zero => exact Judgement.agree_zero
  | succ fuel ih =>
    refine ⟨fun _ known => ?_, fun known => ?_, fun callee receiver args known owner passed => ?_⟩
    · have executed : Tracks even mark _ _ J.KnowsFlow :=
        Judgement.statement (c := ()) ih fuel (fun _ => trivial) known
      exact executed.tree rfl fun _ => alike.trees _ _ rfl
    · have evaluated : Tracks even mark _ _ J.Knows := Judgement.expression (c := ()) ih.values known
      exact evaluated.tree rfl fun _ => alike.trees _ _ rfl
    · by_cases own : callee.isOwn = true
      · cases callee with
        | function f closure => exact Tracks.ownCall ih alike known owner passed
        | _ => cases own
      · exact Tracks.foreignCall ih (Bool.not_eq_true _ ▸ own) passed

instance (even : Prop) (mark : Host) : (Judgement.tracks even mark).Draining where
  next := Tracks.of_uncounted .nextAppointment fun _ _ _ _ _ _ =>
    ⟨Value.meets_of_forall Node.marked_true _, fun _ _ =>
      Value.meets_of_forall Node.marked_true _⟩
  limit := trivial

theorem Tracks.program {inner other : Interpreter}
    (agree : (Judgement.tracks even mark).Agree inner other) (stmts : List Stmt) :
    Tracks even mark (Evaluation.program inner stmts) (Evaluation.program other stmts)
      fun _ => True :=
  Judgement.program (c := ()) agree.rows trivial fun _ _ _ _ => trivial

variable {fuel : Nat} {program : List Stmt} {start roomy : Machine}

/-- If no refusal stops the run, then it ends alike in every roomier machine, whatever would happen in
place of a refused activity there. -/
theorem executeRefusing_roomier
    (allowed : ¬ Stops mark (Machine.executeRefusing (.stop mark) fuel program) start)
    (roomier : start.Roomier roomy) (refusal : Refusal) :
    Machine.executeRefusing refusal fuel program roomy =
      Ending.counting roomy (Machine.executeRefusing (.stop mark) fuel program start) := by
  have tracks := Tracks.program (agree_refusing (.stop mark refusal) fuel) program
  exact ((tracks start roomy ⟨roomier, False.elim⟩).resolve_left allowed).1

theorem executeRefusing_fault (fuel : Nat) (program : List Stmt) :
    Machine.executeRefusing .fault fuel program = Machine.executeAll fuel program := by
  rw [Machine.executeRefusing, refusing_fault, Machine.executeAll]

/-- Nothing is refused to a run exactly if no refusal can stop it. -/
theorem withinLimits_iff (other : mark ≠ start.host) :
    WithinLimits fuel program start ↔
      ¬ Stops mark (Machine.executeRefusing (.stop mark) fuel program) start := by
  constructor
  · intro within stops
    rw [Stops, within] at stops
    exact not_stops_executeAll other stops
  · intro allowed refusal
    calc
      Machine.executeRefusing refusal fuel program start
      _ = Ending.counting start (Machine.executeRefusing (.stop mark) fuel program start) :=
        executeRefusing_roomier allowed (.refl start) refusal
      _ = Machine.executeRefusing .fault fuel program start :=
        (executeRefusing_roomier allowed (.refl start) .fault).symm
      _ = Machine.executeAll fuel program start := by rw [executeRefusing_fault]

/-- A run to which nothing is refused is refused nothing in a roomier machine. -/
theorem WithinLimits.roomier (within : WithinLimits fuel program start)
    (roomier : start.Roomier roomy) : WithinLimits fuel program roomy := by
  obtain ⟨mark, other⟩ := exists_host_ne start.host
  have allowed := (withinLimits_iff other).mp within
  intro refusal
  rw [← executeRefusing_fault, executeRefusing_roomier allowed roomier,
    executeRefusing_roomier allowed roomier]

/-- **The limits make no difference to a run to which they refuse nothing.** With greater limits, or
with fewer activities going on at the beginning, a program and its callbacks come to the same end:
with the same result or exception, output, calls of the host, scopes and waiting callbacks, and with
the counters as they were. -/
theorem limits_transparent (within : WithinLimits fuel program start)
    (roomier : start.Roomier roomy) :
    Machine.executeAll fuel program roomy =
      Ending.counting roomy (Machine.executeAll fuel program start) := by
  obtain ⟨mark, other⟩ := exists_host_ne start.host
  have allowed := (withinLimits_iff other).mp within
  calc
    Machine.executeAll fuel program roomy
    _ = Machine.executeRefusing .fault fuel program roomy := by rw [executeRefusing_fault]
    _ = Ending.counting roomy (Machine.executeRefusing (.stop mark) fuel program start) :=
      executeRefusing_roomier allowed roomier .fault
    _ = Ending.counting roomy (Machine.executeAll fuel program start) := by rw [within]

/-- A run with a handler and a callback that nests up to its limits ends alike under the standard
limits and with fewer calls going on. -/
theorem limits_transparent_nested :
    ∃ program start roomy, readProgram
        "dala f(g) { jrb { x; } msk (e) { } ila (g) { rj3 g(farkha); } } f(f); m2a9it(f, 5);" 0 =
          .ok program ∧
      start.limits = ⟨3, 9⟩ ∧ start.depth = 1 ∧ roomy.limits = .standard ∧ roomy.depth = 0 ∧
      WithinLimits 11 program start ∧ start.Roomier roomy ∧
      Machine.executeAll 11 program roomy =
        Ending.counting roomy (Machine.executeAll 11 program start) := by
  let host : Host := .scripted [] [] [] []
  let mark : Host := .scripted [] [true] [] []
  let start : Machine := { Machine.initial host with limits := ⟨3, 9⟩, depth := 1 }
  have other : mark ≠ start.host := by
    intro same
    have answer := congrFun (congrFun (congrArg Host.confirm same) #[]) ""
    exact absurd answer (by decide)
  have roomier : start.Roomier (Machine.initial host) :=
    ⟨rfl, show 3 ≤ 64 by decide, show 9 ≤ 192 by decide, Nat.zero_le 1, Nat.le_refl 0⟩
  have ends : (readProgram
      "dala f(g) { jrb { x; } msk (e) { } ila (g) { rj3 g(farkha); } } f(f); m2a9it(f, 5);"
        0).toOption.any (fun program =>
          Ending.isOk (Machine.executeRefusing (.stop mark) 11 program start)) = true := by
    decide +kernel
  cases read : readProgram
      "dala f(g) { jrb { x; } msk (e) { } ila (g) { rj3 g(farkha); } } f(f); m2a9it(f, 5);" 0 with
  | error errors =>
    rw [read] at ends
    cases ends
  | ok program =>
    have ends : Ending.isOk (Machine.executeRefusing (.stop mark) 11 program start) = true := by
      rw [read] at ends
      exact ends
    have within : WithinLimits 11 program start := by
      rw [withinLimits_iff other]
      rintro ⟨after, stopped, -⟩
      rw [stopped] at ends
      cases ends
    exact ⟨program, start, Machine.initial host, rfl, rfl, rfl, rfl, rfl, within, roomier,
      limits_transparent within roomier⟩

end DarijaScript
