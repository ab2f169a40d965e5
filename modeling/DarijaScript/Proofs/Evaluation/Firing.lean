import DarijaScript.Proofs.Agenda.Queue
import DarijaScript.Proofs.Evaluation.Clock
import DarijaScript.Proofs.Evaluation.Fuel

/-!
# Calling the waiting callbacks

After a program the callbacks that wait are called one after the other. A callback may let others wait,
also itself, so that only the number of calls tells how long this goes on. The calls are told here as
steps from machine to machine, each of which ends under some bound; under every bound that is enough
for all of them, the waiting callbacks are called in just these steps.
-/

namespace DarijaScript

open Evaluation

/-- A callback that was taken out of the agenda, and the machine in which it is called. -/
structure Firing where
  appointment : Appointment
  machine : Machine

/-- The callback is taken out next. -/
def Machine.Next (machine : Machine) (firing : Firing) : Prop :=
  Run.nextAppointment machine = .ok (some firing.appointment) firing.machine

namespace Firing

variable (firing : Firing)

/-- What is called, under a bound. -/
def call (fuel : Nat) : Ending Value :=
  Machine.call fuel firing.appointment.callback .undefined firing.appointment.args firing.machine

/-- The call comes to an end. -/
def Ends (ending : Ending Value) : Prop :=
  ending.isOver = true ∧ ∃ fuel, firing.call fuel = ending

/-- The machine after a call, in which a repeated callback waits again. -/
def renewed (after : Machine) : Machine :=
  { after with agenda := after.agenda.renew firing.appointment }

end Firing

/-- From one machine to another one, these callbacks are taken out and called, and each call gives a
value. -/
inductive Fired : Machine → List Firing → Machine → Prop
  | nil (machine : Machine) : Fired machine [] machine
  | cons {machine after last : Machine} {firing : Firing} {firings : List Firing} {value : Value}
      (next : machine.Next firing) (ended : firing.Ends (.ok value after))
      (others : Fired (firing.renewed after) firings last) :
    Fired machine (firing :: firings) last

/-- How the calls of the waiting callbacks end in a machine in which some of them have given values:
no callback waits; a further one waits though as many as there may be were called; or the call of the
next one raises an exception. -/
inductive Drained (most : Nat) (last : Machine) (called : Nat) : Ending Unit → Prop
  | empty (none : last.agenda.isEmpty = true) : Drained most last called (.ok () last)
  | limit {firing : Firing} (all : called = most) (next : last.Next firing) :
    Drained most last called
      (.error (.exception (.fault (.firingLimit maxFirings) .unknown)) firing.machine)
  | raised {firing : Firing} {e : Exception} {after : Machine} (fewer : called < most)
      (next : last.Next firing) (raises : firing.Ends (.error (.exception e) after)) :
    Drained most last called (.error (.exception e) after)

/-- The time does not go back. -/
def NotBefore (earlier later : Float) : Prop := earlier = later ∨ earlier < later

/-- The waiting callbacks of the machine are called in this way. -/
structure Drains (start : Machine) (ending : Ending Unit) : Prop where
  /-- Under every bound that is enough, this is the end. -/
  settled : ∃ fuel, ∀ more, fuel ≤ more →
    Evaluation.drain (interpreter more) maxFirings start = ending
  /-- Few enough callbacks are called, one after the other and in the order of time, up to an end. -/
  fired : ∃ firings last, Fired start firings last ∧ firings.length ≤ maxFirings ∧
    (start.agenda.clock :: firings.map (·.machine.agenda.clock)).IsChain NotBefore ∧
      Drained maxFirings last firings.length ending
  /-- The bound on their number is met exactly if as many have given values and a further one waits. -/
  limit : ending.raises Exception.isFiringLimit = true ↔
    ∃ firings last, Fired start firings last ∧ firings.length = maxFirings ∧
      last.agenda.isEmpty = false

variable {start machine last after : Machine} {firing : Firing} {firings : List Firing}
  {ending : Ending Unit} {value : Value} {most : Nat}

/-! ### One call -/

theorem Machine.next_or_empty (machine : Machine) :
    machine.agenda.isEmpty = true ∨ ∃ firing, machine.Next firing := by
  unfold Machine.Next Run.nextAppointment
  cases popped : machine.agenda.pop with
  | none =>
    rw [Agenda.pop_eq_none_iff] at popped
    exact .inl (List.isEmpty_iff.mpr popped)
  | some taken => exact .inr ⟨⟨taken.1, { machine with agenda := taken.2 }⟩, rfl⟩

theorem Machine.next_of_empty (empty : machine.agenda.isEmpty = true) :
    Run.nextAppointment machine = .ok none machine := by
  have none : machine.agenda.pop = none :=
    Agenda.pop_eq_none_iff.mpr (List.isEmpty_iff.mp empty)
  rw [Run.nextAppointment, none]

theorem Machine.Next.nonempty (next : machine.Next firing) :
    machine.agenda.isEmpty = false := by
  by_contra empty
  have none := Machine.next_of_empty (Bool.not_eq_false _ ▸ empty)
  cases none.symm.trans next

/-- Taking out a callback moves the clock forward or not at all. -/
theorem Machine.Next.notBefore (next : machine.Next firing) :
    NotBefore machine.agenda.clock firing.machine.agenda.clock := by
  unfold Machine.Next Run.nextAppointment at next
  cases popped : machine.agenda.pop with
  | none =>
    rw [popped] at next
    cases next
  | some taken =>
    rw [popped] at next
    obtain ⟨first, -, rfl⟩ := Option.map_eq_some_iff.mp popped
    injection next with _ same
    rw [← same]
    dsimp only
    split
    · next later => exact .inr later
    · exact .inl rfl

/-- The end of a call is the same under every bound that is enough. -/
theorem Firing.Ends.call_eq {ending : Ending Value} (h : firing.Ends ending) :
    ∃ fuel, ∀ more, fuel ≤ more → firing.call more = ending := by
  obtain ⟨ends, fuel, rfl⟩ := h
  exact ⟨fuel, fun more le => Machine.call_of_le le ends⟩

theorem Firing.timeless {ending : Ending Value} (h : firing.Ends ending) :
    Ending.Timeless firing.machine.agenda.clock (fun _ => True) ending := by
  obtain ⟨-, fuel, rfl⟩ := h
  exact Machine.call_timeless ..

theorem Firing.clock_renewed (h : firing.Ends (.ok value after)) :
    (firing.renewed after).agenda.clock = firing.machine.agenda.clock :=
  (after.agenda.clock_renew firing.appointment).trans (Firing.timeless h).1

section

variable {fuel left : Nat}

theorem drain_empty (empty : machine.agenda.isEmpty = true) :
    drain (interpreter fuel) left machine = .ok () machine := by
  cases left with
  | zero => exact Run.bind_ok (Machine.next_of_empty empty)
  | succ left => exact Run.bind_ok (Machine.next_of_empty empty)

theorem drain_limit (next : machine.Next firing) :
    drain (interpreter fuel) 0 machine =
      .error (.exception (.fault (.firingLimit maxFirings) .unknown)) firing.machine :=
  Run.bind_ok next

/-- One callback is called, and then the others. -/
theorem drain_succ (next : machine.Next firing) (called : firing.call fuel = .ok value after) :
    drain (interpreter fuel) (left + 1) machine =
      drain (interpreter fuel) left (firing.renewed after) := by
  rw [drain, Run.bind_ok next]
  exact (Run.bind_ok called).trans (Run.bind_ok rfl)

theorem drain_raised {e : Exception} (next : machine.Next firing)
    (called : firing.call fuel = .error (.exception e) after) :
    drain (interpreter fuel) (left + 1) machine = .error (.exception e) after := by
  rw [drain, Run.bind_ok next]
  exact Run.bind_error called

end

/-! ### All calls -/

theorem Fired.concat (fired : Fired start firings machine) (next : machine.Next firing)
    (ended : firing.Ends (.ok value after)) :
    Fired start (firings ++ [firing]) (firing.renewed after) := by
  induction fired with
  | nil => exact .cons next ended (.nil _)
  | cons next' ended' _ ih => exact .cons next' ended' (ih next)

theorem Fired.clocks (fired : Fired start firings last) :
    (start.agenda.clock :: firings.map (·.machine.agenda.clock)).IsChain NotBefore := by
  induction fired with
  | nil => exact List.isChain_singleton _
  | cons next ended _ ih =>
    rw [Firing.clock_renewed ended] at ih
    exact List.IsChain.cons_cons next.notBefore ih

/-- Under a bound that is enough for all of them, the calls lead to the machine in which they end. -/
theorem Fired.drain_eq (fired : Fired start firings last) :
    ∃ fuel, ∀ more, fuel ≤ more → ∀ left,
      drain (interpreter more) (firings.length + left) start =
        drain (interpreter more) left last := by
  induction fired with
  | nil =>
    refine ⟨0, fun more _ left => ?_⟩
    rw [List.length_nil, Nat.zero_add]
  | @cons _ _ _ _ firings _ next ended _ ih =>
    obtain ⟨fuel, others⟩ := ih
    obtain ⟨enough, called⟩ := ended.call_eq
    refine ⟨max fuel enough, fun more le left => ?_⟩
    have first := called more (Nat.le_trans (Nat.le_max_right ..) le)
    rw [List.length_cons, Nat.add_right_comm, drain_succ next first]
    exact others more (Nat.le_trans (Nat.le_max_left ..) le) left

/-- Under a bound that is enough, this end is reached. -/
theorem Drained.drain_eq {called left : Nat} (drained : Drained most last called ending)
    (total : called + left = most) :
    ∃ fuel, ∀ more, fuel ≤ more → drain (interpreter more) left last = ending := by
  cases drained with
  | empty none => exact ⟨0, fun _ _ => drain_empty none⟩
  | limit all next =>
    obtain rfl : left = 0 := by omega
    exact ⟨0, fun _ _ => drain_limit next⟩
  | raised fewer next raises =>
    obtain ⟨left, rfl⟩ := Nat.exists_eq_succ_of_ne_zero (by omega : left ≠ 0)
    obtain ⟨fuel, same⟩ := raises.call_eq
    exact ⟨fuel, fun more le => drain_raised next (same more le)⟩

/-- If each callback that comes up ends, then the calls come to an end, since at most so many are
made. The induction is on their number: what was the bound for fewer of them is one more call. -/
theorem exists_drained (most : Nat)
    (terminates : ∀ firings machine firing, Fired start firings machine → firings.length < most →
      machine.Next firing → ∃ ending, firing.Ends ending) :
    ∃ firings last ending, Fired start firings last ∧ firings.length ≤ most ∧
      Drained most last firings.length ending := by
  induction most with
  | zero =>
    rcases start.next_or_empty with empty | ⟨firing, next⟩
    · exact ⟨[], start, _, .nil start, Nat.le_refl _, .empty empty⟩
    · exact ⟨[], start, _, .nil start, Nat.le_refl _, .limit rfl next⟩
  | succ most ih =>
    obtain ⟨firings, last, ending, fired, few, drained⟩ := ih fun firings machine firing fired few =>
      terminates firings machine firing fired (Nat.lt_succ_of_lt few)
    cases drained with
    | empty none => exact ⟨firings, last, _, fired, Nat.le_succ_of_le few, .empty none⟩
    | raised fewer next raises =>
      exact ⟨firings, last, _, fired, Nat.le_succ_of_le few,
        .raised (Nat.lt_succ_of_lt fewer) next raises⟩
    | @limit firing all next =>
      obtain ⟨ending, ends⟩ := terminates firings last firing fired (all ▸ Nat.lt_succ_self _) next
      match ending, ends with
      | .error .outOfFuel _, ⟨ends, _⟩ => cases ends
      | .error (.exception e) after, ends =>
        exact ⟨firings, last, _, fired, Nat.le_succ_of_le few,
          .raised (all ▸ Nat.lt_succ_self _) next ends⟩
      | .ok value after, ends =>
        have further := fired.concat next ends
        have length : (firings ++ [firing]).length = most + 1 := by simp [all]
        rcases (firing.renewed after).next_or_empty with empty | ⟨another, next⟩
        · exact ⟨_, _, _, further, Nat.le_of_eq length, .empty empty⟩
        · exact ⟨_, _, _, further, Nat.le_of_eq length, .limit length next⟩

/-- **The waiting callbacks are called in the order of time, and not more than so many.** If each one
that comes up ends, whatever it lets wait, repeats or cancels, then the calls end: with an empty agenda,
with the exception of the first call that raises one, or with the fault of the bound, and with this
exactly if as many calls as there may be gave values and a further callback waits. After a program that
ends with an exception no callback is called. -/
theorem callbacks_called_in_order (start : Machine)
    (terminates : ∀ firings machine firing, Fired start firings machine →
      firings.length < maxFirings → machine.Next firing → ∃ ending, firing.Ends ending) :
    (∃ ending, Drains start ending) ∧
      ∀ fuel program interruption after,
        Machine.execute fuel program start = .error interruption after →
          Machine.executeAll fuel program start = .error interruption after := by
  constructor
  · obtain ⟨firings, last, ending, fired, few, drained⟩ := exists_drained maxFirings terminates
    obtain ⟨left, total⟩ := Nat.exists_eq_add_of_le few
    obtain ⟨fuel, calls⟩ := fired.drain_eq
    obtain ⟨fuel', ends⟩ := drained.drain_eq total.symm
    have settled : ∀ more, max fuel fuel' ≤ more →
        drain (interpreter more) maxFirings start = ending := by
      intro more le
      rw [total, calls more (Nat.le_trans (Nat.le_max_left ..) le)]
      exact ends more (Nat.le_trans (Nat.le_max_right ..) le)
    refine ⟨ending, ⟨_, settled⟩, ⟨firings, last, fired, few, fired.clocks, drained⟩, ?_⟩
    constructor
    · intro raises
      cases drained with
      | empty none => cases raises
      | limit all next => exact ⟨firings, last, fired, all, next.nonempty⟩
      | raised fewer next raised =>
        have ordinary := (Firing.timeless raised).2
        cases ordinary.symm.trans raises
    · rintro ⟨firings, last, fired, all, some⟩
      obtain ⟨enough, calls⟩ := fired.drain_eq
      have same := calls (max enough (max fuel fuel')) (Nat.le_max_left ..) 0
      rw [Nat.add_zero, all, settled _ (Nat.le_max_right ..)] at same
      rcases last.next_or_empty with empty | ⟨firing, next⟩
      · rw [empty] at some
        cases some
      · rw [same, drain_limit next]
        rfl
  · intro fuel program interruption after ended
    exact Run.bind_error ended

/-- A machine in which one callback waits. -/
def oneWaits : Machine :=
  { Machine.initial (.scripted [] [] [] []) with
    agenda := (Agenda.empty.schedule (.builtin .print) 5 [.string "late"] false).2 }

/-- The callback that waits is called once: it prints a line, and nothing waits any more. -/
theorem callbacks_called_in_order_once :
    (∀ firings machine firing, Fired oneWaits firings machine → firings.length < maxFirings →
      machine.Next firing → ∃ ending, firing.Ends ending) ∧
    (∃ ending, Drains oneWaits ending) ∧
    ∃ last, drain (interpreter 1) maxFirings oneWaits = .ok () last ∧ last.output = #["late"] := by
  have next : ∀ firing, oneWaits.Next firing → ∃ ready : Machine,
      firing = ⟨⟨1, 0 + Agenda.clampDelay 5, 1, .builtin .print, [.string "late"], none⟩, ready⟩ ∧
        ready.agenda.isEmpty = true := by
    rintro ⟨appointment, ready⟩ ⟨⟩
    exact ⟨_, rfl, rfl⟩
  have terminates : ∀ firings machine firing, Fired oneWaits firings machine →
      firings.length < maxFirings → machine.Next firing → ∃ ending, firing.Ends ending := by
    intro firings machine firing fired _ another
    cases fired with
    | nil =>
      obtain ⟨ready, rfl, -⟩ := next firing another
      exact ⟨_, rfl, 1, rfl⟩
    | cons first ended others =>
      obtain ⟨ready, rfl, empty⟩ := next _ first
      obtain ⟨-, fuel, called⟩ := ended
      cases fuel with
      | zero => cases called
      | succ fuel =>
        cases called
        cases others with
        | nil => cases another.nonempty.symm.trans empty
        | cons second _ _ => cases second.nonempty.symm.trans empty
  exact ⟨terminates, (callbacks_called_in_order oneWaits terminates).1, _, rfl, rfl⟩

end DarijaScript
