import DarijaScript.Value.Basic

/-!
# The agenda

Callbacks wait for their times on a virtual clock, which moves only when a callback is taken out.
The one due first is taken out first, and of those due at the same time the one put in first.
-/

namespace DarijaScript

/-- The place of a double in the order of all doubles: the negative ones first, each zero apart.
The patterns of the negative ones run the other way than their values. -/
def Decimal.orderKey (x : Float) : UInt64 :=
  let bits := x.toBits
  if bits < 0x8000000000000000 then bits + 0x8000000000000000 else ~~~bits

/-- A callback that waits. -/
structure Appointment where
  id : Nat
  due : Float
  /-- How many appointments had been put in when this one was. -/
  order : Nat
  callback : Value
  args : List Value
  /-- The time until the next call of a repeated callback. -/
  interval : Option Float

/-- The appointment is called before another one. -/
def Appointment.before (a b : Appointment) : Bool :=
  let first := Decimal.orderKey a.due
  let second := Decimal.orderKey b.due
  first < second || (first == second && a.order < b.order)

/-- The appointments that wait, the handles that were cancelled, the numbers given out last, and the
time that has passed. -/
structure Agenda where
  /-- The appointment put in last stands first. -/
  appointments : List Appointment
  cancelled : List Nat
  lastId : Nat
  lastOrder : Nat
  clock : Float

namespace Agenda

/-- Nothing waits, and no time has passed. -/
def empty : Agenda := ⟨[], [], 0, 0, 0⟩

/-- Nothing waits. -/
def isEmpty (agenda : Agenda) : Bool := agenda.appointments.isEmpty

/-- The handle was cancelled. -/
def wasCancelled (agenda : Agenda) (id : Nat) : Bool := agenda.cancelled.contains id

/-- Puts an appointment in; of the appointments due at the same time it is the last. -/
def insert (agenda : Agenda) (appointment : Appointment) : Agenda :=
  let order := agenda.lastOrder + 1
  { agenda with
    appointments := { appointment with order := order } :: agenda.appointments
    lastOrder := order }

/-- A delay that is not negative; what is no number counts as none. -/
def clampDelay (delay : Float) : Float := if delay.isNaN || delay < 0 then 0 else delay

/-- Lets a callback wait, and gives its handle. -/
def schedule (agenda : Agenda) (callback : Value) (delay : Float) (args : List Value)
    (repeats : Bool) : Nat × Agenda :=
  let delay := clampDelay delay
  let id := agenda.lastId + 1
  let appointment : Appointment :=
    ⟨id, agenda.clock + delay, 0, callback, args, if repeats then some delay else none⟩
  (id, { agenda with lastId := id }.insert appointment)

/-- Takes an appointment out for good. A repeated callback that is being called is not put in
again. -/
def cancel (agenda : Agenda) (id : Nat) : Agenda :=
  { agenda with
    appointments := agenda.appointments.filter (·.id != id)
    cancelled := if agenda.wasCancelled id then agenda.cancelled else id :: agenda.cancelled }

/-- The one of two appointments that is called first. -/
def sooner (a b : Appointment) : Appointment := if b.before a then b else a

/-- The first of some appointments to be called. -/
def first? : List Appointment → Option Appointment
  | [] => none
  | appointment :: rest => some (rest.foldl sooner appointment)

/-- Takes out the appointment to be called next and moves the clock to its time. -/
def pop (agenda : Agenda) : Option (Appointment × Agenda) :=
  (first? agenda.appointments).map fun appointment =>
    (appointment,
      { agenda with
        appointments := agenda.appointments.eraseP (·.order == appointment.order)
        clock := if agenda.clock < appointment.due then appointment.due else agenda.clock })

/-- Puts a repeated callback in again after its call. -/
def renew (agenda : Agenda) (appointment : Appointment) : Agenda :=
  match appointment.interval with
  | none => agenda
  | some interval =>
    if agenda.wasCancelled appointment.id then agenda
    else agenda.insert { appointment with due := agenda.clock + interval }

end Agenda

end DarijaScript
