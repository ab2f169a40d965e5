import DarijaScript.Proofs.Evaluation.Known

/-!
# Uses of an agenda

What is done with an agenda in a run: callbacks are let wait and cancelled, appointments are taken
out, and every one that was taken out may be put in again once. A handle that was cancelled is dead
from then on, whatever else is done.
-/

namespace DarijaScript.Agenda

/-- What is done with an agenda. -/
inductive Operation where
  | schedule (callback : Value) (delay : Float) (args : List Value) (repeats : Bool)
  | cancel (id : Nat)
  | pop
  /-- Puts in again what was taken out: the last one that is still out has index zero. -/
  | renew (index : Nat)

/-- An agenda and the appointments that are out: taken out and not put in again yet. -/
structure Usage where
  agenda : Agenda
  out : List Appointment

namespace Usage

/-- An empty agenda that nothing was done with. -/
def start : Usage := ⟨.empty, []⟩

/-- What an operation does. There is nothing to take out of an empty agenda, and nothing to put in
again where no appointment is out. -/
def step (usage : Usage) : Operation → Usage
  | .schedule callback delay args repeats =>
    { usage with agenda := (usage.agenda.schedule callback delay args repeats).2 }
  | .cancel id => { usage with agenda := usage.agenda.cancel id }
  | .pop =>
    match usage.agenda.pop with
    | none => usage
    | some (appointment, rest) => ⟨rest, appointment :: usage.out⟩
  | .renew index =>
    match usage.out[index]? with
    | none => usage
    | some appointment => ⟨usage.agenda.renew appointment, usage.out.eraseIdx index⟩

/-- What some operations do, one after the other. -/
def run (usage : Usage) (ops : List Operation) : Usage := ops.foldl step usage

/-- The handle that an operation gives. -/
def handle? (usage : Usage) : Operation → Option Nat
  | .schedule callback delay args repeats =>
    some (usage.agenda.schedule callback delay args repeats).1
  | _ => none

/-- The appointment that an operation takes out. -/
def taken? (usage : Usage) : Operation → Option Appointment
  | .pop => usage.agenda.pop.map (·.1)
  | _ => none

/-- The handles that some operations give, in order. -/
def handles (usage : Usage) : List Operation → List Nat
  | [] => []
  | op :: ops => (usage.handle? op).toList ++ (usage.step op).handles ops

/-- The appointments that some operations take out, in order. -/
def taken (usage : Usage) : List Operation → List Appointment
  | [] => []
  | op :: ops => (usage.taken? op).toList ++ (usage.step op).taken ops

@[simp] theorem run_nil (usage : Usage) : usage.run [] = usage := rfl

@[simp] theorem run_cons (usage : Usage) (op : Operation) (ops : List Operation) :
    usage.run (op :: ops) = (usage.step op).run ops := rfl

end Usage

/-! ### What the operations do -/

variable {agenda rest : Agenda} {appointment : Appointment}

/-- Taking an appointment out leaves only appointments that were there, and all but the clock. -/
theorem pop_eq_some (h : agenda.pop = some (appointment, rest)) :
    appointment ∈ agenda.appointments ∧ rest.appointments ⊆ agenda.appointments ∧
      rest.cancelled = agenda.cancelled ∧ rest.lastId = agenda.lastId ∧
        rest.lastOrder = agenda.lastOrder := by
  obtain ⟨first, found, eq⟩ := Option.map_eq_some_iff.mp h
  cases eq
  exact ⟨mem_of_first? found, fun _ => List.mem_of_mem_eraseP, rfl, rfl, rfl⟩

/-- What is put in again keeps its handle, its callback and its arguments. -/
theorem renew_cases (agenda : Agenda) (appointment : Appointment) :
    agenda.renew appointment = agenda ∨
      ∃ interval, appointment.interval = some interval ∧
        agenda.wasCancelled appointment.id = false ∧ agenda.renew appointment =
          agenda.insert { appointment with due := agenda.clock + interval } := by
  unfold renew
  cases appointment.interval with
  | none => exact .inl rfl
  | some interval =>
    cases dead : agenda.wasCancelled appointment.id with
    | true => exact .inl rfl
    | false => exact .inr ⟨interval, rfl, rfl, rfl⟩

theorem wasCancelled_cancel (agenda : Agenda) (id other : Nat) :
    (agenda.cancel id).wasCancelled other = (other == id || agenda.wasCancelled other) := by
  unfold cancel wasCancelled
  dsimp only
  split
  · next before =>
    by_cases same : other = id
    · rw [same, before, Bool.or_true]
    · rw [beq_false_of_ne same, Bool.false_or]
  · rw [List.contains_cons]

namespace Usage

/-- Taking out does nothing where nothing waits; what is taken out is out afterwards. -/
theorem step_pop (usage : Usage) :
    usage.agenda.pop = none ∧ usage.step .pop = usage ∨
      ∃ appointment rest, usage.agenda.pop = some (appointment, rest) ∧
        usage.step .pop = ⟨rest, appointment :: usage.out⟩ := by
  unfold step
  cases usage.agenda.pop with
  | none => exact .inl ⟨rfl, rfl⟩
  | some taken => exact .inr ⟨taken.1, taken.2, rfl, rfl⟩

/-- Putting in again leaves the agenda as it is, unless a repeated appointment was out whose handle
was not cancelled. -/
theorem step_renew (usage : Usage) (index : Nat) :
    ∃ out ⊆ usage.out, usage.step (.renew index) = ⟨usage.agenda, out⟩ ∨
      ∃ appointment ∈ usage.out, ∃ interval, appointment.interval = some interval ∧
        usage.agenda.wasCancelled appointment.id = false ∧ usage.step (.renew index) =
          ⟨usage.agenda.insert { appointment with due := usage.agenda.clock + interval }, out⟩ := by
  unfold step
  dsimp only
  cases found : usage.out[index]? with
  | none => exact ⟨usage.out, List.Subset.refl _, .inl rfl⟩
  | some appointment =>
    refine ⟨usage.out.eraseIdx index, List.eraseIdx_subset, ?_⟩
    dsimp only
    rcases renew_cases usage.agenda appointment with same | ⟨interval, repeats, alive, eq⟩
    · rw [same]
      exact .inl rfl
    · rw [eq]
      exact .inr ⟨appointment, List.mem_of_getElem? found, interval, repeats, alive, rfl⟩

theorem lastId_step (usage : Usage) (op : Operation) :
    (usage.step op).agenda.lastId = usage.agenda.lastId + (usage.handle? op).toList.length := by
  cases op with
  | schedule callback delay args repeats => rfl
  | cancel id => rfl
  | pop =>
    rcases usage.step_pop with ⟨-, eq⟩ | ⟨first, rest, popped, eq⟩
    · rw [eq]
      rfl
    · rw [eq]
      exact (pop_eq_some popped).2.2.2.1
  | renew index =>
    obtain ⟨out, -, eq | ⟨appointment, -, interval, -, -, eq⟩⟩ := usage.step_renew index
    · rw [eq]
      rfl
    · rw [eq]
      rfl

/-- Handles are given out in order. -/
theorem handles_eq (usage : Usage) (ops : List Operation) :
    usage.handles ops =
      List.range' (usage.agenda.lastId + 1) (usage.handles ops).length := by
  induction ops generalizing usage with
  | nil => rfl
  | cons op ops ih =>
    have later := ih (usage.step op)
    rw [lastId_step] at later
    cases op with
    | schedule callback delay args repeats =>
      change (usage.agenda.lastId + 1) :: handles _ ops =
        List.range' _ ((handles _ ops).length + 1)
      rw [List.range'_succ]
      exact congrArg (List.cons _) later
    | cancel id | pop | renew index => exact later

theorem lastId_run (usage : Usage) (ops : List Operation) :
    (usage.run ops).agenda.lastId = usage.agenda.lastId + (usage.handles ops).length := by
  induction ops generalizing usage with
  | nil => rfl
  | cons op ops ih =>
    rw [run_cons, ih, lastId_step, handles, List.length_append, Nat.add_assoc]

theorem le_lastId_of_mem_handles {usage : Usage} {ops : List Operation} {id : Nat}
    (given : id ∈ usage.handles ops) : id ≤ (usage.run ops).agenda.lastId := by
  rw [handles_eq, List.mem_range'_1] at given
  rw [lastId_run]
  omega

end Usage

/-! ### Cancelled handles -/

namespace Usage

/-- The handle was given out and cancelled, and no appointment that waits has it. -/
structure Dead (usage : Usage) (id : Nat) : Prop where
  given : id ≤ usage.agenda.lastId
  cancelled : usage.agenda.wasCancelled id = true
  absent : ∀ appointment ∈ usage.agenda.appointments, appointment.id ≠ id

variable {usage : Usage} {id : Nat}

theorem dead_cancel (given : id ≤ usage.agenda.lastId) : (usage.step (.cancel id)).Dead id where
  given := given
  cancelled := by
    change (usage.agenda.cancel id).wasCancelled id = true
    rw [wasCancelled_cancel, beq_self_eq_true, Bool.true_or]
  absent := by
    intro appointment mem
    simpa using (List.mem_filter.mp mem).2

/-- A mark that a handle was cancelled stays. -/
theorem wasCancelled_step (mark : usage.agenda.wasCancelled id = true) (op : Operation) :
    (usage.step op).agenda.wasCancelled id = true := by
  cases op with
  | schedule callback delay args repeats => exact mark
  | cancel other =>
    change (usage.agenda.cancel other).wasCancelled id = true
    rw [wasCancelled_cancel, mark, Bool.or_true]
  | pop =>
    rcases usage.step_pop with ⟨-, eq⟩ | ⟨first, rest, popped, eq⟩
    · rwa [eq]
    · rw [eq, wasCancelled, (pop_eq_some popped).2.2.1]
      exact mark
  | renew index =>
    obtain ⟨out, -, eq | ⟨appointment, -, interval, -, -, eq⟩⟩ := usage.step_renew index
    · rw [eq]
      exact mark
    · rw [eq]
      exact mark

theorem Dead.step (h : usage.Dead id) (op : Operation) : (usage.step op).Dead id := by
  have given : id ≤ (usage.step op).agenda.lastId := by
    rw [lastId_step]
    exact Nat.le_add_right_of_le h.given
  refine ⟨given, wasCancelled_step h.cancelled op, ?_⟩
  cases op with
  | schedule callback delay args repeats =>
    exact List.forall_mem_cons.mpr ⟨Nat.ne_of_gt (Nat.lt_succ_of_le h.given), h.absent⟩
  | cancel other => exact fun appointment mem => h.absent appointment (List.mem_filter.mp mem).1
  | pop =>
    rcases usage.step_pop with ⟨-, eq⟩ | ⟨first, rest, popped, eq⟩
    · rw [eq]
      exact h.absent
    · rw [eq]
      exact fun waiting mem => h.absent waiting ((pop_eq_some popped).2.1 mem)
  | renew index =>
    obtain ⟨out, -, eq | ⟨appointment, -, interval, -, alive, eq⟩⟩ := usage.step_renew index
    · rw [eq]
      exact h.absent
    · rw [eq]
      refine List.forall_mem_cons.mpr ⟨fun same => ?_, h.absent⟩
      rw [show appointment.id = id from same, h.cancelled] at alive
      cases alive

theorem Dead.run (h : usage.Dead id) (ops : List Operation) : (usage.run ops).Dead id := by
  induction ops generalizing usage with
  | nil => exact h
  | cons op ops ih => exact ih (h.step op)

theorem Dead.taken? (h : usage.Dead id) (op : Operation) :
    ∀ appointment ∈ usage.taken? op, appointment.id ≠ id := by
  intro appointment mem
  cases op with
  | pop =>
    obtain ⟨⟨first, rest⟩, popped, rfl⟩ := Option.map_eq_some_iff.mp mem
    exact h.absent first (pop_eq_some popped).1
  | schedule callback delay args repeats | cancel other | renew index => cases mem

theorem Dead.taken (h : usage.Dead id) (ops : List Operation) :
    ∀ appointment ∈ usage.taken ops, appointment.id ≠ id := by
  induction ops generalizing usage with
  | nil => exact nofun
  | cons op ops ih =>
    intro appointment mem
    rcases List.mem_append.mp mem with first | later
    · exact h.taken? op appointment (Option.mem_toList.mp first)
    · exact ih (h.step op) appointment later

end Usage

/-- Whatever was done before and is done afterwards: once a handle that was given out is cancelled,
no appointment with it is taken out or waits any more. The other appointments keep their times and
their order, and the clock, the next handle and what is out are as before. -/
theorem cancel_final (before after : List Operation) (id : Nat)
    (given : id ∈ Usage.start.handles before) :
    let usage := Usage.start.run before
    let cancelled := usage.step (.cancel id)
    (∀ appointment ∈ cancelled.taken after, appointment.id ≠ id) ∧
      (∀ appointment ∈ (cancelled.run after).agenda.appointments, appointment.id ≠ id) ∧
      cancelled.agenda.appointments = usage.agenda.appointments.filter (·.id != id) ∧
      cancelled.agenda.clock = usage.agenda.clock ∧
      (∀ op, cancelled.handle? op = usage.handle? op) ∧
      cancelled.agenda.lastOrder = usage.agenda.lastOrder ∧ cancelled.out = usage.out := by
  intro usage cancelled
  have dead : cancelled.Dead id := Usage.dead_cancel (Usage.le_lastId_of_mem_handles given)
  refine ⟨dead.taken after, (dead.run after).absent, rfl, rfl, fun op => ?_, rfl, rfl⟩
  cases op <;> rfl

/-- A repeated callback that cancels itself while it is called is not called again. -/
theorem cancel_final_own :
    1 ∈ Usage.start.handles [.schedule .undefined 5 [] true, .pop] ∧
      ∀ appointment ∈ ((Usage.start.run [.schedule .undefined 5 [] true, .pop]).step
        (.cancel 1)).taken [.renew 0, .pop], appointment.id ≠ 1 :=
  ⟨List.mem_cons_self, (cancel_final _ _ 1 List.mem_cons_self).1⟩

end DarijaScript.Agenda
