import DarijaScript.Proofs.Agenda.Queue

/-!
# The agenda as a queue

However an agenda is used, appointments are taken out in the order of their times, those of the same
time in the order in which they were put in, and the clock never goes back. Every appointment that
was put in waits unchanged until it is taken out, once, or its handle is cancelled.
-/

namespace DarijaScript.Agenda

open Decimal

namespace Usage

variable {usage : Usage} {queued : Appointment} {op : Operation} {ops : List Operation}

/-- The agenda is valid, and what is repeated is repeated after a duration. -/
structure Valid (usage : Usage) : Prop where
  agenda : usage.agenda.Valid
  queued : ∀ appointment ∈ usage.agenda.appointments, Repeats appointment
  out : ∀ appointment ∈ usage.out, Repeats appointment

theorem valid_start : start.Valid := ⟨valid_empty, List.forall_mem_nil _, List.forall_mem_nil _⟩

theorem Valid.step (valid : usage.Valid) (op : Operation) : (usage.step op).Valid := by
  cases op with
  | schedule callback delay args repeats =>
    refine ⟨valid.agenda.schedule callback delay args repeats, ?_, valid.out⟩
    refine List.forall_mem_cons.mpr ⟨?_, valid.queued⟩
    intro interval mem
    cases repeats <;> cases mem
    exact isDuration_clampDelay delay
  | cancel id =>
    exact ⟨valid.agenda.cancel id,
      fun appointment mem => valid.queued appointment (List.mem_filter.mp mem).1, valid.out⟩
  | pop =>
    rcases usage.step_pop with ⟨-, eq⟩ | ⟨first, rest, popped, eq⟩
    · rwa [eq]
    · obtain ⟨mem, sub, -⟩ := pop_eq_some popped
      rw [eq]
      exact ⟨valid.agenda.pop popped, fun appointment left => valid.queued appointment (sub left),
        List.forall_mem_cons.mpr ⟨valid.queued _ mem, valid.out⟩⟩
  | renew index =>
    obtain ⟨out, sub, eq | ⟨appointment, mem, interval, some, -, eq⟩⟩ := usage.step_renew index
    · rw [eq]
      exact ⟨valid.agenda, valid.queued, fun other left => valid.out other (sub left)⟩
    · have repeats := valid.out appointment mem
      rw [eq]
      exact ⟨valid.agenda.insert (repeats interval some) rfl,
        List.forall_mem_cons.mpr ⟨repeats, valid.queued⟩, fun other left => valid.out other (sub left)⟩

theorem Valid.run (valid : usage.Valid) (ops : List Operation) : (usage.run ops).Valid := by
  induction ops generalizing usage with
  | nil => exact valid
  | cons op ops ih => exact ih (valid.step op)

/-! ### What becomes of an appointment -/

/-- The appointments that some operations take out and that were put in at this place. -/
def takenAt (usage : Usage) (order : Nat) (ops : List Operation) : List Appointment :=
  (usage.taken ops).filter (·.order == order)

theorem takenAt_cons (order : Nat) : usage.takenAt order (op :: ops) =
    (usage.taken? op).toList.filter (·.order == order) ++ (usage.step op).takenAt order ops :=
  List.filter_append ..

/-- No appointment that waits was put in at this place, which was given out before. -/
structure Gone (usage : Usage) (order : Nat) : Prop where
  given : order ≤ usage.agenda.lastOrder
  absent : ∀ appointment ∈ usage.agenda.appointments, appointment.order ≠ order

theorem Gone.insert {agenda : Agenda} {out out' : List Appointment} {order : Nat}
    (h : Gone ⟨agenda, out⟩ order) (appointment : Appointment) :
    Gone ⟨agenda.insert appointment, out'⟩ order where
  given := Nat.le_succ_of_le h.given
  absent := List.forall_mem_cons.mpr
    ⟨Nat.ne_of_gt (Nat.lt_succ_of_le h.given), h.absent⟩

theorem Gone.step {order : Nat} (h : usage.Gone order) (op : Operation) :
    (usage.step op).Gone order := by
  cases op with
  | schedule callback delay args repeats =>
    have counted : Gone ⟨{ usage.agenda with lastId := usage.agenda.lastId + 1 }, usage.out⟩ order :=
      { h with }
    exact counted.insert _
  | cancel id =>
    exact ⟨h.given, fun appointment mem => h.absent appointment (List.mem_filter.mp mem).1⟩
  | pop =>
    rcases usage.step_pop with ⟨-, eq⟩ | ⟨first, rest, popped, eq⟩
    · rwa [eq]
    · obtain ⟨-, sub, -, -, lastOrder⟩ := pop_eq_some popped
      rw [eq]
      exact ⟨Nat.le_trans h.given (Nat.le_of_eq lastOrder.symm),
        fun appointment left => h.absent appointment (sub left)⟩
  | renew index =>
    obtain ⟨out, -, eq | ⟨appointment, -, interval, -, -, eq⟩⟩ := usage.step_renew index
    · rw [eq]
      exact { h with }
    · rw [eq]
      exact h.insert _

theorem Gone.taken? {order : Nat} (h : usage.Gone order) (op : Operation) :
    (usage.taken? op).toList.filter (·.order == order) = [] := by
  rw [List.filter_eq_nil_iff]
  intro appointment mem
  rw [beq_iff_eq]
  cases op with
  | pop =>
    obtain ⟨⟨first, rest⟩, popped, rfl⟩ := Option.map_eq_some_iff.mp (Option.mem_toList.mp mem)
    exact h.absent first (pop_eq_some popped).1
  | schedule callback delay args repeats | cancel id | renew index => cases mem

/-- An appointment that is gone does not come back. -/
theorem Gone.run {order : Nat} (h : usage.Gone order) (ops : List Operation) :
    (usage.run ops).Gone order ∧ usage.takenAt order ops = [] := by
  induction ops generalizing usage with
  | nil => exact ⟨h, rfl⟩
  | cons op ops ih =>
    obtain ⟨gone, none⟩ := ih (h.step op)
    refine ⟨gone, ?_⟩
    rw [takenAt_cons, h.taken? op, none]
    rfl

/-- What becomes of an appointment that waits: it goes on waiting, or it is taken out once, as it is,
or its handle is cancelled before that. -/
inductive Fate (usage : Usage) (queued : Appointment) (ops : List Operation) : Prop
  | waits (there : queued ∈ (usage.run ops).agenda.appointments)
      (never : usage.takenAt queued.order ops = []) (uncancelled : .cancel queued.id ∉ ops)
  | called (gone : (usage.run ops).Gone queued.order)
      (once : usage.takenAt queued.order ops = [queued])
  | cancelled (gone : (usage.run ops).Gone queued.order)
      (never : usage.takenAt queued.order ops = []) (mem : .cancel queued.id ∈ ops)

/-- No two appointments that wait were put in at the same place. -/
theorem Valid.eq_of_order (valid : usage.Valid) (mem : queued ∈ usage.agenda.appointments)
    {other : Appointment} (mem' : other ∈ usage.agenda.appointments)
    (same : other.order = queued.order) : other = queued := by
  obtain ⟨later, earlier, eq⟩ := List.append_of_mem mem
  have sorted := valid.agenda.sorted
  rw [eq] at sorted mem'
  obtain ⟨-, inside, across⟩ := List.pairwise_append.mp sorted
  rcases List.mem_append.mp mem' with behind | before
  · have above := across other behind queued List.mem_cons_self
    omega
  · rcases List.mem_cons.mp before with rfl | before
    · rfl
    · have below := (List.pairwise_cons.mp inside).1 other before
      omega

theorem Valid.fate_step (valid : usage.Valid) (mem : queued ∈ usage.agenda.appointments)
    (op : Operation) : usage.Fate queued [op] := by
  have given := valid.agenda.ordered queued mem
  cases op with
  | schedule callback delay args repeats =>
    exact .waits (List.mem_cons_of_mem _ mem) rfl (by simp)
  | cancel id =>
    by_cases same : id = queued.id
    · subst same
      refine .cancelled ⟨given, fun other left order => ?_⟩ rfl List.mem_cons_self
      obtain ⟨mem', distinct⟩ := List.mem_filter.mp left
      rw [valid.eq_of_order mem mem' order] at distinct
      simp at distinct
    · refine .waits (List.mem_filter.mpr ⟨mem, ?_⟩) rfl ?_
      · simpa using Ne.symm same
      · simpa using Ne.symm same
  | pop =>
    cases popped : usage.agenda.pop with
    | none =>
      rw [pop_eq_none_iff] at popped
      rw [popped] at mem
      cases mem
    | some taken =>
      obtain ⟨first, rest⟩ := taken
      have after : usage.run [.pop] = ⟨rest, first :: usage.out⟩ := by
        simp [Usage.step, popped]
      have took : usage.taken [.pop] = [first] := by
        change (usage.agenda.pop.map (·.1)).toList ++ [] = _
        rw [popped]
        rfl
      obtain ⟨later, earlier, eq, -, -, distinct, rfl⟩ := valid.agenda.pop_eq_some popped
      by_cases same : first.order = queued.order
      · obtain rfl := valid.eq_of_order mem (by simp [eq]) same
        refine .called ?_ ?_
        · rw [after]
          exact ⟨given, distinct⟩
        · rw [takenAt, took]
          simp
      · refine .waits ?_ ?_ (by simp)
        · rw [after]
          rw [eq] at mem
          have other : queued ≠ first := fun h => same (congrArg _ h).symm
          simpa [other] using mem
        · rw [takenAt, took]
          simp [same]
  | renew index =>
    refine .waits ?_ rfl (by simp)
    change queued ∈ (usage.step (.renew index)).agenda.appointments
    obtain ⟨out, -, eq | ⟨appointment, -, interval, -, -, eq⟩⟩ := usage.step_renew index
    · rw [eq]
      exact mem
    · rw [eq]
      exact List.mem_cons_of_mem _ mem

/-- Every appointment that waits has one of these fates. -/
theorem Valid.fate (valid : usage.Valid) (mem : queued ∈ usage.agenda.appointments)
    (ops : List Operation) : usage.Fate queued ops := by
  induction ops generalizing usage with
  | nil => exact .waits mem rfl List.not_mem_nil
  | cons op ops ih =>
    have split : usage.takenAt queued.order (op :: ops) =
        usage.takenAt queued.order [op] ++ (usage.step op).takenAt queued.order ops := by
      rw [takenAt_cons, takenAt_cons, List.append_assoc]
      rfl
    cases valid.fate_step mem op with
    | waits there never uncancelled =>
      rw [List.mem_singleton] at uncancelled
      cases ih (valid.step op) there with
      | waits there' never' uncancelled' =>
        refine .waits there' ?_ ?_
        · rw [split, never, never', List.append_nil]
        · exact fun mem => (List.mem_cons.mp mem).elim uncancelled uncancelled'
      | called gone once => exact .called gone (by rw [split, never, once, List.nil_append])
      | cancelled gone never' mem =>
        refine .cancelled gone ?_ (List.mem_cons_of_mem _ mem)
        rw [split, never, never', List.append_nil]
    | called gone once =>
      obtain ⟨gone, never⟩ := gone.run ops
      refine .called gone ?_
      rw [split, once]
      exact congrArg _ never
    | cancelled gone never mem =>
      obtain ⟨gone, never'⟩ := gone.run ops
      refine .cancelled gone ?_ ?_
      · rw [split, never]
        exact never'
      · rw [List.mem_singleton.mp mem]
        exact List.mem_cons_self

theorem Valid.clock_step (valid : usage.Valid) (op : Operation) :
    usage.agenda.clock ≤ (usage.step op).agenda.clock := by
  have still := valid.agenda.clock.le_refl
  cases op with
  | schedule callback delay args repeats => exact still
  | cancel id => exact still
  | pop =>
    rcases usage.step_pop with ⟨-, eq⟩ | ⟨first, rest, popped, eq⟩
    · rwa [eq]
    · obtain ⟨later, earlier, queue, -, -, -, rfl⟩ := valid.agenda.pop_eq_some popped
      rw [eq]
      exact valid.agenda.due _ (by simp [queue])
  | renew index =>
    obtain ⟨out, -, eq | ⟨appointment, -, interval, -, -, eq⟩⟩ := usage.step_renew index
    · rwa [eq]
    · rw [eq]
      exact still

theorem Valid.clock_run (valid : usage.Valid) (ops : List Operation) :
    usage.agenda.clock ≤ (usage.run ops).agenda.clock := by
  induction ops generalizing usage with
  | nil => exact valid.agenda.clock.le_refl
  | cons op ops ih =>
    have next := valid.step op
    exact valid.agenda.clock.le_trans next.agenda.clock (next.run ops).agenda.clock
      (valid.clock_step op) (ih next)

/-! ### The queue -/

/-- The agenda is a queue by time. Appointments are put in in front of those that wait, so those
behind an appointment were put in before it. -/
structure Faithful (usage : Usage) : Prop where
  /-- Every time is a number and not before the clock. -/
  due : ∀ appointment ∈ usage.agenda.appointments,
    appointment.due.isNaN = false ∧ usage.agenda.clock ≤ appointment.due
  /-- Something is taken out unless nothing waits. -/
  empty : usage.agenda.pop = none ↔ usage.agenda.appointments = []
  /-- What is taken out has the least time, and of those with this time it was put in first. The
  others stay, and the clock is moved to just this time. -/
  first : ∀ appointment rest, usage.agenda.pop = some (appointment, rest) →
    ∃ later earlier, usage.agenda.appointments = later ++ appointment :: earlier ∧
      (∀ other ∈ earlier, appointment.due < other.due) ∧
        (∀ other ∈ later, appointment.due ≤ other.due) ∧
          rest.appointments = later ++ earlier ∧ rest.clock = appointment.due
  /-- The clock never goes back. -/
  clock : ∀ ops, usage.agenda.clock ≤ (usage.run ops).agenda.clock
  /-- What is let wait is put in under its handle, with its callback and arguments. -/
  scheduled : ∀ callback delay args repeats, ∃ appointment,
    (usage.step (.schedule callback delay args repeats)).agenda.appointments =
        appointment :: usage.agenda.appointments ∧
      usage.handle? (.schedule callback delay args repeats) = some appointment.id ∧
        appointment.due = usage.agenda.clock + clampDelay delay ∧
          appointment.callback = callback ∧ appointment.args = args
  /-- What is repeated and not cancelled is put in again under its handle, with its callback and
  arguments. -/
  renewed : ∀ index appointment interval, usage.out[index]? = some appointment →
    appointment.interval = some interval → usage.agenda.wasCancelled appointment.id = false →
      ∃ again, (usage.step (.renew index)).agenda.appointments =
          again :: usage.agenda.appointments ∧
        again.id = appointment.id ∧ again.due = usage.agenda.clock + interval ∧
          again.callback = appointment.callback ∧ again.args = appointment.args
  /-- What waits goes on waiting unchanged until it is taken out, once, or cancelled. -/
  fate : ∀ queued ∈ usage.agenda.appointments, ∀ ops, usage.Fate queued ops

theorem Valid.faithful (valid : usage.Valid) : usage.Faithful where
  due := fun appointment mem =>
    ⟨(valid.agenda.times appointment mem).isNaN_eq, valid.agenda.due appointment mem⟩
  empty := pop_eq_none_iff
  first := by
    intro appointment rest popped
    obtain ⟨later, earlier, eq, after, within, -, rfl⟩ := valid.agenda.pop_eq_some popped
    exact ⟨later, earlier, eq, after, within, rfl, rfl⟩
  clock := valid.clock_run
  scheduled := fun callback delay args repeats => ⟨_, rfl, rfl, rfl, rfl, rfl⟩
  renewed := by
    intro index appointment interval found repeats alive
    have again : (usage.step (.renew index)).agenda =
        usage.agenda.insert { appointment with due := usage.agenda.clock + interval } := by
      simp [Usage.step, found, Agenda.renew, repeats, alive]
    rw [again]
    exact ⟨_, rfl, rfl, rfl, rfl, rfl⟩
  fate := fun _ mem => valid.fate mem

end Usage

/-- After whatever was done with an empty agenda, it is a queue by time, and no handle was given out
twice. -/
theorem agenda_faithful (ops : List Operation) :
    (Usage.start.run ops).Faithful ∧ (Usage.start.handles ops).Nodup ∧
      Usage.start.handles ops = List.range' 1 (Usage.start.handles ops).length := by
  have given := Usage.start.handles_eq ops
  refine ⟨(Usage.valid_start.run ops).faithful, ?_, given⟩
  rw [given]
  exact List.nodup_range'

end DarijaScript.Agenda
