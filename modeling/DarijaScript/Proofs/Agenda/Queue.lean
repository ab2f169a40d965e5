import DarijaScript.Proofs.Agenda.Usage
import DarijaScript.Proofs.Decimal.Sum

/-!
# The order of appointments

The appointment taken out is the one that is due first, and of those due at the same time the one put
in first. The invariant behind this: the clock and all times are doubles without a sign, no time is
before the clock, and the appointments stand in the order in which they were put in.
-/

namespace DarijaScript.Agenda

open Decimal

/-! ### Which appointment is called first -/

theorem before_iff (a b : Appointment) : a.before b = true ↔
    (orderKey a.due).toNat < (orderKey b.due).toNat ∨
      (orderKey a.due).toNat = (orderKey b.due).toNat ∧ a.order < b.order := by
  unfold Appointment.before
  dsimp only
  rw [Bool.or_eq_true, Bool.and_eq_true, decide_eq_true_iff, decide_eq_true_iff, beq_iff_eq,
    UInt64.lt_iff_toNat_lt, UInt64.toNat_inj]

theorem not_before_self (a : Appointment) : ¬a.before a = true := by
  rw [before_iff]
  omega

/-- What is not called before one of two appointments is not called before the sooner one. -/
theorem not_before_sooner {a b c : Appointment} (h : ¬c.before a = true ∨ ¬c.before b = true) :
    ¬c.before (sooner a b) = true := by
  unfold sooner
  rw [before_iff, before_iff] at h
  split
  all_goals
    next first =>
      rw [before_iff] at first ⊢
      omega

theorem not_before_foldl {start other : Appointment} {rest : List Appointment}
    (h : ¬other.before start = true ∨ other ∈ rest) :
    ¬other.before (rest.foldl sooner start) = true := by
  induction rest generalizing start with
  | nil => exact h.resolve_right List.not_mem_nil
  | cons next rest ih =>
    rw [List.foldl_cons]
    apply ih
    rcases h with earlier | mem
    · exact .inl (not_before_sooner (.inl earlier))
    · rcases List.mem_cons.mp mem with rfl | later
      · exact .inl (not_before_sooner (.inr (not_before_self other)))
      · exact .inr later

/-- No appointment is called before the first one. -/
theorem not_before_first {appointments : List Appointment} {first other : Appointment}
    (h : first? appointments = some first) (mem : other ∈ appointments) :
    ¬other.before first = true := by
  cases appointments with
  | nil => cases mem
  | cons start rest =>
    cases h
    rcases List.mem_cons.mp mem with rfl | later
    · exact not_before_foldl (.inl (not_before_self other))
    · exact not_before_foldl (.inr later)

theorem first?_eq_none_iff {appointments : List Appointment} :
    first? appointments = none ↔ appointments = [] := by
  cases appointments with
  | nil => exact iff_of_true rfl rfl
  | cons start rest => exact iff_of_false nofun nofun

/-! ### The invariant -/

/-- The clock and the times of the appointments are times, none of which is before the clock, and the
appointments stand in the order in which they were put in, the last one first. -/
structure Valid (agenda : Agenda) : Prop where
  clock : IsTime agenda.clock
  times : ∀ appointment ∈ agenda.appointments, IsTime appointment.due
  due : ∀ appointment ∈ agenda.appointments, agenda.clock ≤ appointment.due
  sorted : agenda.appointments.Pairwise fun later earlier => earlier.order < later.order
  ordered : ∀ appointment ∈ agenda.appointments, appointment.order ≤ agenda.lastOrder

/-- A callback that is repeated is repeated after a duration. -/
def Repeats (appointment : Appointment) : Prop :=
  ∀ interval ∈ appointment.interval, IsDuration interval

variable {agenda rest : Agenda} {appointment : Appointment}

theorem valid_empty : empty.Valid where
  clock := .zero
  times := List.forall_mem_nil _
  due := List.forall_mem_nil _
  sorted := .nil
  ordered := List.forall_mem_nil _

theorem isDuration_clampDelay (delay : Float) : IsDuration (clampDelay delay) := by
  unfold clampDelay
  split
  · exact ⟨rfl, by decide⟩
  · next fine =>
    rw [Bool.or_eq_true, decide_eq_true_iff, not_or] at fine
    exact ⟨Bool.not_eq_true _ ▸ fine.1, fine.2⟩

/-- An appointment that is put in for a duration after the clock. -/
theorem Valid.insert (valid : agenda.Valid) {interval : Float} (lasts : IsDuration interval)
    (eq : appointment.due = agenda.clock + interval) : (agenda.insert appointment).Valid := by
  obtain ⟨time, above⟩ := valid.clock.add lasts
  exact
    { clock := valid.clock
      times := List.forall_mem_cons.mpr ⟨eq ▸ time, valid.times⟩
      due := List.forall_mem_cons.mpr ⟨eq ▸ above, valid.due⟩
      sorted := List.pairwise_cons.mpr
        ⟨fun earlier mem => Nat.lt_succ_of_le (valid.ordered earlier mem), valid.sorted⟩
      ordered := List.forall_mem_cons.mpr
        ⟨Nat.le_refl _, fun earlier mem => Nat.le_succ_of_le (valid.ordered earlier mem)⟩ }

theorem Valid.schedule (valid : agenda.Valid) (callback : Value) (delay : Float)
    (args : List Value) (repeats : Bool) :
    (agenda.schedule callback delay args repeats).2.Valid :=
  have counted : Valid { agenda with lastId := agenda.lastId + 1 } := { valid with }
  counted.insert (isDuration_clampDelay delay) rfl

theorem Valid.cancel (valid : agenda.Valid) (id : Nat) : (agenda.cancel id).Valid where
  clock := valid.clock
  times := fun appointment mem => valid.times appointment (List.mem_filter.mp mem).1
  due := fun appointment mem => valid.due appointment (List.mem_filter.mp mem).1
  sorted := valid.sorted.filter _
  ordered := fun appointment mem => valid.ordered appointment (List.mem_filter.mp mem).1

/-- What is taken out stands somewhere among the appointments; its time is less than the times of
those that were put in before it and at most the times of those that were put in after it. Only the
clock is moved, to its time. -/
theorem Valid.pop_eq_some (valid : agenda.Valid) (h : agenda.pop = some (appointment, rest)) :
    ∃ later earlier, agenda.appointments = later ++ appointment :: earlier ∧
      (∀ other ∈ earlier, appointment.due < other.due) ∧
        (∀ other ∈ later, appointment.due ≤ other.due) ∧
          (∀ other ∈ later ++ earlier, other.order ≠ appointment.order) ∧
            rest = { agenda with appointments := later ++ earlier, clock := appointment.due } := by
  obtain ⟨first, found, eq⟩ := Option.map_eq_some_iff.mp h
  cases eq
  have mem := mem_of_first? found
  have time := valid.times appointment mem
  have least := fun other => @not_before_first agenda.appointments appointment other found
  have clock : (if agenda.clock < appointment.due then appointment.due else agenda.clock) =
      appointment.due := by
    split
    · rfl
    · next stays => exact valid.clock.eq_of_le time (valid.due appointment mem) stays
  have times := valid.times
  have sorted := valid.sorted
  obtain ⟨later, earlier, eq⟩ := List.append_of_mem mem
  rw [eq] at least times sorted
  obtain ⟨-, inside, across⟩ := List.pairwise_append.mp sorted
  obtain ⟨below, -⟩ := List.pairwise_cons.mp inside
  have above := fun other behind => across other behind appointment List.mem_cons_self
  refine ⟨later, earlier, eq, fun other before => ?_, fun other behind => ?_, ?_, ?_⟩
  · have place := least other (by simp [before])
    have order := below other before
    rw [before_iff] at place
    exact time.lt_of_orderKey (times other (by simp [before])) (by omega)
  · have place := least other (by simp [behind])
    rw [before_iff] at place
    exact time.le_of_orderKey (times other (by simp [behind])) (by omega)
  · intro other left
    rcases List.mem_append.mp left with behind | before
    · exact Nat.ne_of_gt (above other behind)
    · exact Nat.ne_of_lt (below other before)
  · have others : ∀ other ∈ later, ¬(other.order == appointment.order) = true := by
      intro other behind
      rw [beq_iff_eq]
      exact Nat.ne_of_gt (above other behind)
    have removed : agenda.appointments.eraseP (·.order == appointment.order) =
        later ++ earlier := by
      rw [eq, List.eraseP_append_right _ others]
      exact congrArg _ (List.eraseP_cons_of_pos (beq_self_eq_true appointment.order))
    rw [removed, clock]

theorem pop_eq_none_iff : agenda.pop = none ↔ agenda.appointments = [] := by
  unfold pop
  rw [Option.map_eq_none_iff, first?_eq_none_iff]

theorem Valid.pop (valid : agenda.Valid) (h : agenda.pop = some (appointment, rest)) :
    rest.Valid := by
  obtain ⟨later, earlier, eq, after, within, -, rfl⟩ := valid.pop_eq_some h
  have sub : (later ++ earlier).Sublist agenda.appointments := by
    rw [eq]
    exact (List.sublist_cons_self _ _).append_left _
  have mem : appointment ∈ agenda.appointments := by simp [eq]
  exact
    { clock := valid.times appointment mem
      times := fun other mem => valid.times other (sub.subset mem)
      due := by
        intro other left
        rcases List.mem_append.mp left with behind | before
        · exact within other behind
        · exact (valid.times appointment mem).le_of_lt (valid.times other (sub.subset left))
            (after other before)
      sorted := valid.sorted.sublist sub
      ordered := fun other mem => valid.ordered other (sub.subset mem) }

end DarijaScript.Agenda
