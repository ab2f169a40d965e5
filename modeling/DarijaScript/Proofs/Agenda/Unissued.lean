import DarijaScript.Builtin.Function
import DarijaScript.Proofs.Agenda.Faithful

/-!
# Handles that were not given out

Cancelling a number that is no handle yet leaves nothing behind but the mark that it was cancelled.
The mark shows when a repeated callback is given this handle afterwards: it is called once and not
put in again. Up to there the agenda with the mark and the agenda without it are used alike.
-/

namespace DarijaScript.Agenda

namespace Usage

variable {usage marked : Usage} {id : Nat} {op : Operation} {ops : List Operation}

/-! ### Handles that wait or are out -/

/-- Whatever waits or is out has a handle that was given out. -/
structure Numbered (usage : Usage) : Prop where
  queued : ∀ appointment ∈ usage.agenda.appointments,
    0 < appointment.id ∧ appointment.id ≤ usage.agenda.lastId
  out : ∀ appointment ∈ usage.out, 0 < appointment.id ∧ appointment.id ≤ usage.agenda.lastId

theorem numbered_start : start.Numbered := ⟨List.forall_mem_nil _, List.forall_mem_nil _⟩

theorem Numbered.step (h : usage.Numbered) (op : Operation) : (usage.step op).Numbered := by
  cases op with
  | schedule callback delay args repeats =>
    have later : ∀ number, 0 < number ∧ number ≤ usage.agenda.lastId →
        0 < number ∧ number ≤ usage.agenda.lastId + 1 := by omega
    refine ⟨List.forall_mem_cons.mpr ⟨⟨Nat.succ_pos _, Nat.le_refl _⟩, ?_⟩, ?_⟩
    · exact fun appointment mem => later _ (h.queued appointment mem)
    · exact fun appointment mem => later _ (h.out appointment mem)
  | cancel id =>
    exact ⟨fun appointment mem => h.queued appointment (List.mem_filter.mp mem).1, h.out⟩
  | pop =>
    rcases usage.step_pop with ⟨-, eq⟩ | ⟨first, rest, popped, eq⟩
    · rwa [eq]
    · obtain ⟨mem, sub, -, lastId, -⟩ := pop_eq_some popped
      rw [eq]
      refine ⟨?_, List.forall_mem_cons.mpr ⟨?_, ?_⟩⟩
      · exact fun appointment left => lastId ▸ h.queued appointment (sub left)
      · exact lastId ▸ h.queued _ mem
      · exact fun appointment mem => lastId ▸ h.out appointment mem
  | renew index =>
    obtain ⟨out, sub, eq | ⟨appointment, mem, interval, -, -, eq⟩⟩ := usage.step_renew index
    · rw [eq]
      exact ⟨h.queued, fun other left => h.out other (sub left)⟩
    · rw [eq]
      exact ⟨List.forall_mem_cons.mpr ⟨h.out appointment mem, h.queued⟩,
        fun other left => h.out other (sub left)⟩

theorem Numbered.run (h : usage.Numbered) (ops : List Operation) : (usage.run ops).Numbered := by
  induction ops generalizing usage with
  | nil => exact h
  | cons op ops ih => exact ih (h.step op)

/-- What waits has none of the numbers that were not given out. -/
theorem not_queued_of_not_mem_handles (unknown : id ∉ start.handles ops) :
    ∀ appointment ∈ (start.run ops).agenda.appointments, appointment.id ≠ id := by
  intro appointment mem same
  have given := (numbered_start.run ops).queued appointment mem
  have count := start.lastId_run ops
  rw [handles_eq, List.mem_range'_1] at unknown
  change _ = 0 + _ at count
  change ¬(0 + 1 ≤ id ∧ _ < 0 + 1 + _) at unknown
  omega

/-! ### With a mark and without it -/

/-- The appointment that an operation puts in again. -/
def renewed? (usage : Usage) : Operation → Option Appointment
  | .renew index =>
    usage.out[index]?.filter fun appointment =>
      appointment.interval.isSome && !usage.agenda.wasCancelled appointment.id
  | _ => none

/-- The appointments that some operations put in again, in order. -/
def renewed (usage : Usage) : List Operation → List Appointment
  | [] => []
  | op :: ops => (usage.renewed? op).toList ++ (usage.step op).renewed ops

/-- The same appointments wait and are out, the clocks show the same, and the same numbers are given
out next. -/
structure Alike (usage other : Usage) : Prop where
  appointments : other.agenda.appointments = usage.agenda.appointments
  lastId : other.agenda.lastId = usage.agenda.lastId
  lastOrder : other.agenda.lastOrder = usage.agenda.lastOrder
  clock : other.agenda.clock = usage.agenda.clock
  out : other.out = usage.out

/-- The second agenda is the first one with the mark that a number was cancelled. -/
structure Marked (id : Nat) (usage marked : Usage) : Prop extends Alike usage marked where
  mark : marked.agenda.wasCancelled id = true
  others : ∀ other, other ≠ id →
    marked.agenda.wasCancelled other = usage.agenda.wasCancelled other

/-- Cancelling a number that nothing has only leaves the mark. -/
theorem marked_cancel (absent : ∀ appointment ∈ usage.agenda.appointments, appointment.id ≠ id) :
    Marked id usage (usage.step (.cancel id)) where
  appointments := List.filter_eq_self.mpr fun appointment mem => by
    simpa using absent appointment mem
  lastId := rfl
  lastOrder := rfl
  clock := rfl
  out := rfl
  mark := by
    change (usage.agenda.cancel id).wasCancelled id = true
    rw [wasCancelled_cancel, beq_self_eq_true, Bool.true_or]
  others := by
    intro other distinct
    change (usage.agenda.cancel id).wasCancelled other = _
    rw [wasCancelled_cancel, beq_false_of_ne distinct, Bool.false_or]

theorem Alike.taken? (h : usage.Alike marked) (op : Operation) :
    marked.taken? op = usage.taken? op := by
  cases op with
  | pop =>
    change marked.agenda.pop.map (·.1) = usage.agenda.pop.map (·.1)
    unfold Agenda.pop
    rw [Option.map_map, Option.map_map, h.appointments]
    rfl
  | schedule callback delay args repeats | cancel other | renew index => rfl

/-- The mark is not seen by an operation that puts nothing in again under this handle. -/
theorem Marked.step (h : Marked id usage marked)
    (apart : ∀ appointment ∈ usage.renewed? op, appointment.id ≠ id) :
    Marked id (usage.step op) (marked.step op) := by
  obtain ⟨⟨_, cancelled, _, _, _⟩, _⟩ := usage
  obtain ⟨⟨appointments, marks, lastId, lastOrder, clock⟩, out⟩ := marked
  obtain ⟨⟨rfl, rfl, rfl, rfl, rfl⟩, mark, others⟩ := h
  dsimp only at mark others apart ⊢
  cases op with
  | schedule callback delay args repeats => exact ⟨⟨rfl, rfl, rfl, rfl, rfl⟩, mark, others⟩
  | cancel other =>
    refine ⟨⟨rfl, rfl, rfl, rfl, rfl⟩, ?_, fun number distinct => ?_⟩
    · change (cancel _ other).wasCancelled id = true
      rw [wasCancelled_cancel, mark, Bool.or_true]
    · change (cancel _ other).wasCancelled number = (cancel _ other).wasCancelled number
      rw [wasCancelled_cancel, wasCancelled_cancel, others number distinct]
  | pop =>
    unfold Usage.step Agenda.pop
    dsimp only
    cases first? appointments with
    | none => exact ⟨⟨rfl, rfl, rfl, rfl, rfl⟩, mark, others⟩
    | some first => exact ⟨⟨rfl, rfl, rfl, rfl, rfl⟩, mark, others⟩
  | renew index =>
    unfold Usage.step
    dsimp only
    cases found : out[index]? with
    | none => exact ⟨⟨rfl, rfl, rfl, rfl, rfl⟩, mark, others⟩
    | some appointment =>
      dsimp only
      unfold Agenda.renew
      cases repeats : appointment.interval with
      | none => exact ⟨⟨rfl, rfl, rfl, rfl, rfl⟩, mark, others⟩
      | some interval =>
        dsimp only
        by_cases same : appointment.id = id
        · -- With the mark nothing is put in; without it the handle was cancelled before.
          have dead : (Agenda.mk appointments cancelled lastId lastOrder clock).wasCancelled
              appointment.id = true := by
            by_contra alive
            refine apart appointment ?_ same
            simpa [renewed?, found, repeats] using alive
          rw [if_pos dead, if_pos (same ▸ mark)]
          exact ⟨⟨rfl, rfl, rfl, rfl, rfl⟩, mark, others⟩
        · rw [others _ same]
          split
          · exact ⟨⟨rfl, rfl, rfl, rfl, rfl⟩, mark, others⟩
          · exact ⟨⟨rfl, rfl, rfl, rfl, rfl⟩, mark, others⟩

/-- The mark is seen as soon as something would be put in again under this handle. -/
theorem Marked.not_alike_step (h : Marked id usage marked) {appointment : Appointment}
    (again : appointment ∈ usage.renewed? op) (same : appointment.id = id) :
    ¬(usage.step op).Alike (marked.step op) := by
  intro alike
  cases op with
  | renew index =>
    obtain ⟨found, kept⟩ := Option.filter_eq_some_iff.mp again
    rw [Bool.and_eq_true, Option.isSome_iff_exists, Bool.not_eq_true'] at kept
    obtain ⟨⟨interval, repeats⟩, alive⟩ := kept
    have mark : marked.agenda.wasCancelled appointment.id = true := same ▸ h.mark
    have lengths := congrArg List.length alike.appointments
    simp [Usage.step, h.out, found, Agenda.renew, repeats, alive, mark, Agenda.insert,
      h.appointments] at lengths
  | schedule callback delay args repeats | cancel other | pop => cases again

theorem Marked.run (h : Marked id usage marked)
    (apart : ∀ appointment ∈ usage.renewed ops, appointment.id ≠ id) :
    Marked id (usage.run ops) (marked.run ops) ∧ marked.taken ops = usage.taken ops := by
  induction ops generalizing usage marked with
  | nil => exact ⟨h, rfl⟩
  | cons op ops ih =>
    obtain ⟨first, later⟩ := List.forall_mem_append.mp apart
    have next := h.step fun appointment mem => first appointment (Option.mem_toList.mpr mem)
    obtain ⟨alike, taken⟩ := ih next later
    exact ⟨alike, congrArg₂ (· ++ ·) (congrArg Option.toList (h.toAlike.taken? op)) taken⟩

/-- Two agendas are used alike by the first of some operations, however many these are. -/
def UsedAlike (usage other : Usage) (ops : List Operation) : Prop :=
  ∀ done, done <+: ops →
    (usage.run done).Alike (other.run done) ∧ other.taken done = usage.taken done

theorem renewed_append (usage : Usage) (ops ops' : List Operation) :
    usage.renewed (ops ++ ops') = usage.renewed ops ++ (usage.run ops).renewed ops' := by
  induction ops generalizing usage with
  | nil => rfl
  | cons op ops ih => simp [renewed, ih]

/-- The mark is not seen just as long as nothing is put in again under this handle. -/
theorem Marked.usedAlike_iff (h : Marked id usage marked) :
    usage.UsedAlike marked ops ↔ ∀ appointment ∈ usage.renewed ops, appointment.id ≠ id := by
  constructor
  · intro alike
    induction ops generalizing usage marked with
    | nil => exact List.forall_mem_nil _
    | cons op ops ih =>
      have first : ∀ appointment ∈ usage.renewed? op, appointment.id ≠ id := by
        intro appointment again same
        have one : [op] <+: op :: ops := List.cons_prefix_cons.mpr ⟨rfl, List.nil_prefix⟩
        exact h.not_alike_step again same (alike [op] one).1
      have next := h.step first
      refine List.forall_mem_append.mpr ⟨?_, ih next fun done before => ?_⟩
      · exact fun appointment mem => first appointment (Option.mem_toList.mp mem)
      · obtain ⟨state, taken⟩ := alike (op :: done) (List.cons_prefix_cons.mpr ⟨rfl, before⟩)
        refine ⟨state, ?_⟩
        rw [Usage.taken, Usage.taken, h.toAlike.taken? op] at taken
        exact List.append_cancel_left taken
  · rintro apart done ⟨rest, rfl⟩
    rw [renewed_append] at apart
    obtain ⟨alike, taken⟩ := h.run (List.forall_mem_append.mp apart).1
    exact ⟨alike.toAlike, taken⟩

/-- Handles are given out alike where the last one was the same. -/
theorem handles_congr {other : Usage} (same : other.agenda.lastId = usage.agenda.lastId)
    (ops : List Operation) : other.handles ops = usage.handles ops := by
  induction ops generalizing usage other with
  | nil => rfl
  | cons op ops ih =>
    have first : other.handle? op = usage.handle? op := by
      cases op with
      | schedule callback delay args repeats => exact congrArg (fun last => some (last + 1)) same
      | cancel id | pop | renew index => rfl
    have next : (other.step op).agenda.lastId = (usage.step op).agenda.lastId := by
      rw [lastId_step, lastId_step, same, first]
    exact congrArg₂ (· ++ ·) (congrArg Option.toList first) (ih next)

/-! ### What has a marked handle is called once -/

/-- How many of some appointments have a handle. -/
def countId (id : Nat) (appointments : List Appointment) : Nat :=
  appointments.countP (·.id == id)

/-- How often a marked handle can still be called: once if it was not given out yet, and once for
every appointment that waits with it. -/
def credit (usage : Usage) (id : Nat) : Nat :=
  countId id usage.agenda.appointments + if usage.agenda.lastId < id then 1 else 0

theorem credit_step (valid : usage.Valid) (mark : usage.agenda.wasCancelled id = true)
    (op : Operation) :
    countId id (usage.taken? op).toList + (usage.step op).credit id ≤ usage.credit id := by
  cases op with
  | schedule callback delay args repeats =>
    change 0 + (countId id (_ :: usage.agenda.appointments) +
      if usage.agenda.lastId + 1 < id then 1 else 0) ≤ _
    unfold credit countId
    rw [List.countP_cons]
    dsimp only
    by_cases given : usage.agenda.lastId + 1 = id
    · subst given
      simp
    · simp only [beq_iff_eq, given, if_false]
      split <;> split <;> omega
  | cancel other =>
    change 0 + (countId id (usage.agenda.appointments.filter _) + _) ≤ _
    have fewer : countId id (usage.agenda.appointments.filter (·.id != other)) ≤
        countId id usage.agenda.appointments := List.filter_sublist.countP_le
    rw [Nat.zero_add]
    exact Nat.add_le_add_right fewer _
  | pop =>
    cases popped : usage.agenda.pop with
    | none => simp [taken?, Usage.step, popped, countId]
    | some taken =>
      obtain ⟨first, rest⟩ := taken
      obtain ⟨later, earlier, eq, -, -, -, rfl⟩ := valid.agenda.pop_eq_some popped
      simp [taken?, Usage.step, popped, credit, countId, eq, List.countP_append,
        List.countP_cons]
      omega
  | renew index =>
    change 0 + _ ≤ _
    rw [Nat.zero_add]
    obtain ⟨out, -, eq | ⟨appointment, -, interval, -, alive, eq⟩⟩ := usage.step_renew index
    · rw [eq]
      exact Nat.le_refl _
    · have other : appointment.id ≠ id := by
        rintro rfl
        rw [mark] at alive
        cases alive
      have absent : countId id ({ appointment with
          due := usage.agenda.clock + interval, order := usage.agenda.lastOrder + 1 } ::
            usage.agenda.appointments) = countId id usage.agenda.appointments :=
        List.countP_cons_of_neg (mt beq_iff_eq.mp other)
      rw [eq]
      exact Nat.add_le_add_right (Nat.le_of_eq absent) _

theorem countId_taken_le (valid : usage.Valid) (mark : usage.agenda.wasCancelled id = true)
    (ops : List Operation) : countId id (usage.taken ops) ≤ usage.credit id := by
  induction ops generalizing usage with
  | nil => exact Nat.zero_le _
  | cons op ops ih =>
    have first := credit_step valid mark op
    have later := ih (valid.step op) (wasCancelled_step mark op)
    unfold taken countId
    rw [List.countP_append]
    unfold countId at first later
    omega

end Usage

/-- Whatever was done before and is done afterwards: cancelling a number that is no handle yet changes
no handle, and it changes nothing else just as long as no repeated callback would be put in again
under this number. A callback that is given the number is called once at most. The built-in function
that cancels does just this to the agenda. -/
theorem cancel_unknown (before after : List Operation) (id : Nat)
    (unknown : id ∉ Usage.start.handles before) :
    let usage := Usage.start.run before
    let cancelled := usage.step (.cancel id)
    cancelled.handles after = usage.handles after ∧
      (usage.UsedAlike cancelled after ↔
        ∀ appointment ∈ usage.renewed after, appointment.id ≠ id) ∧
      ((cancelled.taken after).filter (·.id == id)).length ≤ 1 ∧
      ∀ (machine : Machine) (handle : Float), machine.agenda = usage.agenda →
        Decimal.toNat? handle = some id → 1 ≤ id → id ≤ Builtins.maxHandle →
          Builtins.cancelAppointment handle machine =
            .ok .undefined { machine with agenda := cancelled.agenda } := by
  intro usage cancelled
  have absent := Usage.not_queued_of_not_mem_handles unknown
  have marked : Usage.Marked id usage cancelled := Usage.marked_cancel absent
  refine ⟨Usage.handles_congr marked.lastId after, marked.usedAlike_iff, ?_, ?_⟩
  · have valid : cancelled.Valid := (Usage.valid_start.run before).step (.cancel id)
    have none : Usage.countId id cancelled.agenda.appointments = 0 := by
      rw [marked.appointments]
      exact List.countP_eq_zero.mpr fun appointment mem => by simpa using absent appointment mem
    have once : cancelled.credit id ≤ 1 := by
      unfold Usage.credit
      rw [none]
      split <;> omega
    rw [← List.countP_eq_length_filter]
    exact Nat.le_trans (Usage.countId_taken_le valid marked.mark after) once
  · intro machine handle same known first last
    unfold Builtins.cancelAppointment
    rw [known]
    dsimp only
    rw [if_pos ⟨first, last⟩]
    change EStateM.Result.ok Value.undefined { machine with agenda := machine.agenda.cancel id } = _
    rw [same]
    rfl

/-- A repeated callback that is given a cancelled number is not put in again, one that is not repeated
is called as if nothing had been cancelled. -/
theorem cancel_unknown_first :
    1 ∉ Usage.start.handles [] ∧
      ¬Usage.start.UsedAlike (Usage.start.step (.cancel 1))
        [.schedule .undefined 10 [] true, .pop, .renew 0] ∧
      Usage.start.UsedAlike (Usage.start.step (.cancel 1))
        [.schedule .undefined 10 [] false, .pop, .renew 0] := by
  refine ⟨List.not_mem_nil, fun alike => ?_, ?_⟩
  · have apart := (cancel_unknown [] _ 1 List.not_mem_nil).2.1.mp alike
    exact apart _ List.mem_cons_self rfl
  · exact (cancel_unknown [] _ 1 List.not_mem_nil).2.1.mpr (List.forall_mem_nil _)

end DarijaScript.Agenda
