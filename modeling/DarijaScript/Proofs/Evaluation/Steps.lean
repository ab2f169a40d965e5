import DarijaScript.Proofs.Evaluation.InStep

/-!
# Steps of the machine in step

Every step that the rules of evaluation are made of is in step with itself, and every construct
around some steps keeps them in step.
-/

namespace DarijaScript.Setting

variable {S : Setting} {c c' : Context} {machine : Machine} {α β : Type}

/-! ### Reading -/

theorem InStep.readStore {read : Store → α} {good : α → Prop}
    (h : ∀ store : Store, store.Meets S.check → good (read store)) :
    S.InStep c c (Run.readStore read) (Run.readStore read) good :=
  .of_run fun _ fits => ⟨rfl, h _ fits.store, .refl fits⟩

theorem InStep.scope : S.InStep c c Run.scope Run.scope fun _ => True :=
  .of_run fun _ fits => ⟨rfl, trivial, .refl fits⟩

theorem InStep.mayCall :
    S.InStep c c Run.mayCall Run.mayCall fun more => more = decide (c.depth < S.limits.calls) := by
  apply InStep.of_run
  intro machine fits
  refine ⟨rfl, ?_, .refl fits⟩
  rw [fits.depth, fits.limits]

theorem InStep.lookup {name : String} (known : S.check (.name name) ∨ name = Keyword.hadi.text) :
    S.InStep c c (Run.lookup name) (Run.lookup name) (Value.Meets S.check) := by
  apply InStep.bind .scope
  intro id _
  have found : S.InStep c c (Run.readStore (·.lookup? id name))
      (Run.readStore (·.lookup? id name)) fun result =>
        ∀ value ∈ result, value.Meets S.check :=
    .readStore fun _ meets => meets.lookup? known
  apply found.bind
  intro result meets
  cases result with
  | none => exact .fault _
  | some value => exact .pure (meets value rfl)

theorem InStep.changeStore {change : Store → Store}
    (same : ∀ store, (change store).scopes = store.scopes)
    (meets : ∀ store : Store, store.Meets S.check → (change store).Meets S.check) :
    S.InStep c c (Run.changeStore change) (Run.changeStore change) fun _ => True :=
  .of_run fun _ fits => ⟨rfl, trivial, fits.after_scopes_eq (same _) (meets _ fits.store)⟩

/-! ### The surroundings -/

/-- A change of the agenda, the output and the log alone. -/
theorem Fits.after_surroundings (fits : S.Fits c machine) {agenda : Agenda}
    (meets : agenda.Meets S.check) (output : Array String) (log : HostLog) :
    S.After c machine { machine with agenda := agenda, output := output, log := log } where
  fits := { fits with agenda := meets }
  evolves := fun _ => ⟨Nat.le_refl _, .refl _, fun _ _ _ bound => .inl bound, .inl rfl⟩
  settled := fun _ => rfl

theorem InStep.print (line : String) :
    S.InStep c c (Run.print line) (Run.print line) fun _ => True :=
  .of_run fun _ fits => ⟨rfl, trivial, fits.after_surroundings fits.agenda _ _⟩

theorem InStep.callHost {call : HostCall} {answer : Host → HostLog → α}
    (same : ∀ log, answer S.host log = answer S.other log) :
    S.InStep c c (Run.callHost call answer) (Run.callHost call answer) fun _ => True := by
  apply InStep.of_run
  intro machine fits
  refine ⟨?_, trivial, fits.after_surroundings fits.agenda _ _⟩
  have eq : answer machine.host machine.log = answer S.other machine.log := by
    rw [fits.host, same]
  rw [Run.callHost, eq]
  rfl

theorem InStep.currentTime (same : S.host = S.other) :
    S.InStep c c Run.currentTime Run.currentTime fun _ => True := by
  apply InStep.bind (.callHost fun log => by rw [same])
  intro now _
  exact .of_run fun _ fits => ⟨rfl, trivial, .refl fits⟩

theorem InStep.changeAgenda {change : Agenda → Agenda}
    (meets : ∀ agenda : Agenda, agenda.Meets S.check → (change agenda).Meets S.check) :
    S.InStep c c (Run.changeAgenda change) (Run.changeAgenda change) fun _ => True :=
  .of_run fun _ fits => ⟨rfl, trivial, fits.after_surroundings (meets _ fits.agenda) _ _⟩

theorem InStep.schedule {callback : Value} {delay : Float} {args : List Value} {repeats : Bool}
    (callable : callback.Meets S.check) (passed : ∀ arg ∈ args, arg.Meets S.check) :
    S.InStep c c (Run.schedule callback delay args repeats)
      (Run.schedule callback delay args repeats) fun _ => True := by
  apply InStep.of_run
  intro machine fits
  refine ⟨rfl, trivial, fits.after_surroundings ?_ _ _⟩
  intro appointment mem
  rcases List.mem_cons.mp mem with rfl | waiting
  · exact ⟨callable, passed⟩
  · exact fits.agenda appointment waiting

theorem InStep.nextAppointment :
    S.InStep c c Run.nextAppointment Run.nextAppointment fun next =>
      ∀ appointment ∈ next, appointment.callback.Meets S.check ∧
        ∀ arg ∈ appointment.args, arg.Meets S.check := by
  apply InStep.of_run
  intro machine fits
  have same : (S.beside machine).agenda.pop = machine.agenda.pop := rfl
  unfold Run.nextAppointment
  rw [same]
  cases popped : machine.agenda.pop with
  | none => exact ⟨rfl, nofun, .refl fits⟩
  | some taken =>
    obtain ⟨appointment, found, rfl⟩ := Option.map_eq_some_iff.mp popped
    refine ⟨rfl, fun _ eq => ?_, fits.after_surroundings (fun other mem => ?_) _ _⟩
    · cases eq
      exact fits.agenda appointment (Agenda.mem_of_first? found)
    · exact fits.agenda other (List.mem_of_mem_eraseP mem)

/-! ### The logic of runs in step -/

/-- What is made of runs in step is in step. -/
def stepLogic (S : Setting) (c : Context) : StepLogic S.check where
  relates := S.InStep c c
  answered := S.host = S.other
  pure := .pure
  bind := .bind
  outOfFuel := .outOfFuel
  fault _ := .fault _
  raise known := .throw known
  readStore := .readStore
  changeStore same _ meets := .changeStore same meets
  print := .print _
  tellHost := .callHost fun _ => rfl
  askHost same := .callHost fun _ => by rw [same]
  currentTime := .currentTime
  changeAgenda _ meets := .changeAgenda meets
  schedule := .schedule

/-- The calls that the two callers make are in step. -/
def Calls (S : Setting) (c : Context) (call call' : Builtins.Caller) : Prop :=
  ∀ callee receiver args, callee.Meets S.check → receiver.Meets S.check →
    (∀ arg ∈ args, arg.Meets S.check) →
      S.InStep c c (call callee receiver args) (call' callee receiver args) (Value.Meets S.check)

/-! ### Constructs around some steps -/

/-- A construct that turns every end of some steps into another one, and stopped steps into stopped
steps that leave the same store. -/
theorem Ends.map {good : α → Prop} {good' : β → Prop} {ending other : Ending α} {start : Machine}
    (h : S.Ends c good machine ending other) (wrap wrap' : Ending α → Ending β)
    (returned : ∀ value after, good value → S.After c machine after →
      S.Ends c' good' start (wrap (.ok value after)) (wrap' (.ok value (S.beside after))))
    (failed : ∀ exception after, exception.Meets S.check → S.After c machine after →
      S.Ends c' good' start (wrap (.error (.exception exception) after))
        (wrap' (.error (.exception exception) (S.beside after))))
    (stopped : ∀ after, ∃ later, wrap (.error .outOfFuel after) = .error .outOfFuel later ∧
      wrap' (.error .outOfFuel (S.beside after)) = .error .outOfFuel (S.beside later) ∧
        later.store = after.store ∧ later.host = after.host)
    (stores : ∀ ending, (wrap' ending).machine.store = ending.machine.store)
    (kept : S.strict → start.store.Keeps machine.store) :
    S.Ends c' good' start (wrap ending) (wrap' other) := by
  match ending with
  | .ok value after =>
    rw [h.1]
    exact returned value after h.2.1 h.2.2
  | .error (.exception exception) after =>
    rw [h.1]
    exact failed exception after h.2.1 h.2.2
  | .error .outOfFuel after =>
    obtain ⟨later, first, second, eq, host⟩ := stopped after
    rw [first]
    refine ⟨fun loose => ?_, fun strict => ?_⟩
    · obtain ⟨other, same⟩ := h.1 loose
      rw [other, second, host]
      exact ⟨rfl, same⟩
    · rw [eq, stores]
      exact ⟨(kept strict).trans (h.2 strict).1, (h.2 strict).2⟩

theorem Joint.located {x y : Run α} {good : α → Prop} (h : S.Joint c c' x y good)
    (position : Position) :
    S.Joint c c' (Run.located position x) (Run.located position y) good := by
  intro machine fits
  have ends := h machine fits
  refine ends.map (fun ending => Run.located position (fun _ => ending) machine)
    (fun ending => Run.located position (fun _ => ending) (S.beside machine))
    (fun value after known h => ⟨rfl, known, h⟩) ?_ (fun after => ⟨_, rfl, rfl, rfl, rfl⟩) ?_
    fun _ => .refl _
  · intro exception after known h
    refine ⟨rfl, ?_, h⟩
    cases exception with
    | fault _ _ => trivial
    | raised _ _ => exact known
  · intro ending
    rcases ending with _ | ⟨_ | _, _⟩ <;> rfl

theorem InStep.located {x y : Run α} {good : α → Prop} (h : S.InStep c c' x y good)
    (position : Position) :
    S.InStep c c' (Run.located position x) (Run.located position y) good :=
  ⟨h.joint.located position, h.itself.located position⟩

/-- What is known of the outcome of some steps. -/
def IsOutcome (S : Setting) (good : α → Prop) : Except Exception α → Prop
  | .ok value => good value
  | .error exception => exception.Meets S.check

theorem InStep.ofOutcome {good : α → Prop} {result : Except Exception α}
    (h : S.IsOutcome good result) :
    S.InStep c c (Run.ofOutcome result) (Run.ofOutcome result) good := by
  cases result with
  | ok value => exact .pure h
  | error exception => exact .throw h

theorem Joint.outcome {x y : Run α} {good : α → Prop} (h : S.Joint c c' x y good) :
    S.Joint c c' (Run.outcome x) (Run.outcome y) (S.IsOutcome good) := by
  intro machine fits
  have ends := h machine fits
  refine ends.map (fun ending => Run.outcome (fun _ => ending) machine)
    (fun ending => Run.outcome (fun _ => ending) (S.beside machine))
    (fun value after known h => ⟨rfl, known, h⟩) (fun exception after known h => ⟨rfl, known, h⟩)
    (fun after => ⟨_, rfl, rfl, rfl, rfl⟩) ?_ fun _ => .refl _
  intro ending
  rcases ending with _ | ⟨_ | _, _⟩ <;> rfl

theorem InStep.outcome {x y : Run α} {good : α → Prop} (h : S.InStep c c' x y good) :
    S.InStep c c' (Run.outcome x) (Run.outcome y) (S.IsOutcome good) :=
  ⟨h.joint.outcome, h.itself.outcome⟩

/-- The same end in a machine in which something is set back. -/
def restored (back : Machine → Machine) : Ending α → Ending α
  | .ok value after => .ok value (back after)
  | .error interruption after => .error interruption (back after)

theorem Ends.restored {good : α → Prop} {ending other : Ending α} {start : Machine}
    (h : S.Ends c good machine ending other) {back : Machine → Machine}
    (known : ∀ after, S.After c machine after → S.After c' start (back after))
    (beside : ∀ after, back (S.beside after) = S.beside (back after))
    (stores : ∀ after, (back after).store = after.store ∧ (back after).host = after.host)
    (kept : S.strict → start.store.Keeps machine.store) :
    S.Ends c' good start (restored back ending) (restored back other) := by
  apply h.map (Setting.restored back) (Setting.restored back)
  · intro value after fine h
    exact ⟨congrArg _ (beside after), fine, known after h⟩
  · intro exception after fine h
    exact ⟨congrArg _ (beside after), fine, known after h⟩
  · intro after
    exact ⟨back after, rfl, congrArg _ (beside after), stores after⟩
  · intro ending
    cases ending <;> exact (stores _).1
  · exact kept

theorem Joint.deeper {x y : Run α} {good : α → Prop}
    (h : c.nesting < S.limits.nesting → S.Joint c.nested c.nested x y good) :
    S.Joint c c (Run.deeper x) (Run.deeper y) good := by
  intro machine fits
  have first : machine.limits.nesting ≤ machine.nesting ↔ S.limits.nesting ≤ c.nesting := by
    rw [fits.limits, fits.nesting]
  by_cases full : S.limits.nesting ≤ c.nesting
  · have refused : ∀ x : Run α, Run.deeper x machine =
        Run.fault (.nestingLimit machine.limits.nesting) machine := fun x =>
      if_pos (first.mpr full)
    have refused' : Run.deeper y (S.beside machine) =
        Run.fault (.nestingLimit machine.limits.nesting) (S.beside machine) :=
      if_pos (first.mpr full)
    rw [refused, refused']
    exact (InStep.fault _).joint machine fits
  · have inside : S.Fits c.nested { machine with nesting := machine.nesting + 1 } :=
      { fits with nesting := congrArg (· + 1) fits.nesting }
    have ends := h (Nat.lt_of_not_le full) _ inside
    have entered : ∀ (x : Run α) (start : Machine), start.limits = machine.limits →
        start.nesting = machine.nesting → Run.deeper x start =
        Setting.restored ({ · with nesting := machine.nesting })
          (x { start with nesting := machine.nesting + 1 }) := by
      intro x start limits nesting
      rw [Run.deeper, limits, nesting, if_neg (mt first.mp full)]
      rfl
    rw [entered x machine rfl rfl, entered y (S.beside machine) rfl rfl]
    refine ends.restored (fun after h => ?_) (fun _ => rfl) (fun _ => ⟨rfl, rfl⟩) fun _ => .refl _
    exact
      { fits := { h.fits with nesting := fits.nesting }
        evolves := fun tracked => { h.evolves tracked with }
        settled := h.settled }

theorem InStep.deeper {x y : Run α} {good : α → Prop}
    (h : c.nesting < S.limits.nesting → S.InStep c.nested c.nested x y good) :
    S.InStep c c (Run.deeper x) (Run.deeper y) good :=
  ⟨.deeper fun room => (h room).joint, .deeper fun room => (h room).itself⟩

theorem Joint.asCall {x y : Run α} {good : α → Prop} (h : S.Joint c.called c'.called x y good)
    (same : c.depth = c'.depth) :
    S.Joint c c' (Run.asCall x) (Run.asCall y) good := by
  intro machine fits
  have inside : S.Fits c.called { machine with depth := machine.depth + 1 } :=
    { fits with depth := congrArg (· + 1) fits.depth }
  have ends := h _ inside
  have entered : ∀ (x : Run α) (start : Machine), start.depth = machine.depth →
      Run.asCall x start = Setting.restored ({ · with depth := machine.depth })
        (x { start with depth := machine.depth + 1 }) := by
    intro x start depth
    rw [Run.asCall, depth]
    rfl
  rw [entered x machine rfl, entered y (S.beside machine) rfl]
  refine ends.restored (fun after h => ?_) (fun _ => rfl) (fun _ => ⟨rfl, rfl⟩) fun _ => .refl _
  exact
    { fits := { h.fits with depth := fits.depth.trans same }
      evolves := fun tracked => { h.evolves tracked with }
      settled := h.settled }

theorem InStep.asCall {x y : Run α} {good : α → Prop} (h : S.InStep c.called c'.called x y good)
    (same : c.depth = c'.depth) :
    S.InStep c c' (Run.asCall x) (Run.asCall y) good :=
  ⟨h.joint.asCall same, h.itself.asCall same⟩

end DarijaScript.Setting
