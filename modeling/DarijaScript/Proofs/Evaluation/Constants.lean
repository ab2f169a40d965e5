import DarijaScript.Proofs.Evaluation.Reaching
import DarijaScript.Proofs.Printing.RoundTrip

/-!
# Constants last

A declared constant keeps its value in its scope until the run ends, unless a choice declares a
function under its name in a later clause: the clauses of a choice share one scope, and the functions
of a clause are bound when this clause is reached. In programs whose choices are steady nothing binds
a constant again.
-/

namespace DarijaScript

/-- One host, on which well-formed trees with steady choices are executed. -/
def Setting.steadily (host : Host) (strict : Prop) : Setting where
  check node := node.Formed ∧ node.Steady
  limits := .standard
  host := host
  other := host
  tracked := True
  strict := strict
  follows _ := trivial
  alone _ := rfl
  hosts _ _ _ := rfl
  steady _ _ known := known.2
  named _ _ known := known.1.ne_keyword .hadi

/-- The run is stopped at the first of some moments. -/
def stopping (stop : Moment → Bool) : Watch := fun moment =>
  if stop moment then some (.outOfFuel, moment.machine) else none

/-- The machine at the first of some moments, or at the end of the run if it reaches none of them. -/
def Machine.executeUntil (stop : Moment → Bool) (fuel : Nat) (program : List Stmt)
    (start : Machine) : Machine :=
  Ending.machine (Machine.executeWatched (stopping stop) fuel program start)

namespace Setting

variable {S : Setting} {c : Context} {machine : Machine}

/-- What the first run leaves behind is kept by what the second one still does. -/
theorem Ends.keeps_other {α : Type} {good : α → Prop} {ending other : Ending α}
    (h : S.Ends c good machine ending other) (strict : S.strict) :
    ending.machine.store.Keeps other.machine.store := by
  match ending with
  | .ok _ _ =>
    rw [h.1]
    exact .refl _
  | .error (.exception _) _ =>
    rw [h.1]
    exact .refl _
  | .error .outOfFuel _ => exact (h.2 strict).2

/-- A run that is stopped at fewer moments is stopped later. -/
theorem alike_stopping {depth nesting : Nat} {stop later : Moment → Bool} (strict : S.strict)
    (fewer : ∀ moment, later moment = true → stop moment = true) :
    S.Alike depth nesting (stopping stop) (stopping later) := by
  intro moment sound
  have alone : S.beside moment.machine = moment.machine := by
    rw [beside, ← S.alone strict, ← sound.host]
  by_cases stops : stop moment = true
  · have stopped : stopping stop moment = some (.outOfFuel, moment.machine) := if_pos stops
    refine .inr ⟨strict, stopped, fun other eq => ?_⟩
    by_cases again : later moment = true
    · have same : stopping later moment = some (.outOfFuel, moment.machine) := if_pos again
      exact Option.some.inj (eq.symm.trans same)
    · have quiet : stopping later moment = none := if_neg again
      cases eq.symm.trans quiet
  · have goesOn : ¬ later moment = true := mt (fewer moment) stops
    have quiet : stopping stop moment = none := if_neg stops
    have quiet' : stopping later moment = none := if_neg goesOn
    rw [alone]
    exact .inl ⟨quiet, quiet'⟩

end Setting

section

variable {program : List Stmt}
  (known : ∀ stmt ∈ program, stmt.Meets fun node => node.Formed ∧ node.Steady) (host : Host)

include known

/-- What is a constant at one moment of a run still is one, with the same value, at every later
moment. -/
theorem keeps_of_later (fuel : Nat) {stop later : Moment → Bool}
    (fewer : ∀ moment, later moment = true → stop moment = true) :
    (Machine.executeUntil stop fuel program (Machine.initial host)).store.Keeps
      (Machine.executeUntil later fuel program (Machine.initial host)).store := by
  let S := Setting.steadily host True
  have strict : S.strict := trivial
  have alike : S.Alike 0 0 (stopping stop) (stopping later) := Setting.alike_stopping strict fewer
  have alone : S.Alike 0 0 (stopping later) (stopping later) :=
    Setting.alike_stopping strict fun _ => id
  have agree := Setting.agree_watched alike alone fuel [] (Nat.zero_le _) (Nat.zero_le _)
  have run := Setting.InStep.program (c := ⟨0, 0, [], true⟩) agree known
    (List.subset_append_left _ _) (List.subset_append_right _ _) fun _ _ _ => List.not_mem_nil
  have ends := run.joint (Machine.initial host) (Setting.fits_initial rfl rfl)
  exact ends.keeps_other strict

/-- At the end of the declaration of a constant the active scope binds it. -/
theorem isConstant_of_declared {moment : Moment} {name : Identifier} {expr : Expr}
    (reached : Reaches program (Machine.initial host) moment)
    (declared : moment.activity = .ended (.statement (.declare .constant name (some expr)))) :
    moment.machine.store.IsConstant moment.machine.scope name.name := by
  have fits := Setting.fits_initial (S := .steadily host False) rfl rfl
  have sound := Setting.sound_of_reaches fits id rfl known (fun _ _ _ => List.not_mem_nil) reached
  exact sound.declared trivial name expr declared

end

/-- **A constant is constant until the run ends**, if no choice of the program declares a function in
one clause under the name of a constant of a clause before it. Where a declaration ends normally its
name is bound to the value of its expression; at the end of the declaration of a constant in a run
this binding is one of the active scope and cannot be assigned; and whatever is bound so at one moment
is bound so, and to the same value, at every later moment and when the run ends. -/
theorem constants_last {text : String} {source : Nat} {program : List Stmt}
    (read : readProgram text source = .ok program)
    (steady : ∀ stmt ∈ program, stmt.Meets Node.Steady) (host : Host) :
    (∀ (inner : Interpreter) (rounds : Nat) (name : Identifier) (expr : Expr)
        (start after : Machine) (flow : Completion),
      Evaluation.statement inner rounds (.declare .constant name (some expr)) start =
        .ok flow after → after.scope < after.store.scopes.size →
          ∃ value middle, inner.expression expr start = .ok value middle ∧
            after.store.binding? after.scope name.name = some ⟨value, false⟩) ∧
    (∀ (moment : Moment) (name : Identifier) (expr : Expr),
      Reaches program (Machine.initial host) moment →
        moment.activity = .ended (.statement (.declare .constant name (some expr))) →
          moment.machine.store.IsConstant moment.machine.scope name.name) ∧
    ∀ (fuel : Nat) (stop later : Moment → Bool),
      (∀ moment, later moment = true → stop moment = true) →
        (Machine.executeUntil stop fuel program (Machine.initial host)).store.Keeps
          (Machine.executeUntil later fuel program (Machine.initial host)).store := by
  have formed := formed_of_readProgram read
  have known : ∀ stmt ∈ program, stmt.Meets fun node => node.Formed ∧ node.Steady :=
    fun stmt mem node inside => ⟨(formed stmt mem).meets node inside, steady stmt mem node inside⟩
  refine ⟨?_, fun _ _ _ reached declared => isConstant_of_declared known host reached declared,
    fun fuel _ _ fewer => keeps_of_later known host fuel fewer⟩
  intro inner rounds name expr start after flow ended active
  obtain ⟨value, middle, evaluated, bound⟩ := declaration_binds ended active
  exact ⟨value, middle, evaluated, bound⟩

/-- The end of a declaration with which a program begins is reached. -/
theorem reaches_declared (name : Identifier) (subject : Expr) (cases : List Case) (host : Host) :
    ∃ moment, Reaches [.declare .constant name (some (.literal .undefined)), .choice subject cases]
        (Machine.initial host) moment ∧
      moment.activity =
        .ended (.statement (.declare .constant name (some (.literal .undefined)))) := by
  let declared : Stmt := .declare .constant name (some (.literal .undefined))
  let entered : Machine := { Machine.initial host with nesting := 1 }
  let bound : Machine :=
    { entered with store := Store.initial.define Store.programScope name.name ⟨.undefined, false⟩ }
  let moment : Moment := ⟨.ended (.statement declared), [], bound⟩
  obtain ⟨mark, other⟩ := exists_host_ne host
  have quiet : ∀ activity machine, stopAt moment mark ⟨activity, [.statement declared], machine⟩ =
      none := fun activity machine => stopAt_of_length (by simp [moment]) mark
  have value : (watched (stopAt moment mark) 1 [.statement declared]).expression
      (.literal .undefined) entered = .ok .undefined entered :=
    watched_expression (show 1 < Limits.standard.nesting by decide) (quiet _ _) rfl (quiet _ _) rfl
  have binds : Run.located name.position (Run.declare name.name .undefined false) entered =
      .ok () bound :=
    Run.located_of_ok (Run.declare_of_free (Store.binding?_programScope name.name))
  have ended : Evaluation.statement (watched (stopAt moment mark) 1 [.statement declared]) 1 declared
      entered = .ok .normal bound :=
    (Run.bind_ok value).trans (Run.bind_ok binds)
  have stopped : Stops mark (Machine.executeWatched (stopAt moment mark) 2
      [declared, .choice subject cases]) (Machine.initial host) := by
    apply Stops.bind
    apply Stops.after rfl
    apply Stops.bind
    apply Stops.deeper (show 0 < Limits.standard.nesting by decide)
    exact stops_ended ended
  exact ⟨moment, reaches_of_stops other stopped, rfl⟩

/-- What was read is a constant and a steady choice behind it. -/
def isSteadyChoice : Except (List SyntaxError) (List Stmt) → Bool
  | .ok [.declare .constant _ (some (.literal .undefined)), .choice subject cases] =>
    (Stmt.choice subject cases).nodes.all fun node => decide node.Steady
  | _ => false

/-- The constant with which a program begins is bound when its declaration has ended, and it is kept
whatever the choice after it does. -/
theorem constants_last_choice :
    ∃ program moment name, readProgram
        "tabit x = mchmcha; bdl3la (x) \x7b 7ala x: tabit y = x; 3adi: dala f() \x7b\x7d \x7d" 0 =
          .ok program ∧
      (∀ stmt ∈ program, stmt.Meets Node.Steady) ∧
      Reaches program (Machine.initial (.scripted [] [] [] [])) moment ∧
      moment.activity =
        .ended (.statement (.declare .constant name (some (.literal .undefined)))) ∧
      moment.machine.store.IsConstant moment.machine.scope name.name ∧
      ∀ fuel stop, (Machine.executeUntil stop fuel program
          (Machine.initial (.scripted [] [] [] []))).store.Keeps
        (Machine.executeUntil (fun _ => false) fuel program
          (Machine.initial (.scripted [] [] [] []))).store := by
  have shape : isSteadyChoice (readProgram
      "tabit x = mchmcha; bdl3la (x) \x7b 7ala x: tabit y = x; 3adi: dala f() \x7b\x7d \x7d" 0) =
        true := by decide +kernel
  unfold isSteadyChoice at shape
  split at shape
  · next name subject cases read =>
    obtain ⟨moment, reached, activity⟩ :=
      reaches_declared name subject cases (.scripted [] [] [] [])
    have choice : (Stmt.choice subject cases).Meets Node.Steady := by
      intro node mem
      exact of_decide_eq_true (List.all_eq_true.mp shape node mem)
    have value : ∀ expr ∈ some (Expr.literal .undefined), expr.Meets Node.Steady := by
      rintro _ ⟨⟩
      exact Expr.meets_iff.mpr trivial
    have first : (Stmt.declare .constant name (some (.literal .undefined))).Meets Node.Steady :=
      Stmt.meets_iff.mpr ⟨trivial, value⟩
    have steady := List.forall_mem_cons.mpr ⟨first, List.forall_mem_singleton.mpr choice⟩
    have last := constants_last read steady (.scripted [] [] [] [])
    exact ⟨_, moment, name, read, steady, reached, activity, last.2.1 moment name _ reached activity,
      fun fuel stop => last.2.2 fuel stop _ nofun⟩
  · cases shape

end DarijaScript
