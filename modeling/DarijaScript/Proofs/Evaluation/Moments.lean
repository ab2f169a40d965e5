import DarijaScript.Proofs.Evaluation.CallRules

/-!
# The moments of a run

A moment is the beginning or the end of an activity inside the activities that are going on. A watch
may interrupt a run at some moments, and a run reaches a moment exactly if an interruption there
makes a difference. So what no watch can tell apart holds at every moment that a run reaches.
-/

namespace DarijaScript

/-- What is going on, or has just ended. -/
inductive Activity where
  | statement (stmt : Stmt)
  | expression (expr : Expr)
  | call (callee receiver : Value) (args : List Value)
  | ended (activity : Activity)

namespace Activity

/-- A statement or an expression is being evaluated. -/
def isTree : Activity → Bool
  | call _ _ _ => false
  | statement _ | expression _ => true
  | ended activity => activity.isTree

/-- A function of the program is being called. -/
def isOwnCall : Activity → Bool
  | call callee _ _ => callee.isOwn
  | statement _ | expression _ | ended _ => false

/-- Something is being called. -/
def isCall : Activity → Bool
  | call _ _ _ => true
  | statement _ | expression _ | ended _ => false

@[simp] theorem isTree_call (callee receiver : Value) (args : List Value) :
    (call callee receiver args).isTree = false := rfl

@[simp] theorem isOwnCall_call (callee receiver : Value) (args : List Value) :
    (call callee receiver args).isOwnCall = callee.isOwn := rfl

theorem isOwnCall_of_isTree {activity : Activity} (tree : activity.isTree = true) :
    activity.isOwnCall = false := by
  cases activity with
  | call => cases tree
  | _ => rfl

/-- The trees and values of an activity are known. -/
def Meets (check : Node → Prop) : Activity → Prop
  | statement stmt => stmt.Meets check
  | expression expr => expr.Meets check
  | call callee receiver args =>
    callee.Meets check ∧ receiver.Meets check ∧ ∀ arg ∈ args, arg.Meets check
  | ended activity => activity.Meets check

end Activity

/-- The calls of functions of the program among some activities. -/
def ownCalls (active : List Activity) : Nat := active.countP Activity.isOwnCall

/-- The statements and expressions among some activities. -/
def trees (active : List Activity) : Nat := active.countP Activity.isTree

@[simp] theorem ownCalls_cons (activity : Activity) (around : List Activity) :
    ownCalls (activity :: around) = ownCalls around + if activity.isOwnCall then 1 else 0 :=
  List.countP_cons

@[simp] theorem trees_cons (activity : Activity) (around : List Activity) :
    trees (activity :: around) = trees around + if activity.isTree then 1 else 0 :=
  List.countP_cons

/-- An activity begins or has ended, inside those that are going on, the innermost of which stands
first. -/
structure Moment where
  activity : Activity
  around : List Activity
  machine : Machine

/-- Moments at which a run is interrupted, and how. -/
abbrev Watch := Moment → Option (Interruption × Machine)

/-- A moment that the watch may interrupt. -/
def Run.passing {α : Type} (watch : Watch) (activity : Activity) (around : List Activity)
    (value : α) : Run α := fun machine =>
  match watch ⟨activity, around, machine⟩ with
  | some (interruption, machine) => .error interruption machine
  | none => .ok value machine

/-- An activity under a watch. -/
def Run.watched {α : Type} (watch : Watch) (activity : Activity) (around : List Activity)
    (steps : Run α) : Run α := do
  Run.passing watch activity around ()
  let value ← steps
  Run.passing watch (.ended activity) around value

/-- The activities under a bound and a watch. -/
def watched (watch : Watch) : (fuel : Nat) → (around : List Activity) → Interpreter
  | 0, _ =>
    { statement := fun _ => throw .outOfFuel
      expression := fun _ => throw .outOfFuel
      call := fun _ _ _ => throw .outOfFuel }
  | fuel + 1, around =>
    { statement := fun stmt =>
        let inner := watched watch fuel (.statement stmt :: around)
        Run.deeper (Run.watched watch (.statement stmt) around
          (Evaluation.statement inner fuel stmt))
      expression := fun expr =>
        let inner := watched watch fuel (.expression expr :: around)
        Run.deeper (Run.watched watch (.expression expr) around (Evaluation.expression inner expr))
      call := fun callee receiver args =>
        let activity := Activity.call callee receiver args
        let inner := watched watch fuel (activity :: around)
        Run.watched watch activity around (Evaluation.invoke inner callee receiver args) }

/-- A run of a program under a watch. -/
def Machine.executeWatched (watch : Watch) (fuel : Nat) (program : List Stmt) : Run Unit :=
  Evaluation.program (watched watch fuel []) program

/-- The run of a program from a machine reaches a moment: an interruption at this moment alone can
make a difference. -/
def Reaches (program : List Stmt) (start : Machine) (moment : Moment) : Prop :=
  ∃ fuel watch, (∀ other, other ≠ moment → watch other = none) ∧
    Machine.executeWatched watch fuel program start ≠ Machine.executeAll fuel program start

/-- Nothing is interrupted. -/
def unwatched : Watch := fun _ => none

theorem Run.watched_unwatched {α : Type} (activity : Activity) (around : List Activity)
    (steps : Run α) : Run.watched unwatched activity around steps = steps :=
  bind_pure steps

theorem watched_unwatched (fuel : Nat) :
    ∀ around, watched unwatched fuel around = interpreter fuel := by
  induction fuel with
  | zero => exact fun _ => rfl
  | succ fuel ih =>
    intro around
    simp only [watched, interpreter, ih, Run.watched_unwatched]

namespace Setting

variable {S : Setting} {c c' : Context} {watch watch' : Watch}

/-- What is known at a moment of a run that begins at the counters. -/
structure Sound (S : Setting) (depth nesting : Nat) (moment : Moment) : Prop where
  host : moment.machine.host = S.host
  limits : moment.machine.limits = S.limits
  calls : moment.machine.depth = depth + ownCalls moment.around
  nested : moment.machine.nesting = nesting + trees (moment.activity :: moment.around)
  fewCalls : ownCalls moment.around ≤ S.limits.calls - depth
  fewTrees : trees (moment.activity :: moment.around) ≤ S.limits.nesting - nesting
  known : moment.activity.Meets S.check
  declared : S.tracked → ∀ name expr,
    moment.activity = .ended (.statement (.declare .constant name (some expr))) →
      moment.machine.store.IsConstant moment.machine.scope name.name

/-- At moments of which this is known the watches do not interrupt the run, except that in a strict
setting the first one may stop it, and the second one too if the first one does. -/
def Alike (S : Setting) (depth nesting : Nat) (watch watch' : Watch) : Prop :=
  ∀ moment, S.Sound depth nesting moment →
    watch moment = none ∧ watch' { moment with machine := S.beside moment.machine } = none ∨
      S.strict ∧ watch moment = some (.outOfFuel, moment.machine) ∧
        ∀ stopped, watch' moment = some stopped → stopped = (.outOfFuel, moment.machine)

section

variable {depth nesting : Nat}

theorem ends_passing {α : Type} {activity : Activity} {around : List Activity} {value : α}
    {good : α → Prop} {machine : Machine} (alike : S.Alike depth nesting watch watch')
    (fits : S.Fits c machine) (sound : S.Sound depth nesting ⟨activity, around, machine⟩)
    (known : good value) :
    S.Ends c good machine (Run.passing watch activity around value machine)
      (Run.passing watch' activity around value (S.beside machine)) := by
  rcases alike _ sound with ⟨quiet, quiet'⟩ | ⟨strict, stops, same⟩
  · rw [Run.passing, Run.passing, quiet, quiet']
    exact ⟨rfl, known, .refl fits⟩
  · rw [fits.beside_eq strict, Run.passing, stops]
    refine ⟨fun loose => absurd strict loose, fun _ => ⟨.refl _, ?_⟩⟩
    unfold Run.passing
    cases stopped : watch' ⟨activity, around, machine⟩ with
    | some stop =>
      cases same stop stopped
      exact .refl _
    | none => exact .refl _

/-- An activity is in step under the watches if every moment of it is sound. -/
theorem InStep.watched {α : Type} {x y : Run α} {good : α → Prop} {activity : Activity}
    {around : List Activity} (alike : S.Alike depth nesting watch watch')
    (alone : S.Alike depth nesting watch' watch') (h : S.InStep c c x y good)
    (begins : ∀ machine, S.Fits c machine → S.Sound depth nesting ⟨activity, around, machine⟩)
    (finish : ∀ machine value after, x machine = .ok value after ∨ y machine = .ok value after →
      S.Fits c after → S.Sound depth nesting ⟨.ended activity, around, after⟩) :
    S.InStep c c (Run.watched watch activity around x) (Run.watched watch' activity around y)
      good := by
  have begun : S.InStep c c (Run.passing watch activity around ())
      (Run.passing watch' activity around ()) fun _ => True :=
    ⟨fun machine fits => ends_passing alike fits (begins machine fits) trivial,
      fun machine fits => ends_passing alone fits (begins machine fits) trivial⟩
  have passed : ∀ (watch : Watch) (x : Run α), S.Alike depth nesting watch watch' →
      S.Joint c c x y good → (∀ machine value after, x machine = .ok value after →
        S.Fits c after → S.Sound depth nesting ⟨.ended activity, around, after⟩) →
      S.Joint c c (x >>= Run.passing watch (.ended activity) around)
        (y >>= Run.passing watch' (.ended activity) around) good := by
    intro watch x alike joint finished
    apply joint.bindFrom h.itself _ _ (.refl c)
    · intro machine value after ended known fits
      exact ends_passing alike fits (finished machine value after ended fits) known
    · intro machine value after ended known fits
      exact ends_passing alone fits (finish machine value after (.inr ended) fits) known
  have both := passed watch x alike h.joint fun machine value after ended =>
    finish machine value after (.inl ended)
  have itself := passed watch' y alone h.itself fun machine value after ended =>
    finish machine value after (.inr ended)
  exact begun.bind fun _ _ => ⟨both, itself⟩

/-- The activities under two watches are in step if the watches are alike. -/
theorem agree_watched (alike : S.Alike depth nesting watch watch')
    (alone : S.Alike depth nesting watch' watch') (fuel : Nat) :
    ∀ around, ownCalls around ≤ S.limits.calls - depth → trees around ≤ S.limits.nesting - nesting →
      S.Agree (depth + ownCalls around) (nesting + trees around) (watched watch fuel around)
        (watched watch' fuel around) := by
  induction fuel with
  | zero =>
    intro around _ _
    exact ⟨fun _ _ _ _ _ => .outOfFuel, fun _ _ _ _ => .outOfFuel,
      fun _ _ _ _ _ _ _ _ => .outOfFuel⟩
  | succ fuel ih =>
    intro around fewCalls fewTrees
    have inTree : ∀ activity : Activity, activity.isTree = true →
        trees (activity :: around) = trees around + 1 ∧
          ownCalls (activity :: around) = ownCalls around := by
      intro activity tree
      simp [tree, Activity.isOwnCall_of_isTree tree]
    -- a tree is evaluated one level deeper
    have inside : ∀ activity : Activity, activity.isTree = true →
        nesting + trees around < S.limits.nesting →
        S.Agree (depth + ownCalls around) (nesting + trees around + 1)
          (watched watch fuel (activity :: around)) (watched watch' fuel (activity :: around)) := by
      intro activity tree room
      have agree := ih (activity :: around)
      rw [(inTree activity tree).1, (inTree activity tree).2] at agree
      exact agree fewCalls (by omega)
    have sound : ∀ activity : Activity, activity.isTree = true → activity.Meets S.check →
        nesting + trees around < S.limits.nesting → ∀ names settled machine,
        S.Fits ⟨depth + ownCalls around, nesting + trees around + 1, names, settled⟩ machine →
        (S.tracked → ∀ name expr,
          activity = .ended (.statement (.declare .constant name (some expr))) →
            machine.store.IsConstant machine.scope name.name) →
          S.Sound depth nesting ⟨activity, around, machine⟩ := by
      intro activity tree known room names settled machine fits declared
      have deeper := (inTree activity tree).1
      exact ⟨fits.host, fits.limits, fits.depth, by rw [deeper]; exact fits.nesting, fewCalls,
        by rw [deeper]; omega, known, declared⟩
    refine ⟨fun names settled stmt known named => ?_, fun names settled expr known => ?_,
      fun names settled callee receiver args known owner passed => ?_⟩
    · apply InStep.deeper
      intro room
      have agree := inside (.statement stmt) rfl room
      apply (InStep.statement agree fuel known named).watched alike alone
      · exact fun machine fits => sound (.statement stmt) rfl known room _ _ machine fits nofun
      · intro machine flow after ended fits
        refine sound (.ended (.statement stmt)) rfl known room _ _ after fits ?_
        rintro tracked name expr ⟨⟩
        rcases ended with ended | ended
        all_goals
          obtain ⟨value, _, _, bound⟩ := declaration_binds ended (fits.active tracked)
          exact ⟨value, bound⟩
    · apply InStep.deeper
      intro room
      have agree := inside (.expression expr) rfl room
      apply (InStep.expression agree known).watched alike alone
      · exact fun machine fits => sound (.expression expr) rfl known room _ _ machine fits nofun
      · intro machine value after _ fits
        exact sound (.ended (.expression expr)) rfl known room _ _ after fits nofun
    · have agree := ih (.call callee receiver args :: around)
      have sameTrees : trees (.call callee receiver args :: around) = trees around := by simp
      have calls : ownCalls (.call callee receiver args :: around) =
          ownCalls around + if callee.isOwn then 1 else 0 := ownCalls_cons _ _
      rw [sameTrees, calls] at agree
      apply InStep.watched alike alone
      · apply InStep.invoke (fun own room => ?_) (fun foreign => ?_) known owner passed
        · rw [if_pos own] at agree
          have room : depth + ownCalls around < S.limits.calls := room
          exact agree (by omega) fewTrees
        · rw [foreign] at agree
          exact agree fewCalls fewTrees
      · intro machine fits
        exact ⟨fits.host, fits.limits, fits.depth, by rw [sameTrees]; exact fits.nesting, fewCalls,
          by rw [sameTrees]; exact fewTrees, ⟨known, owner, passed⟩, nofun⟩
      · intro machine value after _ fits
        exact ⟨fits.host, fits.limits, fits.depth, fits.nesting, fewCalls, fewTrees,
          ⟨known, owner, passed⟩, nofun⟩

end

/-- One host, nothing tracked, and a condition on the trees. -/
def about (check : Node → Prop) (machine : Machine) : Setting where
  check := check
  limits := machine.limits
  host := machine.host
  other := machine.host
  tracked := False
  strict := False
  follows := id
  alone := False.elim
  hosts _ _ _ := rfl
  steady := False.elim
  named := False.elim

/-- A new machine is as every setting says. -/
theorem fits_initial {host : Host} (limits : S.limits = .standard) (same : S.host = host) :
    S.Fits ⟨0, 0, [], true⟩ (Machine.initial host) where
  host := same.symm
  limits := limits.symm
  depth := rfl
  nesting := rfl
  store := Store.meets_initial S.check
  agenda := by
    intro appointment mem
    cases mem
  active := fun _ => show Store.programScope < Store.initial.scopes.size by decide
  constants := by
    rintro - name ⟨value, bound⟩
    cases (Store.binding?_initial bound).1

/-- With one host and no strictness, runs in step are the same. -/
theorem Ends.eq {α : Type} {good : α → Prop} {machine : Machine} {ending other : Ending α}
    (h : S.Ends c good machine ending other) (loose : ¬ S.strict) (same : S.host = S.other) :
    ending = other := by
  have beside : ∀ after : Machine, after.host = S.host → S.beside after = after := by
    intro after eq
    unfold Setting.beside
    rw [← same, ← eq]
  match ending with
  | .ok value after => rw [h.1, beside after h.2.2.fits.host]
  | .error (.exception exception) after => rw [h.1, beside after h.2.2.fits.host]
  | .error .outOfFuel after => rw [(h.1 loose).1, beside after (h.1 loose).2]

theorem Fits.beside_of_eq {machine : Machine} (fits : S.Fits c machine) (same : S.host = S.other) :
    S.beside machine = machine := by
  unfold Setting.beside
  rw [← same, ← fits.host]

/-- What is known at every moment of a run. -/
theorem sound_of_reaches {start : Machine} {program : List Stmt} {moment : Moment}
    (fits : S.Fits c start) (loose : ¬ S.strict) (same : S.host = S.other)
    (known : ∀ stmt ∈ program, stmt.Meets S.check)
    (free : S.tracked → ∀ name ∈ functionNames program, name ∉ c.constants)
    (reached : Reaches program start moment) :
    S.Sound c.depth c.nesting moment := by
  obtain ⟨fuel, watch, only, differs⟩ := reached
  apply Classical.byContradiction
  intro unsound
  apply differs
  have alike : S.Alike c.depth c.nesting watch unwatched := by
    intro other sound
    refine .inl ⟨only other ?_, rfl⟩
    rintro rfl
    exact unsound sound
  have agree := agree_watched alike (fun _ _ => .inl ⟨rfl, rfl⟩) fuel [] (Nat.zero_le _)
    (Nat.zero_le _)
  have run := InStep.program agree known (List.subset_append_left c.constants (constantsOf program))
    (List.subset_append_right _ _) free
  have ends := run.joint start fits
  rw [fits.beside_of_eq same, watched_unwatched] at ends
  exact ends.eq loose same

theorem meets_true (value : Value) : value.Meets fun _ => True := by
  cases value with
  | function f _ => exact fun _ _ => trivial
  | _ => trivial

/-- The setting in which nothing is asked of trees. -/
abbrev plain (machine : Machine) : Setting := .about (fun _ => True) machine

theorem fits_plain (machine : Machine) (names : List String) :
    (plain machine).Fits ⟨machine.depth, machine.nesting, names, true⟩ machine where
  host := rfl
  limits := rfl
  depth := rfl
  nesting := rfl
  store := ⟨fun _ _ _ _ _ => meets_true _, fun _ _ _ => meets_true _,
    fun _ _ _ => meets_true _⟩
  agenda := fun _ _ => ⟨meets_true _, fun _ _ => meets_true _⟩
  active := False.elim
  constants := False.elim

/-- The activities of an interpreter are in step with themselves. -/
theorem agree_interpreter (S : Setting) (fuel depth nesting : Nat) :
    S.Agree depth nesting (interpreter fuel) (interpreter fuel) := by
  have alike : S.Alike depth nesting unwatched unwatched := fun _ _ => .inl ⟨rfl, rfl⟩
  have agree := agree_watched alike alike fuel [] (Nat.zero_le _) (Nat.zero_le _)
  rwa [watched_unwatched] at agree

end Setting

end DarijaScript
