import DarijaScript.Proofs.Evaluation.Balance
import DarijaScript.Proofs.Evaluation.SelfCalls

/-!
# Recursion

The calls of functions of the program and the statements and expressions are counted, so there are
never many of them at once, and what would be one too many is a fault. Calls of built-in functions are
not counted. There are few of them as long as statements, expressions and functions of the program
make them, but built-in functions that call built-in functions may be as many as one likes.
-/

namespace DarijaScript

/-- A call inside these activities is made by the program: by a statement or expression of it, by one
of its functions, or because its time has come. -/
def programCalls : List Activity → Bool
  | [] => true
  | activity :: _ => activity.isTree || activity.isOwnCall

/-- The calls of built-in functions by built-in functions among some activities. -/
def uncountedCalls : List Activity → Nat
  | [] => 0
  | activity :: around =>
    uncountedCalls around +
      if activity.isCall && !activity.isOwnCall && !programCalls around then 1 else 0

/-- Every other call is of a function of the program, or inside a statement, an expression or such a
call, which it is charged to. One more call can be charged if the program calls. -/
theorem calls_le (active : List Activity) :
    active.countP Activity.isCall + (if programCalls active then 1 else 0) ≤
      2 * ownCalls active + trees active + 1 + uncountedCalls active := by
  induction active with
  | nil =>
    simp [programCalls]
    omega
  | cons activity around ih =>
    have head : programCalls (activity :: around) = (activity.isTree || activity.isOwnCall) := rfl
    have count : uncountedCalls (activity :: around) = uncountedCalls around +
        if activity.isCall && !activity.isOwnCall && !programCalls around then 1 else 0 := rfl
    rw [List.countP_cons, head, count, ownCalls_cons, trees_cons]
    cases activity with
    | statement | expression =>
      simp [Activity.isTree, Activity.isOwnCall, Activity.isCall]
      omega
    | call callee receiver args =>
      by_cases own : callee.isOwn = true
      · simp [Activity.isCall, own]
        omega
      · by_cases called : programCalls around = true
        · simp [Activity.isCall, own, called] at ih ⊢
          omega
        · simp [Activity.isCall, own, called] at ih ⊢
          omega
    | ended activity =>
      by_cases tree : activity.isTree = true
      · simp [Activity.isTree, Activity.isOwnCall, Activity.isCall, tree]
        omega
      · simp [Activity.isTree, Activity.isOwnCall, Activity.isCall, tree]
        omega

/-- The bound on the other calls, fixed by the limits alone. -/
def Limits.callBound (limits : Limits) : Nat := 2 * (limits.calls + 1) + limits.nesting + 1

theorem calls_of_reaches {program : List Stmt} {start : Machine} {moment : Moment}
    (depth : start.depth = 0) (nesting : start.nesting = 0)
    (reached : Reaches program start moment) :
    (moment.activity :: moment.around).countP Activity.isCall ≤
      start.limits.callBound + uncountedCalls (moment.activity :: moment.around) := by
  obtain ⟨-, -, fewCalls, fewTrees⟩ := counters_of_reaches reached
  have calls := calls_le (moment.activity :: moment.around)
  have own : ownCalls (moment.activity :: moment.around) ≤ ownCalls moment.around + 1 := by
    rw [ownCalls_cons]
    split <;> omega
  rw [depth] at fewCalls
  rw [nesting] at fewTrees
  rw [Limits.callBound]
  omega

section

variable (fuel : Nat) {machine : Machine}

theorem deeper_refused {α : Type} (steps : Run α) (full : machine.limits.nesting ≤ machine.nesting) :
    Run.deeper steps machine =
      .error (.exception (.fault (.nestingLimit machine.limits.nesting) .unknown)) machine := by
  rw [Run.deeper, if_pos full]
  rfl

theorem call_refused (full : machine.limits.calls ≤ machine.depth) (f : Function) (closure : ScopeId)
    (receiver : Value) (args : List Value) :
    (interpreter (fuel + 1)).call (.function f closure) receiver args machine =
      .error (.exception (.fault (.callDepth f.signature) .unknown)) machine := by
  have refused : Run.mayCall machine = .ok false machine := by
    have few : ¬ machine.depth < machine.limits.calls := Nat.not_lt.mpr full
    rw [Run.mayCall, decide_eq_false few]
  exact Run.bind_ok refused

end

/-- **Recursion is cut off**, unless built-in functions call built-in functions. At every moment of a
run the other calls that are going on are at most as many as a bound that the limits fix. At a limit
another statement, expression or function of the program does not begin, but ends in an exception that
names the limit, and leaves the machine as it was. -/
theorem recursion_cut_off (host : Host) :
    (∀ (program : List Stmt) (moment : Moment),
      Reaches program (Machine.initial host) moment →
        (moment.activity :: moment.around).countP Activity.isCall ≤
          Limits.standard.callBound + uncountedCalls (moment.activity :: moment.around)) ∧
    ∀ (fuel : Nat) (machine : Machine),
      (machine.limits.nesting ≤ machine.nesting →
        (∀ stmt, (interpreter (fuel + 1)).statement stmt machine =
          .error (.exception (.fault (.nestingLimit machine.limits.nesting) .unknown)) machine) ∧
        ∀ expr, (interpreter (fuel + 1)).expression expr machine =
          .error (.exception (.fault (.nestingLimit machine.limits.nesting) .unknown)) machine) ∧
      (machine.limits.calls ≤ machine.depth → ∀ f closure receiver args,
        (interpreter (fuel + 1)).call (.function f closure) receiver args machine =
          .error (.exception (.fault (.callDepth f.signature) .unknown)) machine) := by
  constructor
  · intro program moment reached
    exact calls_of_reaches rfl rfl reached
  · intro fuel machine
    exact ⟨fun full => ⟨fun stmt => deeper_refused _ full, fun expr => deeper_refused _ full⟩,
      fun full => call_refused fuel full⟩

/-- Where a method of an array calls itself, a thousand calls are going on, most of them of a built-in
function by a built-in function. -/
theorem recursion_cut_off_self : ∃ program moment,
    Reaches program (Machine.initial (.scripted [] [] [] [])) moment ∧
      1000 < (moment.activity :: moment.around).countP Activity.isCall ∧
      (moment.activity :: moment.around).countP Activity.isCall ≤
        Limits.standard.callBound + uncountedCalls (moment.activity :: moment.around) := by
  obtain ⟨program, -, unbounded⟩ := builtin_calls_unbounded (.scripted [] [] [] [])
  obtain ⟨moment, reached, many⟩ := unbounded 1000
  exact ⟨program, moment, reached, many, (recursion_cut_off _).1 program moment reached⟩

end DarijaScript
