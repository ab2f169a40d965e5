import DarijaScript.Evaluation.Interpreter
import DarijaScript.Grammar.Program

/-!
# Running programs

A source text is read and, if it is a program, executed together with the callbacks that it lets
wait. What was printed before a failure is kept.
-/

namespace DarijaScript

namespace Exception

/-- The wording of an exception. A raised value is told by its text. -/
def message (store : Store) : Exception → String
  | fault f _ => f.message
  | raised value _ => store.text value

/-- The exception with its place, as it is reported when nothing handles it. -/
def report (store : Store) : Exception → String
  | fault f position => Stage.running.report position f.message
  | raised value position =>
    Stage.running.report position ("uncaught " ++ store.literal value)

end Exception

/-- Why a program did not come to its end. -/
inductive Failure where
  /-- The source text is no program, so nothing was executed. -/
  | unreadable (errors : List SyntaxError)
  | uncaught (exception : Exception)

namespace Failure

/-- The stage at which the program failed. -/
def stage : Failure → Stage
  | unreadable errors => (errors.head?.map SyntaxError.stage).getD .parsing
  | uncaught _ => .running

/-- The wording of a failure. -/
def message (store : Store) : Failure → String
  | unreadable errors => "\n".intercalate (errors.map SyntaxError.message)
  | uncaught exception => exception.message store

/-- The place of the first error. -/
def position : Failure → Position
  | unreadable errors => (errors.head?.map SyntaxError.position).getD .unknown
  | uncaught exception => exception.position

/-- All errors with their places, one a line. -/
def report (store : Store) : Failure → String
  | unreadable errors => "\n".intercalate (errors.map SyntaxError.report)
  | uncaught exception => exception.report store

end Failure

/-- What is left of a run. -/
structure Outcome where
  output : Array String
  log : HostLog
  store : Store
  failure : Option Failure

/-- What is left of a machine. -/
def Outcome.ofMachine (machine : Machine) (failure : Option Failure) : Outcome :=
  ⟨machine.output, machine.log, machine.store, failure⟩

/-- Runs a source text; there is no outcome if the run does not end within the bound. -/
def run? (fuel : Nat) (source : String) (host : Host) : Option Outcome :=
  match readProgram source 0 with
  | .error errors => some ⟨#[], #[], Store.initial, some (.unreadable errors)⟩
  | .ok program =>
    match Machine.executeAll fuel program (Machine.initial host) with
    | .ok () machine => some (.ofMachine machine none)
    | .error (.exception exception) machine =>
      some (.ofMachine machine (some (.uncaught exception)))
    | .error .outOfFuel _ => none

/-- A bound that no run on a computer reaches. -/
def practicalFuel : Nat := 2 ^ 62

/-- The outcome of a run under the bound that is never reached; it is empty for a run that does not
end. -/
def run (source : String) (host : Host) : Outcome :=
  (run? practicalFuel source host).getD ⟨#[], #[], Store.initial, none⟩

end DarijaScript
