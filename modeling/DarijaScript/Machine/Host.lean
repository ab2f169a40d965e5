/-!
# The host

What a running program asks of its surroundings. Every call is logged, and an answer may depend on
all calls before it.
-/

namespace DarijaScript

/-- A call of the host. -/
inductive HostCall where
  | alert (message : String)
  | prompt (message : String)
  | confirm (message : String)
  | now
  | random
  deriving Repr, DecidableEq

/-- The calls of the host so far, the first one first. -/
abbrev HostLog := Array HostCall

/-- The answers of the surroundings. -/
structure Host where
  /-- A line of text, unless the question was dismissed. -/
  prompt : HostLog → String → Option String
  confirm : HostLog → String → Bool
  /-- Milliseconds from the beginning of 1970. -/
  now : HostLog → Float
  /-- A number from zero up to one. -/
  random : HostLog → Float

namespace Host

/-- A host that asks nobody and takes time and chance from elsewhere. -/
def silent (now : HostLog → Float) (random : HostLog → Float) : Host where
  prompt _ _ := none
  confirm _ _ := false
  now := now
  random := random

/-- The calls that fit. -/
def countCalls (log : HostLog) (fits : HostCall → Bool) : Nat := log.countP fits

/-- A host that answers each kind of call from a list, and when the list is used up as if nobody
were there. -/
def scripted (prompts : List (Option String)) (confirms : List Bool) (times : List Float)
    (numbers : List Float) : Host where
  prompt log _ :=
    prompts.getD (countCalls log fun | .prompt _ => true | _ => false) none
  confirm log _ :=
    confirms.getD (countCalls log fun | .confirm _ => true | _ => false) false
  now log := times.getD (countCalls log (· == .now)) 0
  random log := numbers.getD (countCalls log (· == .random)) 0

end Host

end DarijaScript
