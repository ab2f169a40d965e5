import DarijaScript.Machine.Basic

/-!
# Arguments of built-in functions

An argument that was not passed is undefined.
-/

namespace DarijaScript.Builtins

/-- An argument by its index. -/
def argument (args : List Value) (index : Nat) : Value := args.getD index .undefined

/-- An argument as a number. -/
def numberArgument (args : List Value) (index : Nat) : Float := (argument args index).toNumber

/-- An argument as a text. -/
def textArgument (args : List Value) (index : Nat) : Run String :=
  Run.text (argument args index)

/-- The function that is passed first. -/
def callbackArgument (args : List Value) : Run Value := do
  let callback := argument args 0
  if callback.isFunction then pure callback else Run.faultAt .expectedFunction callback

/-- A bound of a part of a sequence: what is not passed has a default, a negative bound counts from
the end, and no bound lies outside. -/
def resolveBound (length : Nat) (bound : Value) (default : Nat) : Nat :=
  match bound with
  | .undefined => default
  | bound =>
    match Decimal.unpack bound.toNumber with
    | .notANumber => 0
    | .infinite negative => if negative then 0 else length
    | .finite _ =>
      let position := (Decimal.truncatedInt? bound.toNumber).getD 0
      if position < 0 then (length + position).toNat else min position.toNat length

/-- The bounds of a part of a sequence, which never run backwards. -/
def partBounds (length : Nat) (start stop : Value) : Nat × Nat :=
  let start := resolveBound length start 0
  (start, max (resolveBound length stop length) start)

/-- The part of a sequence between two bounds. -/
def slice {α : Type} (items : List α) (start stop : Value) : List α :=
  let (start, stop) := partBounds items.length start stop
  (items.take stop).drop start

end DarijaScript.Builtins
