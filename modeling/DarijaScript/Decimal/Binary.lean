/-!
# Binary floating point numbers, exactly

A double is a sign, a natural mantissa and a power of two, or an infinity, or not a number. Taking
it apart and putting it together are exact, so whatever is computed on mantissas in between is exact
as well: the integer part, the remainder of a division, the rounding of a fraction.
-/

namespace DarijaScript.Decimal

-- The powers here are those of core, also for a reader who has another library's in scope.
attribute [instance (high + 1), default_instance (high + 1)] instPowNat

/-- The value `± mantissa * 2 ^ exponent`. -/
structure Dyadic where
  negative : Bool
  mantissa : Nat
  exponent : Int
  deriving Repr, DecidableEq

/-- What a double stands for. -/
inductive Unpacked where
  | finite (value : Dyadic)
  | infinite (negative : Bool)
  | notANumber
  deriving Repr, DecidableEq

/-- The largest exponent field, which marks infinities and NaN. -/
def topExponent : Nat := 2 ^ 11 - 1

/-- The parts of a double. -/
def unpack (x : Float) : Unpacked :=
  let bits := x.toBits.toNat
  let negative := decide (2 ^ 63 ≤ bits)
  let field := bits / 2 ^ 52 % 2 ^ 11
  let fraction := bits % 2 ^ 52
  if field = topExponent then
    if fraction = 0 then .infinite negative else .notANumber
  else if field = 0 then .finite ⟨negative, fraction, -1074⟩
  else .finite ⟨negative, 2 ^ 52 + fraction, (field : Int) - 1075⟩

/-- The double with this sign, exponent field and fraction. -/
def ofFields (negative : Bool) (field fraction : Nat) : Float :=
  Float.ofBits (UInt64.ofNat ((if negative then 2 ^ 63 else 0) + field * 2 ^ 52 + fraction))

/-- The infinity of this sign. -/
def infinity (negative : Bool) : Float := ofFields negative topExponent 0

/-- Not a number. -/
def nan : Float := ofFields false topExponent (2 ^ 51)

/--
The double `± mantissa * 2 ^ exponent` for a mantissa of at most fifty-three bits and an exponent of
at least -1074; infinity when it is too large.
-/
def pack (negative : Bool) (mantissa : Nat) (exponent : Int) : Float :=
  if mantissa = 0 then ofFields negative 0 0
  else
    let shift := min (52 - mantissa.log2) (exponent + 1074).toNat
    let mantissa := mantissa * 2 ^ shift
    let exponent := exponent - shift
    if mantissa < 2 ^ 52 then ofFields negative 0 mantissa
    else
      let field := (exponent + 1075).toNat
      if field < topExponent then ofFields negative field (mantissa - 2 ^ 52)
      else infinity negative

/-- Whether a fraction `remainder / unit` below one moves the integer part away from zero. -/
abbrev Rounding := (negative : Bool) → (remainder unit : Nat) → Bool

/-- A finite double that has a fraction becomes an integer; the sign of a zero is kept. -/
def roundBy (away : Rounding) (x : Float) : Float :=
  match unpack x with
  | .finite ⟨negative, mantissa, exponent⟩ =>
    if 0 ≤ exponent then x
    else
      let unit := 2 ^ (-exponent).toNat
      let remainder := mantissa % unit
      if remainder = 0 then x
      else
        let magnitude := mantissa / unit + if away negative remainder unit then 1 else 0
        pack negative magnitude 0
  | _ => x

/-- The largest integer that is not larger. -/
def floor : Float → Float := roundBy fun negative _ _ => negative

/-- The smallest integer that is not smaller. -/
def ceil : Float → Float := roundBy fun negative _ _ => !negative

/-- The integer nearest, halves away from zero. -/
def roundHalfAway : Float → Float := roundBy fun _ remainder unit => unit ≤ 2 * remainder

/-- The integer between the number and zero that is nearest to the number. -/
def truncate : Float → Float := roundBy fun _ _ _ => false

/-- The integer part of a finite double. -/
def truncatedInt? (x : Float) : Option Int :=
  match unpack x with
  | .finite ⟨negative, mantissa, exponent⟩ =>
    let magnitude :=
      if 0 ≤ exponent then mantissa * 2 ^ exponent.toNat else mantissa / 2 ^ (-exponent).toNat
    some (if negative then -(magnitude : Int) else magnitude)
  | _ => none

/-- The natural number that a double equals, if it is one. -/
def toNat? (x : Float) : Option Nat :=
  match unpack x with
  | .finite ⟨negative, mantissa, exponent⟩ =>
    if negative && mantissa != 0 then none
    else if 0 ≤ exponent then some (mantissa * 2 ^ exponent.toNat)
    else
      let unit := 2 ^ (-exponent).toNat
      if mantissa % unit = 0 then some (mantissa / unit) else none
  | _ => none

/--
The remainder of a division whose quotient is cut to an integer: it has the sign of the dividend and
is exact. There is none for an infinite dividend or a zero divisor.
-/
def remainder (x y : Float) : Float :=
  match unpack x, unpack y with
  | .finite a, .finite b =>
    if b.mantissa = 0 then nan
    else
      let exponent := min a.exponent b.exponent
      let dividend := a.mantissa * 2 ^ (a.exponent - exponent).toNat
      let divisor := b.mantissa * 2 ^ (b.exponent - exponent).toNat
      pack a.negative (dividend % divisor) exponent
  | .finite _, .infinite _ => x
  | _, _ => nan

/-- The double nearest to a natural number. -/
def ofNat (n : Nat) : Float := Float.ofNat n

/-- The double nearest to an integer. -/
def ofInt (n : Int) : Float := if n < 0 then -Float.ofNat n.natAbs else Float.ofNat n.natAbs

end DarijaScript.Decimal
