import DarijaScript.Decimal.Reading

/-!
# The shortest text of a number

A finite number is written with the fewest digits that read back as the same double; of two such
numbers the nearer one is taken and of two equally near ones the larger. The text is always
positional: no power of ten, zeros up to the point instead.
-/

namespace DarijaScript.Decimal

/-- The decimal number `coefficient * 10 ^ exponent`. -/
structure Numeral where
  coefficient : Nat
  exponent : Int
  deriving Repr, DecidableEq

/-- The double that a numeral reads as. -/
def Numeral.toFloat (numeral : Numeral) : Float := ofScientific numeral.coefficient numeral.exponent

/-- A positive dyadic number as a fraction. -/
def Dyadic.fraction (x : Dyadic) : Nat × Nat :=
  (x.mantissa * 2 ^ x.exponent.toNat, 2 ^ (-x.exponent).toNat)

/-- The point of the grid of multiples of `10 ^ exponent` that is nearest among those that read
back as `target`; only the two points around the number come into question. -/
def onGrid? (x : Dyadic) (target : Float) (exponent : Int) : Option Numeral :=
  let (top, bottom) := x.fraction
  let top := top * 10 ^ (-exponent).toNat
  let bottom := bottom * 10 ^ exponent.toNat
  let below : Numeral := ⟨top / bottom, exponent⟩
  let above : Numeral := ⟨top / bottom + 1, exponent⟩
  let nearerAbove := bottom ≤ 2 * (top % bottom)
  match below.toFloat == target, above.toFloat == target with
  | true, true => some (if nearerAbove then above else below)
  | true, false => some below
  | false, true => some above
  | false, false => none

/-- The first grid, from the given one to ever finer ones, that has a point reading back. -/
def firstGrid? (x : Dyadic) (target : Float) : (tries : Nat) → (exponent : Int) → Option Numeral
  | 0, _ => none
  | tries + 1, exponent =>
    (onGrid? x target exponent).or (firstGrid? x target tries (exponent - 1))

/-- The exact decimal value of a dyadic number. -/
def Dyadic.exactNumeral (x : Dyadic) : Numeral :=
  if 0 ≤ x.exponent then ⟨x.mantissa * 2 ^ x.exponent.toNat, 0⟩
  else ⟨x.mantissa * 5 ^ (-x.exponent).toNat, x.exponent⟩

/-- A power of ten above the number: `30103 / 100000` is the decimal logarithm of two. -/
def Dyadic.coarseExponent (x : Dyadic) : Int :=
  Int.fdiv ((x.mantissa.log2 + x.exponent) * 30103) 100000 + 2

/--
The numeral that writes a positive number. A whole number below `2 ^ 53` is its own numeral, since
no other whole number reads as it.
-/
def Dyadic.numeral (x : Dyadic) : Numeral :=
  let target := pack false x.mantissa x.exponent
  match toNat? target with
  | some n => if n < 2 ^ 53 then ⟨n, 0⟩ else searched target
  | none => searched target
where
  searched (target : Float) : Numeral :=
    (firstGrid? x target 24 x.coarseExponent).getD x.exactNumeral

/-- The digits of a numeral with the point where it belongs. -/
def Numeral.text (numeral : Numeral) : String :=
  let digits := (Nat.repr numeral.coefficient).toList
  String.ofList <|
    if 0 ≤ numeral.exponent then
      digits ++ List.replicate (if numeral.coefficient = 0 then 0 else numeral.exponent.toNat) '0'
    else
      let places := (-numeral.exponent).toNat
      if places < digits.length then
        digits.take (digits.length - places) ++ '.' :: digits.drop (digits.length - places)
      else '0' :: '.' :: List.replicate (places - digits.length) '0' ++ digits

/-- The text of a double, with a sign also for a negative zero and words for what is not finite. -/
def text (x : Float) : String :=
  match unpack x with
  | .finite value =>
    let magnitude := if value.mantissa = 0 then "0" else value.numeral.text
    if value.negative then "-" ++ magnitude else magnitude
  | .infinite negative => if negative then "-inf" else "inf"
  | .notANumber => "NaN"

end DarijaScript.Decimal
