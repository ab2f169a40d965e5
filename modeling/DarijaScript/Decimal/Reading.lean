import DarijaScript.Decimal.Binary

/-!
# Reading decimal numbers

The double nearest to a decimal number, a tie going to the even mantissa, and the texts that are
read as numbers: digits with at most one point among them and an optional power of ten, or one of
the words for infinity and not a number, all with an optional sign.
-/

namespace DarijaScript.Decimal

/-- A quotient rounded to the nearest natural number, a tie to the even one. -/
def divRoundEven (numerator denominator : Nat) : Nat :=
  let quotient := numerator / denominator
  let twice := 2 * (numerator % denominator)
  if twice < denominator then quotient
  else if denominator < twice then quotient + 1
  else quotient + quotient % 2

/-- The double nearest to a positive fraction; infinity when it is too large. -/
def ofFraction (numerator denominator : Nat) : Float :=
  let estimate := (numerator.log2 : Int) - denominator.log2 - 53
  let mantissaAt (exponent : Int) : Nat × Nat :=
    (numerator * 2 ^ (-exponent).toNat, denominator * 2 ^ exponent.toNat)
  let exponent :=
    let (top, bottom) := mantissaAt estimate
    if top / bottom < 2 ^ 53 then estimate else estimate + 1
  let exponent := max exponent (-1074)
  let (top, bottom) := mantissaAt exponent
  let mantissa := divRoundEven top bottom
  if mantissa < 2 ^ 53 then pack false mantissa exponent
  else pack false (mantissa / 2) (exponent + 1)

/--
The double nearest to `coefficient * 10 ^ exponent`. Beyond four hundred places nothing but infinity
and zero is left.
-/
def ofScientific (coefficient : Nat) (exponent : Int) : Float :=
  if coefficient = 0 then ofFields false 0 0
  else if 400 < exponent then infinity false
  else if exponent < -(400 + coefficient.log2 : Int) then ofFields false 0 0
  else ofFraction (coefficient * 10 ^ exponent.toNat) (10 ^ (-exponent).toNat)

/-- The number that a run of decimal digits writes. -/
def natOfDigits (digits : List Char) : Nat :=
  digits.foldl (fun n c => 10 * n + (c.toNat - '0'.toNat)) 0

/-- The sign in front of a numeral, and what follows it. -/
def splitSign : List Char → Bool × List Char
  | '-' :: rest => (true, rest)
  | '+' :: rest => (false, rest)
  | text => (false, text)

/-- The power of ten that ends a numeral: nothing, or `e` with an integer. -/
def readExponent? : List Char → Option Int
  | [] => some 0
  | c :: rest =>
    if c = 'e' ∨ c = 'E' then
      let (negative, digits) := splitSign rest
      if digits.isEmpty || !digits.all Char.isDigit then none
      else some (if negative then -(natOfDigits digits : Int) else natOfDigits digits)
    else none

/-- A numeral without a sign. -/
def readUnsigned? (text : List Char) : Option Float :=
  let whole := text.takeWhile Char.isDigit
  let afterWhole := text.dropWhile Char.isDigit
  let (fraction, tail) :=
    match afterWhole with
    | '.' :: rest => (rest.takeWhile Char.isDigit, rest.dropWhile Char.isDigit)
    | rest => ([], rest)
  if whole.isEmpty && fraction.isEmpty then none
  else (readExponent? tail).map fun exponent =>
    ofScientific (natOfDigits (whole ++ fraction)) (exponent - fraction.length)

/-- The words for a number that is not finite, in any case. -/
def readWord? (text : List Char) : Option Float :=
  let word := text.map Char.toLower
  if word = "inf".toList || word = "infinity".toList then some (infinity false)
  else if word = "nan".toList then some nan
  else none

/-- The number that a text writes, if it writes one. -/
def read? (text : List Char) : Option Float :=
  let (negative, magnitude) := splitSign text
  ((readWord? magnitude).or (readUnsigned? magnitude)).map fun x => if negative then -x else x

end DarijaScript.Decimal
