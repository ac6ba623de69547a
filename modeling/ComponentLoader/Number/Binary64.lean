import ComponentLoader.Text.Basic
set_option autoImplicit false

/-!
# Binary floating-point numbers

The numbers of 64 bits as exact values: a significand below 2^53 times a power of two.  `ofDecimal`
takes a decimal number to the nearest of them, `shortest` the other way to the decimal number with
the fewest digits that lies nearer to it than to any other, and `text` lays those digits out.  All
of it is arithmetic on whole numbers.
-/

namespace ComponentLoader

/-- A binary floating-point number. -/
inductive Binary64 where
  | nan
  | infinity (negative : Bool)
  /-- significand times two to the power of the exponent -/
  | finite (negative : Bool) (significand : Nat) (exponent : Int)
  deriving DecidableEq, Repr, Inhabited

/-- A decimal number that is not negative: digits times ten to the power of the exponent. -/
structure Decimal where
  digits : Nat
  exponent : Int
  deriving DecidableEq, Repr, Inhabited

namespace Binary64

/-- The least significand of 53 bits. -/
def fullSignificand : Nat := 0x10000000000000

/-- The exponent of the numbers closest to zero. -/
def leastExponent : Int := -1074

/-- The greatest exponent that a significand of 53 bits can have. -/
def greatestExponent : Int := 971

/-- A power of a natural number with an exponent that may be negative, as a fraction. -/
def power (base : Nat) (exponent : Int) : Nat × Nat :=
  if 0 ≤ exponent then (Nat.pow base exponent.toNat, 1) else (1, Nat.pow base (-exponent).toNat)

/-! ## Rounding a decimal number -/

/-- The quotient rounded to the nearest number, a half to the even one. -/
def roundQuotient (n d : Nat) : Nat :=
  let q := n / d
  let twice := 2 * (n % d)
  if d < twice ∨ (twice = d ∧ q % 2 = 1) then q + 1 else q

/-- The exponent at which a positive fraction has a whole part of 53 bits, as far as exponents
reach. -/
def exponentFor (n d : Nat) : Int :=
  let guess : Int := (n.log2 : Int) - (d.log2 : Int)
  let (up, down) := power 2 guess
  let log := if d * up ≤ n * down then guess else guess - 1
  max leastExponent (log - 52)

/-- The number nearest to a positive fraction. -/
def ofFraction (negative : Bool) (n d : Nat) : Binary64 :=
  let exponent := exponentFor n d
  let (up, down) := power 2 exponent
  let rounded := roundQuotient (n * down) (d * up)
  let (significand, exponent) :=
    if rounded = 2 * fullSignificand then (fullSignificand, exponent + 1) else (rounded, exponent)
  if greatestExponent < exponent then .infinity negative else .finite negative significand exponent

/-- The number nearest to a decimal number with a sign. -/
def ofDecimal (negative : Bool) (value : Decimal) : Binary64 :=
  let magnitude : Int := ((Text.decimal value.digits).length : Int) + value.exponent
  if value.digits = 0 ∨ magnitude < -400 then .finite negative 0 leastExponent
  else if 400 < magnitude then .infinity negative
  else
    let (up, down) := power 10 value.exponent
    ofFraction negative (value.digits * up) down

/-! ## The fewest digits -/

/-- Compares `a * 10 ^ i` with `n * 2 ^ j`. -/
def compareScaled (a : Nat) (i : Int) (n : Nat) (j : Int) : Ordering :=
  let (up, down) := power 10 i
  let (up', down') := power 2 j
  compare (a * up * down') (n * up' * down)

/-- Whether a decimal number rounds to a significand with an exponent.  Those that do form an
interval between the midpoints to the neighbours; a midpoint belongs to it when the significand is
even. -/
def roundsTo (significand : Nat) (exponent : Int) (value : Decimal) : Bool :=
  let narrow := significand = fullSignificand ∧ leastExponent < exponent
  let low := if narrow then 4 * significand - 1 else 4 * significand - 2
  let high := 4 * significand + 2
  let even := significand % 2 == 0
  let below := compareScaled value.digits value.exponent low (exponent - 2)
  let above := compareScaled value.digits value.exponent high (exponent - 2)
  (below == .gt || (even && below == .eq)) && (above == .lt || (even && above == .eq))

/-- The value in units of `10 ^ scale`, rounded down. -/
def floorAt (significand : Nat) (exponent scale : Int) : Nat :=
  let (up, down) := power 2 exponent
  let (up', down') := power 10 scale
  significand * up * down' / (down * up')

/-- Of the two multiples of `10 ^ scale` around the value, the nearer one that rounds to it. -/
def onGrid? (significand : Nat) (exponent scale : Int) : Option Decimal :=
  let floor := floorAt significand exponent scale
  let lower : Decimal := ⟨floor, scale⟩
  let upper : Decimal := ⟨floor + 1, scale⟩
  let lowerFits := roundsTo significand exponent lower
  let upperFits := roundsTo significand exponent upper
  if lowerFits && upperFits then
    match compareScaled (2 * floor + 1) scale (2 * significand) exponent with
    | .gt => some lower
    | _ => some upper
  else if lowerFits then some lower
  else if upperFits then some upper
  else none

/-- A decimal number without zeros at the end of its digits; at most `n` of them are removed. -/
def stripZeros : (n : Nat) → Decimal → Decimal
  | 0, value => value
  | n + 1, value =>
    if value.digits ≠ 0 ∧ value.digits % 10 = 0 then
      stripZeros n ⟨value.digits / 10, value.exponent + 1⟩
    else value

/-- The number of digits before the point of a positive value, negative for zeros after it. -/
def pointPlace (significand : Nat) (exponent : Int) : Int :=
  let estimate : Int := ((significand.log2 : Int) + exponent) * 30103 / 100000
  if compareScaled 1 (estimate + 1) significand exponent == .gt then
    if compareScaled 1 estimate significand exponent == .gt then estimate else estimate + 1
  else if compareScaled 1 (estimate + 2) significand exponent == .gt then estimate + 2
  else estimate + 3

/-- The shortest decimal number that rounds to a positive value, the nearest one of these. -/
def shortest (significand : Nat) (exponent : Int) : Decimal :=
  let place := pointPlace significand exponent
  let found := (List.range 17).findSome? fun (n : Nat) =>
    onGrid? significand exponent (place - (n : Int) - 1)
  match found with
  | some value => stripZeros 20 value
  | none =>
    let (up, _) := power 2 exponent
    ⟨significand * up, 0⟩

/-! ## Layout -/

/-- Digits with a point after the first `place` of them, zeros being added where digits lack, and at
least one digit on each side. -/
def positional (digits : Text) (place : Int) : Text :=
  if place ≤ 0 then "0." ++ List.replicate (-place).toNat '0' ++ digits
  else if digits.length ≤ place.toNat then
    digits ++ List.replicate (place.toNat - digits.length) '0' ++ ".0"
  else digits.take place.toNat ++ "." ++ digits.drop place.toNat

/-- Digits with a point after the first one, and the exponent that makes up for it. -/
def scientific (digits : Text) (exponent : Int) : Text :=
  let sign : Text := if exponent < 0 then ['-'] else []
  let fraction : Text := if digits.length ≤ 1 then [] else '.' :: digits.drop 1
  digits.take 1 ++ fraction ++ "e" ++ sign ++ Text.decimal exponent.natAbs

/-- The text of a number: its fewest digits, written positionally from 0.0001 up to below 10^16 and
with an exponent otherwise. -/
def text : Binary64 → Text
  | nan => "NaN"
  | infinity negative => if negative then "-inf" else "inf"
  | finite negative significand exponent =>
    let sign : Text := if negative then ['-'] else []
    if significand = 0 then sign ++ "0.0"
    else
      let value := shortest significand exponent
      let digits := Text.decimal value.digits
      let place := (digits.length : Int) + value.exponent
      if place < -3 ∨ 16 < place then sign ++ scientific digits (place - 1)
      else sign ++ positional digits place

end Binary64

end ComponentLoader
