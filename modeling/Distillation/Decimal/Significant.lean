namespace Distillation.Decimal

/-- A finite word stands for `mantissa * 2 ^ exponent`, with its sign kept apart so that the two
zeros differ. -/
inductive Binary where
  | notANumber
  | infinite (negative : Bool)
  | finite (negative : Bool) (mantissa : Nat) (exponent : Int)
  deriving DecidableEq, Repr

namespace Binary

/-- The exponent of the smallest positive double. -/
def leastExponent : Int := -1074

/-- The mantissa at which the spacing of doubles halves downwards. -/
def hiddenBit : Nat := 1 <<< 52

/-- Reads the fields of a word: one sign bit, eleven of exponent, fifty-two of fraction. -/
def ofBits (word : Nat) : Binary :=
  let negative := decide (word >>> 63 % 2 = 1)
  let exponent : Nat := word >>> 52 % 2048
  let fraction := word % hiddenBit
  if exponent = 2047 then
    if fraction = 0 then infinite negative else notANumber
  else if exponent = 0 then
    finite negative fraction leastExponent
  else
    finite negative (hiddenBit + fraction) ((exponent : Int) - 1075)

def ofFloat (x : Float) : Binary :=
  ofBits x.toBits.toNat

end Binary

/-- The positive number `digits * 10 ^ exponent`. -/
structure Digits where
  digits : Nat
  exponent : Int
  deriving DecidableEq, Repr

/-- Ten to an exponent; one where that is negative. -/
def powerOfTen (exponent : Int) : Nat :=
  Nat.pow 10 exponent.toNat

/-- A positive double and the reals that round to it, over one denominator. The ends belong to the
interval iff the mantissa is even. -/
structure Interval where
  low : Nat
  value : Nat
  high : Nat
  denominator : Nat
  closed : Bool

/-- The gap below a double is half the gap above it where its mantissa is the least with its bit
length. -/
def Interval.around (mantissa : Nat) (exponent : Int) : Interval :=
  let below :=
    if mantissa = Binary.hiddenBit ∧ exponent ≠ Binary.leastExponent then 1 else 2
  let scale := 1 <<< (exponent - 2).toNat
  { low := (4 * mantissa - below) * scale
    value := 4 * mantissa * scale
    high := (4 * mantissa + 2) * scale
    denominator := 1 <<< (2 - exponent).toNat
    closed := mantissa % 2 = 0 }

/-- Whether the interval holds the decimal. -/
def Interval.holds (range : Interval) (d : Digits) : Bool :=
  let numerator := d.digits * powerOfTen d.exponent * range.denominator
  let unit := powerOfTen (-d.exponent)
  let low := range.low * unit
  let high := range.high * unit
  if range.closed then low ≤ numerator ∧ numerator ≤ high
  else low < numerator ∧ numerator < high

/-- The decimal just below or at a fraction among the multiples of `10 ^ exponent`. -/
def floorAt (numerator denominator : Nat) (exponent : Int) : Digits :=
  ⟨numerator * powerOfTen (-exponent) / (denominator * powerOfTen exponent), exponent⟩

/-- Counts up from `start` to the first exponent whose power of ten exceeds the fraction. -/
def powerAbove (numerator denominator : Nat) : Nat → Int → Int
  | 0, start => start
  | fuel + 1, start =>
    if numerator * powerOfTen (-start) < denominator * powerOfTen start then start
    else powerAbove numerator denominator fuel (start + 1)

/-- The number of digits that a fraction has before its point; negative where zeros follow it. -/
def magnitude (numerator denominator : Nat) : Int :=
  let bits : Int := numerator.log2 - denominator.log2
  powerAbove numerator denominator 4 ((bits - 1) * 30103 / 100000 - 1)

/-- Of the two decimals around the value the nearer that reads back; of two equally near the
larger. -/
def Interval.nearest? (range : Interval) (exponent : Int) : Option Digits :=
  let below := floorAt range.value range.denominator exponent
  let above : Digits := { below with digits := below.digits + 1 }
  match range.holds below, range.holds above with
  | false, false => none
  | true, false => some below
  | false, true => some above
  | true, true =>
    let twice := (2 * below.digits + 1) * range.denominator * powerOfTen exponent
    if 2 * range.value * powerOfTen (-exponent) < twice then some below else some above

/-- Drops final zeros, at most `fuel` of them. -/
def Digits.strip : Nat → Digits → Digits
  | 0, d => d
  | fuel + 1, d =>
    if d.digits % 10 = 0 then Digits.strip fuel ⟨d.digits / 10, d.exponent + 1⟩ else d

/-- Tries `count`, `count + 1`, … digits. -/
def Interval.search (range : Interval) (size : Int) : Nat → Nat → Digits
  | 0, count => floorAt range.value range.denominator (size - count)
  | fuel + 1, count => (range.nearest? (size - count)).getD (range.search size fuel (count + 1))

/-- The fewest digits that read back as `mantissa * 2 ^ exponent`, and of those the nearest.
Seventeen always do. -/
def shortest (mantissa : Nat) (exponent : Int) : Digits :=
  let range := Interval.around mantissa exponent
  (range.search (magnitude range.value range.denominator) 17 1).strip 18

/-- The whole number nearest to a fraction, ties to even. -/
def roundEven (numerator denominator : Nat) : Nat :=
  let q := numerator / denominator
  let r := 2 * (numerator % denominator)
  if denominator < r ∨ (r = denominator ∧ q % 2 = 1) then q + 1 else q

/-- The decimal with `count` digits nearest to `mantissa * 2 ^ exponent`. -/
def roundTo (count mantissa : Nat) (exponent : Int) : Digits :=
  let numerator := mantissa <<< exponent.toNat
  let denominator := 1 <<< (-exponent).toNat
  let unit := magnitude numerator denominator - count
  ⟨roundEven (numerator * powerOfTen (-unit)) (denominator * powerOfTen unit), unit⟩

/-- The double nearest to a decimal. -/
def Digits.toFloat (d : Digits) : Float :=
  Float.ofScientific d.digits (decide (d.exponent < 0)) d.exponent.natAbs

/-- A double rounded to `count` significant digits of its exact value. -/
def significant (count : Nat) (x : Float) : Float :=
  match Binary.ofFloat x with
  | .finite negative mantissa exponent =>
    if mantissa = 0 then x
    else
      let y := (roundTo count mantissa exponent).toFloat
      if negative then -y else y
  | _ => x

end Distillation.Decimal
