/-!
The shortest decimal that reads back to a given binary number, found in exact arithmetic.
-/

namespace RecordRollup.Decimal

/-- A binary number `mantissa · 2 ^ exponent` among its neighbours. The numbers that round to it lie
between the midpoints to the two neighbours; the one below is half as far away as the one above
where `closeBelow` holds. -/
structure Binary where
  mantissa : Nat
  exponent : Int
  closeBelow : Bool

namespace Binary

/-- Whether `digit · 10 ^ place` rounds to the number. Midpoints round to the even mantissa. Both
sides are counted in quarters of the binary unit and brought to whole numbers. -/
def reads (number : Binary) (place : Int) (digits : Nat) : Bool :=
  let decimal := digits * Nat.pow 10 place.toNat * Nat.pow 2 (2 - number.exponent).toNat
  let scale := Nat.pow 10 (-place).toNat * Nat.pow 2 (number.exponent - 2).toNat
  let low := (4 * number.mantissa - if number.closeBelow then 1 else 2) * scale
  let high := (4 * number.mantissa + 2) * scale
  if number.mantissa % 2 = 0 then low ≤ decimal && decimal ≤ high
  else low < decimal && decimal < high

/-- The multiple of `10 ^ place` that is nearest to the number among those of its two neighbours
there that read back; of two equally near ones the larger. -/
def nearestReading? (number : Binary) (place : Int) : Option Nat :=
  let value :=
    4 * number.mantissa * Nat.pow 2 (number.exponent - 2).toNat * Nat.pow 10 (-place).toNat
  let step := Nat.pow 10 place.toNat * Nat.pow 2 (2 - number.exponent).toNat
  let below := value / step
  match number.reads place below, number.reads place (below + 1) with
  | true, true => some (if 2 * (value % step) < step then below else below + 1)
  | true, false => some below
  | false, true => some (below + 1)
  | false, false => none

/-- A power of ten, by its exponent, above the number and at most a hundredfold away. -/
def topPlace (number : Binary) : Int :=
  (number.exponent + (Nat.log2 number.mantissa + 1 : Nat)) * 30103 / 100000 + 1

/-- The digits and the place of the last of them, for the coarsest decimal grid that holds a number
reading back. Seventeen digits are enough for every number of at most 53 binary digits. -/
def shortest (number : Binary) : Nat × Int :=
  let places := (List.range 20).map fun (offset : Nat) => number.topPlace - offset
  (places.findSome? fun place => (number.nearestReading? place).map (·, place)).getD
    (number.mantissa, number.exponent)

end Binary

/-- The number `digits · 10 ^ place` written without an exponent: no point in a whole number, and
no zeros after the last digit of a fraction. -/
def positional (digits : Nat) (place : Int) : String :=
  let text := Nat.toDigits 10 digits
  if 0 ≤ place then String.ofList (text ++ List.replicate place.toNat '0')
  else
    let places := (-place).toNat
    let padded := List.replicate (places + 1 - text.length) '0' ++ text
    let whole := padded.length - places
    String.ofList (padded.take whole ++ '.' :: padded.drop whole)

end RecordRollup.Decimal
