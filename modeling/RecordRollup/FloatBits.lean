import RecordRollup.Decimal.Shortest

/-!
Binary floating-point numbers given by their bits: their total order, their equality as numbers, and
their text. Numbers are never computed with, so that every bit pattern is kept as it is.
-/

namespace RecordRollup

/-- A binary floating-point format: a sign bit, then the exponent, then the fraction. -/
structure FloatFormat where
  exponentBits : Nat
  fractionBits : Nat

namespace FloatFormat

def single : FloatFormat := ⟨8, 23⟩

def double : FloatFormat := ⟨11, 52⟩

variable (format : FloatFormat)

def magnitude (bits : Nat) : Nat :=
  bits % Nat.pow 2 (format.exponentBits + format.fractionBits)

def isNegative (bits : Nat) : Bool :=
  Nat.pow 2 (format.exponentBits + format.fractionBits) ≤ bits

/-- The magnitude of infinity; larger ones are not numbers. -/
def infinity : Nat :=
  (Nat.pow 2 format.exponentBits - 1) * Nat.pow 2 format.fractionBits

def isNaN (bits : Nat) : Bool :=
  format.infinity < format.magnitude bits

/-- The place of a bit pattern in the total order: negative numbers by falling magnitude, then the
positive ones by rising magnitude, so that `-0` comes just before `0` and the patterns that are no
numbers stand at both ends. -/
def rank (bits : Nat) : Int :=
  if format.isNegative bits then -1 - (format.magnitude bits : Int) else format.magnitude bits

/-- Equality as numbers: `0` equals `-0`, and what is no number equals nothing. -/
def sameNumber (left right : Nat) : Bool :=
  !format.isNaN left && !format.isNaN right &&
    (left == right || (format.magnitude left == 0 && format.magnitude right == 0))

def toBinary (magnitude : Nat) : Decimal.Binary :=
  let unit := Nat.pow 2 format.fractionBits
  let field := magnitude / unit
  let fraction := magnitude % unit
  let bias := Nat.pow 2 (format.exponentBits - 1) - 1
  { mantissa := if field = 0 then fraction else fraction + unit
    exponent := Int.subNatNat (max field 1) (bias + format.fractionBits)
    closeBelow := fraction = 0 && 1 < field }

/-- The shortest digits that read back to the same number of the format, never with an exponent. -/
def text (bits : Nat) : String :=
  let magnitude := format.magnitude bits
  if format.isNaN bits then "NaN"
  else
    let unsigned :=
      if magnitude = format.infinity then "inf"
      else if magnitude = 0 then "0"
      else
        let (digits, place) := (format.toBinary magnitude).shortest
        Decimal.positional digits place
    if format.isNegative bits then "-" ++ unsigned else unsigned

end FloatFormat

end RecordRollup
