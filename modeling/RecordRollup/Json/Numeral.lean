import RecordRollup.Json.Reader

/-!
JSON numbers, read for the sake of whole numbers: all others are read only to see that they are
well formed and not too large for a double-precision number.
-/

namespace RecordRollup.Json

structure Numeral where
  negative : Bool
  whole : List Char
  fraction : Option (List Char)
  exponent : Option (Bool × List Char)

def digitValue (digit : Char) : Nat :=
  digit.toNat - 48

/-- The digits that fit into 64 bits as a number, and how many were left over. -/
def significandOf (digits : List Char) : Nat × Nat :=
  digits.foldl (fun (significand, dropped) digit =>
    let longer := significand * 10 + digitValue digit
    if 0 < dropped || UInt64.size ≤ longer then (significand, dropped + 1) else (longer, 0)) (0, 0)

/-- A significand with further digits as long as they fit into 64 bits, and how many did. -/
def extendSignificand (significand : Nat) : List Char → Nat × Nat
  | [] => (significand, 0)
  | digit :: digits =>
      let longer := significand * 10 + digitValue digit
      if UInt64.size ≤ longer then (significand, 0)
      else
        let (significand, kept) := extendSignificand longer digits
        (significand, kept + 1)

/-- A whole number rounded to 53 binary digits, where a half goes to the even neighbour. -/
def roundTo53 (number : Nat) : Nat :=
  let unit := Nat.pow 2 (number.log2 + 1 - 53)
  let below := number / unit
  let remainder := number % unit
  if 2 * remainder < unit || (2 * remainder = unit && below % 2 = 0) then below * unit
  else (below + 1) * unit

/-- Whether the product of a rounded significand and a rounded power of ten is too large for a
double-precision number. -/
def isTooLarge (significand : Nat) (exponent : Int) : Bool :=
  0 < significand && 0 ≤ exponent &&
    (308 < exponent ||
      Nat.pow 2 1024 - Nat.pow 2 970 ≤
        roundTo53 significand * roundTo53 (Nat.pow 10 exponent.toNat))

namespace Numeral

def exponentValue (numeral : Numeral) : Int :=
  match numeral.exponent with
  | none => 0
  | some (negative, digits) =>
      let magnitude : Int := digits.foldl (fun value digit => value * 10 + digitValue digit) 0
      if negative then -magnitude else magnitude

/-- The whole number that a number is written as, if it is. A negative zero is none, and neither is
what takes more than 64 bits. -/
def toInt? (numeral : Numeral) : Option Int :=
  let (significand, dropped) := significandOf numeral.whole
  if numeral.fraction.isSome || numeral.exponent.isSome || 0 < dropped then none
  else if numeral.negative then if significand = 0 then none else some (-significand)
  else some significand

def isOutOfRange (numeral : Numeral) : Bool :=
  let (whole, dropped) := significandOf numeral.whole
  let (significand, kept) := extendSignificand whole (numeral.fraction.getD [])
  numeral.toInt?.isNone && isTooLarge significand (dropped - kept + numeral.exponentValue)

end Numeral

namespace Reader

def wholeDigits (atEnd : JsonFault) : Reader (List Char) := do
  match ← peek with
  | none => throw atEnd
  | some first =>
      let read ← digits
      if !first.isDigit || (first = '0' && 1 < read.length) then throw .malformed
      return read

def someDigits (atEnd : JsonFault) : Reader (List Char) := do
  let read ← digits
  if read.isEmpty then
    throw (if (← peek).isNone then atEnd else .malformed)
  return read

/-- Reads a number; `atEnd` is the fault of one that ends too early. -/
def numeral (atEnd : JsonFault) : Reader Numeral := do
  let negative := (← accept (· = '-')).isSome
  let whole ← wholeDigits atEnd
  let mut fraction := none
  if (← accept (· = '.')).isSome then
    fraction := some (← someDigits atEnd)
  let mut exponent := none
  if (← accept fun character => character = 'e' || character = 'E').isSome then
    let sign ← accept fun character => character = '+' || character = '-'
    exponent := some (sign == some '-', ← someDigits atEnd)
  return ⟨negative, whole, fraction, exponent⟩

/-- Reads a number that is looked at. -/
def checkedNumeral : Reader Numeral := do
  let read ← numeral .unfinished
  if read.isOutOfRange then throw .malformed
  return read

end Reader

end RecordRollup.Json
