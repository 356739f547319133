namespace RecordRollup

/-- A byte string. Its order is the lexicographic one on unsigned bytes, with a proper initial
part first, as `compare` has it on lists. -/
abbrev Bytes := List UInt8

namespace Bytes

/-- The part of `bytes` that begins at `start` and has `length` bytes, if `bytes` has it all. -/
def slice? (bytes : Bytes) (start length : Nat) : Option Bytes :=
  if start + length ≤ bytes.length then some ((bytes.drop start).take length) else none

theorem slice?_append (before middle after : Bytes) :
    slice? (before ++ middle ++ after) before.length middle.length = some middle := by
  simp [slice?, List.append_assoc]

def hexPair (byte : UInt8) : String :=
  String.ofList [Nat.digitChar (byte.toNat / 16), Nat.digitChar (byte.toNat % 16)]

/-- A list of hexadecimal pairs in brackets, as in `[00, 0a, ff]`. -/
def bracketed (bytes : Bytes) : String :=
  "[" ++ ", ".intercalate (bytes.map hexPair) ++ "]"

end Bytes

end RecordRollup
