import RecordRollup.Wire.ReadAt

/-!
Natural numbers in groups of seven bits, least significant first; the high bit of a byte says that
another group follows.
-/

namespace RecordRollup.Varint

def encode (value : Nat) : Bytes :=
  if value < 128 then [UInt8.ofNat value]
  else UInt8.ofNat (value % 128 + 128) :: encode (value / 128)
termination_by value

/-- The number of bytes of an encoding, from the number of bits: one for each seven begun. -/
def encodedLength (value : Nat) : Nat :=
  Nat.log2 value / 7 + 1

/-- Reads a number of at most `bits` bits and tells how many bytes it took. Groups without a bit to
spare are refused even if they are zero, and so are bits that lie beyond the last one. -/
def read (bits : Nat) : Bytes → Except ReadFault (Nat × Nat)
  | [] => .error .varintEnds
  | byte :: rest =>
      let group := byte.toNat % 128
      if bits = 0 ∨ Nat.pow 2 bits ≤ group then .error .varintTooLarge
      else if byte.toNat < 128 then .ok (group, 1)
      else (read (bits - 7) rest).map fun (high, used) => (group + 128 * high, used + 1)

def readAt (bits : Nat) : Bytes → Nat → Except Error (Nat × Nat) :=
  Wire.readAt (read bits)

end RecordRollup.Varint
