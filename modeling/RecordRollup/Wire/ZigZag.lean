import RecordRollup.Wire.Varint

/-!
Signed numbers folded onto unsigned ones, so that a small magnitude of either sign becomes a small
number: `0, -1, 1, -2, 2` become `0, 1, 2, 3, 4`.
-/

namespace RecordRollup.ZigZag

variable {width : Nat}

/-- Shifts the sign bit to the right end, and flips the other bits of a negative number. -/
def encode (number : BitVec width) : BitVec width :=
  (number <<< 1) ^^^ number.sshiftRight (width - 1)

def decode (folded : BitVec width) : BitVec width :=
  (folded >>> 1) ^^^ -(folded &&& 1)

def write (number : BitVec width) : Bytes :=
  Varint.encode (encode number).toNat

def read (width : Nat) (bytes : Bytes) : Except ReadFault (BitVec width × Nat) :=
  (Varint.read width bytes).map fun (folded, used) => (decode (BitVec.ofNat width folded), used)

def readAt (width : Nat) : Bytes → Nat → Except Error (BitVec width × Nat) :=
  Wire.readAt (read width)

end RecordRollup.ZigZag
