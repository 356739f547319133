import RecordRollup.Wire.ReadAt

/-!
Numbers in a fixed number of bytes, most significant byte first.
-/

namespace RecordRollup.Fixed

/-- The last `width` bytes of a number. -/
def encode : (width value : Nat) → Bytes
  | 0, _ => []
  | width + 1, value => encode width (value / 256) ++ [UInt8.ofNat value]

@[simp] theorem encode_length (width value : Nat) : (encode width value).length = width := by
  induction width generalizing value with
  | zero => rfl
  | succ width ih => simp [encode, ih]

def value (bytes : Bytes) : Nat :=
  bytes.foldl (fun number byte => number * 256 + byte.toNat) 0

theorem value_encode (width number : Nat) :
    value (encode width number) = number % Nat.pow 256 width := by
  induction width generalizing number with
  | zero => simp [encode, value, Nat.mod_one]
  | succ width ih =>
      have step : value (encode (width + 1) number) =
          value (encode width (number / 256)) * 256 + number % 256 := by
        simp [encode, value, List.foldl_append]
      have power : Nat.pow 256 (width + 1) = 256 * Nat.pow 256 width := Nat.mul_comm _ _
      rw [step, ih, power, Nat.mod_mul, Nat.mul_comm, Nat.add_comm]

def read (width : Nat) (bytes : Bytes) : Except ReadFault (Nat × Nat) :=
  if width ≤ bytes.length then .ok (value (bytes.take width), width)
  else .error (.tooFewBytes width)

def readAt (width : Nat) : Bytes → Nat → Except Error (Nat × Nat) :=
  Wire.readAt (read width)

end RecordRollup.Fixed
