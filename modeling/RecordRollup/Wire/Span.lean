import RecordRollup.Wire.Varint

namespace RecordRollup.Span

def encode (payload : Bytes) : Bytes :=
  Varint.encode payload.length ++ payload

def read (bytes : Bytes) : Except ReadFault (Bytes × Nat) :=
  match Varint.read 64 bytes with
  | .error fault => .error fault
  | .ok (length, header) =>
      if header + length ≤ bytes.length then
        .ok ((bytes.drop header).take length, header + length)
      else .error (.spanOverruns length header)

def readAt : Bytes → Nat → Except Error (Bytes × Nat) :=
  Wire.readAt read

end RecordRollup.Span
