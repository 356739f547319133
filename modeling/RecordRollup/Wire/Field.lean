import RecordRollup.Wire.Fixed
import RecordRollup.Wire.Span
import RecordRollup.Wire.ZigZag

/-!
The bytes of one field. Every type has a natural form, which shows where it ends. A payload is the
form in which a comparator of a caller's own gets a field: the content alone for texts and byte
strings, and the natural form for the other types.
-/

namespace RecordRollup.Wire

def encodePayload : FieldType → Value → Except EncodeFault Bytes
  | type, .null => .error (.null type)
  | .int32, .int number => .ok (Fixed.encode 4 number.toBitVec.toNat)
  | .int64, .long number => .ok (Fixed.encode 8 number.toBitVec.toNat)
  | .varInt32, .int number => .ok (ZigZag.write number.toBitVec)
  | .varInt64, .long number => .ok (ZigZag.write number.toBitVec)
  | .float32, .float bits => .ok (Fixed.encode 4 bits.toNat)
  | .float64, .double bits => .ok (Fixed.encode 8 bits.toNat)
  | .boolean, .bool truth => .ok [if truth then 1 else 0]
  | .enum, .enum ordinal => .ok (Varint.encode ordinal.toNat)
  | .string, .string text => .ok (Utf8.encode text)
  | .bytes, .bytes content => .ok content
  | type, value => .error (.mismatch value.kind type)

def encode (type : FieldType) (value : Value) : Except EncodeFault Bytes :=
  (encodePayload type value).map fun payload =>
    if type.isBinary then Span.encode payload else payload

def encodeFramed (type : FieldType) (value : Value) : Except EncodeFault Bytes :=
  (encodePayload type value).map Span.encode

def contentValue (type : FieldType) (content : Bytes) : Except ReadFault Value :=
  if type = .string then
    match Utf8.decode content with
    | .ok text => .ok (.string text)
    | .error fault => .error (.notText fault)
  else .ok (.bytes content)

def readBoolean (bytes : Bytes) : Except ReadFault (Value × Nat) :=
  match Fixed.read 1 bytes with
  | .error fault => .error fault
  | .ok (0, used) => .ok (.bool false, used)
  | .ok (1, used) => .ok (.bool true, used)
  | .ok (byte, _) => .error (.notBoolean (UInt8.ofNat byte))

/-- Reads a value in natural form and tells how many bytes it took. -/
def read (type : FieldType) (bytes : Bytes) : Except ReadFault (Value × Nat) :=
  match type with
  | .int32 => (Fixed.read 4 bytes).map fun (word, used) => (.int (.ofBitVec (.ofNat 32 word)), used)
  | .int64 => (Fixed.read 8 bytes).map fun (word, used) => (.long (.ofBitVec (.ofNat 64 word)), used)
  | .varInt32 => (ZigZag.read 32 bytes).map fun (word, used) => (.int (.ofBitVec word), used)
  | .varInt64 => (ZigZag.read 64 bytes).map fun (word, used) => (.long (.ofBitVec word), used)
  | .float32 => (Fixed.read 4 bytes).map fun (word, used) => (.float (.ofNat word), used)
  | .float64 => (Fixed.read 8 bytes).map fun (word, used) => (.double (.ofNat word), used)
  | .boolean => readBoolean bytes
  | .enum => (Varint.read 32 bytes).map fun (word, used) => (.enum (.ofNat word), used)
  | .string | .bytes =>
      match Span.read bytes with
      | .error fault => .error fault
      | .ok (content, used) => (contentValue type content).map fun value => (value, used)

def decodeAt (type : FieldType) : Bytes → Nat → Except Error (Value × Nat) :=
  readAt (read type)

/-- The value of a payload, which has to take all of its bytes. -/
def decodePayload (type : FieldType) (payload : Bytes) : Except Error Value :=
  if type.isBinary then readAt (contentValue type) payload 0
  else
    match decodeAt type payload 0 with
    | .error error => .error error
    | .ok (value, used) =>
        if used = payload.length then .ok value
        else .error (.decoding (.trailingPayload type payload.length (payload.length - used)))

/-- Reads what the natural order looks at in a natural form, without building the value: any byte
passes for a truth value here, and any content for a text. -/
def readKey (type : FieldType) (bytes : Bytes) : Except ReadFault (Value.Key × Nat) :=
  match type with
  | .int32 =>
      (Fixed.read 4 bytes).map fun (word, used) => (⟨2, (BitVec.ofNat 32 word).toInt, []⟩, used)
  | .int64 =>
      (Fixed.read 8 bytes).map fun (word, used) => (⟨3, (BitVec.ofNat 64 word).toInt, []⟩, used)
  | .varInt32 => (ZigZag.read 32 bytes).map fun (word, used) => (⟨2, word.toInt, []⟩, used)
  | .varInt64 => (ZigZag.read 64 bytes).map fun (word, used) => (⟨3, word.toInt, []⟩, used)
  | .float32 =>
      (Fixed.read 4 bytes).map fun (word, used) => (⟨4, FloatFormat.single.rank word, []⟩, used)
  | .float64 =>
      (Fixed.read 8 bytes).map fun (word, used) => (⟨5, FloatFormat.double.rank word, []⟩, used)
  | .boolean => (Fixed.read 1 bytes).map fun (word, used) => (⟨1, word, []⟩, used)
  | .enum => (Varint.read 32 bytes).map fun (word, used) => (⟨6, word, []⟩, used)
  | .string | .bytes => (Span.read bytes).map fun (content, used) => (⟨7, 0, content⟩, used)

def keyAt (type : FieldType) : Bytes → Nat → Except Error (Value.Key × Nat) :=
  readAt (readKey type)

def compareAt (type : FieldType) (left : Bytes) (leftPosition : Nat) (right : Bytes)
    (rightPosition : Nat) : Except Error (Ordering × Nat × Nat) := do
  let (leftKey, leftUsed) ← keyAt type left leftPosition
  let (rightKey, rightUsed) ← keyAt type right rightPosition
  return (compare leftKey rightKey, leftUsed, rightUsed)

end RecordRollup.Wire
