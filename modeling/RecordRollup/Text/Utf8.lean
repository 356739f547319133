import RecordRollup.Bytes

/-!
UTF-8 text in byte strings. A byte string that is not UTF-8 is described by the place of its first
broken sequence and by how much of that sequence was good.
-/

namespace RecordRollup.Utf8

/-- Where a byte string stops being UTF-8. -/
inductive Fault
  /-- The sequence at `index` cannot go on after `length` bytes. -/
  | broken (length index : Nat)
  /-- The bytes end inside the sequence that starts at `index`. -/
  | incomplete (index : Nat)
deriving DecidableEq, Repr

def Fault.message : Fault → String
  | .broken length index => s!"invalid utf-8 sequence of {length} bytes from index {index}"
  | .incomplete index => s!"incomplete utf-8 byte sequence from index {index}"

def encode (text : String) : Bytes :=
  text.toByteArray.data.toList

def decode? (bytes : Bytes) : Option String :=
  String.fromUTF8? ⟨bytes.toArray⟩

theorem decode?_encode (text : String) : decode? (encode text) = some text := by
  have bytes_eq : (⟨(encode text).toArray⟩ : ByteArray) = text.toByteArray := by simp [encode]
  rw [decode?, bytes_eq, String.fromUTF8?, dif_pos text.isValidUTF8]
  rfl

theorem encode_of_decode? {bytes : Bytes} {text : String} (h : decode? bytes = some text) :
    encode text = bytes := by
  simp only [decode?, String.fromUTF8?] at h
  split at h
  · cases h
    rfl
  · cases h

/-- The bounds of the bytes that have to follow a first byte; none if no sequence starts with it.
Only the second byte is bounded more tightly than `80` to `bf`: this keeps out longer spellings
of shorter sequences, surrogates, and code points above `10ffff`. -/
def tailBounds (first : UInt8) : Option (List (UInt8 × UInt8)) :=
  if first < 0x80 then some []
  else if first < 0xc2 then none
  else if first < 0xe0 then some [(0x80, 0xbf)]
  else if first = 0xe0 then some [(0xa0, 0xbf), (0x80, 0xbf)]
  else if first = 0xed then some [(0x80, 0x9f), (0x80, 0xbf)]
  else if first < 0xf0 then some [(0x80, 0xbf), (0x80, 0xbf)]
  else if first = 0xf0 then some [(0x90, 0xbf), (0x80, 0xbf), (0x80, 0xbf)]
  else if first < 0xf4 then some [(0x80, 0xbf), (0x80, 0xbf), (0x80, 0xbf)]
  else if first = 0xf4 then some [(0x80, 0x8f), (0x80, 0xbf), (0x80, 0xbf)]
  else none

/-- What is wrong with the bytes after a first byte at `index`, of whose sequence `length` bytes
are already accepted. -/
def tailFault? (index : Nat) : (length : Nat) → List (UInt8 × UInt8) → Bytes → Option Fault
  | _, [], _ => none
  | _, _ :: _, [] => some (.incomplete index)
  | length, (low, high) :: bounds, byte :: rest =>
      if low ≤ byte ∧ byte ≤ high then tailFault? index (length + 1) bounds rest
      else some (.broken length index)

/-- The first fault from `index` on; `skip` bytes there belong to a sequence already accepted. -/
def faultFrom : (index skip : Nat) → Bytes → Fault
  | index, _, [] => .incomplete index
  | index, skip + 1, _ :: rest => faultFrom (index + 1) skip rest
  | index, 0, first :: rest =>
      match tailBounds first with
      | none => .broken 1 index
      | some bounds =>
          match tailFault? index 1 bounds rest with
          | some fault => fault
          | none => faultFrom (index + 1) bounds.length rest

def decode (bytes : Bytes) : Except Fault String :=
  match decode? bytes with
  | some text => .ok text
  | none => .error (faultFrom 0 0 bytes)

theorem decode_encode (text : String) : decode (encode text) = .ok text := by
  simp [decode, decode?_encode]

theorem encode_of_decode {bytes : Bytes} {text : String} (h : decode bytes = .ok text) :
    encode text = bytes := by
  simp only [decode] at h
  split at h
  · next found => cases h; exact encode_of_decode? found
  · cases h

end RecordRollup.Utf8
