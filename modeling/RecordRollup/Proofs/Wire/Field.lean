import Mathlib
import RecordRollup.Proofs.Wire.ZigZag
import RecordRollup.Wire.Field

namespace RecordRollup

namespace Fixed

theorem read_encode {width number : Nat} (hnumber : number < 2 ^ (8 * width)) (rest : Bytes) :
    read width (encode width number ++ rest) = .ok (number, width) := by
  have htake : (encode width number ++ rest).take width = encode width number :=
    List.take_left' (encode_length width number)
  have hpower : Nat.pow 256 width = 2 ^ (8 * width) := by
    rw [Nat.pow_mul]
    rfl
  rw [read, if_pos (by simp), htake, value_encode, hpower, Nat.mod_eq_of_lt hnumber]

theorem foldl_lt (bytes : Bytes) (start : Nat) :
    bytes.foldl (fun number byte => number * 256 + byte.toNat) start <
      (start + 1) * 2 ^ (8 * bytes.length) := by
  induction bytes generalizing start with
  | nil => simp
  | cons byte rest ih =>
      have hbyte := byte.toNat_lt
      calc
        _ < (start * 256 + byte.toNat + 1) * 2 ^ (8 * rest.length) := ih _
        _ ≤ ((start + 1) * 256) * 2 ^ (8 * rest.length) :=
          Nat.mul_le_mul_right _ (by omega)
        _ = (start + 1) * 2 ^ (8 * (byte :: rest).length) := by
          rw [List.length_cons, Nat.mul_add, Nat.pow_add]
          ring

theorem value_lt (bytes : Bytes) : value bytes < 2 ^ (8 * bytes.length) := by
  simpa [value] using foldl_lt bytes 0

theorem lt_of_read {width : Nat} {bytes : Bytes} {number used : Nat}
    (hread : read width bytes = .ok (number, used)) : number < 2 ^ (8 * width) := by
  simp only [read] at hread
  split at hread
  · next hwidth =>
      cases hread
      simpa [List.length_take, Nat.min_eq_left hwidth] using value_lt (bytes.take width)
  · cases hread

end Fixed

namespace Span

theorem read_encode {payload : Bytes} (hsize : payload.length < 2 ^ 64) (rest : Bytes) :
    read (encode payload ++ rest) = .ok (payload, (encode payload).length) := by
  rw [read, encode, List.append_assoc, Varint.read_encode (by omega) hsize]
  simp

theorem length_le_encode (payload : Bytes) : payload.length ≤ (encode payload).length := by
  simp [encode]

end Span

namespace Wire

theorem read_encodePayload {type : FieldType} {value : Value} {payload : Bytes}
    (hnatural : type.isBinary = false) (hpayload : encodePayload type value = .ok payload)
    (rest : Bytes) :
    read type (payload ++ rest) = .ok (value, payload.length) := by
  cases type <;> cases value <;> cases hpayload
  case int32.int number =>
    have hbound : number.toBitVec.toNat < 2 ^ (8 * 4) := number.toBitVec.isLt
    simp [read, Fixed.read_encode hbound, Except.map]
  case int64.long number =>
    have hbound : number.toBitVec.toNat < 2 ^ (8 * 8) := number.toBitVec.isLt
    simp [read, Fixed.read_encode hbound, Except.map]
  case varInt32.int number => simp [read, ZigZag.read_write, Except.map]
  case varInt64.long number => simp [read, ZigZag.read_write, Except.map]
  case float32.float bits =>
    have hbound : bits.toNat < 2 ^ (8 * 4) := bits.toNat_lt
    simp [read, Fixed.read_encode hbound, Except.map]
  case float64.double bits =>
    have hbound : bits.toNat < 2 ^ (8 * 8) := bits.toNat_lt
    simp [read, Fixed.read_encode hbound, Except.map]
  case boolean.bool truth => cases truth <;> rfl
  case enum.enum ordinal =>
    simp [read, Varint.read_encode (Nat.zero_lt_succ 31) ordinal.toNat_lt, Except.map]
  all_goals cases hnatural

theorem contentValue_encodePayload {type : FieldType} {value : Value} {payload : Bytes}
    (hbinary : type.isBinary = true) (hpayload : encodePayload type value = .ok payload) :
    contentValue type payload = .ok value := by
  cases type <;> cases value <;> cases hpayload
  case string.string text => simp [contentValue, Utf8.decode_encode]
  case bytes.bytes => rfl
  all_goals cases hbinary

theorem read_of_isBinary {type : FieldType} (hbinary : type.isBinary = true) (bytes : Bytes) :
    read type bytes =
      match Span.read bytes with
      | .error fault => .error fault
      | .ok (content, used) => (contentValue type content).map fun value => (value, used) := by
  cases type <;> first | rfl | cases hbinary

theorem read_encode {type : FieldType} {value : Value} {bytes : Bytes}
    (hbytes : encode type value = .ok bytes) (hsize : bytes.length < 2 ^ 64) (rest : Bytes) :
    read type (bytes ++ rest) = .ok (value, bytes.length) := by
  obtain ⟨payload, hpayload, rfl⟩ := map_eq_ok_iff.mp hbytes
  cases hbinary : type.isBinary with
  | false => exact read_encodePayload hbinary hpayload rest
  | true =>
      rw [hbinary, if_pos rfl] at hsize
      have hcontent : payload.length < 2 ^ 64 :=
        (Span.length_le_encode payload).trans_lt hsize
      rw [if_pos rfl, read_of_isBinary hbinary, Span.read_encode hcontent]
      simp [contentValue_encodePayload hbinary hpayload, Except.map]

theorem decodePayload_encodePayload {type : FieldType} {value : Value} {payload : Bytes}
    (hpayload : encodePayload type value = .ok payload) :
    decodePayload type payload = .ok value := by
  rw [decodePayload]
  cases hbinary : type.isBinary with
  | false =>
      have hread : decodeAt type payload 0 = .ok (value, payload.length) :=
        readAt_eq_ok_iff.mpr (by simpa using read_encodePayload hbinary hpayload [])
      simp [hread]
  | true =>
      rw [if_pos rfl, readAt_eq_ok_iff]
      exact contentValue_encodePayload hbinary hpayload

theorem key_contentValue {type : FieldType} {content : Bytes} {value : Value}
    (hvalue : contentValue type content = .ok value) : value.key = ⟨7, 0, content⟩ := by
  simp only [contentValue] at hvalue
  split at hvalue
  · split at hvalue
    · next text htext =>
        cases hvalue
        rw [Value.key, Utf8.encode_of_decode htext]
    · cases hvalue
  · cases hvalue
    rfl

theorem key_readBoolean {bytes : Bytes} {value : Value} {used : Nat}
    (hread : readBoolean bytes = .ok (value, used)) :
    ∃ word, Fixed.read 1 bytes = .ok (word, used) ∧ value.key = ⟨1, word, []⟩ := by
  simp only [readBoolean] at hread
  split at hread <;> cases hread
  case h_2 hword => exact ⟨0, hword, rfl⟩
  case h_3 hword => exact ⟨1, hword, rfl⟩

theorem readKey_of_read {type : FieldType} {bytes : Bytes} {value : Value} {used : Nat}
    (hread : read type bytes = .ok (value, used)) :
    readKey type bytes = .ok (value.key, used) := by
  cases type <;> simp only [read] at hread <;> rw [readKey]
  case boolean =>
    obtain ⟨word, hword, hkey⟩ := key_readBoolean hread
    simp [hword, hkey, Except.map]
  case string | bytes =>
    split at hread
    · cases hread
    · next hspan =>
        obtain ⟨found, hfound, heq⟩ := map_eq_ok_iff.mp hread
        cases heq
        simp [hspan, key_contentValue hfound, Except.map]
  all_goals
    obtain ⟨⟨word, count⟩, hword, heq⟩ := map_eq_ok_iff.mp hread
    cases heq
    rw [hword]
  case float32 =>
    have hkept : (UInt32.ofNat word).toNat = word :=
      UInt32.toNat_ofNat_of_lt' (Fixed.lt_of_read hword)
    simp only [Except.map, Value.key, hkept]
  case float64 =>
    have hkept : (UInt64.ofNat word).toNat = word :=
      UInt64.toNat_ofNat_of_lt' (Fixed.lt_of_read hword)
    simp only [Except.map, Value.key, hkept]
  case enum =>
    have hkept : (UInt32.ofNat word).toNat = word :=
      UInt32.toNat_ofNat_of_lt' (Varint.lt_of_read hword)
    simp only [Except.map, Value.key, hkept]
  all_goals rfl

end Wire

end RecordRollup
