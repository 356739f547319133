import Mathlib
import RecordRollup.Proofs.Wire.Field
import RecordRollup.Proofs.Wire.Locality

namespace RecordRollup

theorem Fixed.encode_length_le_of_read {width number used : Nat} {bytes : Bytes} (value : Nat)
    (hread : read width bytes = .ok (number, used)) : (encode width value).length ≤ used := by
  rw [read] at hread
  split at hread
  · cases hread
    rw [encode_length]
  · cases hread

namespace Span

theorem length_encode_le {shorter longer : Bytes} (hle : shorter.length ≤ longer.length) :
    (encode shorter).length ≤ (encode longer).length := by
  rw [encode, encode, List.length_append, List.length_append]
  exact Nat.add_le_add (Varint.length_encode_mono hle) hle

theorem length_encode_le_of_read {bytes content : Bytes} {used : Nat}
    (hread : read bytes = .ok (content, used)) : (encode content).length ≤ used := by
  obtain ⟨header, hheader, -, rfl⟩ := read_eq_ok_iff.mp hread
  rw [encode, List.length_append]
  exact Nat.add_le_add_right (Varint.length_encode_le_of_read hheader) _

theorem length_lt_of_read {bytes content : Bytes} {used : Nat}
    (hread : read bytes = .ok (content, used)) : content.length < 2 ^ 64 := by
  obtain ⟨header, hheader, -, -⟩ := read_eq_ok_iff.mp hread
  exact Varint.lt_of_read hheader

theorem encode_append_inj {left right leftRest rightRest : Bytes}
    (heq : encode left ++ leftRest = encode right ++ rightRest) :
    left = right ∧ leftRest = rightRest := by
  rw [encode, encode, List.append_assoc, List.append_assoc] at heq
  obtain ⟨hlength, hbytes⟩ := Varint.encode_append_inj heq
  exact List.append_inj hbytes hlength

theorem eq_of_read_encode {payload rest content : Bytes} {used : Nat}
    (hread : read (encode payload ++ rest) = .ok (content, used)) :
    content = payload ∧ used = (encode payload).length := by
  obtain ⟨header, hheader, hcontent, rfl⟩ := read_eq_ok_iff.mp hread
  rw [encode, List.append_assoc] at hheader hcontent
  obtain ⟨hlength, rfl⟩ := Varint.eq_of_read_encode hheader
  rw [List.drop_left, hlength, List.take_left] at hcontent
  refine ⟨hcontent.symm, ?_⟩
  rw [encode, List.length_append, hlength]

end Span

namespace Wire

variable {type : FieldType} {value : Value} {bytes payload content : Bytes} {used : Nat}

theorem exists_encodePayload_iff :
    (∃ payload, encodePayload type value = .ok payload) ↔
      value ≠ .null ∧ value.conformsTo type = true := by
  cases type <;> cases value <;> simp [encodePayload, Value.conformsTo]

theorem conformsTo_of_encodePayload (hpayload : encodePayload type value = .ok payload) :
    value.conformsTo type = true :=
  (exists_encodePayload_iff.mp ⟨payload, hpayload⟩).2

theorem exists_encodePayload_of_readBoolean (hread : readBoolean bytes = .ok (value, used)) :
    ∃ payload, encodePayload .boolean value = .ok payload ∧ payload.length ≤ used := by
  have hused : ∀ {word count : Nat}, Fixed.read 1 bytes = .ok (word, count) → 1 ≤ count := by
    intro word count hword
    exact (Fixed.isLocal Nat.one_pos hword).1
  rw [readBoolean] at hread
  split at hread <;> cases hread
  · exact ⟨[0], rfl, hused ‹_›⟩
  · exact ⟨[1], rfl, hused ‹_›⟩

theorem exists_encodePayload_of_read (hnatural : type.isBinary = false)
    (hread : read type bytes = .ok (value, used)) :
    ∃ payload, encodePayload type value = .ok payload ∧ payload.length ≤ used := by
  cases type
  case boolean => exact exists_encodePayload_of_readBoolean hread
  case string | bytes => cases hnatural
  all_goals
    obtain ⟨⟨word, count⟩, hword, heq⟩ := map_eq_ok_iff.mp hread
    cases heq
    refine ⟨_, rfl, ?_⟩
  case int32 | int64 | float32 | float64 => exact Fixed.encode_length_le_of_read _ hword
  case varInt32 | varInt64 => exact ZigZag.length_write_le_of_read hword
  case enum =>
    rw [UInt32.toNat_ofNat_of_lt' (Varint.lt_of_read hword)]
    exact Varint.length_encode_le_of_read hword

theorem encodePayload_of_contentValue (hbinary : type.isBinary = true)
    (hvalue : contentValue type content = .ok value) :
    encodePayload type value = .ok content := by
  rw [contentValue] at hvalue
  split at hvalue
  · next hstring =>
      split at hvalue
      · next text htext =>
          cases hvalue
          rw [hstring, encodePayload, Utf8.encode_of_decode htext]
      · cases hvalue
  · next hstring =>
      cases hvalue
      cases type <;> first | rfl | cases hbinary
      exact absurd rfl hstring

theorem exists_encodePayload_of_decodePayload (hvalue : decodePayload type payload = .ok value) :
    ∃ canonical, encodePayload type value = .ok canonical ∧
      canonical.length ≤ payload.length := by
  rw [decodePayload] at hvalue
  cases hbinary : type.isBinary with
  | true =>
      rw [hbinary, if_pos rfl, readAt_eq_ok_iff, List.drop_zero] at hvalue
      exact ⟨payload, encodePayload_of_contentValue hbinary hvalue, le_rfl⟩
  | false =>
      rw [hbinary, if_neg Bool.false_ne_true] at hvalue
      split at hvalue
      · cases hvalue
      · next found used hread =>
          split at hvalue
          · next hused =>
              cases hvalue
              obtain ⟨canonical, hcanonical, hle⟩ :=
                exists_encodePayload_of_read hbinary (readAt_eq_ok_iff.mp hread)
              exact ⟨canonical, hcanonical, hle.trans_eq hused⟩
          · cases hvalue

end Wire

end RecordRollup
