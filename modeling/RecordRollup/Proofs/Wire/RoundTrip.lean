import Mathlib
import RecordRollup.Proofs.Wire.Appending
import RecordRollup.Proofs.Wire.Rewriting

namespace RecordRollup

open Wire

theorem Wire.Emits.apply_of_ok {writer : Writer Unit} {bytes : Bytes} (hwriter : Emits writer (.ok bytes))
    (buffer : Bytes) : writer.apply buffer = (buffer ++ bytes, none) := by
  rw [Writer.apply, hwriter buffer]

namespace Wire

variable {type : FieldType} {value : Value} {buffer payload : Bytes} {position used : Nat}

theorem encodePayload_of_unwritable
    (hunwritable : ¬ (value ≠ .null ∧ value.conformsTo type = true)) :
    encodePayload type value =
      .error (if value = .null then .null type else .mismatch value.kind type) := by
  cases type <;> cases value <;> simp_all [encodePayload, Value.conformsTo, Value.kind]

theorem encode_of_encodePayload (hpayload : encodePayload type value = .ok payload) :
    encode type value =
      .ok (if type.isBinary then Varint.encode payload.length ++ payload else payload) := by
  rw [encode, hpayload]
  rfl

theorem apply_appendPayload (type : FieldType) (value : Value) (buffer : Bytes) :
    (appendPayload type value).apply buffer =
      appended buffer ((encodePayload type value).mapError .encoding) := by
  rw [appendPayload]
  cases encodePayload type value <;> rfl

theorem apply_appendValue_of_error {fault : EncodeFault}
    (herror : encodePayload type value = .error fault) (buffer : Bytes) :
    (appendValue type value).apply buffer = (buffer, some (.encoding fault)) := by
  have hsame : appendValue type value = appendPayload type value := by
    rw [appendValue.eq_def]
    split
    · cases herror
    · cases herror
    · rfl
  rw [hsame, apply_appendPayload, herror]
  rfl

theorem decodeAt_bounds {found : Value} (hread : decodeAt type buffer position = .ok (found, used)) :
    0 < used ∧ position + used ≤ buffer.length := by
  obtain ⟨hpos, hinside, -⟩ := (isLocal_read type).readAt hread
  exact ⟨hpos, hinside⟩

theorem exists_encodePayload_of_decodeAt {found : Value}
    (hread : decodeAt type buffer position = .ok (found, used)) :
    ∃ payload, encodePayload type found = .ok payload := by
  have hnatural := readAt_eq_ok_iff.mp hread
  cases hbinary : type.isBinary with
  | false =>
      obtain ⟨payload, hpayload, -⟩ := exists_encodePayload_of_read hbinary hnatural
      exact ⟨payload, hpayload⟩
  | true =>
      rw [read_of_isBinary hbinary] at hnatural
      split at hnatural
      · cases hnatural
      · next content count hspan =>
          obtain ⟨result, hresult, heq⟩ := map_eq_ok_iff.mp hnatural
          cases heq
          exact ⟨content, encodePayload_of_contentValue hbinary hresult⟩

theorem decodePayload_eq_ok_iff_of_natural {found : Value} (hnatural : type.isBinary = false) :
    decodePayload type payload = .ok found ↔
      decodeAt type payload 0 = .ok (found, payload.length) := by
  rw [decodePayload, hnatural, if_neg Bool.false_ne_true]
  constructor
  · intro hfound
    split at hfound
    · cases hfound
    · next value used hread =>
        split at hfound
        · next hused =>
            cases hfound
            rw [hread, hused]
        · cases hfound
  · intro hread
    rw [hread]
    exact if_pos rfl

/-- A value that a field can hold, null apart, is appended behind any buffer, and is read back as a payload
and, between any bytes, in its natural form. Any other value leaves the buffer as it was. Whatever is read
is a value that the field can hold. -/
theorem field_roundTrip (type : FieldType) :
    (∀ value : Value, value ≠ .null ∧ value.conformsTo type = true →
      ∃ payload bytes,
        bytes = (if type.isBinary then Varint.encode payload.length ++ payload else payload) ∧
        decodePayload type payload = .ok value ∧
        ∀ before, (appendPayload type value).apply before = (before ++ payload, none) ∧
          (appendValue type value).apply before = (before ++ bytes, none) ∧
          ∀ after, (before ++ bytes ++ after).length < 2 ^ 63 →
            decodeAt type (before ++ bytes ++ after) before.length = .ok (value, bytes.length)) ∧
    (∀ value : Value, ¬ (value ≠ .null ∧ value.conformsTo type = true) →
      ∃ fault, fault = (if value = .null then .null type else .mismatch value.kind type) ∧
        ∀ before, (appendPayload type value).apply before = (before, some (.encoding fault)) ∧
          (appendValue type value).apply before = (before, some (.encoding fault))) ∧
    (∀ buffer position found used, decodeAt type buffer position = .ok (found, used) →
      (0 < used ∧ position + used ≤ buffer.length) ∧
        found ≠ .null ∧ found.conformsTo type = true) ∧
    (type.isBinary = false → ∀ payload found, decodePayload type payload = .ok found →
      decodeAt type payload 0 = .ok (found, payload.length)) := by
  refine ⟨?_, ?_, ?_, ?_⟩
  · intro value hvalue
    obtain ⟨payload, hpayload⟩ := exists_encodePayload_iff.mpr hvalue
    have hbytes := encode_of_encodePayload hpayload
    refine ⟨payload, _, rfl, decodePayload_encodePayload hpayload, fun before => ⟨?_, ?_, ?_⟩⟩
    · rw [apply_appendPayload, hpayload]
      rfl
    · have hemits := emits_appendValue type value
      rw [hbytes] at hemits
      exact hemits.apply_of_ok before
    · intro after hsize
      rw [List.append_assoc, List.length_append, List.length_append] at hsize
      apply readAt_eq_ok_iff.mpr
      rw [List.append_assoc, List.drop_left]
      exact read_encode hbytes (by omega) after
  · intro value hvalue
    have hpayload := encodePayload_of_unwritable hvalue
    refine ⟨_, rfl, fun before => ⟨?_, apply_appendValue_of_error hpayload before⟩⟩
    rw [apply_appendPayload, hpayload]
    rfl
  · intro buffer position found used hread
    have hwritten := exists_encodePayload_of_decodeAt hread
    exact ⟨decodeAt_bounds hread, exists_encodePayload_iff.mp hwritten⟩
  · intro hnatural payload found hfound
    exact (decodePayload_eq_ok_iff_of_natural hnatural).mp hfound

theorem field_roundTrip_letter :
    (appendValue .string (.string "é")).apply [7] = ([7, 2, 195, 169], none) ∧
      decodeAt .string [7, 2, 195, 169, 7] 1 = .ok (.string "é", 3) ∧
      (appendValue .varInt32 (.long 1)).apply [7] =
        ([7], some (.encoding (.mismatch "Long" .varInt32))) ∧
      Value.conformsTo (.int 1) .varInt32 = true ∧
      decodeAt .varInt32 [0x85, 0] 0 = .ok (.int (-3), 2) := by
  obtain ⟨hwritten, -⟩ := field_roundTrip .string
  obtain ⟨-, hrefused, hread, hwhole⟩ := field_roundTrip .varInt32
  obtain ⟨payload, bytes, -, -, happended⟩ := hwritten (.string "é") (by decide)
  obtain ⟨-, hvalue, hfound⟩ := happended [7]
  have hbytes : (appendValue .string (.string "é")).apply [7] = ([7] ++ [2, 195, 169], none) := by
    decide +kernel
  rw [hvalue] at hbytes
  obtain rfl := List.append_cancel_left (Prod.mk.inj hbytes).1
  obtain ⟨fault, rfl, hfault⟩ := hrefused (.long 1) (by decide)
  refine ⟨hvalue, hfound [7] (by decide), (hfault [7]).2, ?_, ?_⟩
  · exact (hread [255, 0x82, 0] 1 (.int 1) 2 (by decide)).2.2
  · exact hwhole rfl [0x85, 0] (.int (-3)) (by decide)

end Wire

end RecordRollup
