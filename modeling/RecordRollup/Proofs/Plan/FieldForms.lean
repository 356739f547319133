import Mathlib
import RecordRollup.Plan.Serialization
import RecordRollup.Proofs.Wire.Rewriting

namespace RecordRollup.FieldForm

variable {form : FieldForm} {value found left right : Value} {buffer field : Bytes}
  {position used : Nat}

def isSpan (form : FieldForm) : Bool :=
  form.framed || form.type.isBinary

def enclose (form : FieldForm) (payload : Bytes) : Bytes :=
  if form.isSpan then Span.encode payload else payload

theorem write_eq_ok_iff :
    form.write value = .ok field ↔
      ∃ payload, Wire.encodePayload form.type value = .ok payload ∧
        form.enclose payload = field := by
  rw [← map_eq_ok_iff, write]
  cases hframed : form.framed with
  | true =>
      have henclose : form.enclose = Span.encode := by
        funext payload
        simp [enclose, isSpan, hframed]
      rw [if_pos rfl, henclose, Wire.encodeFramed]
  | false =>
      have henclose : form.enclose = fun payload =>
          if form.type.isBinary then Span.encode payload else payload := by
        funext payload
        simp [enclose, isSpan, hframed]
      rw [if_neg Bool.false_ne_true, henclose, Wire.encode]

theorem readAt_eq_ok_iff_of_isSpan (hspan : form.isSpan = true) :
    form.readAt buffer position = .ok (value, used) ↔
      ∃ payload, Span.read (buffer.drop position) = .ok (payload, used) ∧
        Wire.decodePayload form.type payload = .ok value := by
  rw [readAt]
  cases hframed : form.framed with
  | true =>
      simp only [if_true, bind_eq_ok_iff, Prod.exists, Span.readAt, Wire.readAt_eq_ok_iff, pure,
        Except.pure, Except.ok.injEq, Prod.mk.injEq]
      constructor
      · rintro ⟨payload, length, hread, result, hresult, rfl, rfl⟩
        exact ⟨payload, hread, hresult⟩
      · rintro ⟨payload, hread, hresult⟩
        exact ⟨payload, used, hread, value, hresult, rfl, rfl⟩
  | false =>
      have hbinary : form.type.isBinary = true := by simpa [isSpan, hframed] using hspan
      simp only [Bool.false_eq_true, if_false, Wire.decodeAt, Wire.readAt_eq_ok_iff,
        Wire.read_of_isBinary hbinary, Wire.decodePayload, hbinary, if_true, List.drop_zero]
      constructor
      · intro hread
        split at hread
        · cases hread
        · next payload count hspan =>
            obtain ⟨result, hresult, heq⟩ := map_eq_ok_iff.mp hread
            cases heq
            exact ⟨payload, hspan, hresult⟩
      · rintro ⟨payload, hread, hresult⟩
        simp only [hread, hresult, Except.map]

theorem readAt_eq_ok_iff_of_not_isSpan (hplain : form.isSpan = false) :
    form.readAt buffer position = .ok (value, used) ↔
      Wire.read form.type (buffer.drop position) = .ok (value, used) := by
  have hframed : form.framed = false := (Bool.or_eq_false_iff.mp hplain).1
  rw [readAt, hframed, if_neg Bool.false_ne_true, Wire.decodeAt, Wire.readAt_eq_ok_iff]

theorem isBinary_of_not_isSpan (hplain : form.isSpan = false) : form.type.isBinary = false :=
  (Bool.or_eq_false_iff.mp hplain).2

theorem isLocalAt (form : FieldForm) : Wire.IsLocalAt form.readAt := by
  intro buffer position value used hread
  cases hspan : form.isSpan with
  | false =>
      have hnatural := (readAt_eq_ok_iff_of_not_isSpan hspan).mp hread
      obtain ⟨hpos, hle, hsame⟩ :=
        (Wire.isLocal_read form.type).readAt (Wire.readAt_eq_ok_iff.mpr hnatural)
      refine ⟨hpos, hle, fun other hother => ?_⟩
      apply (readAt_eq_ok_iff_of_not_isSpan hspan).mpr
      exact Wire.readAt_eq_ok_iff.mp (hsame other hother)
  | true =>
      obtain ⟨payload, hpayload, hvalue⟩ := (readAt_eq_ok_iff_of_isSpan hspan).mp hread
      obtain ⟨hpos, hle, hsame⟩ := Span.isLocal.readAt (Wire.readAt_eq_ok_iff.mpr hpayload)
      refine ⟨hpos, hle, fun other hother => ?_⟩
      apply (readAt_eq_ok_iff_of_isSpan hspan).mpr
      exact ⟨payload, Wire.readAt_eq_ok_iff.mp (hsame other hother), hvalue⟩

theorem write_ne_null (hwrite : form.write value = .ok field) : value ≠ .null := by
  rintro rfl
  obtain ⟨payload, hpayload, -⟩ := write_eq_ok_iff.mp hwrite
  rw [Wire.encodePayload] at hpayload
  cases hpayload

theorem write_conformsTo (hwrite : form.write value = .ok field) :
    value.conformsTo form.type = true := by
  obtain ⟨payload, hpayload, -⟩ := write_eq_ok_iff.mp hwrite
  exact Wire.conformsTo_of_encodePayload hpayload

/-- A field is read again from its bytes, unless it is a span that is too long for its length to be
read. -/
theorem readAt_enclose {payload : Bytes}
    (hpayload : Wire.encodePayload form.type value = .ok payload)
    (hsize : form.isSpan = true → payload.length < 2 ^ 64) (before after : Bytes) :
    form.readAt (before ++ (form.enclose payload ++ after)) before.length =
      .ok (value, (form.enclose payload).length) := by
  rw [enclose]
  cases hspan : form.isSpan with
  | false =>
      rw [if_neg Bool.false_ne_true, readAt_eq_ok_iff_of_not_isSpan hspan, List.drop_left]
      exact Wire.read_encodePayload (isBinary_of_not_isSpan hspan) hpayload after
  | true =>
      rw [if_pos rfl, readAt_eq_ok_iff_of_isSpan hspan, List.drop_left]
      have hread := Span.read_encode (hsize hspan) after
      exact ⟨payload, hread, Wire.decodePayload_encodePayload hpayload⟩

theorem length_le_enclose (form : FieldForm) (payload : Bytes) :
    payload.length ≤ (form.enclose payload).length := by
  rw [enclose]
  split
  · exact Span.length_le_encode payload
  · exact le_rfl

theorem readAt_write (hwrite : form.write value = .ok field) (hsize : field.length < 2 ^ 64)
    (before after : Bytes) :
    form.readAt (before ++ (field ++ after)) before.length = .ok (value, field.length) := by
  obtain ⟨payload, hpayload, rfl⟩ := write_eq_ok_iff.mp hwrite
  refine readAt_enclose hpayload (fun _ => ?_) before after
  exact (form.length_le_enclose payload).trans_lt hsize

theorem eq_of_readAt_write (hwrite : form.write value = .ok field) {before after : Bytes}
    (hread : form.readAt (before ++ (field ++ after)) before.length = .ok (found, used)) :
    found = value ∧ used = field.length := by
  obtain ⟨payload, hpayload, rfl⟩ := write_eq_ok_iff.mp hwrite
  rw [enclose] at hread ⊢
  cases hspan : form.isSpan with
  | false =>
      rw [hspan, if_neg Bool.false_ne_true, readAt_eq_ok_iff_of_not_isSpan hspan, List.drop_left,
        Wire.read_encodePayload (isBinary_of_not_isSpan hspan) hpayload after] at hread
      cases hread
      exact ⟨rfl, rfl⟩
  | true =>
      rw [hspan, if_pos rfl, readAt_eq_ok_iff_of_isSpan hspan, List.drop_left] at hread
      obtain ⟨content, hcontent, hfound⟩ := hread
      obtain ⟨rfl, rfl⟩ := Span.eq_of_read_encode hcontent
      rw [Wire.decodePayload_encodePayload hpayload] at hfound
      cases hfound
      exact ⟨rfl, rfl⟩

theorem exists_write_of_readAt (hread : form.readAt buffer position = .ok (value, used)) :
    ∃ field, form.write value = .ok field ∧ field.length ≤ used ∧
      ∀ before after : Bytes,
        form.readAt (before ++ (field ++ after)) before.length = .ok (value, field.length) := by
  cases hspan : form.isSpan with
  | false =>
      obtain ⟨payload, hpayload, hle⟩ :=
        Wire.exists_encodePayload_of_read (isBinary_of_not_isSpan hspan)
          ((readAt_eq_ok_iff_of_not_isSpan hspan).mp hread)
      refine ⟨form.enclose payload, write_eq_ok_iff.mpr ⟨payload, hpayload, rfl⟩, ?_,
        readAt_enclose hpayload (by simp [hspan])⟩
      rwa [enclose, hspan, if_neg Bool.false_ne_true]
  | true =>
      obtain ⟨content, hcontent, hvalue⟩ := (readAt_eq_ok_iff_of_isSpan hspan).mp hread
      obtain ⟨payload, hpayload, hle⟩ := Wire.exists_encodePayload_of_decodePayload hvalue
      have hsize : payload.length < 2 ^ 64 := hle.trans_lt (Span.length_lt_of_read hcontent)
      refine ⟨form.enclose payload, write_eq_ok_iff.mpr ⟨payload, hpayload, rfl⟩, ?_,
        readAt_enclose hpayload fun _ => hsize⟩
      rw [enclose, hspan, if_pos rfl]
      exact (Span.length_encode_le hle).trans (Span.length_encode_le_of_read hcontent)

theorem write_append_inj {leftField rightField leftRest rightRest : Bytes}
    (hleft : form.write left = .ok leftField) (hright : form.write right = .ok rightField)
    (heq : leftField ++ leftRest = rightField ++ rightRest) :
    left = right ∧ leftRest = rightRest := by
  obtain ⟨leftPayload, hleftPayload, rfl⟩ := write_eq_ok_iff.mp hleft
  obtain ⟨rightPayload, hrightPayload, rfl⟩ := write_eq_ok_iff.mp hright
  rw [enclose, enclose] at heq
  cases hspan : form.isSpan with
  | false =>
      rw [hspan, if_neg Bool.false_ne_true, if_neg Bool.false_ne_true] at heq
      have hnatural := isBinary_of_not_isSpan hspan
      have hread := Wire.read_encodePayload hnatural hleftPayload leftRest
      rw [heq, Wire.read_encodePayload hnatural hrightPayload rightRest] at hread
      obtain ⟨rfl, hlength⟩ := Prod.mk.inj (Except.ok.inj hread)
      exact ⟨rfl, List.append_inj_right heq hlength.symm⟩
  | true =>
      rw [hspan, if_pos rfl, if_pos rfl] at heq
      obtain ⟨rfl, hrest⟩ := Span.encode_append_inj heq
      have hvalue := Wire.decodePayload_encodePayload hleftPayload
      rw [Wire.decodePayload_encodePayload hrightPayload] at hvalue
      exact ⟨(Except.ok.inj hvalue).symm, hrest⟩

end RecordRollup.FieldForm
