import Mathlib
import RecordRollup.Plan.Appending
import RecordRollup.Proofs.Plan.DecodingSafety
import RecordRollup.Proofs.Wire.Appending

namespace RecordRollup

open Wire

variable {value : Value} {error : Error}

theorem Wire.encodePayload_eq_error {type : FieldType} {fault : EncodeFault}
    (hconforms : value.conformsTo type = true)
    (herror : encodePayload type value = .error fault) : value = .null ∧ fault = .null type := by
  cases type <;> cases value <;> cases hconforms <;> cases herror <;> exact ⟨rfl, rfl⟩

namespace FieldForm

variable {form : FieldForm}

theorem write_eq_error {fault : EncodeFault} (hconforms : value.conformsTo form.type = true)
    (herror : form.write value = .error fault) : value = .null ∧ fault = .null form.type := by
  apply encodePayload_eq_error hconforms
  rw [write, encodeFramed, encode] at herror
  cases hpayload : encodePayload form.type value with
  | error other =>
      rw [hpayload, Except.map, Except.map, ite_self] at herror
      exact herror
  | ok payload =>
      rw [hpayload, Except.map, Except.map, ← apply_ite] at herror
      cases herror

theorem emits_append (form : FieldForm) (value : Value) :
    Emits (form.append value) ((form.write value).mapError .encoding) := by
  rw [append, write]
  split
  · have hframed := (emits_appendPayload form.type value).gather fun bytes _ =>
      Span.emits_append bytes
    rw [encodeFramed]
    cases hpayload : encodePayload form.type value <;> rw [hpayload] at hframed <;> exact hframed
  · exact emits_appendValue form.type value

end FieldForm

namespace Plan

variable {plan : Plan} {record : Record} {form : FieldForm} {position : Nat}

theorem emits_appendField (record : Record) (position : Nat) (form : FieldForm) :
    Emits (appendField record position form) (writeField record position form) := by
  rw [appendField, writeField]
  apply Emits.lift
  intro value _
  have hfield := fun name => (form.emits_append value).adapt (Error.inField name)
  cases hwrite : form.write value <;> rw [hwrite] at hfield <;> exact hfield _

theorem apply_append (plan : Plan) (record : Record) (buffer : Bytes) :
    (plan.append record).apply buffer = appended buffer (plan.serialize record) := by
  rw [append, serialize]
  cases plan.sourceOf record with
  | error error => rfl
  | ok source =>
      refine Emits.orRestore (Emits.forM ?_) buffer
      rintro ⟨position, form⟩ -
      exact emits_appendField record position form

theorem writeField_eq_error {field : Field} (hfield : record.schema.fields[position]? = some field)
    (htype : field.type = form.type) (herror : writeField record position form = .error error) :
    record.valueAt position = .null ∧ error = .encoding (.inField field.name (.null field.type)) := by
  have hposition : position < record.schema.size := (List.getElem?_eq_some_iff.mp hfield).1
  have hvalue := Record.getElem?_values hposition
  have hconforms := record.conforming position field _ hfield hvalue
  rw [writeField, Record.get_eq_valueAt hposition] at herror
  simp only [bind, Except.bind] at herror
  split at herror
  · cases herror
  · next fault hwrite =>
      obtain ⟨hnull, rfl⟩ := FieldForm.write_eq_error (htype ▸ hconforms) hwrite
      refine ⟨hnull, ?_⟩
      cases herror
      rw [Schema.field?, hfield, htype]
      rfl

/-- No source of the plan takes the record: none has its schema, or it carries the id of another one
than the one that has. -/
def Rejects (plan : Plan) (record : Record) : Prop :=
  (∀ source ∈ plan.sources, source.schema ≠ record.schema) ∨
    ∃ source ∈ plan.sources, source.schema = record.schema ∧
      ∃ id, record.sourceId? = some id ∧ id ≠ source.id

theorem rejects_of_sourceOf (herror : plan.sourceOf record = .error error) :
    plan.Rejects record ∧ ∃ fault, error = .field fault := by
  rw [sourceOf] at herror
  split at herror
  · next hnone =>
      cases herror
      refine ⟨.inl fun source hsource => ?_, _, rfl⟩
      simpa using List.find?_eq_none.mp hnone source hsource
  · next source hfound =>
      have hschema : source.schema = record.schema := by simpa using List.find?_some hfound
      split at herror
      · cases herror
      · next id hid =>
          split at herror
          · cases herror
          · next hne =>
              cases herror
              exact ⟨.inr ⟨source, List.mem_of_find?_eq_some hfound, hschema, id, hid, hne⟩, _, rfl⟩

theorem not_rejects_of_sourceOf {source : Source} (hsource : plan.sourceOf record = .ok source) :
    ¬ plan.Rejects record := by
  obtain ⟨hmem, hschema, hid⟩ := sourceOf_eq_ok_iff.mp hsource
  rintro (hnone | ⟨other, hother, hotherSchema, id, hcarried, hne⟩)
  · exact hnone source hmem hschema
  · obtain rfl : other = source :=
      eq_of_mem_of_nodup_map plan.schemas_nodup hother hmem (hotherSchema.trans hschema.symm)
    exact hne (hid id hcarried)

/-- The record belongs to a source, carries its id if it has a field for it, and has no null. -/
def Accepts (plan : Plan) (record : Record) : Prop :=
  (∃ source ∈ plan.sources, source.schema = record.schema ∧
    ∀ value, record.getNamed? sourceFieldName = some value → value = .int source.id) ∧
  .null ∉ record.values

theorem Accepts.not_rejects (accepts : plan.Accepts record) : ¬ plan.Rejects record := by
  obtain ⟨⟨source, hsource, hschema, hcarried⟩, -⟩ := accepts
  refine not_rejects_of_sourceOf (sourceOf_eq_ok_iff.mpr ⟨hsource, hschema, ?_⟩)
  intro id hid
  rw [Option.mem_def, Record.sourceId?] at hid
  split at hid
  · next other hother =>
      obtain rfl := Option.some.inj hid
      exact Value.int.inj (hcarried _ hother)
  · cases hid

theorem accepts_of_serialize {bytes : Bytes} (hbytes : plan.serialize record = .ok bytes) :
    plan.Accepts record := by
  obtain ⟨source, hsource, written⟩ := serialize_eq_ok_iff.mp hbytes
  obtain ⟨hmem, hschema, hid⟩ := sourceOf_eq_ok_iff.mp hsource
  have hnull : .null ∉ record.values := by
    intro hnull
    obtain ⟨position, hposition, hat⟩ := Record.mem_values_iff.mp hnull
    have hinside : position ∈ plan.order source := mem_order.mpr (hschema ▸ hposition)
    exact written.ne_null _ (List.mem_map_of_mem hinside) hat
  refine ⟨⟨source, hmem, hschema, ?_⟩, hnull⟩
  intro value hvalue
  have hfilled : value ≠ .null := by
    rintro rfl
    obtain ⟨position, -, hposition⟩ := Option.bind_eq_some_iff.mp hvalue
    exact hnull (List.mem_of_getElem? hposition)
  have hnamed : record.getNamed sourceFieldName = .ok value := by rw [Record.getNamed, hvalue]
  obtain ⟨id, rfl, hcarried⟩ := sourceId?_eq_some hnamed hfilled
  rw [hid id hcarried]

theorem serialize_eq_error (herror : plan.serialize record = .error error) :
    (plan.Rejects record ∧ ∃ fault, error = .field fault) ∨
      ¬ plan.Rejects record ∧ .null ∈ record.values ∧ ∃ fault, error = .encoding fault := by
  rcases bind_eq_error_iff.mp herror with hsource | ⟨source, hsource, hfields⟩
  · exact .inl (rejects_of_sourceOf hsource)
  · refine .inr ⟨not_rejects_of_sourceOf hsource, ?_⟩
    obtain ⟨hmem, hschema, -⟩ := sourceOf_eq_ok_iff.mp hsource
    rcases bind_eq_error_iff.mp hfields with hsome | ⟨fields, -, hnone⟩
    · obtain ⟨⟨position, form⟩, hpair, hwrite⟩ := exists_of_mapM_eq_error hsome
      obtain ⟨field, hfield, htype⟩ := List.forall₂_zip (order_forms hmem) hpair
      rw [hschema] at hfield
      obtain ⟨hnull, rfl⟩ := writeField_eq_error hfield htype hwrite
      have hposition : position < record.schema.size := (List.getElem?_eq_some_iff.mp hfield).1
      exact ⟨Record.mem_values_iff.mpr ⟨position, hposition, hnull⟩, _, rfl⟩
    · cases hnone

theorem Accepts.exists_serialize (accepts : plan.Accepts record) :
    ∃ bytes, plan.serialize record = .ok bytes := by
  cases hserialize : plan.serialize record with
  | ok bytes => exact ⟨bytes, rfl⟩
  | error error =>
      rcases serialize_eq_error hserialize with ⟨hrejects, -⟩ | ⟨-, hnull, -⟩
      · exact absurd hrejects accepts.not_rejects
      · exact absurd hnull accepts.2

/-- A record is appended exactly if the plan accepts it, and the bytes that are added are those of the
serialized record, whatever the buffer holds. Otherwise the buffer is as before: the error is one of a
field if no source takes the record, and else one of encoding, and there is a null. -/
theorem append_all_or_nothing (plan : Plan) (record : Record) (buffer : Bytes) :
    (((plan.append record).apply buffer).2 = none ↔ plan.Accepts record) ∧
    (((plan.append record).apply buffer).2 = none →
      ∃ bytes, plan.serialize record = .ok bytes ∧ (plan.append record).apply [] = (bytes, none) ∧
        (plan.append record).apply buffer = (buffer ++ bytes, none)) ∧
    ∀ error, ((plan.append record).apply buffer).2 = some error →
      ((plan.append record).apply buffer).1 = buffer ∧
      (plan.Rejects record → ∃ fault, error = .field fault) ∧
      (¬ plan.Rejects record → .null ∈ record.values ∧ ∃ fault, error = .encoding fault) := by
  simp only [apply_append]
  cases hserialize : plan.serialize record with
  | ok bytes =>
      refine ⟨⟨fun _ => accepts_of_serialize hserialize, fun _ => rfl⟩, ?_, ?_⟩
      · exact fun _ => ⟨bytes, rfl, rfl, rfl⟩
      · rintro error ⟨⟩
  | error error =>
      have hcause := serialize_eq_error hserialize
      refine ⟨⟨?_, fun accepts => ?_⟩, ?_, ?_⟩
      · rintro ⟨⟩
      · rcases hcause with ⟨hrejects, -⟩ | ⟨-, hnull, -⟩
        · exact absurd hrejects accepts.not_rejects
        · exact absurd hnull accepts.2
      · rintro ⟨⟩
      · rintro _ ⟨⟩
        refine ⟨rfl, fun hrejects => ?_, fun hplaced => ?_⟩
        · rcases hcause with ⟨-, hfault⟩ | ⟨hplaced, -⟩
          · exact hfault
          · exact absurd hrejects hplaced
        · rcases hcause with ⟨hrejects, -⟩ | ⟨-, hnull, hfault⟩
          · exact absurd hrejects hplaced
          · exact ⟨hnull, hfault⟩

end Plan

namespace Sample

/-- A click whose last field to be written is null. -/
def clickNowhere : Record where
  schema := clicks
  values := [.string "Ann", .null, .int (-3), .long 5]
  size_eq := rfl
  conforming := Record.mismatch?_eq_none_iff.mp rfl

end Sample

namespace Plan

theorem append_all_or_nothing_click :
    (Sample.plan.append (Sample.click "Ann" 5)).apply [9, 9] =
        ([9, 9, 3, 65, 110, 110, 5, 0, 0, 0, 0, 0, 0, 0, 5, 3, 97, 47, 98], none) ∧
      Sample.plan.Accepts (Sample.click "Ann" 5) ∧
      (Sample.plan.append Sample.clickNowhere).apply [9, 9] =
        ([9, 9], some (.encoding (.inField "url" (.null .string)))) ∧
      ¬ Sample.plan.Accepts Sample.clickNowhere := by
  have hclick : (Sample.plan.append (Sample.click "Ann" 5)).apply [9, 9] =
      ([9, 9, 3, 65, 110, 110, 5, 0, 0, 0, 0, 0, 0, 0, 5, 3, 97, 47, 98], none) := by cbv
  have hnowhere : (Sample.plan.append Sample.clickNowhere).apply [9, 9] =
      ([9, 9], some (.encoding (.inField "url" (.null .string)))) := by cbv
  have hfirst := append_all_or_nothing Sample.plan (Sample.click "Ann" 5) [9, 9]
  have hsecond := append_all_or_nothing Sample.plan Sample.clickNowhere [9, 9]
  rw [hclick] at hfirst
  rw [hnowhere] at hsecond
  refine ⟨hclick, hfirst.1.mp rfl, hnowhere, fun accepts => ?_⟩
  cases hsecond.1.mpr accepts

end Plan

end RecordRollup
