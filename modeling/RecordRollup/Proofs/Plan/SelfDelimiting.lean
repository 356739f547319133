import Mathlib
import RecordRollup.Proofs.Plan.DecodingSafety

namespace RecordRollup.Plan

variable {plan : Plan} {record left right : Record} {bytes leftBytes rightBytes : Bytes}

theorem deserialize_append (hrecord : plan.deserialize bytes = .ok record) {more : Bytes}
    (hmore : more ≠ []) :
    plan.deserialize (bytes ++ more) =
      .error (.decoding (.trailingRecord more.length record.schema.name)) := by
  obtain ⟨source, hsource, hschema, hread⟩ := deserialize_eq_ok_iff.mp hrecord
  have hmem := (source_of_values hsource).1
  obtain ⟨middle, hcommon, hown⟩ := (readFields_forms_iff hmem hschema).mp hread
  have hsame : ∀ {cursor : Nat}, cursor ≤ bytes.length →
      (bytes ++ more).take cursor = bytes.take cursor :=
    fun hcursor => List.take_append_of_le_length hcursor
  have hmiddle := start_le_of_readFields hown
  have hcommonSame := readFields_of_take_eq hcommon (hsame hmiddle)
  have hownSame := readFields_of_take_eq hown (hsame le_rfl)
  have hlonger : bytes.length ≠ (bytes ++ more).length := by
    have := List.length_pos_iff.mpr hmore
    rw [List.length_append]
    omega
  simp only [deserialize, hcommonSame, bind, Except.bind, hsource, hownSame]
  rw [if_pos hlonger, List.length_append, Nat.add_sub_cancel_left, hschema]

theorem deserialize_front (hrecord : plan.deserialize bytes = .ok record) {front : Bytes}
    (hfront : front <+: bytes) (hproper : front ≠ bytes) :
    ∃ fault, plan.deserialize front = .error (.decoding fault) := by
  obtain ⟨more, rfl⟩ := hfront
  have hmore : more ≠ [] := by
    rintro rfl
    exact hproper (List.append_nil front).symm
  apply (plan.deserialize_decodesOrFails front).resolve_left
  rintro ⟨shorter, hshorter⟩
  rw [deserialize_append hshorter hmore] at hrecord
  cases hrecord

/-- The common keys show the source, and with it the form of all other fields. -/
theorem serialize_prefixFree (hleft : plan.serialize left = .ok leftBytes)
    (hright : plan.serialize right = .ok rightBytes) (hgoes : leftBytes <+: rightBytes) :
    leftBytes = rightBytes := by
  obtain ⟨leftSource, hleftSource, hleftWritten⟩ := serialize_eq_ok_iff.mp hleft
  obtain ⟨rightSource, hrightSource, hrightWritten⟩ := serialize_eq_ok_iff.mp hright
  obtain ⟨leftCommon, leftOwn, hleftCommon, hleftOwn, rfl⟩ :=
    (written_forms_iff hleftSource).mp hleftWritten
  obtain ⟨rightCommon, rightOwn, hrightCommon, hrightOwn, rfl⟩ :=
    (written_forms_iff hrightSource).mp hrightWritten
  obtain ⟨more, hmore⟩ := hgoes
  rw [List.append_assoc] at hmore
  obtain ⟨hvalues, hcommon, hrest⟩ := hleftCommon.append_inj hrightCommon hmore
  have hleftFound := sourceOfValues_eq_ok hleftSource (getNamed_keys hleftSource)
    hleftCommon.ne_null
  have hrightFound := sourceOfValues_eq_ok hrightSource (getNamed_keys hrightSource)
    hrightCommon.ne_null
  rw [hvalues, hrightFound] at hleftFound
  obtain rfl := Except.ok.inj hleftFound
  rw [← List.append_nil rightOwn] at hrest
  obtain ⟨-, hown, -⟩ := hleftOwn.append_inj hrightOwn hrest
  rw [hcommon, hown]

/-- Bytes that are read as a record are not decoded if they go on, nor if they are cut short; and no
serialized record goes on as another one. -/
theorem self_delimiting (plan : Plan) :
    (∀ bytes record, plan.deserialize bytes = .ok record →
      (∀ more, more ≠ [] →
        plan.deserialize (bytes ++ more) =
          .error (.decoding (.trailingRecord more.length record.schema.name))) ∧
      ∀ front, front <+: bytes → front ≠ bytes →
        ∃ fault, plan.deserialize front = .error (.decoding fault)) ∧
    ∀ left right leftBytes rightBytes, plan.serialize left = .ok leftBytes →
      plan.serialize right = .ok rightBytes → leftBytes <+: rightBytes →
        leftBytes = rightBytes := by
  constructor
  · intro bytes record hrecord
    exact ⟨fun _ hmore => deserialize_append hrecord hmore,
      fun _ hfront hproper => deserialize_front hrecord hfront hproper⟩
  · intro left right leftBytes rightBytes hleft hright hgoes
    exact serialize_prefixFree hleft hright hgoes

/-- A click whose source is spelled with two bytes, with a byte behind it, and without its last byte:
the length in front of the last field then promises too much. -/
theorem self_delimiting_click :
    Sample.plan.deserialize
        [3, 65, 110, 110, 0x85, 0, 0, 0, 0, 0, 0, 0, 0, 5, 3, 97, 47, 98] =
      .ok (Sample.click "Ann" 5) ∧
    Sample.plan.deserialize
        [3, 65, 110, 110, 0x85, 0, 0, 0, 0, 0, 0, 0, 0, 5, 3, 97, 47, 98, 0] =
      .error (.decoding (.trailingRecord 1 "clicks")) ∧
    ∃ fault, Sample.plan.deserialize
        [3, 65, 110, 110, 0x85, 0, 0, 0, 0, 0, 0, 0, 0, 5, 3, 97, 47] =
      .error (.decoding fault) := by
  have hrecord : Sample.plan.deserialize
      [3, 65, 110, 110, 0x85, 0, 0, 0, 0, 0, 0, 0, 0, 5, 3, 97, 47, 98] =
        .ok (Sample.click "Ann" 5) := Sample.deserialize_click (by decide)
  obtain ⟨hlonger, hshorter⟩ := (self_delimiting Sample.plan).1 _ _ hrecord
  exact ⟨hrecord, hlonger [0] (by decide), hshorter _ (by decide) (by decide)⟩

end RecordRollup.Plan
