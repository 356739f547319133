import Mathlib
import RecordRollup.Proofs.Plan.DecodedAgreement
import RecordRollup.Proofs.Schema.Table
import RecordRollup.Record.Cells

namespace RecordRollup

/-- The field that an edit is about, and where it stands. -/
def Edit.IsAt (edit : Edit) (fields : List Field) (position : Nat) (field : Field) : Prop :=
  fields[position]? = some field ∧
    match edit with
    | set other _ => other = position
    | setNamed name _ | withNamed name _ => field.name = name

/-- What is missing if an edit is about no field. -/
def Edit.absence (schema : String) : Edit → FieldFault
  | set position _ => .noPositionToSet position schema
  | setNamed name _ | withNamed name _ => .absent name schema

namespace Record

variable {record next : Record} {position : Nat} {field : Field} {value : Value} {edit : Edit}

/-- A record that has a value in the place of a field, and all else from another record. -/
structure Replaces (next record : Record) (position : Nat) (field : Field) (value : Value) : Prop where
  schema : next.schema = record.schema
  values : next.values = record.values.set position value
  get_here : next.get position = .ok value
  get_elsewhere : ∀ other, other ≠ position → next.get other = record.get other
  getNamed_here : next.getNamed field.name = .ok value
  getNamed_elsewhere : ∀ name, name ≠ field.name → next.getNamed name = record.getNamed name
  sourceId_here : field.name = sourceFieldName → ∀ id, next.sourceId? = some id ↔ value = .int id
  sourceId_elsewhere : field.name ≠ sourceFieldName → next.sourceId? = record.sourceId?

inductive Outcome (record : Record) (edit : Edit) : Except Error Record → Prop
  | replaced {position : Nat} {field : Field} {next : Record}
      (hat : edit.IsAt record.schema.fields position field)
      (hvalue : edit.value.conformsTo field.type = true)
      (hnext : next.Replaces record position field edit.value) : Outcome record edit (.ok next)
  | absent (hnowhere : ∀ position field, ¬ edit.IsAt record.schema.fields position field) :
      Outcome record edit (.error (.field (edit.absence record.schema.name)))
  | mismatched {position : Nat} {field : Field}
      (hat : edit.IsAt record.schema.fields position field)
      (hvalue : edit.value.conformsTo field.type = false) :
      Outcome record edit (.error (.typeMismatch field.name field.type edit.value.kind))

theorem set_of_absent (hnone : record.schema.fields[position]? = none) :
    record.set position value = .error (.field (.noPositionToSet position record.schema.name)) := by
  rw [set]
  split
  · rfl
  · next field hfield =>
      rw [hnone] at hfield
      cases hfield

theorem set_of_mismatch (hfield : record.schema.fields[position]? = some field)
    (hvalue : value.conformsTo field.type = false) :
    record.set position value = .error (.typeMismatch field.name field.type value.kind) := by
  rw [set]
  split
  · next hnone =>
      rw [hfield] at hnone
      cases hnone
  · next other hother =>
      obtain rfl := Option.some.inj (hfield.symm.trans hother)
      rw [dif_neg (by simp [hvalue])]

theorem exists_set (hfield : record.schema.fields[position]? = some field)
    (hvalue : value.conformsTo field.type = true) :
    ∃ next, record.set position value = .ok next ∧ next.schema = record.schema ∧
      next.values = record.values.set position value := by
  rw [set]
  split
  · next hnone =>
      rw [hfield] at hnone
      cases hnone
  · next other hother =>
      obtain rfl := Option.some.inj (hfield.symm.trans hother)
      rw [dif_pos hvalue]
      exact ⟨_, rfl, rfl, rfl⟩

theorem lt_size_of_getElem? (hfield : record.schema.fields[position]? = some field) :
    position < record.values.length :=
  record.size_eq ▸ (List.getElem?_eq_some_iff.mp hfield).1

theorem exists_getElem?_of_indexOf? {name : String}
    (hindex : record.schema.indexOf? name = some position) :
    ∃ value, record.values[position]? = some value := by
  obtain ⟨field, hfield, -⟩ := Schema.indexOf?_eq_some_iff.mp hindex
  exact ⟨_, List.getElem?_eq_getElem (lt_size_of_getElem? hfield)⟩

theorem sourceId?_eq_some_iff {id : Int32} :
    record.sourceId? = some id ↔ record.getNamed? sourceFieldName = some (.int id) := by
  rw [sourceId?]
  split
  · next other hother => simp [hother]
  · next hother => simpa using hother id

/-- A field is read by its name as it is by its position, and no other name reads it. -/
theorem replaces_of_values (hfield : record.schema.fields[position]? = some field)
    (hschema : next.schema = record.schema)
    (hvalues : next.values = record.values.set position value) :
    next.Replaces record position field value := by
  have hinside := lt_size_of_getElem? hfield
  have hhere : next.values[position]? = some value := by
    rw [hvalues, List.getElem?_set_self hinside]
  have helsewhere : ∀ other, other ≠ position → next.values[other]? = record.values[other]? := by
    intro other hother
    rw [hvalues, List.getElem?_set_ne hother.symm]
  have hnamed : next.getNamed? field.name = some value := by
    have hindex : record.schema.indexOf? field.name = some position :=
      Schema.indexOf?_eq_some_iff.mpr ⟨field, hfield, rfl⟩
    rw [getNamed?, hschema, hindex, Option.bind_some, hhere]
  have hothers : ∀ name, name ≠ field.name → next.getNamed? name = record.getNamed? name := by
    intro name hname
    rw [getNamed?, getNamed?, hschema]
    cases hindex : record.schema.indexOf? name with
    | none => rfl
    | some other =>
        obtain ⟨found, hfound, rfl⟩ := Schema.indexOf?_eq_some_iff.mp hindex
        apply helsewhere
        rintro rfl
        exact hname (congrArg Field.name (Option.some.inj (hfound.symm.trans hfield)))
  refine ⟨hschema, hvalues, ?_, ?_, ?_, ?_, ?_, ?_⟩
  · rw [get, hhere]
  · intro other hother
    rw [get, get, helsewhere other hother, hschema, size, size, hvalues, List.length_set]
  · rw [getNamed, hnamed]
  · intro name hname
    rw [getNamed, getNamed, hothers name hname, hschema]
  · intro hsource id
    rw [sourceId?_eq_some_iff, ← hsource, hnamed, Option.some.injEq]
  · intro hsource
    rw [sourceId?, sourceId?, hothers sourceFieldName (Ne.symm hsource)]

theorem attempt_of_isAt (hat : edit.IsAt record.schema.fields position field) :
    record.attempt edit = record.set position edit.value := by
  obtain ⟨hfield, hmeant⟩ := hat
  have hindex : record.schema.indexOf? field.name = some position :=
    Schema.indexOf?_eq_some_iff.mpr ⟨field, hfield, rfl⟩
  cases edit with
  | set other value =>
      obtain rfl : other = position := hmeant
      rfl
  | setNamed name value | withNamed name value =>
      obtain rfl : field.name = name := hmeant
      simp only [attempt, setNamed, hindex, Edit.value]

theorem attempt_of_nowhere
    (hnowhere : ∀ position field, ¬ edit.IsAt record.schema.fields position field) :
    record.attempt edit = .error (.field (edit.absence record.schema.name)) := by
  cases edit with
  | set position value =>
      refine set_of_absent (Option.eq_none_iff_forall_ne_some.mpr fun field hfield => ?_)
      exact hnowhere position field ⟨hfield, rfl⟩
  | setNamed name value | withNamed name value =>
      have hindex : record.schema.indexOf? name = none := by
        refine Option.eq_none_iff_forall_ne_some.mpr fun position hposition => ?_
        obtain ⟨field, hfield, hname⟩ := Schema.indexOf?_eq_some_iff.mp hposition
        exact hnowhere position field ⟨hfield, hname⟩
      simp only [attempt, setNamed, hindex, Edit.absence]

theorem outcome_attempt (record : Record) (edit : Edit) :
    record.Outcome edit (record.attempt edit) := by
  by_cases hfound : ∃ position field, edit.IsAt record.schema.fields position field
  · obtain ⟨position, field, hat⟩ := hfound
    rw [attempt_of_isAt hat]
    cases hvalue : edit.value.conformsTo field.type with
    | false =>
        rw [set_of_mismatch hat.1 hvalue]
        exact .mismatched hat hvalue
    | true =>
        obtain ⟨next, hset, hschema, hvalues⟩ := exists_set hat.1 hvalue
        rw [hset]
        exact .replaced hat hvalue (replaces_of_values hat.1 hschema hvalues)
  · have hnowhere : ∀ position field, ¬ edit.IsAt record.schema.fields position field :=
      fun position field hat => hfound ⟨position, field, hat⟩
    rw [attempt_of_nowhere hnowhere]
    exact .absent hnowhere

end Record

end RecordRollup
