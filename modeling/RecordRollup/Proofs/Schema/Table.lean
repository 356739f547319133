import Mathlib
import RecordRollup.Proofs.Plan.Layout
import RecordRollup.Proofs.Schema.RoundTrip
import RecordRollup.Schema.Table

/-!
The hash table of a schema is the inverse of its field list: the place that it gives for a name is where
the one field of that name stands. It is made of the same fields as the schema and fails with the same
faults, and no look-up of a field by name is without an outcome.
-/

namespace RecordRollup

theorem Schema.ofFields_eq_error_iff {name : String} {fields : List Field} {error : Error} :
    Schema.ofFields name fields = .error error ↔
      if fields = [] then error = .schema (.noFields name)
      else ∃ fault, Schema.fieldsFault? name 0 [] fields = some fault ∧ error = .schema fault := by
  rw [Schema.ofFields]
  split
  · rw [Except.error.injEq, eq_comm]
  · split
    · next fault hfault => simp [hfault, eq_comm]
    · next hnone => simp [hnone]

namespace FieldTable

variable {schemaName name : String} {position : Nat} {earlier : List String}
  {places entered : Std.HashMap String Nat} {fields : List Field} {table : FieldTable} {error : Error}

theorem enter_cons (field : Field) (rest : List Field) :
    enter schemaName position places (field :: rest) =
      if field.name = "" then .error (.unnamedField schemaName position)
      else if field.name = sourceFieldName ∧ field.type ≠ .varInt32 then
        .error (.sourceFieldType field.type)
      else if field.name ∈ places then .error (.repeatedField schemaName field.name)
      else enter schemaName (position + 1) (places.insert field.name position) rest := by
  have hinsert : places.containsThenInsert field.name position =
      (places.contains field.name, places.insert field.name position) :=
    Prod.ext Std.HashMap.containsThenInsert_fst Std.HashMap.containsThenInsert_snd
  simp only [enter, Field.isSource, decide_eq_true_eq, hinsert, Std.HashMap.mem_iff_contains]
  cases places.contains field.name <;> rfl

theorem enter_eq_error_iff {fault : SchemaFault} (hearlier : ∀ name, name ∈ places ↔ name ∈ earlier) :
    enter schemaName position places fields = .error fault ↔
      Schema.fieldsFault? schemaName position earlier fields = some fault := by
  induction fields generalizing position places earlier with
  | nil => simp [enter, Schema.fieldsFault?]
  | cons field rest ih =>
      simp only [enter_cons, Schema.fieldsFault?, hearlier]
      split
      · simp
      · split
        · simp
        · split
          · simp
          · apply ih
            intro name
            rw [Std.HashMap.mem_insert, List.mem_cons, hearlier, beq_iff_eq, eq_comm]

theorem exists_enter_iff (hearlier : ∀ name, name ∈ places ↔ name ∈ earlier) :
    (∃ entered, enter schemaName position places fields = .ok entered) ↔
      WellNamed fields ∧ ∀ field ∈ fields, field.name ∉ earlier := by
  have hnone : Schema.fieldsFault? schemaName position earlier fields = none ↔ _ :=
    Schema.fieldsFault?_eq_none_iff
  rw [← hnone]
  cases henter : enter schemaName position places fields with
  | error fault => simp [(enter_eq_error_iff hearlier).mp henter]
  | ok entered =>
      simp only [Except.ok.injEq, exists_eq', true_iff]
      cases hfault : Schema.fieldsFault? schemaName position earlier fields with
      | none => rfl
      | some fault => simp [(enter_eq_error_iff hearlier).mpr hfault] at henter

theorem findIdx?_eq_none_of_enter (henter : enter schemaName position places fields = .ok entered)
    (hmem : name ∈ places) : fields.findIdx? (·.name = name) = none := by
  obtain ⟨-, hfresh⟩ := (exists_enter_iff fun name => Std.HashMap.mem_keys.symm).mp ⟨entered, henter⟩
  rw [List.findIdx?_eq_none_iff]
  intro field hfield
  have habsent := hfresh field hfield
  rw [Std.HashMap.mem_keys] at habsent
  simpa using fun hname : field.name = name => habsent (hname ▸ hmem)

/-- The table gives the place of the first field of a name, and what it gave before for all other
names. -/
theorem getElem?_of_enter (henter : enter schemaName position places fields = .ok entered)
    (name : String) :
    entered[name]? =
      ((fields.findIdx? (·.name = name)).map (position + ·)).or places[name]? := by
  induction fields generalizing position places with
  | nil =>
      cases henter
      rfl
  | cons field rest ih =>
      rw [enter_cons] at henter
      split at henter
      · cases henter
      · split at henter
        · cases henter
        · split at henter
          · cases henter
          · rw [ih henter, Std.HashMap.getElem?_insert, List.findIdx?_cons]
            rcases eq_or_ne field.name name with rfl | hother
            · simp [findIdx?_eq_none_of_enter henter Std.HashMap.mem_insert_self]
            · cases rest.findIdx? (·.name = name) <;> simp [hother, Nat.add_comm, Nat.add_left_comm]

theorem ofFields_eq_ok_iff :
    ofFields name fields = .ok table ↔
      fields ≠ [] ∧ table.name = name ∧ table.fields = fields ∧
        enter name 0 ∅ fields = .ok table.places := by
  rw [ofFields]
  split
  · next hempty => simp [hempty]
  · next hne =>
      rw [and_iff_right hne]
      constructor
      · intro hmade
        split at hmade
        · cases hmade
        · next places henter =>
            cases hmade
            exact ⟨rfl, rfl, henter⟩
      · rintro ⟨rfl, rfl, henter⟩
        rw [henter]

theorem exists_ofFields_iff :
    (∃ table, ofFields name fields = .ok table) ↔ fields ≠ [] ∧ WellNamed fields := by
  have hentered : (∃ places, enter name 0 ∅ fields = .ok places) ↔
      WellNamed fields ∧ ∀ field ∈ fields, field.name ∉ [] := exists_enter_iff (by simp)
  constructor
  · rintro ⟨table, htable⟩
    obtain ⟨hne, -, -, henter⟩ := ofFields_eq_ok_iff.mp htable
    exact ⟨hne, (hentered.mp ⟨_, henter⟩).1⟩
  · rintro ⟨hne, wellNamed⟩
    obtain ⟨places, henter⟩ := hentered.mpr ⟨wellNamed, by simp⟩
    exact ⟨⟨name, fields, places⟩, ofFields_eq_ok_iff.mpr ⟨hne, rfl, rfl, henter⟩⟩

theorem ofFields_eq_error_iff :
    ofFields name fields = .error error ↔ Schema.ofFields name fields = .error error := by
  have hfault (fault : SchemaFault) : enter name 0 ∅ fields = .error fault ↔
      Schema.fieldsFault? name 0 [] fields = some fault := enter_eq_error_iff (by simp)
  rw [Schema.ofFields_eq_error_iff, ofFields]
  split
  · rw [Except.error.injEq, eq_comm]
  · simp only [← hfault]
    cases enter name 0 ∅ fields <;> simp [eq_comm]

/-- A table of the fields of a schema, with the places at which the schema finds them. -/
structure Shows (table : FieldTable) (schema : Schema) : Prop where
  name : table.name = schema.name
  fields : table.fields = schema.fields
  indexOf? : ∀ name, table.indexOf? name = schema.indexOf? name

theorem exists_shows (htable : ofFields name fields = .ok table) :
    ∃ schema, Schema.ofFields name fields = .ok schema ∧ table.Shows schema := by
  obtain ⟨hne, rfl, rfl, henter⟩ := ofFields_eq_ok_iff.mp htable
  obtain ⟨-, wellNamed⟩ := exists_ofFields_iff.mp ⟨table, htable⟩
  refine ⟨⟨table.name, table.fields, hne, wellNamed⟩, Schema.ofFields_eq_ok_iff.mpr ⟨rfl, rfl⟩,
    rfl, rfl, fun name => ?_⟩
  rw [indexOf?, getElem?_of_enter henter]
  simp [Schema.indexOf?]

namespace Shows

variable {schema : Schema}

theorem indexOf?_eq_some_iff (shows : table.Shows schema) :
    table.indexOf? name = some position ↔
      ∃ field, table.fields[position]? = some field ∧ field.name = name := by
  rw [shows.indexOf?, shows.fields, Schema.indexOf?_eq_some_iff]

theorem indexOf?_eq_none_iff (shows : table.Shows schema) :
    table.indexOf? name = none ↔ ∀ field ∈ table.fields, field.name ≠ name := by
  rw [shows.indexOf?, shows.fields, Schema.indexOf?, List.findIdx?_eq_none_iff]
  simp

theorem fieldNamed?_eq (shows : table.Shows schema) (name : String) :
    table.fieldNamed? name = some (schema.fieldNamed name) := by
  rw [fieldNamed?, Schema.fieldNamed]
  cases hindex : table.indexOf? name with
  | none =>
      have habsent := shows.indexOf?_eq_none_iff.mp hindex
      rw [shows.fields] at habsent
      have hnone : schema.fieldNamed? name = none := by
        simpa [Schema.fieldNamed?] using habsent
      rw [hnone, shows.name]
  | some position =>
      obtain ⟨field, hfield, hname⟩ := shows.indexOf?_eq_some_iff.mp hindex
      have hmem : field ∈ schema.fields := shows.fields ▸ List.mem_of_getElem? hfield
      have hfound : schema.fieldNamed? name = some field :=
        Schema.fieldNamed?_eq_some_iff.mpr ⟨hmem, hname⟩
      simp only [hfound, hfield, Option.map_some]

end Shows

end FieldTable

end RecordRollup
