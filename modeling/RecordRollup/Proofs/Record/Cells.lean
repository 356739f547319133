import Mathlib
import RecordRollup.Proofs.Record.Edits

namespace RecordRollup

namespace Record

variable {schema : Schema} {first : Record} {values : List Value} {given : Option (List Value)}

theorem ofValues_eq_error_iff {error : Error} :
    ofValues schema values = .error error ↔
      if values.length = schema.size then mismatch? schema.fields values = some error
      else error = .field (.valueCount schema.name schema.size values.length) := by
  rw [ofValues]
  split
  · split
    · next other hother => rw [hother, Except.error.injEq, Option.some.injEq]
    · next hnone => simp [hnone]
  · rw [Except.error.injEq, eq_comm]

theorem schema_of_start (hfirst : start schema given = .ok first) : first.schema = schema := by
  cases given with
  | none =>
      cases hfirst
      rfl
  | some values => exact (ofValues_eq_ok_iff.mp hfirst).1

theorem schema_edit (record : Record) (edit : Edit) : (record.edit edit).schema = record.schema := by
  have houtcome := record.outcome_attempt edit
  rw [Record.edit]
  cases hattempt : record.attempt edit with
  | error error => rfl
  | ok next =>
      rw [hattempt] at houtcome
      cases houtcome with
      | replaced hat hvalue hnext => exact hnext.schema

theorem schema_editAll (record : Record) (edits : List Edit) :
    (record.editAll edits).schema = record.schema := by
  induction edits generalizing record with
  | nil => rfl
  | cons edit edits ih => exact (ih (record.edit edit)).trans (record.schema_edit edit)

end Record

namespace Cells

variable {table : FieldTable} {schema : Schema} {cells : Cells} {record : Record}

/-- Cells with the values of a record, and with a table of its fields. -/
structure Shows (cells : Cells) (record : Record) : Prop where
  table : cells.table.Shows record.schema
  values : cells.values = record.values

structure ReadsAs (cells : Cells) (record : Record) : Prop where
  get : ∀ position, cells.get position = record.get position
  getNamed : ∀ name, cells.getNamed? name = some (record.getNamed name)
  sourceId : cells.sourceId? = some record.sourceId?

/-- What becomes of the cells goes by what becomes of a record. -/
def Settles (cells : Cells) (result : Option (Cells × Option Error)) : Except Error Record → Prop
  | .ok next => ∃ after, result = some (after, none) ∧ after.Shows next ∧ after.ReadsAs next
  | .error error => result = some (cells, some error)

/-- Cells that hold a value for each field of a record, of the type of the field or null, and that are
read and edited as the record is. -/
structure Upholds (cells : Cells) (record : Record) : Prop where
  shows : cells.Shows record
  size : cells.values.length = record.schema.fields.length
  conforming : Conforming record.schema.fields cells.values
  readsAs : cells.ReadsAs record
  outcome : ∀ edit, record.Outcome edit (record.attempt edit)
  settles : ∀ edit, cells.Settles (cells.edit? edit) (record.attempt edit)

theorem start_eq_ok_iff {values : List Value} :
    start table (some values) = .ok cells ↔
      values.length = table.fields.length ∧ Record.mismatch? table.fields values = none ∧
        cells = ⟨table, values⟩ := by
  rw [start]
  split
  · next hcount => simp [hcount]
  · next hcount =>
      rw [and_iff_right (not_not.mp hcount)]
      cases Record.mismatch? table.fields values <;> simp [eq_comm]

theorem start_eq_error_iff (shows : table.Shows schema) {given : Option (List Value)} {error : Error} :
    start table given = .error error ↔ Record.start schema given = .error error := by
  cases given with
  | none => simp [start, Record.start]
  | some values =>
      rw [Record.start, Record.ofValues_eq_error_iff, start, shows.fields, shows.name]
      change (if values.length ≠ schema.size then _ else _) = _ ↔ _
      by_cases hcount : values.length = schema.size
      · rw [if_neg (not_not.mpr hcount), if_pos hcount]
        cases Record.mismatch? schema.fields values <;> simp
      · rw [if_pos hcount, if_neg hcount, Except.error.injEq, eq_comm]
        rfl

theorem exists_start (shows : table.Shows schema) {given : Option (List Value)}
    (hstart : start table given = .ok cells) :
    ∃ record, Record.start schema given = .ok record ∧ cells.Shows record := by
  cases given with
  | none =>
      cases hstart
      refine ⟨.blank schema, rfl, shows, ?_⟩
      rw [shows.fields]
      rfl
  | some values =>
      obtain ⟨-, -, rfl⟩ := start_eq_ok_iff.mp hstart
      cases hrecord : Record.start schema (some values) with
      | error error =>
          rw [(start_eq_error_iff shows).mpr hrecord] at hstart
          cases hstart
      | ok record =>
          obtain ⟨hschema, hvalues⟩ := Record.ofValues_eq_ok_iff.mp hrecord
          exact ⟨record, rfl, hschema ▸ shows, hvalues.symm⟩

namespace Shows

theorem readsAs (shows : cells.Shows record) : cells.ReadsAs record := by
  constructor
  · intro position
    cases hvalue : record.values[position]? with
    | none => simp only [Cells.get, Record.get, shows.values, shows.table.name, Record.size, hvalue]
    | some value => simp only [Cells.get, Record.get, shows.values, hvalue]
  · intro name
    rw [getNamed?, Record.getNamed, Record.getNamed?, shows.table.indexOf?, shows.values,
      shows.table.name]
    cases hindex : record.schema.indexOf? name with
    | none => rfl
    | some position =>
        obtain ⟨value, hvalue⟩ := Record.exists_getElem?_of_indexOf? hindex
        simp only [hvalue, Option.map_some, Option.bind_some]
  · rw [sourceId?, Record.sourceId?, Record.getNamed?, shows.table.indexOf?, shows.values]
    cases hindex : record.schema.indexOf? sourceFieldName with
    | none => rfl
    | some position =>
        obtain ⟨value, hvalue⟩ := Record.exists_getElem?_of_indexOf? hindex
        simp only [hvalue, Option.map_some, Option.bind_some]
        cases value <;> rfl

theorem settles_set (shows : cells.Shows record) (position : Nat) (value : Value) :
    cells.Settles (cells.set? position value) (record.set position value) := by
  rw [set?, shows.table.fields, shows.table.name]
  cases hfield : record.schema.fields[position]? with
  | none =>
      rw [Record.set_of_absent hfield]
      rfl
  | some field =>
      cases hvalue : value.conformsTo field.type with
      | false =>
          rw [Record.set_of_mismatch hfield hvalue]
          simp [Settles, hvalue]
      | true =>
          obtain ⟨next, hset, hschema, hvalues⟩ := Record.exists_set hfield hvalue
          have hinside : position < cells.values.length :=
            shows.values ▸ Record.lt_size_of_getElem? hfield
          have hafter : Shows ⟨cells.table, cells.values.set position value⟩ next := by
            refine ⟨hschema ▸ shows.table, ?_⟩
            rw [hvalues, shows.values]
          rw [hset]
          refine ⟨_, ?_, hafter, hafter.readsAs⟩
          simp [hvalue, write?, hinside]

theorem settles_setNamed (shows : cells.Shows record) (name : String) (value : Value) :
    cells.Settles (cells.setNamed? name value) (record.setNamed name value) := by
  rw [setNamed?, Record.setNamed, shows.table.indexOf?, shows.table.name]
  cases record.schema.indexOf? name with
  | none => rfl
  | some position => exact shows.settles_set position value

theorem settles_edit (shows : cells.Shows record) (edit : Edit) :
    cells.Settles (cells.edit? edit) (record.attempt edit) := by
  cases edit with
  | set position value => exact shows.settles_set position value
  | setNamed name value => exact shows.settles_setNamed name value
  | withNamed name value =>
      have hsettles := shows.settles_setNamed name value
      rw [edit?, withNamed?, Record.attempt]
      cases hattempt : record.setNamed name value with
      | ok next =>
          rw [hattempt] at hsettles
          obtain ⟨after, hafter, hnext⟩ := hsettles
          rw [hafter]
          exact ⟨after, rfl, hnext⟩
      | error error =>
          rw [hattempt] at hsettles
          change cells.setNamed? name value = some (cells, some error) at hsettles
          rw [hsettles]
          rfl

theorem exists_editAll (shows : cells.Shows record) (edits : List Edit) :
    ∃ after, cells.editAll? edits = some after ∧ after.Shows (record.editAll edits) := by
  induction edits generalizing cells record with
  | nil => exact ⟨cells, rfl, shows⟩
  | cons edit edits ih =>
      have hsettles := shows.settles_edit edit
      rw [editAll?, Record.editAll, List.foldl_cons, Record.edit]
      cases hattempt : record.attempt edit with
      | ok next =>
          rw [hattempt] at hsettles
          obtain ⟨after, hafter, hnext, -⟩ := hsettles
          rw [hafter]
          exact ih hnext
      | error error =>
          rw [hattempt] at hsettles
          change cells.edit? edit = some (cells, some error) at hsettles
          rw [hsettles]
          exact ih shows

theorem upholds (shows : cells.Shows record) : cells.Upholds record where
  shows := shows
  size := shows.values ▸ record.size_eq
  conforming := shows.values ▸ record.conforming
  readsAs := shows.readsAs
  outcome := record.outcome_attempt
  settles := shows.settles_edit

end Shows

/-- The table accepts the fields that the schema accepts and finds them where they are. Cells are filled as
a record of the schema is, and after any edits, refused ones among them, they show the record that the
same edits lead to. -/
theorem edits_keep_record (name : String) (fields : List Field) :
    ((∃ table, FieldTable.ofFields name fields = .ok table) ↔ fields ≠ [] ∧ WellNamed fields) ∧
    (∀ error, FieldTable.ofFields name fields = .error error ↔
      Schema.ofFields name fields = .error error) ∧
    ∀ table, FieldTable.ofFields name fields = .ok table →
      (∀ name position, table.indexOf? name = some position ↔
        ∃ field, fields[position]? = some field ∧ field.name = name) ∧
      ∃ schema, Schema.ofFields name fields = .ok schema ∧ table.Shows schema ∧
        (∀ name, table.fieldNamed? name = some (schema.fieldNamed name)) ∧
        (∀ given error, start table given = .error error ↔
          Record.start schema given = .error error) ∧
        ∀ given first, start table given = .ok first →
          ∃ record, Record.start schema given = .ok record ∧
            ∀ edits, (record.editAll edits).schema.fields = fields ∧
              ∃ cells, first.editAll? edits = some cells ∧ cells.Upholds (record.editAll edits) := by
  refine ⟨FieldTable.exists_ofFields_iff, fun error => FieldTable.ofFields_eq_error_iff, ?_⟩
  intro table htable
  obtain ⟨schema, hschema, shows⟩ := FieldTable.exists_shows htable
  obtain ⟨-, hfields⟩ := Schema.ofFields_eq_ok_iff.mp hschema
  refine ⟨fun name position => ?_, schema, hschema, shows, shows.fieldNamed?_eq,
    fun given error => start_eq_error_iff shows, fun given first hfirst => ?_⟩
  · rw [shows.indexOf?_eq_some_iff, shows.fields, hfields]
  · obtain ⟨record, hrecord, hshown⟩ := exists_start shows hfirst
    refine ⟨record, hrecord, fun edits => ⟨?_, ?_⟩⟩
    · rw [Record.schema_editAll, Record.schema_of_start hrecord, hfields]
    · obtain ⟨cells, hcells, hafter⟩ := hshown.exists_editAll edits
      exact ⟨cells, hcells, hafter.upholds⟩

end Cells

namespace Sample

def ann : Record where
  schema := people
  values := [.string "Ann", .int 3]
  size_eq := rfl
  conforming := Record.mismatch?_eq_none_iff.mp rfl

/-- A value of another type, a field that there is not, and another source. -/
def annEdits : List Edit :=
  [.set 1 (.long 5), .setNamed "age" .null, .withNamed sourceFieldName (.int 7)]

end Sample

namespace Cells

theorem edits_keep_record_people :
    ∃ table first cells, FieldTable.ofFields "people" Sample.people.fields = .ok table ∧
      start table (some Sample.ann.values) = .ok first ∧
      first.editAll? Sample.annEdits = some cells ∧
      cells.values = [.string "Ann", .int 7] ∧ cells.sourceId? = some (some 7) ∧
      cells.edit? (.set 1 (.long 5)) =
        some (cells, some (.typeMismatch sourceFieldName .varInt32 "Long")) := by
  obtain ⟨haccepted, -, hkept⟩ := edits_keep_record "people" Sample.people.fields
  obtain ⟨table, htable⟩ := haccepted.mpr ⟨Sample.people.fields_ne_nil, Sample.people.wellNamed⟩
  obtain ⟨-, schema, hschema, -, -, -, hstarted⟩ := hkept table htable
  obtain rfl : Sample.people = schema :=
    Except.ok.inj ((Schema.ofFields_eq_ok_iff.mpr ⟨rfl, rfl⟩).symm.trans hschema)
  have hfields := (FieldTable.ofFields_eq_ok_iff.mp htable).2.2.1
  have hfirst : start table (some Sample.ann.values) = .ok ⟨table, Sample.ann.values⟩ := by
    refine start_eq_ok_iff.mpr ⟨?_, ?_, rfl⟩ <;> rw [hfields] <;> rfl
  obtain ⟨record, hrecord, hedited⟩ := hstarted _ _ hfirst
  obtain rfl : Sample.ann = record :=
    Except.ok.inj ((Plan.ofValues_values Sample.ann).symm.trans hrecord)
  obtain ⟨-, cells, hcells, upholds⟩ := hedited Sample.annEdits
  have hvalues : (Sample.ann.editAll Sample.annEdits).values = [.string "Ann", .int 7] := by decide
  have hsource : (Sample.ann.editAll Sample.annEdits).sourceId? = some 7 := by decide
  have hrefused : (Sample.ann.editAll Sample.annEdits).attempt (.set 1 (.long 5)) =
      .error (.typeMismatch sourceFieldName .varInt32 "Long") := rfl
  have hsettled := upholds.settles (.set 1 (.long 5))
  rw [hrefused] at hsettled
  refine ⟨table, _, cells, htable, hfirst, hcells, upholds.shows.values.trans hvalues, ?_, hsettled⟩
  rw [upholds.readsAs.sourceId, hsource]

end Cells

end RecordRollup
