import RecordRollup.Record
import RecordRollup.Schema.Table

/-!
Records that are changed in place, one field at a time. The fields are found by position or through the
table of a schema, and a value is put where it belongs without looking again whether there is a cell for
it, so that there is no outcome if there is none.
-/

namespace RecordRollup

/-- A change of one field. The last kind gives a record in the place of another one, which is lost if the
value is refused, so that whoever goes on has kept a copy. -/
inductive Edit
  | set (position : Nat) (value : Value)
  | setNamed (name : String) (value : Value)
  | withNamed (name : String) (value : Value)
deriving DecidableEq, Repr

def Edit.value : Edit → Value
  | set _ value | setNamed _ value | withNamed _ value => value

/-- The values of a record, with nothing that ties them to the fields. -/
structure Cells where
  table : FieldTable
  values : List Value

namespace Cells

/-- Values that are given in the order of the fields, or null in every field. -/
def start (table : FieldTable) : Option (List Value) → Except Error Cells
  | none => .ok ⟨table, List.replicate table.fields.length .null⟩
  | some values =>
      if values.length ≠ table.fields.length then
        .error (.field (.valueCount table.name table.fields.length values.length))
      else
        match Record.mismatch? table.fields values with
        | some error => .error error
        | none => .ok ⟨table, values⟩

def get (cells : Cells) (position : Nat) : Except Error Value :=
  match cells.values[position]? with
  | some value => .ok value
  | none => .error (.field (.noPosition position cells.table.name cells.values.length))

def getNamed? (cells : Cells) (name : String) : Option (Except Error Value) :=
  match cells.table.indexOf? name with
  | none => some (.error (.field (.absent name cells.table.name)))
  | some position => cells.values[position]?.map .ok

def sourceId? (cells : Cells) : Option (Option Int32) :=
  match cells.table.indexOf? sourceFieldName with
  | none => some none
  | some position =>
      cells.values[position]?.map fun
        | .int id => some id
        | _ => none

def write? (cells : Cells) (position : Nat) (value : Value) : Option Cells :=
  if position < cells.values.length then
    some { cells with values := cells.values.set position value }
  else none

/-- The cells after an attempt to set one of them, and the error if the attempt failed. -/
def set? (cells : Cells) (position : Nat) (value : Value) : Option (Cells × Option Error) :=
  match cells.table.fields[position]? with
  | none => some (cells, some (.field (.noPositionToSet position cells.table.name)))
  | some field =>
      if value.conformsTo field.type then
        (cells.write? position value).map fun cells => (cells, none)
      else some (cells, some (.typeMismatch field.name field.type value.kind))

def setNamed? (cells : Cells) (name : String) (value : Value) : Option (Cells × Option Error) :=
  match cells.table.indexOf? name with
  | none => some (cells, some (.field (.absent name cells.table.name)))
  | some position => cells.set? position value

def withNamed? (cells : Cells) (name : String) (value : Value) : Option (Except Error Cells) :=
  (cells.setNamed? name value).map fun
    | (cells, none) => .ok cells
    | (_, some error) => .error error

def edit? (cells : Cells) : Edit → Option (Cells × Option Error)
  | .set position value => cells.set? position value
  | .setNamed name value => cells.setNamed? name value
  | .withNamed name value =>
      (cells.withNamed? name value).map fun
        | .ok next => (next, none)
        | .error error => (cells, some error)

/-- Edits one after the other, whether they are refused or not. -/
def editAll? (cells : Cells) : List Edit → Option Cells
  | [] => some cells
  | edit :: rest => do
      let (next, _) ← cells.edit? edit
      next.editAll? rest

end Cells

namespace Record

def start (schema : Schema) : Option (List Value) → Except Error Record
  | none => .ok (.blank schema)
  | some values => ofValues schema values

def attempt (record : Record) : Edit → Except Error Record
  | .set position value => record.set position value
  | .setNamed name value | .withNamed name value => record.setNamed name value

/-- The record after an edit, which is the one before it if the edit is refused. -/
def edit (record : Record) (edit : Edit) : Record :=
  match record.attempt edit with
  | .ok next => next
  | .error _ => record

def editAll (record : Record) (edits : List Edit) : Record :=
  edits.foldl edit record

end Record

end RecordRollup
