import Mathlib.Init
import RecordRollup.Schema

/-!
Schemas with a hash table of places. Fields are entered one by one, and a name that is already there is
noticed when it is entered again. A place that the table gives is looked up without a further check, so
that there is no outcome if the table and the fields are not in step.
-/

namespace RecordRollup

structure FieldTable where
  name : String
  fields : List Field
  places : Std.HashMap String Nat

namespace FieldTable

/-- Enters fields, the first of which stands at `position`. -/
def enter (schema : String) (position : Nat) (places : Std.HashMap String Nat) :
    List Field → Except SchemaFault (Std.HashMap String Nat)
  | [] => .ok places
  | field :: rest =>
      if field.name = "" then .error (.unnamedField schema position)
      else if field.isSource ∧ field.type ≠ .varInt32 then .error (.sourceFieldType field.type)
      else
        match places.containsThenInsert field.name position with
        | (true, _) => .error (.repeatedField schema field.name)
        | (false, places) => enter schema (position + 1) places rest

def ofFields (name : String) (fields : List Field) : Except Error FieldTable :=
  if fields = [] then .error (.schema (.noFields name))
  else
    match enter name 0 ∅ fields with
    | .error fault => .error (.schema fault)
    | .ok places => .ok ⟨name, fields, places⟩

def indexOf? (table : FieldTable) (name : String) : Option Nat :=
  table.places[name]?

def fieldNamed? (table : FieldTable) (name : String) : Option (Except Error Field) :=
  match table.indexOf? name with
  | none => some (.error (.field (.absent name table.name)))
  | some position => table.fields[position]?.map .ok

end FieldTable

end RecordRollup
