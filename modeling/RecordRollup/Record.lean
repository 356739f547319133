import RecordRollup.Schema

/-!
Records: a value for every field of a schema, each of the type of its field or null.
-/

namespace RecordRollup

def Conforming (fields : List Field) (values : List Value) : Prop :=
  ∀ (position : Nat) (field : Field) (value : Value),
    fields[position]? = some field → values[position]? = some value → value.conformsTo field.type

structure Record where
  schema : Schema
  values : List Value
  size_eq : values.length = schema.size
  conforming : Conforming schema.fields values
deriving DecidableEq

namespace Record

def mismatch? : List Field → List Value → Option Error
  | field :: fields, value :: values =>
      if value.conformsTo field.type then mismatch? fields values
      else some (.typeMismatch field.name field.type value.kind)
  | _, _ => none

theorem mismatch?_eq_none_iff {fields : List Field} {values : List Value} :
    mismatch? fields values = none ↔ Conforming fields values := by
  induction fields generalizing values with
  | nil => simp [mismatch?, Conforming]
  | cons field fields ih =>
      cases values with
      | nil => simp [mismatch?, Conforming]
      | cons value values =>
          simp only [mismatch?]
          split
          · next hvalue =>
              rw [ih]
              constructor
              · intro hrest position
                cases position with
                | zero => simpa using hvalue
                | succ position => simpa using hrest position
              · intro hall position
                simpa using hall (position + 1)
          · next hvalue =>
              simp only [reduceCtorEq, false_iff]
              exact fun hall => hvalue (hall 0 field value (by simp) (by simp))

/-- The record of a schema in which every field is null. -/
def blank (schema : Schema) : Record where
  schema := schema
  values := List.replicate schema.size .null
  size_eq := by simp
  conforming := by
    intro position field value _ hvalue
    obtain ⟨-, rfl⟩ := by simpa [List.getElem?_replicate] using hvalue
    simp

def ofValues (schema : Schema) (values : List Value) : Except Error Record :=
  if hsize : values.length = schema.size then
    match hfault : mismatch? schema.fields values with
    | some error => .error error
    | none => .ok ⟨schema, values, hsize, mismatch?_eq_none_iff.mp hfault⟩
  else .error (.field (.valueCount schema.name schema.size values.length))

def size (record : Record) : Nat :=
  record.values.length

def get (record : Record) (position : Nat) : Except Error Value :=
  match record.values[position]? with
  | some value => .ok value
  | none => .error (.field (.noPosition position record.schema.name record.size))

def getNamed? (record : Record) (name : String) : Option Value :=
  (record.schema.indexOf? name).bind (record.values[·]?)

def getNamed (record : Record) (name : String) : Except Error Value :=
  match record.getNamed? name with
  | some value => .ok value
  | none => .error (.field (.absent name record.schema.name))

/-- The record with another value at a position, which has to be of the field's type or null. -/
def set (record : Record) (position : Nat) (value : Value) : Except Error Record :=
  match hfield : record.schema.fields[position]? with
  | none => .error (.field (.noPositionToSet position record.schema.name))
  | some field =>
      if hvalue : value.conformsTo field.type then
        .ok {
          schema := record.schema
          values := record.values.set position value
          size_eq := by simpa using record.size_eq
          conforming := by
            intro other otherField otherValue hotherField hotherValue
            rw [List.getElem?_set] at hotherValue
            split at hotherValue
            · next heq =>
                subst heq
                split at hotherValue
                · cases hotherValue
                  rw [hfield] at hotherField
                  cases hotherField
                  exact hvalue
                · cases hotherValue
            · exact record.conforming other otherField otherValue hotherField hotherValue }
      else .error (.typeMismatch field.name field.type value.kind)

def setNamed (record : Record) (name : String) (value : Value) : Except Error Record :=
  match record.schema.indexOf? name with
  | none => .error (.field (.absent name record.schema.name))
  | some position => record.set position value

/-- The source that the record itself names, if its schema has a source field and it is set. -/
def sourceId? (record : Record) : Option Int32 :=
  match record.getNamed? sourceFieldName with
  | some (.int id) => some id
  | _ => none

/-- Equality with floating-point values compared as numbers. -/
def sameRecord (left right : Record) : Bool :=
  left.schema = right.schema && left.size = right.size &&
    (left.values.zip right.values).all fun (leftValue, rightValue) => leftValue.sameValue rightValue

def text (record : Record) : String :=
  "\t".intercalate (record.values.map Value.text)

end Record

end RecordRollup
