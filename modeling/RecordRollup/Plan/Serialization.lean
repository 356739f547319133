import RecordRollup.Plan
import RecordRollup.Wire.Field

/-!
Serialized records: the fields of a record one after the other, in the order of its source. Common
fields with a comparator are preceded by their length, all others are in their natural form.
-/

namespace RecordRollup

/-- How a field is written: its type, and whether its payload is preceded by its length. -/
structure FieldForm where
  type : FieldType
  framed : Bool
deriving DecidableEq, Repr

namespace FieldForm

def write (form : FieldForm) (value : Value) : Except EncodeFault Bytes :=
  if form.framed then Wire.encodeFramed form.type value else Wire.encode form.type value

def readAt (form : FieldForm) (buffer : Bytes) (position : Nat) : Except Error (Value × Nat) :=
  if form.framed then do
    let (payload, used) ← Span.readAt buffer position
    return (← Wire.decodePayload form.type payload, used)
  else Wire.decodeAt form.type buffer position

end FieldForm

def SortKey.form (key : SortKey) : FieldForm :=
  ⟨key.type, key.comparator.isSome⟩

/-- Reads fields one after the other. The result ends with the position behind the last one. -/
def readFields (buffer : Bytes) : List FieldForm → Nat → Except Error (List Value × Nat)
  | [], position => .ok ([], position)
  | form :: forms, position => do
      let (value, used) ← form.readAt buffer position
      let (values, position) ← readFields buffer forms (position + used)
      return (value :: values, position)

/-- Values at the positions that belong to them; positions without a value hold null. -/
def arrange (size : Nat) (positions : List Nat) (values : List Value) : List Value :=
  (List.range size).map fun position => ((positions.zip values).lookup position).getD .null

namespace Plan

def ownPositions (plan : Plan) (source : Source) : List Nat :=
  (plan.order source).drop plan.keys.length

def ownForms (plan : Plan) (source : Source) : List FieldForm :=
  (plan.ownPositions source).filterMap fun position =>
    source.schema.fields[position]?.map fun field => ⟨field.type, false⟩

def forms (plan : Plan) (source : Source) : List FieldForm :=
  plan.keys.map SortKey.form ++ plan.ownForms source

def writeField (record : Record) (position : Nat) (form : FieldForm) : Except Error Bytes := do
  let value ← record.get position
  match form.write value with
  | .ok bytes => return bytes
  | .error fault =>
      let name := (record.schema.field? position).elim "" Field.name
      .error (.encoding (.inField name fault))

def serialize (plan : Plan) (record : Record) : Except Error Bytes := do
  let source ← plan.sourceOf record
  let fields ← ((plan.order source).zip (plan.forms source)).mapM fun (position, form) =>
    writeField record position form
  return fields.flatten

def sourceOfValues (plan : Plan) (values : List Value) : Except Error Source :=
  match plan.soleSource? with
  | some source => .ok source
  | none =>
      match plan.sourceIndex? with
      | none => .error (.internal .noSourceKey)
      | some position =>
          match values[position]? with
          | some (.int id) =>
              match plan.source? id with
              | some source => .ok source
              | none => .error (.decoding (.unknownSource id))
          | _ => .error (.decoding .noSource)

/-- The record whose serialized form takes exactly the given bytes. -/
def deserialize (plan : Plan) (bytes : Bytes) : Except Error Record := do
  let (common, position) ← readFields bytes (plan.keys.map SortKey.form) 0
  let source ← plan.sourceOfValues common
  let (own, position) ← readFields bytes (plan.ownForms source) position
  if position ≠ bytes.length then
    .error (.decoding (.trailingRecord (bytes.length - position) source.schema.name))
  else
    Record.ofValues source.schema
      (arrange source.schema.size (plan.order source) (common ++ own))

end Plan

end RecordRollup
