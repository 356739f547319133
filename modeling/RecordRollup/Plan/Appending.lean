import RecordRollup.Plan.Serialization
import RecordRollup.Wire.Appending

/-!
Records written to the end of a buffer, field after field. If a field cannot be written, the fields in
front of it are taken back.
-/

namespace RecordRollup

open Wire

/-- The payload of a framed field is written aside first, since its length comes before it. -/
def FieldForm.append (form : FieldForm) (value : Value) : Writer Unit := do
  if form.framed then
    let payload ← (appendPayload form.type value).gather
    Span.append payload
  else appendValue form.type value

/-- Adds to an error of writing the field that could not be written. -/
def Error.inField (name : String) : Error → Error
  | .encoding fault => .encoding (.inField name fault)
  | error => error

namespace Plan

def appendField (record : Record) (position : Nat) (form : FieldForm) : Writer Unit := do
  let value ← record.get position
  let name := (record.schema.field? position).elim "" Field.name
  (form.append value).adapt (Error.inField name)

def append (plan : Plan) (record : Record) : Writer Unit := do
  let source ← plan.sourceOf record
  Writer.orRestore <|
    ((plan.order source).zip (plan.forms source)).forM fun (position, form) =>
      appendField record position form

end Plan

end RecordRollup
