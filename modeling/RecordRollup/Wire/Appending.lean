import RecordRollup.Wire.Field

/-!
Values written to the end of a buffer. An error can come after something was written, and what was
written before it stays in the buffer.
-/

namespace RecordRollup

namespace Wire

abbrev Writer := ExceptT Error (StateM Bytes)

namespace Writer

def put (bytes : Bytes) : Writer Unit :=
  modify (· ++ bytes)

/-- What a writer puts into a buffer of its own. -/
def gather (writer : Writer Unit) : Writer Bytes :=
  match writer.run.run [] with
  | (.ok (), bytes) => return bytes
  | (.error error, _) => throw error

/-- Cuts the buffer to the length that it had if the writer fails. -/
def orRestore (writer : Writer Unit) : Writer Unit := do
  let start := (← get).length
  tryCatch writer fun error => do
    modify (·.take start)
    throw error

/-- A buffer after it was written to, and the error if there was one. -/
def apply (writer : Writer Unit) (buffer : Bytes) : Bytes × Option Error :=
  match writer.run.run buffer with
  | (.ok (), written) => (written, none)
  | (.error error, written) => (written, some error)

end Writer

end Wire

open Wire

def Span.append (payload : Bytes) : Writer Unit := do
  Writer.put (Varint.encode payload.length)
  Writer.put payload

namespace Wire

def appendPayload (type : FieldType) (value : Value) : Writer Unit :=
  match encodePayload type value with
  | .ok payload => Writer.put payload
  | .error fault => throw (.encoding fault)

def appendValue : FieldType → Value → Writer Unit
  | .string, .string text => Span.append (Utf8.encode text)
  | .bytes, .bytes content => Span.append content
  | type, value => appendPayload type value

end Wire

end RecordRollup
