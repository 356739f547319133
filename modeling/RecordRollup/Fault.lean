import RecordRollup.Text.Quoted
import RecordRollup.Value

/-!
What can be wrong with a setup, a record or a buffer, one type of faults for each place that looks
for them, and the wording of each fault.
-/

namespace RecordRollup

/-- The reserved name of the field that says which source a record belongs to. -/
def sourceFieldName : String := "#source#"

def shownSourceId : Option Int32 → String
  | some id => s!"Some({id.toInt})"
  | none => "None"

/-- The place of a word that a criteria text has to be able to carry. -/
inductive WordRole
  | fieldName
  | comparatorId
deriving DecidableEq, Repr

def WordRole.text : WordRole → String
  | fieldName => "field name"
  | comparatorId => "comparator id"

inductive CriteriaFault
  | shape (segment text : String)
  | direction (word text : String)
  | notAWord (role : WordRole) (word : String)
deriving DecidableEq, Repr

def CriteriaFault.message : CriteriaFault → String
  | shape segment text =>
      s!"Expected '<field> [using <comparator>] <ASC|DESC>' but got '{segment}' in '{text}'"
  | direction word text => s!"Invalid sort direction '{word}' in '{text}', expected ASC or DESC"
  | notAWord role word =>
      s!"Invalid {role.text} '{word}': expected a single token without whitespace or ','"

inductive ComparatorFault
  | sourceField
  | unsupportedType (type : FieldType)
  | specificField
deriving DecidableEq, Repr

def ComparatorFault.message : ComparatorFault → String
  | sourceField => "the source discriminator always uses its natural order"
  | unsupportedType type => s!"fields of type {type.label} are not supported"
  | specificField => "custom comparators are only supported on common sort fields"

inductive GroupByFault
  | noFields
  | tooMany (fields sortFields : Nat) (criteria : String)
  | mismatch (index : Nat) (field sortField criteria : String)
  | unknownRollup (name : String) (fields : List String)
deriving DecidableEq, Repr

def GroupByFault.message : GroupByFault → String
  | noFields => "At least one group-by field is required"
  | tooMany fields sortFields criteria =>
      s!"{fields} group-by fields but only {sortFields} common sort fields ('{criteria}')"
  | mismatch index field sortField criteria =>
      s!"Group-by field #{index} is '{field}' but sort field #{index} is '{sortField}'; " ++
        s!"group-by must be a prefix of '{criteria}'"
  | unknownRollup name fields =>
      s!"Rollup field '{name}' is not one of the group-by fields {Text.quotedList fields}"

inductive SchemaFault
  | noFields (schema : String)
  | unnamedField (schema : String) (position : Nat)
  | sourceFieldType (type : FieldType)
  | repeatedField (schema field : String)
  | fieldShape (token text : String)
  | unknownType (name : String)
deriving DecidableEq, Repr

def SchemaFault.message : SchemaFault → String
  | noFields schema => s!"Schema '{schema}' has no fields"
  | unnamedField schema position =>
      s!"Schema '{schema}' has an unnamed field at position {position}"
  | sourceFieldType type =>
      s!"Field '{sourceFieldName}' must be of type VarInt32, got {type.label}"
  | repeatedField schema field => s!"Schema '{schema}' repeats field '{field}'"
  | fieldShape token text => s!"Expected 'name:type' but got '{token}' in '{text}'"
  | unknownType name => s!"Unknown field type '{name}'"

inductive PlanFault
  | noCriteria
  | emptyCriteria
  | noSources
  | repeatedSchema (name : String)
  | repeatedSource (id : Int32)
  | missingCommonField (field schema : String)
  | conflictingTypes (field : String) (first second : FieldType) (schema : String)
  | noSourceField
  | unknownSource (id : Int32)
  | repeatedSpecific (id : Int32)
  | alreadyCommon (field schema : String)
  | missingSpecificField (field schema : String)
  | blankSortBy
deriving DecidableEq, Repr

def PlanFault.message : PlanFault → String
  | noCriteria => "A common sort criteria is required"
  | emptyCriteria => "The common sort criteria has no fields"
  | noSources => "At least one source schema is required"
  | repeatedSchema name => s!"Schema name '{name}' is registered twice"
  | repeatedSource id => s!"Source id {id.toInt} is registered twice"
  | missingCommonField field schema =>
      s!"Common sort field '{field}' is missing from schema '{schema}'"
  | conflictingTypes field first second schema =>
      s!"Common sort field '{field}' has type {first.label} in one schema " ++
        s!"and {second.label} in '{schema}'"
  | noSourceField =>
      s!"Several sources share this plan, so '{sourceFieldName}' " ++
        "must be one of the common sort fields"
  | unknownSource id => s!"Specific sort criteria given for unknown source {id.toInt}"
  | repeatedSpecific id => s!"Specific sort criteria given twice for source {id.toInt}"
  | alreadyCommon field schema =>
      s!"Field '{field}' is already a common sort field and cannot be repeated " ++
        s!"in the specific criteria of '{schema}'"
  | missingSpecificField field schema =>
      s!"Specific sort field '{field}' is missing from schema '{schema}'"
  | blankSortBy => "'sort_by' is empty"

/-- What stops the reading of one field, counted from the first byte of the field. -/
inductive ReadFault
  | varintEnds
  | varintTooLarge
  | tooFewBytes (needed : Nat)
  /-- A span's length, read from `header` bytes, is more than what is left. -/
  | spanOverruns (length header : Nat)
  | notBoolean (byte : UInt8)
  | notText (fault : Utf8.Fault)
deriving DecidableEq, Repr

/-- The wording of a fault of a field that begins at `position` of a buffer of `size` bytes. -/
def ReadFault.message (position size : Nat) : ReadFault → String
  | varintEnds => s!"Unexpected end of buffer reading varint at offset {position}"
  | varintTooLarge => "Integer overflow during varint decoding"
  | tooFewBytes needed =>
      s!"Unexpected end of buffer: need {needed} bytes at offset {position}, buffer has {size}"
  | spanOverruns length header =>
      s!"Span of {length} bytes at offset {position + header} overruns buffer of {size} bytes"
  | notBoolean byte =>
      s!"Invalid boolean byte 0x{Bytes.hexPair byte} at offset {position}"
  | notText fault => s!"String field is not valid UTF-8: {fault.message}"

inductive DecodeFault
  | unreadable (fault : ReadFault) (position size : Nat)
  | trailingPayload (type : FieldType) (size trailing : Nat)
  | trailingRecord (trailing : Nat) (schema : String)
  | unknownTail (id : Option Int32)
  | unknownSource (id : Int32)
  | noSource
  | outsideBuffer (start length size : Nat)
  /-- A fault that a caller's own comparator or record stream reports. -/
  | reported (reason : String)
deriving DecidableEq, Repr

def DecodeFault.message : DecodeFault → String
  | unreadable fault position size => fault.message position size
  | trailingPayload type size trailing =>
      s!"{type.label} payload of {size} bytes has {trailing} trailing bytes"
  | trailingRecord trailing schema =>
      s!"{trailing} trailing bytes after a tuple of schema '{schema}'"
  | unknownTail id => s!"Serialized tuple carries unknown source id {shownSourceId id}"
  | unknownSource id => s!"Serialized tuple carries unknown source id {id.toInt}"
  | noSource => "Expected a source id in the serialized tuple, found None"
  | outsideBuffer start length size =>
      s!"Range {start}..{start}+{length} is outside a buffer of {size} bytes"
  | reported reason => reason

inductive EncodeFault
  | null (type : FieldType)
  | mismatch (kind : String) (type : FieldType)
  | inField (name : String) (fault : EncodeFault)
deriving DecidableEq, Repr

def EncodeFault.message : EncodeFault → String
  | null type => s!"Null values cannot be serialized (field type {type.label})"
  | mismatch kind type => s!"Value of kind {kind} cannot be encoded as {type.label}"
  | inField name fault => s!"Field '{name}': {fault.message}"

inductive FieldFault
  | absent (field schema : String)
  | noPosition (position : Nat) (schema : String) (size : Nat)
  | noPositionToSet (position : Nat) (schema : String)
  | valueCount (schema : String) (fields values : Nat)
  | unregisteredSchema (schema : String)
  | otherSource (schema : String) (carried registered : Int32)
  | unknownSource (schema : String) (id : Option Int32)
deriving DecidableEq, Repr

def FieldFault.message : FieldFault → String
  | absent field schema => s!"Field '{field}' not present in schema '{schema}'"
  | noPosition position schema size =>
      s!"Position {position} out of range for schema '{schema}' ({size} fields)"
  | noPositionToSet position schema => s!"Position {position} out of range for schema '{schema}'"
  | valueCount schema fields values =>
      s!"Schema '{schema}' has {fields} fields but {values} values were given"
  | unregisteredSchema schema => s!"Schema '{schema}' is not registered in this sort plan"
  | otherSource schema carried registered =>
      s!"Tuple of schema '{schema}' carries {sourceFieldName}={carried.toInt} " ++
        s!"but the schema is registered as source {registered.toInt}"
  | unknownSource schema id =>
      s!"Tuple of schema '{schema}' carries source id {shownSourceId id}, " ++
        "which the plan does not register"

inductive FileFault
  | notFound
  | notText
deriving DecidableEq, Repr

def FileFault.message : FileFault → String
  | notFound => "No such file or directory"
  | notText => "stream did not contain valid UTF-8"

/-- How a JSON text fails to be what is asked for. -/
inductive JsonFault
  | unfinished
  /-- The text is no JSON, or goes on after the value. -/
  | malformed
  /-- The text is JSON, but not of the shape that is asked for. -/
  | mismatched
deriving DecidableEq, Repr

def JsonFault.message : JsonFault → String
  | unfinished => "the text ends too early"
  | malformed => "the text is not JSON"
  | mismatched => "the value has another shape"

/-- Faults that no caller of the checked operations can bring about. -/
inductive InternalFault
  | sharedFields (asked available : Nat)
  | noSchemas
  | noSourceKey
  | noPrevious
  | noElements
deriving DecidableEq, Repr

def InternalFault.message : InternalFault → String
  | sharedFields asked available =>
      s!"Prefix of {asked} fields requested but the common criteria has {available}"
  | noSchemas => "Plan has no schemas"
  | noSourceKey => "Multi-source plan without a discriminator"
  | noPrevious => "Group has no previous element"
  | noElements => "Group ended without elements"

end RecordRollup
