import RecordRollup.Fault

namespace RecordRollup

inductive Error
  | criteria (fault : CriteriaFault)
  | repeatedSortField (name : String)
  | unknownComparator (id : String)
  | unsupportedComparator (comparator name : String) (fault : ComparatorFault)
  | groupBy (fault : GroupByFault)
  | schema (fault : SchemaFault)
  | plan (fault : PlanFault)
  | decoding (fault : DecodeFault)
  | encoding (fault : EncodeFault)
  | field (fault : FieldFault)
  | typeMismatch (name : String) (expected : FieldType) (found : String)
  | handler (reason : String)
  | file (fault : FileFault)
  | json (fault : JsonFault)
  | internal (fault : InternalFault)
deriving DecidableEq, Repr

namespace Error

def message : Error → String
  | criteria fault => s!"Invalid sort criteria format: {fault.message}"
  | repeatedSortField name => s!"Invalid sort criteria: repeated field '{name}'"
  | unknownComparator id => s!"Comparator not found: '{id}'"
  | unsupportedComparator comparator name fault =>
      s!"Comparator '{comparator}' cannot be used on field '{name}': {fault.message}"
  | groupBy fault => s!"Invalid group-by configuration: {fault.message}"
  | schema fault => s!"Invalid schema: {fault.message}"
  | plan fault => s!"Invalid configuration: {fault.message}"
  | decoding fault => s!"Tuple decoding error: {fault.message}"
  | encoding fault => s!"Tuple encoding error: {fault.message}"
  | field fault => s!"Invalid field: {fault.message}"
  | typeMismatch name expected found =>
      s!"Type mismatch for field '{name}': expected {expected.label}, got {found}"
  | handler reason => s!"Group handler failed: {reason}"
  | file fault => s!"I/O error: {fault.message}"
  | json fault => s!"JSON error: {fault.message}"
  | internal fault => s!"Internal logic error (this is a bug): {fault.message}"

/-- Whether an error is about the setup, so that it arises before any record is read. -/
def isConfiguration : Error → Bool
  | criteria _ | repeatedSortField _ | unknownComparator _ | unsupportedComparator .. => true
  | groupBy _ | schema _ | plan _ => true
  | _ => false

def isDecoding : Error → Bool
  | decoding _ => true
  | _ => false

end Error

end RecordRollup
