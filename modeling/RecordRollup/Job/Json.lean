import RecordRollup.Job
import RecordRollup.Json.Shape

/-!
Jobs and their parts as JSON, without blanks and with their members in a fixed order.
-/

namespace RecordRollup

open Json

def Json.writeObject (members : List (String × String)) : String :=
  "\x7b" ++ ",".intercalate (members.map fun (name, value) => writeString name ++ ":" ++ value) ++
    "\x7d"

def Json.writeList (elements : List String) : String :=
  "[" ++ ",".intercalate elements ++ "]"

namespace FieldType

def reader : Reader FieldType :=
  Reader.oneOf ofLabel?

def json (type : FieldType) : String :=
  writeString type.label

end FieldType

namespace Direction

def reader : Reader Direction :=
  Reader.oneOf fun name => [ascending, descending].find? (·.abbreviation = name)

def json (direction : Direction) : String :=
  writeString direction.abbreviation

end Direction

namespace Field

/-- A field of which not all members are known yet. -/
structure Partial where
  name : Option String
  type : Option FieldType

def members : List (Member Partial) :=
  [.of "name" Partial.name (fun field name => { field with name := some name }) Reader.string none,
    .of "field_type" Partial.type (fun field type => { field with type := some type })
      FieldType.reader none]

def reader : Reader Field := do
  match ← Reader.object members ⟨none, none⟩ with
  | ⟨some name, some type⟩ => return ⟨name, type⟩
  | _ => throw .mismatched

def json (field : Field) : String :=
  writeObject [("name", writeString field.name), ("field_type", field.type.json)]

end Field

namespace SourceConfig

structure Partial where
  id : Option Int32
  name : Option String
  fields : Option String

/-- A source without an id has the id zero. -/
def members : List (Member Partial) :=
  [.of "id" Partial.id (fun source id => { source with id := some id }) Reader.int32 (some 0),
    .of "name" Partial.name (fun source name => { source with name := some name }) Reader.string
      none,
    .of "fields" Partial.fields (fun source fields => { source with fields := some fields })
      Reader.string none]

def reader : Reader SourceConfig := do
  match ← Reader.object members ⟨none, none, none⟩ with
  | ⟨some id, some name, some fields⟩ => return ⟨id, name, fields⟩
  | _ => throw .mismatched

def json (source : SourceConfig) : String :=
  writeObject [("id", toString source.id.toInt), ("name", writeString source.name),
    ("fields", writeString source.fields)]

end SourceConfig

namespace JobConfig

structure Partial where
  sources : Option (List SourceConfig)
  sortBy : Option String
  specificSortBy : Option (List (Int32 × String))
  groupBy : Option (List String)
  rollupFrom : Option (Option String)

def members : List (Member Partial) :=
  [.of "sources" Partial.sources (fun job sources => { job with sources := some sources })
      (Reader.list SourceConfig.reader) none,
    .of "sort_by" Partial.sortBy (fun job text => { job with sortBy := some text })
      Reader.string none,
    .of "specific_sort_by" Partial.specificSortBy
      (fun job texts => { job with specificSortBy := some texts })
      (Reader.int32Object Reader.string) (some []),
    .of "group_by" Partial.groupBy (fun job fields => { job with groupBy := some fields })
      (Reader.list Reader.string) (some []),
    .of "rollup_from" Partial.rollupFrom (fun job field => { job with rollupFrom := some field })
      (Reader.optional Reader.string) (some none)]

def reader : Reader JobConfig := do
  match ← Reader.object members ⟨none, none, none, none, none⟩ with
  | ⟨some sources, some sortBy, some specific, some groupBy, some rollupFrom⟩ =>
      return ⟨sources, sortBy, specific.mergeSort fun left right => left.1 ≤ right.1, groupBy,
        rollupFrom⟩
  | _ => throw .mismatched

def json (config : JobConfig) : String :=
  let specific := config.specificSortBy.map fun (id, text) => (toString id.toInt, writeString text)
  writeObject [("sources", writeList (config.sources.map SourceConfig.json)),
    ("sort_by", writeString config.sortBy), ("specific_sort_by", writeObject specific),
    ("group_by", writeList (config.groupBy.map writeString)),
    ("rollup_from", config.rollupFrom.elim "null" writeString)]

def ofJson (text : String) : Except Error JobConfig :=
  (reader.runOn text).mapError .json

/-- The text of a file with the given content, which is missing if there is no such file. -/
def textOfFile (content : Option Bytes) : Except Error String :=
  match content with
  | none => .error (.file .notFound)
  | some bytes => (Utf8.decode bytes).mapError fun _ => .file .notText

def ofFile (content : Option Bytes) : Except Error JobConfig := do
  ofJson (← textOfFile content)

def fileLog (path : String) (content : Option Bytes) : List Log.Line :=
  match textOfFile content with
  | .ok _ => [⟨.debug, s!"Loaded job configuration from {path}"⟩]
  | .error _ => []

end JobConfig

end RecordRollup
