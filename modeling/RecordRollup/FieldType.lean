import RecordRollup.Text.Words

namespace RecordRollup

inductive FieldType
  /-- A 32-bit integer in four bytes. -/
  | int32
  /-- A 64-bit integer in eight bytes. -/
  | int64
  /-- A 32-bit integer in as few bytes as its magnitude needs. -/
  | varInt32
  /-- A 64-bit integer in as few bytes as its magnitude needs. -/
  | varInt64
  | float32
  | float64
  | boolean
  /-- The ordinal of an enumeration. -/
  | enum
  | string
  | bytes
deriving DecidableEq, Repr

namespace FieldType

def all : List FieldType :=
  [int32, int64, varInt32, varInt64, float32, float64, boolean, enum, string, bytes]

theorem mem_all (type : FieldType) : type ∈ all := by
  cases type <;> decide

/-- The full name, as messages show it. -/
def label : FieldType → String
  | int32 => "Int32"
  | int64 => "Int64"
  | varInt32 => "VarInt32"
  | varInt64 => "VarInt64"
  | float32 => "Float32"
  | float64 => "Float64"
  | boolean => "Boolean"
  | enum => "Enum"
  | string => "String"
  | bytes => "Bytes"

/-- The short name, as schema texts have it. -/
def keyword : FieldType → String
  | int32 => "int"
  | int64 => "long"
  | varInt32 => "vint"
  | varInt64 => "vlong"
  | float32 => "float"
  | float64 => "double"
  | boolean => "boolean"
  | enum => "enum"
  | string => "string"
  | bytes => "bytes"

/-- The name to look up for a written short name: without outer blanks, and in lower case. -/
def keywordOf (written : List Char) : String :=
  String.ofList (Text.lowerCase (Text.trim written))

def ofKeyword? (keyword : String) : Option FieldType :=
  all.find? (·.keyword = keyword)

theorem ofKeyword?_keyword (type : FieldType) : ofKeyword? type.keyword = some type := by
  cases type <;> decide

theorem keyword_of_ofKeyword? {keyword : String} {type : FieldType}
    (h : ofKeyword? keyword = some type) : type.keyword = keyword := by
  simpa using List.find?_some h

def ofLabel? (label : String) : Option FieldType :=
  all.find? (·.label = label)

theorem ofLabel?_label (type : FieldType) : ofLabel? type.label = some type := by
  cases type <;> decide

def fixedWidth : FieldType → Option Nat
  | int32 | float32 => some 4
  | int64 | float64 => some 8
  | boolean => some 1
  | varInt32 | varInt64 | enum | string | bytes => none

def isBinary : FieldType → Bool
  | string | bytes => true
  | _ => false

end FieldType

end RecordRollup
