import RecordRollup.FieldType
import RecordRollup.FloatBits
import RecordRollup.Text.Utf8

namespace RecordRollup

/-- The value of one field. Floating-point values are kept as bits, so two of them are the same
value only if they have the same bits. -/
inductive Value
  | null
  | int (number : Int32)
  | long (number : Int64)
  | float (bits : UInt32)
  | double (bits : UInt64)
  | bool (truth : Bool)
  /-- The ordinal of an enumeration. -/
  | enum (ordinal : UInt32)
  | string (text : String)
  | bytes (content : Bytes)
deriving DecidableEq, Repr

namespace Value

def kind : Value → String
  | null => "Null"
  | int _ => "Int"
  | long _ => "Long"
  | float _ => "Float"
  | double _ => "Double"
  | bool _ => "Bool"
  | enum _ => "Enum"
  | string _ => "Str"
  | bytes _ => "Bytes"

/-- Whether a field of a type can hold a value. Every field can hold null. -/
def conformsTo : Value → FieldType → Bool
  | null, _ => true
  | int _, .int32 | int _, .varInt32 => true
  | long _, .int64 | long _, .varInt64 => true
  | float _, .float32 => true
  | double _, .float64 => true
  | bool _, .boolean => true
  | enum _, .enum => true
  | string _, .string => true
  | bytes _, .bytes => true
  | _, _ => false

@[simp] theorem null_conformsTo (type : FieldType) : null.conformsTo type = true := by
  cases type <;> rfl

def content? : Value → Option Bytes
  | string text => some (Utf8.encode text)
  | bytes content => some content
  | _ => none

def text : Value → String
  | null => "null"
  | int number => toString number.toInt
  | long number => toString number.toInt
  | float bits => FloatFormat.single.text bits.toNat
  | double bits => FloatFormat.double.text bits.toNat
  | bool truth => if truth then "true" else "false"
  | enum ordinal => "#" ++ toString ordinal.toNat
  | string text => text
  | bytes content => content.bracketed

/-- What the natural order of values looks at. -/
structure Key where
  /-- The class of the value; texts and byte strings are one class. -/
  group : Nat
  number : Int
  content : Bytes
deriving DecidableEq, Repr

instance : Ord Key where
  compare := compareLex (compareOn Key.group)
    (compareLex (compareOn Key.number) (compareOn Key.content))

instance : Std.TransOrd Key :=
  inferInstanceAs (Std.TransCmp (compareLex _ _))

/-- The natural order puts null first and the other kinds one after the other; within a kind it
goes by the number or the total order of floating-point bits, and by bytes for texts. -/
def key : Value → Key
  | null => ⟨0, 0, []⟩
  | bool truth => ⟨1, truth.toNat, []⟩
  | int number => ⟨2, number.toInt, []⟩
  | long number => ⟨3, number.toInt, []⟩
  | float bits => ⟨4, FloatFormat.single.rank bits.toNat, []⟩
  | double bits => ⟨5, FloatFormat.double.rank bits.toNat, []⟩
  | enum ordinal => ⟨6, ordinal.toNat, []⟩
  | string text => ⟨7, 0, Utf8.encode text⟩
  | bytes content => ⟨7, 0, content⟩

instance : Ord Value where
  compare := compareOn key

instance : Std.TransOrd Value :=
  inferInstanceAs (Std.TransCmp (compareOn key))

theorem compare_eq (left right : Value) : compare left right = compare left.key right.key := rfl

def sameValue : Value → Value → Bool
  | float left, float right => FloatFormat.single.sameNumber left.toNat right.toNat
  | double left, double right => FloatFormat.double.sameNumber left.toNat right.toNat
  | left, right => left = right

end Value

end RecordRollup
