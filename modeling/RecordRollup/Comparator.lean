import RecordRollup.Error

namespace RecordRollup

/-- An order of the values of some field types, given on values and on payloads. Both should order
the same pairs alike. -/
structure Comparator where
  compareValues : Value → Value → Ordering
  compareBytes : Bytes → Bytes → Except Error Ordering
  supports : FieldType → Bool

namespace Comparator

/-- The order of texts and byte strings by an order of their bytes. Values of other kinds keep
their natural order among each other and towards texts. -/
def ofContent (compareContent : Bytes → Bytes → Ordering) : Comparator where
  compareValues left right :=
    match left.content?, right.content? with
    | some leftContent, some rightContent => compareContent leftContent rightContent
    | _, _ => compare left right
  compareBytes left right := .ok (compareContent left right)
  supports := FieldType.isBinary

/-- A byte with the ASCII letters `A` to `Z` in lower case. -/
def lowerCaseByte (byte : UInt8) : UInt8 :=
  if 0x41 ≤ byte ∧ byte ≤ 0x5a then byte + 0x20 else byte

/-- Bytes in order, with ASCII letters of either case alike. -/
def caseInsensitive : Comparator :=
  ofContent (compareOn fun content => content.map lowerCaseByte)

/-- Shorter contents first, and contents of one length in byte order. -/
def shortlex : Comparator :=
  ofContent (compareLex (compareOn List.length) compare)

end Comparator

structure NamedComparator where
  id : String
  isWord : Text.IsWord id
  comparator : Comparator

namespace NamedComparator

instance : BEq NamedComparator where
  beq left right := left.id == right.id

end NamedComparator

end RecordRollup
