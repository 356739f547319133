import RecordRollup.Plan
import RecordRollup.Wire.Field

/-!
The order of serialized records under a plan, read from the bytes without building values.
-/

namespace RecordRollup

/-- How far two buffers have been read, and the source that the first one names. -/
structure Progress where
  left : Nat
  right : Nat
  source : Option Int32
deriving DecidableEq, Repr

def Progress.advance (progress : Progress) (leftUsed rightUsed : Nat) : Progress :=
  { progress with left := progress.left + leftUsed, right := progress.right + rightUsed }

namespace SortKey

/-- Compares the next fields of two buffers, where a field with a comparator is preceded by its
length. Reading goes on after both fields. -/
def compareNext (key : SortKey) (left right : Bytes) (progress : Progress) :
    Except Error (Ordering × Progress) :=
  match key.comparator with
  | some named => do
      let (leftContent, leftUsed) ← Span.readAt left progress.left
      let (rightContent, rightUsed) ← Span.readAt right progress.right
      let outcome ← named.comparator.compareBytes leftContent rightContent
      return (outcome, progress.advance leftUsed rightUsed)
  | none => do
      let (leftKey, leftUsed) ← Wire.keyAt key.type left progress.left
      let (rightKey, rightUsed) ← Wire.keyAt key.type right progress.right
      let next := progress.advance leftUsed rightUsed
      return (Ord.compare leftKey rightKey,
        if key.name = sourceFieldName then { next with source := some (.ofInt leftKey.number) }
        else next)

end SortKey

/-- Compares the fields of two buffers along sort keys; the first one that differs decides. -/
def compareBytesAlong (left right : Bytes) :
    List SortKey → Progress → Except Error (Ordering × Progress)
  | [], progress => .ok (.eq, progress)
  | key :: rest, progress => do
      match ← key.compareNext left right progress with
      | (.eq, progress) => compareBytesAlong left right rest progress
      | (outcome, progress) => return (key.direction.apply outcome, progress)

namespace Plan

/-- Compares two serialized records. Nothing behind the deciding field is looked at. -/
def compareBytes (plan : Plan) (left right : Bytes) : Except Error Ordering := do
  match ← compareBytesAlong left right plan.keys ⟨0, 0, none⟩ with
  | (.eq, progress) =>
      if plan.isMultiSource then
        match progress.source.bind plan.source? with
        | none => .error (.decoding (.unknownTail progress.source))
        | some source =>
            return (← compareBytesAlong left right source.specificKeys progress).1
      else return .eq
  | (outcome, _) => return outcome

def recordBytes (buffer : Bytes) (start length : Nat) : Except Error Bytes :=
  match buffer.slice? start length with
  | some bytes => .ok bytes
  | none => .error (.decoding (.outsideBuffer start length buffer.length))

def compareRaw (plan : Plan) (left : Bytes) (leftStart leftLength : Nat) (right : Bytes)
    (rightStart rightLength : Nat) : Except Error Ordering := do
  let left ← recordBytes left leftStart leftLength
  let right ← recordBytes right rightStart rightLength
  plan.compareBytes left right

end Plan

end RecordRollup
