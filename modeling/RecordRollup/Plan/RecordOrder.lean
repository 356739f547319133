import RecordRollup.Plan

namespace RecordRollup

/-- Compares records along sort elements; the first one that tells them apart decides. -/
def compareAlong : List SortElement → Record → Record → Except Error Ordering
  | [], _, _ => .ok .eq
  | element :: rest, left, right => do
      let leftValue ← left.getNamed element.name
      let rightValue ← right.getNamed element.name
      match element.compareValues leftValue rightValue with
      | .eq => compareAlong rest left right
      | outcome => return element.direction.apply outcome

def sharedAlong : List SortElement → Record → Record → Except Error Nat
  | [], _, _ => .ok 0
  | element :: rest, left, right => do
      let leftValue ← left.getNamed element.name
      let rightValue ← right.getNamed element.name
      match element.compareValues leftValue rightValue with
      | .eq => return (← sharedAlong rest left right) + 1
      | _ => return 0

namespace Plan

/-- Compares records by the common keys and, in a plan of several sources, by the specific keys of
the source that the first record names. Records that agree on the common keys name the same. -/
def compare (plan : Plan) (left right : Record) : Except Error Ordering := do
  match ← compareAlong plan.common.elements left right with
  | .eq =>
      if plan.isMultiSource then
        match left.sourceId?.bind plan.source? with
        | none => .error (.field (.unknownSource left.schema.name left.sourceId?))
        | some source => compareAlong (source.specificKeys.map SortKey.toSortElement) left right
      else return .eq
  | outcome => return outcome

def sharedKeys (plan : Plan) (left right : Record) (count : Nat) : Except Error Nat :=
  if count ≤ plan.keys.length then sharedAlong (plan.common.elements.take count) left right
  else .error (.internal (.sharedFields count plan.keys.length))

end Plan

end RecordRollup
