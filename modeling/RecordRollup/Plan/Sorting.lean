import RecordRollup.Plan.RecordOrder
import RecordRollup.Plan.SerializedOrder

/-!
Sorting by comparisons that can fail. Every item is inserted into the sorted ones before it from
their end, so that items that compare equal keep their order.
-/

namespace RecordRollup

/-- The outcome that a failed comparison counts as. -/
def settled : Except Error Ordering → Ordering
  | .ok outcome => outcome
  | .error _ => .eq

variable {α : Type} (compare : α → α → Except Error Ordering)

/-- Inserts an item into sorted items, the last of which comes first. -/
def insertLast (item : α) : List α → List α
  | [] => [item]
  | last :: rest =>
      if settled (compare item last) = .lt then last :: insertLast item rest
      else item :: last :: rest

/-- The failure of a comparison that the insertion of an item makes; it also ends the insertion. -/
def insertionFailure? (item : α) : List α → Option Error
  | [] => none
  | last :: rest =>
      match compare item last with
      | .error error => some error
      | .ok .lt => insertionFailure? item rest
      | .ok _ => none

/-- The items sorted so far, the last of them first, and the first failure. -/
def insertNext (sorted : List α × Option Error) (item : α) : List α × Option Error :=
  (insertLast compare item sorted.1, sorted.2.or (insertionFailure? compare item sorted.1))

def sortBy (items : List α) : Except Error (List α) :=
  match items.foldl (insertNext compare) ([], none) with
  | (_, some error) => .error error
  | (sorted, none) => .ok sorted.reverse

namespace Plan

def sortRecords (plan : Plan) : List Record → Except Error (List Record) :=
  sortBy plan.compare

def sortSerialized (plan : Plan) : List Bytes → Except Error (List Bytes) :=
  sortBy plan.compareBytes

end Plan

end RecordRollup
