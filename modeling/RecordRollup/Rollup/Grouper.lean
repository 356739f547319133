import RecordRollup.Plan.RecordOrder

/-!
Which groups of a sorted stream are reported: those by the first fields of the common keys of a
plan, from some depth on.
-/

namespace RecordRollup

/-- Groups by the first `size` common keys. The group at a depth has one key for all its records up
to and including the key at that depth; depths from `base` on are reported. -/
structure Grouper where
  plan : Plan
  size : Nat
  base : Nat
  size_le : size ≤ plan.keys.length
  base_lt : base < size

namespace Grouper

def fields (grouper : Grouper) : List String :=
  (grouper.plan.keys.take grouper.size).map fun key => key.name

def mismatch? (criteria : String) (index : Nat) : List String → List SortKey → Option GroupByFault
  | field :: fields, key :: keys =>
      if field = key.name then mismatch? criteria (index + 1) fields keys
      else some (.mismatch index field key.name criteria)
  | _, _ => none

/-- The depth from which on groups are reported: that of a field, and else the first one. -/
def baseOf? (fields : List String) : Option String → Option Nat
  | none => some 0
  | some name => fields.findIdx? (· = name)

theorem baseOf?_lt {fields : List String} (hfields : fields ≠ []) {name : Option String}
    {base : Nat} (hbase : baseOf? fields name = some base) : base < fields.length := by
  cases name with
  | none =>
      obtain rfl : 0 = base := by simpa [baseOf?] using hbase
      exact List.length_pos_iff.mpr hfields
  | some name => exact (List.findIdx?_eq_some_iff_findIdx_eq.mp hbase).1

/-- Groups by `fields`, which have to be the first fields of the common keys, and reports from the
field `rollupFrom` on. -/
def ofFields (plan : Plan) (fields : List String) (rollupFrom : Option String) :
    Except Error Grouper :=
  let criteria := plan.common.text
  if hempty : fields = [] then .error (.groupBy .noFields)
  else if hsize : plan.keys.length < fields.length then
    .error (.groupBy (.tooMany fields.length plan.keys.length criteria))
  else
    match mismatch? criteria 0 fields plan.keys with
    | some fault => .error (.groupBy fault)
    | none =>
        match hbase : baseOf? fields rollupFrom with
        | some base =>
            .ok ⟨plan, fields.length, base, Nat.le_of_not_lt hsize, baseOf?_lt hempty hbase⟩
        | none => .error (.groupBy (.unknownRollup (rollupFrom.getD "") fields))

def log (grouper : Grouper) : List Log.Line :=
  [⟨.info, s!"Grouping by {Text.quotedList grouper.fields}, " ++
    s!"reporting depths {grouper.base}..{grouper.size - 1}"⟩]

def levelsFrom (grouper : Grouper) (level : Nat) : List (Nat × String) :=
  (grouper.fields.zipIdx.map fun (field, depth) => (depth, field)).drop level

def sharedFields (grouper : Grouper) (left right : Record) : Except Error Nat :=
  grouper.plan.sharedKeys left right grouper.size

end Grouper

end RecordRollup
