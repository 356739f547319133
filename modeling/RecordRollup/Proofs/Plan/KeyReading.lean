import Mathlib
import RecordRollup.Plan.SerializedOrder
import RecordRollup.Proofs.Wire.Locality

namespace RecordRollup

namespace SortKey

/-- Reads what a field is ordered by: its payload if the key has a comparator, and else its natural
key. -/
def readAt (key : SortKey) (buffer : Bytes) (position : Nat) : Except Error (Value.Key × Nat) :=
  match key.comparator with
  | some _ => (Span.readAt buffer position).map fun (payload, used) => (⟨7, 0, payload⟩, used)
  | none => Wire.keyAt key.type buffer position

/-- The order of what was read of two fields, with the direction of the key. -/
def orderRead (key : SortKey) (left right : Value.Key) : Except Error Ordering :=
  (match key.comparator with
  | some named => named.comparator.compareBytes left.content right.content
  | none => .ok (Ord.compare left right)).map key.direction.apply

/-- The source that a field names if it is that of the source key, or else the one known before. -/
def sourceRead (key : SortKey) (content : Value.Key) (source : Option Int32) : Option Int32 :=
  if key.comparator = none ∧ key.name = sourceFieldName then some (.ofInt content.number) else source

/-- Compares the next fields of two buffers, with the direction of the key. -/
def orderNext (key : SortKey) (left right : Bytes) (progress : Progress) :
    Except Error (Ordering × Progress) :=
  (key.compareNext left right progress).map fun (outcome, next) =>
    (key.direction.apply outcome, next)

variable {key : SortKey} {left right : Bytes} {progress next : Progress} {outcome : Ordering}

theorem isLocalAt_readAt (key : SortKey) : Wire.IsLocalAt key.readAt := by
  cases hcomparator : key.comparator with
  | none =>
      have hread : key.readAt = Wire.keyAt key.type := by
        funext buffer position
        simp only [readAt, hcomparator]
      rw [hread]
      exact (Wire.isLocal_readKey key.type).readAt
  | some named =>
      intro buffer position content used hread
      simp only [readAt, hcomparator, map_eq_ok_iff] at hread ⊢
      obtain ⟨⟨payload, count⟩, hspan, heq⟩ := hread
      cases heq
      obtain ⟨hpos, hinside, hsame⟩ := Span.isLocal.readAt hspan
      exact ⟨hpos, hinside, fun other hother => ⟨_, hsame other hother, rfl⟩⟩

theorem readAt_nil (key : SortKey) : ∃ error, key.readAt [] 0 = .error error := by
  cases hread : key.readAt [] 0 with
  | error error => exact ⟨error, rfl⟩
  | ok result =>
      obtain ⟨hpos, hinside, -⟩ := key.isLocalAt_readAt hread
      rw [List.length_nil] at hinside
      omega

theorem orderNext_eq (key : SortKey) (left right : Bytes) (progress : Progress) :
    key.orderNext left right progress = (do
      let (leftRead, leftUsed) ← key.readAt left progress.left
      let (rightRead, rightUsed) ← key.readAt right progress.right
      let outcome ← key.orderRead leftRead rightRead
      return (outcome, ⟨progress.left + leftUsed, progress.right + rightUsed,
        key.sourceRead leftRead progress.source⟩)) := by
  rw [orderNext, compareNext]
  cases hcomparator : key.comparator with
  | none =>
      simp only [readAt, orderRead, sourceRead, hcomparator, true_and]
      cases Wire.keyAt key.type left progress.left with
      | error error => rfl
      | ok leftResult =>
          cases Wire.keyAt key.type right progress.right with
          | error error => rfl
          | ok rightResult =>
              simp only [bind, Except.bind, pure, Except.pure, Except.map]
              split <;> rfl
  | some named =>
      simp only [readAt, orderRead, sourceRead, hcomparator, reduceCtorEq, false_and, if_false]
      cases Span.readAt left progress.left with
      | error error => rfl
      | ok leftResult =>
          cases Span.readAt right progress.right with
          | error error => rfl
          | ok rightResult =>
              simp only [bind, Except.bind, pure, Except.pure, Except.map]
              cases named.comparator.compareBytes leftResult.1 rightResult.1 <;> rfl

theorem orderNext_eq_ok_iff :
    key.orderNext left right progress = .ok (outcome, next) ↔
      ∃ leftRead leftUsed rightRead rightUsed,
        key.readAt left progress.left = .ok (leftRead, leftUsed) ∧
        key.readAt right progress.right = .ok (rightRead, rightUsed) ∧
        key.orderRead leftRead rightRead = .ok outcome ∧
        next = ⟨progress.left + leftUsed, progress.right + rightUsed,
          key.sourceRead leftRead progress.source⟩ := by
  rw [orderNext_eq, bind_eq_ok_iff]
  constructor
  · rintro ⟨⟨leftRead, leftUsed⟩, hleft, hrest⟩
    obtain ⟨⟨rightRead, rightUsed⟩, hright, hordered⟩ := bind_eq_ok_iff.mp hrest
    obtain ⟨here, horder, heq⟩ := bind_eq_ok_iff.mp hordered
    cases heq
    exact ⟨leftRead, leftUsed, rightRead, rightUsed, hleft, hright, horder, rfl⟩
  · rintro ⟨leftRead, leftUsed, rightRead, rightUsed, hleft, hright, horder, rfl⟩
    refine ⟨_, hleft, bind_eq_ok_iff.mpr ⟨_, hright, bind_eq_ok_iff.mpr ⟨_, horder, rfl⟩⟩⟩

theorem sourceRead_eq_of_tie {leftRead rightRead : Value.Key}
    (htie : key.orderRead leftRead rightRead = .ok .eq) (source : Option Int32) :
    key.sourceRead leftRead source = key.sourceRead rightRead source := by
  rw [sourceRead, sourceRead]
  split
  · next hsource =>
      rw [orderRead, hsource.1, map_eq_ok_iff] at htie
      obtain ⟨_, ⟨⟩, hequal⟩ := htie
      have hnumber : Ord.compare leftRead.number rightRead.number = .eq := by
        have hparts : (Ord.compare leftRead.group rightRead.group).then
            ((Ord.compare leftRead.number rightRead.number).then
              (Ord.compare leftRead.content rightRead.content)) = .eq :=
          Direction.apply_eq_eq.mp hequal
        rw [Ordering.then_eq_eq, Ordering.then_eq_eq] at hparts
        exact hparts.2.1
      rw [Std.LawfulEqOrd.eq_of_compare hnumber]
  · rfl

end SortKey

section Along

variable {key : SortKey} {keys : List SortKey} {left right : Bytes} {progress next : Progress}
  {outcome : Ordering}

theorem compareBytesAlong_cons (key : SortKey) (keys : List SortKey) (left right : Bytes)
    (progress : Progress) :
    compareBytesAlong left right (key :: keys) progress =
      match key.orderNext left right progress with
      | .error error => .error error
      | .ok (.eq, next) => compareBytesAlong left right keys next
      | .ok decided => .ok decided := by
  rw [compareBytesAlong, SortKey.orderNext]
  rcases key.compareNext left right progress with error | ⟨outcome, next⟩
  · rfl
  · cases outcome with
    | eq => cases key.direction <;> rfl
    | lt | gt => cases key.direction <;> rfl

theorem compareBytesAlong_cons_eq_ok_iff :
    compareBytesAlong left right (key :: keys) progress = .ok (outcome, next) ↔
      (∃ middle, key.orderNext left right progress = .ok (.eq, middle) ∧
        compareBytesAlong left right keys middle = .ok (outcome, next)) ∨
      key.orderNext left right progress = .ok (outcome, next) ∧ outcome ≠ .eq := by
  rw [compareBytesAlong_cons]
  rcases key.orderNext left right progress with error | ⟨here, middle⟩
  · simp
  · cases here <;> grind

/-- Reads the fields of one buffer along sort keys, and finds where they end and the source that they
name. -/
def skipAlong (buffer : Bytes) :
    List SortKey → Nat × Option Int32 → Except Error (Nat × Option Int32)
  | [], cursor => .ok cursor
  | key :: rest, (position, source) => do
      let (content, used) ← key.readAt buffer position
      skipAlong buffer rest (position + used, key.sourceRead content source)

theorem skipAlong_cons {buffer : Bytes} {position used : Nat} {content : Value.Key}
    (hread : key.readAt buffer position = .ok (content, used)) (source : Option Int32) :
    skipAlong buffer (key :: keys) (position, source) =
      skipAlong buffer keys (position + used, key.sourceRead content source) := by
  rw [skipAlong, hread]
  rfl

theorem skipAlong_of_tie (htie : compareBytesAlong left right keys progress = .ok (.eq, next)) :
    skipAlong left keys (progress.left, progress.source) = .ok (next.left, next.source) ∧
      skipAlong right keys (progress.right, progress.source) = .ok (next.right, next.source) := by
  induction keys generalizing progress with
  | nil =>
      cases htie
      exact ⟨rfl, rfl⟩
  | cons key keys ih =>
      rcases compareBytesAlong_cons_eq_ok_iff.mp htie with ⟨middle, hhere, hrest⟩ | ⟨-, hdiffer⟩
      · obtain ⟨leftRead, leftUsed, rightRead, rightUsed, hleft, hright, horder, rfl⟩ :=
          SortKey.orderNext_eq_ok_iff.mp hhere
        rw [skipAlong_cons hleft, skipAlong_cons hright, ← SortKey.sourceRead_eq_of_tie horder]
        exact ih hrest
      · exact absurd rfl hdiffer

end Along

namespace Plan

variable {plan : Plan} {left right : Bytes} {outcome : Ordering}

/-- The keys that order buffers that tie on the common keys and name a source, if the plan knows it. A
plan of one source has none. -/
def tieKeys? (plan : Plan) (source : Option Int32) : Option (List SortKey) :=
  if plan.isMultiSource then (source.bind plan.source?).map Source.specificKeys else some []

theorem compareBytes_eq (plan : Plan) (left right : Bytes) :
    plan.compareBytes left right =
      match compareBytesAlong left right plan.keys ⟨0, 0, none⟩ with
      | .error error => .error error
      | .ok (.eq, next) =>
          match plan.tieKeys? next.source with
          | none => .error (.decoding (.unknownTail next.source))
          | some keys => (compareBytesAlong left right keys next).map Prod.fst
      | .ok (outcome, _) => .ok outcome := by
  rw [compareBytes]
  rcases compareBytesAlong left right plan.keys ⟨0, 0, none⟩ with error | ⟨outcome, next⟩
  · rfl
  · cases outcome with
    | lt | gt => rfl
    | eq =>
        simp only [tieKeys?, bind, Except.bind]
        split
        · cases next.source.bind plan.source? with
          | none => rfl
          | some source => cases compareBytesAlong left right source.specificKeys next <;> rfl
        · rfl

theorem compareBytes_eq_ok_iff :
    plan.compareBytes left right = .ok outcome ↔
      ∃ common next, compareBytesAlong left right plan.keys ⟨0, 0, none⟩ = .ok (common, next) ∧
        (common ≠ .eq ∧ outcome = common ∨
          common = .eq ∧ ∃ keys last, plan.tieKeys? next.source = some keys ∧
            compareBytesAlong left right keys next = .ok (outcome, last)) := by
  rw [compareBytes_eq]
  rcases compareBytesAlong left right plan.keys ⟨0, 0, none⟩ with error | ⟨common, next⟩
  · simp
  · cases common with
    | lt | gt => simp [eq_comm]
    | eq =>
        cases htie : plan.tieKeys? next.source with
        | none => simp [htie]
        | some keys => simp [htie, map_eq_ok_iff]

theorem plain_of_tieKeys? {source : Option Int32} {keys : List SortKey}
    (hkeys : plan.tieKeys? source = some keys) : ∀ key ∈ keys, key.comparator = none := by
  rw [tieKeys?] at hkeys
  split at hkeys
  · obtain ⟨found, hfound, rfl⟩ := Option.map_eq_some_iff.mp hkeys
    obtain ⟨id, -, hid⟩ := Option.bind_eq_some_iff.mp hfound
    intro key hkey
    exact (plan.consistent.specific_mem found (List.mem_of_find?_eq_some hid) key hkey).2.1
  · cases hkeys
    exact List.forall_mem_nil _

end Plan

end RecordRollup
