import RecordRollup.Rollup.Run

/-!
The records of an innermost group as a sequence that is pulled from the stream, first by a handler
and then, to its end, by the loop that goes from group to group.
-/

namespace RecordRollup.Rollup

open Play

/-- What a group still gives, and how it has ended. -/
structure Elements where
  /-- What the stream has not yet been asked for. -/
  upstream : List (Except Error Record)
  /-- The first record of the group, as long as it has not been pulled. -/
  first : Option Record
  /-- The record that was pulled last. -/
  last : Option Record
  /-- The record of another group that has ended this one, with the number of fields it shares. -/
  boundary : Option (Record × Nat)
  error : Option Error
  finished : Bool

namespace Elements

def start (first : Record) (upstream : List (Except Error Record)) : Elements :=
  ⟨upstream, some first, none, none, none, false⟩

/-- The next record of the group, if it has one. -/
def pull (grouper : Grouper) (elements : Elements) : Except Error (Option Record) × Elements :=
  match elements.first, elements.upstream with
  | some first, _ => (.ok (some first), { elements with first := none })
  | none, [] => (.ok none, elements)
  | none, .error error :: rest => (.error error, { elements with upstream := rest })
  | none, .ok next :: rest =>
      let elements := { elements with upstream := rest }
      match elements.last with
      | none => (.error (.internal .noPrevious), elements)
      | some last =>
          match grouper.sharedFields last next with
          | .error error => (.error error, elements)
          | .ok shared =>
              if shared = grouper.size then (.ok (some next), elements)
              else (.ok none, { elements with boundary := some (next, shared) })

/-- The next record of the group. Once there is none, or an error in its place, there never is one
again. -/
def next (grouper : Grouper) (elements : Elements) : Option Record × Elements :=
  if elements.finished then (none, elements)
  else
    match elements.pull grouper with
    | (.ok (some record), rest) => (some record, { rest with last := some record })
    | (.ok none, rest) => (none, { rest with finished := true })
    | (.error error, rest) => (none, { rest with error := some error, finished := true })

/-- Whether the next record of the group, if it has one, has to come from the stream. -/
def asks (elements : Elements) : Bool :=
  !elements.finished && elements.first.isNone

/-- The number of records that can still come. -/
def ahead (elements : Elements) : Nat :=
  elements.first.toList.length + elements.upstream.length

theorem ahead_of_pull {grouper : Grouper} {elements : Elements} {record : Record}
    (hpull : (elements.pull grouper).1 = .ok (some record)) :
    (elements.pull grouper).2.ahead < elements.ahead := by
  rcases elements with ⟨_ | ⟨_ | item, upstream⟩, _ | first, last, boundary, error, finished⟩
  case nil.none => cases hpull
  case cons.error.none => cases hpull
  case cons.ok.none =>
    cases last with
    | none => cases hpull
    | some last =>
        simp only [pull] at hpull ⊢
        split at hpull
        · cases hpull
        · split at hpull
          · simp [ahead, *]
          · cases hpull
  all_goals simp [pull, ahead]

theorem ahead_of_next {grouper : Grouper} {elements rest : Elements} {record : Record}
    (hnext : elements.next grouper = (some record, rest)) : rest.ahead < elements.ahead := by
  rw [next] at hnext
  split at hnext
  · cases hnext
  · split at hnext
    · next other pulled hpull =>
        have hahead : (elements.pull grouper).2.ahead < elements.ahead :=
          ahead_of_pull (congrArg Prod.fst hpull)
        rw [hpull] at hahead
        cases hnext
        exact hahead
    · cases hnext
    · cases hnext

end Elements

variable {σ : Type} (grouper : Grouper) (handler : Handler σ)

/-- The stream is asked for its next item if the group needs it. -/
def askFor (elements : Elements) : Play σ Unit :=
  if elements.asks then say .asked else pure ()

/-- A handler asks for records that it expects not to come. -/
def askAgain : Nat → Elements → Play σ Elements
  | 0, elements => pure elements
  | count + 1, elements => do
      askFor elements
      match elements.next grouper with
      | (some record, rest) => do
          say (.gave record)
          askAgain count rest
      | (none, rest) => do
          say .gaveNothing
          askAgain count rest

/-- The handler asks for a record of a group, and goes on as long as it wants another one. -/
def serve (elements : Elements) : Play σ Elements := do
  askFor elements
  match _hnext : elements.next grouper with
  | (some record, rest) => do
      say (.gave record)
      change fun state => (handler.given record state, ())
      if ← change fun state => (state, handler.wants state) then
        serve rest
      else
        leave handler rest.last
        return rest
  | (none, rest) => do
      say .gaveNothing
      let again ← change handler.ended
      let rest ← askAgain grouper again rest
      leave handler rest.last
      return rest
termination_by elements.ahead
decreasing_by exact Elements.ahead_of_next _hnext

/-- The records that a handler has left are passed over. -/
def drain (elements : Elements) : Play σ Elements := do
  askFor elements
  match _hnext : elements.next grouper with
  | (some record, rest) => do
      say (.skipped record)
      drain rest
  | (none, rest) => return rest
termination_by elements.ahead
decreasing_by exact Elements.ahead_of_next _hnext

/-- The last record of a group that has been read to its end, and the elements at that point. -/
def settle (elements : Elements) : Play σ (Record × Elements) :=
  match elements.error, elements.last with
  | some error, _ => fail error
  | none, none => fail (.internal .noElements)
  | none, some last => return (last, elements)

/-- An innermost group as a whole. -/
def deliver (first : Record) (upstream : List (Except Error Record)) :
    Play σ (Record × Elements) := do
  let elements := Elements.start first upstream
  say (.entered (grouper.size - 1))
  change fun state => (handler.entered (grouper.size - 1) state, ())
  let elements ←
    if ← change fun state => (state, handler.wants state) then
      serve grouper handler elements
    else do
      leave handler elements.last
      pure elements
  settle (← drain grouper elements)

/-- Where the loop over the groups stands. -/
inductive Phase
  | idle (upstream : List (Except Error Record))
  | inGroup (first : Record) (upstream : List (Except Error Record))
  | done

/-- The groups that close and open at the end of an innermost group. -/
def moveOn (last : Record) (elements : Elements) : Play σ Phase :=
  match elements.boundary with
  | some (next, shared) => do
      say (.boundary shared)
      let level := max shared grouper.base
      closeTo grouper handler level last
      openFrom grouper handler level next
      return .inGroup next elements.upstream
  | none => do
      closeTo grouper handler grouper.base last
      return .done

/-- One round of the loop over the groups. -/
def round : Phase → Play σ Phase
  | .idle upstream => do
      say .asked
      match upstream with
      | [] => return .done
      | .error error :: _ => fail error
      | .ok first :: rest => do
          openFrom grouper handler grouper.base first
          return .inGroup first rest
  | .inGroup first upstream => do
      let (last, elements) ← deliver grouper handler first upstream
      moveOn grouper handler last elements
  | .done => return .done

def rounds : Nat → Phase → Play σ Phase
  | 0, phase => return phase
  | count + 1, phase => do rounds count (← round grouper handler phase)

end RecordRollup.Rollup
