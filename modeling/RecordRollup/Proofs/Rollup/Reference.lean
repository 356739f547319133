import Mathlib
import RecordRollup.Proofs.Blocks
import RecordRollup.Proofs.Plan.RoundTrip
import RecordRollup.Proofs.Rollup.GroupFields
import RecordRollup.Proofs.Rollup.Play
import RecordRollup.Rollup.Run

/-!
What a run over records is for a handler: groups open and close, and there is one call to read every
innermost group. The calls are read off the records alone.
-/

namespace RecordRollup

namespace Rollup

/-- A call of a handler; the one for an innermost group goes on as long as it reads records. -/
inductive Callback
  | opened (depth : Nat) (field : String) (first : Record)
  | group (records : List Record)
  | closed (depth : Nat) (field : String) (last : Record)

end Rollup

namespace Grouper

open Rollup

variable (grouper : Grouper)

/-- The number of group fields that two records share. -/
def shared (left right : Record) : Nat :=
  match grouper.sharedFields left right with
  | .ok shared => shared
  | .error _ => 0

def fieldAt (depth : Nat) : String :=
  grouper.fields.getD depth ""

def depthsFrom (level : Nat) : List Nat :=
  List.range' level (grouper.size - level)

def opening (level : Nat) (first : Record) : List Callback :=
  (grouper.depthsFrom level).map fun depth => .opened depth (grouper.fieldAt depth) first

def closing (level : Nat) (last : Record) : List Callback :=
  (grouper.depthsFrom level).reverse.map fun depth => .closed depth (grouper.fieldAt depth) last

/-- The calls between the last record of an innermost group and the first one of the next; there may
be no group before or no group after. -/
def turn : (last next : Option Record) → List Callback
  | none, none => []
  | none, some first => grouper.opening grouper.base first
  | some last, some next =>
      let level := max (grouper.shared last next) grouper.base
      grouper.closing level last ++ grouper.opening level next
  | some last, none => grouper.closing grouper.base last

def groups (records : List Record) : List (List Record) :=
  records.splitBy fun left right => grouper.shared left right = grouper.size

def callbacksFrom : (last : Option Record) → (groups : List (List Record)) → List Callback
  | last, [] => grouper.turn last none
  | last, group :: groups =>
      grouper.turn last group.head? ++ .group group :: callbacksFrom group.getLast? groups

def callbacks (records : List Record) : List Callback :=
  grouper.callbacksFrom none (grouper.groups records)

end Grouper

namespace Rollup

open Play

variable {σ : Type} (grouper : Grouper) (handler : Handler σ)

/-- A handler goes on with a group, of which these records are left. It was given records up to
`last`, and `wants` another one or has left the group. -/
def readRest : (last : Option Record) → (wants : Bool) → List Record → Play σ Unit
  | last, true, [] => do
      say .gaveNothing
      let again ← change handler.ended
      (List.replicate again Event.gaveNothing).forM say
      leave handler last
  | _, true, record :: rest => do
      say (.gave record)
      change fun state => (handler.given record state, ())
      let wants ← change fun state => (state, handler.wants state)
      if wants then pure () else leave handler (some record)
      readRest (some record) wants rest
  | _, false, rest => rest.forM fun record => say (.skipped record)

def readGroup (records : List Record) : Play σ Unit := do
  say (.entered (grouper.size - 1))
  change fun state => (handler.entered (grouper.size - 1) state, ())
  let wants ← change fun state => (state, handler.wants state)
  if wants then pure () else leave handler none
  readRest handler none wants records

def answer : Callback → Play σ Unit
  | .opened depth field first =>
      call (.opened depth field first) (handler.opened depth field first)
  | .group records => readGroup grouper handler records
  | .closed depth field last =>
      call (.closed depth field last) (handler.closed depth field last)

def answerAll (callbacks : List Callback) : Play σ Unit :=
  callbacks.forM (answer grouper handler)

/-- Whether an event is about groups and their records, and not about reading the stream. -/
def Event.ofGroups : Event → Bool
  | .asked => false
  | .boundary _ => false
  | _ => true

def Event.frame? : Event → Option Callback
  | .opened depth field first => some (.opened depth field first)
  | .closed depth field last => some (.closed depth field last)
  | _ => none

def Callback.isFrame : Callback → Bool
  | .group _ => false
  | _ => true

structure Handler.NeverFails (handler : Handler σ) : Prop where
  opened : ∀ depth field first state, (handler.opened depth field first state).2 = none
  left : ∀ last state, (handler.left last state).2 = none
  closed : ∀ depth field last state, (handler.closed depth field last state).2 = none

variable {grouper handler}

theorem levelsFrom_eq (level : Nat) :
    grouper.levelsFrom level =
      (grouper.depthsFrom level).map fun depth => (depth, grouper.fieldAt depth) := by
  have hlength := grouper.length_fields
  apply List.ext_getElem?
  intro index
  rcases Nat.lt_or_ge (level + index) grouper.size with hinside | houtside
  · have hbound : level + index < grouper.fields.length := by omega
    have hrange : index < grouper.size - level := by omega
    simp [Grouper.levelsFrom, Grouper.depthsFrom, Grouper.fieldAt, hbound, hrange]
  · rw [List.getElem?_eq_none, List.getElem?_eq_none]
    · simp [Grouper.depthsFrom]
      omega
    · simp [Grouper.levelsFrom]
      omega

section Kept

theorem keeping_call {event : Event} (callback : σ → σ × Option Error)
    (hevent : event.ofGroups = true) :
    keeping Event.ofGroups (call event callback) = call event callback := by
  simp only [call, keeping_bind, keeping_say_of_keep hevent, keeping_change]
  congr 1
  funext _
  congr 1
  funext failure
  cases failure <;> rfl

theorem keeping_leave (last : Option Record) :
    keeping Event.ofGroups (leave handler last) = leave handler last :=
  keeping_call _ rfl

theorem keeping_openFrom (level : Nat) (first : Record) :
    keeping Event.ofGroups (openFrom grouper handler level first) =
      answerAll grouper handler (grouper.opening level first) := by
  simp only [openFrom, answerAll, Grouper.opening, levelsFrom_eq, List.forM_eq_forM,
    List.forM_map, keeping_forM]
  congr 1
  funext depth
  exact keeping_call _ rfl

theorem keeping_closeTo (level : Nat) (last : Record) :
    keeping Event.ofGroups (closeTo grouper handler level last) =
      answerAll grouper handler (grouper.closing level last) := by
  simp only [closeTo, answerAll, Grouper.closing, levelsFrom_eq, List.forM_eq_forM,
    ← List.map_reverse, List.forM_map, keeping_forM]
  congr 1
  funext depth
  exact keeping_call _ rfl

theorem keeping_conclude (last : Record) (reading : Bool) :
    keeping Event.ofGroups (conclude handler last reading) =
      readRest handler (some last) reading [] := by
  cases reading with
  | false => rfl
  | true =>
      have hnothing : ∀ again, ∀ event ∈ List.replicate again Event.gaveNothing,
          event.ofGroups = true := by
        intro again event hevent
        rw [List.eq_of_mem_replicate hevent]
        rfl
      have hsay : Event.gaveNothing.ofGroups = true := rfl
      simp only [conclude, readRest, if_true, keeping_bind, keeping_say_of_keep hsay,
        keeping_change, List.forM_eq_forM, keeping_forM_say (hnothing _), keeping_leave]

theorem keeping_give {α : Type} (record : Record) (last : Option Record) (rest : List Record)
    (next : Stage → Play σ α) (after : Play σ α)
    (hnext : ∀ reading, keeping Event.ofGroups (next (.inside record reading)) =
      (do readRest handler (some record) reading rest; after)) :
    keeping Event.ofGroups (give handler record >>= next) =
      (do readRest handler last true (record :: rest); after) := by
  have hsay : (Event.gave record).ofGroups = true := rfl
  simp only [give, readRest, bind_assoc, keeping_bind, keeping_say_of_keep hsay, keeping_change]
  congr 1; funext _
  congr 1; funext _
  congr 1; funext wants
  cases wants with
  | true => simp only [if_true, keeping_pure, pure_bind, hnext]
  | false =>
      simp only [Bool.false_eq_true, if_false, bind_assoc, keeping_pure, pure_bind, keeping_bind,
        keeping_leave, hnext]

theorem keeping_enter {α : Type} (grouper : Grouper) (first : Record) (rest : List Record)
    (next : Stage → Play σ α) (after : Play σ α)
    (hnext : ∀ reading, keeping Event.ofGroups (next (.inside first reading)) =
      (do readRest handler (some first) reading rest; after)) :
    keeping Event.ofGroups (enter grouper handler first >>= next) =
      (do readGroup grouper handler (first :: rest); after) := by
  have hentered : (Event.entered (grouper.size - 1)).ofGroups = true := rfl
  have hskipped : (Event.skipped first).ofGroups = true := rfl
  simp only [enter, readGroup, bind_assoc, keeping_bind, keeping_say_of_keep hentered,
    keeping_change]
  congr 1; funext _
  congr 1; funext _
  congr 1; funext wants
  cases wants with
  | true =>
      simp only [if_true]
      rw [← keeping_bind, keeping_give first none rest next after hnext]
  | false =>
      simp only [Bool.false_eq_true, if_false, bind_assoc, keeping_pure, pure_bind, keeping_bind,
        keeping_leave, keeping_say_of_keep hskipped, hnext, readRest, List.forM_eq_forM,
        List.forM_cons]

theorem answerAll_append (callbacks others : List Callback) :
    answerAll grouper handler (callbacks ++ others) =
      (do answerAll grouper handler callbacks; answerAll grouper handler others) := by
  simp [answerAll]

theorem answerAll_group_cons (records : List Record) (callbacks : List Callback) :
    answerAll grouper handler (.group records :: callbacks) =
      (do readGroup grouper handler records; answerAll grouper handler callbacks) := by
  simp [answerAll, answer]

theorem keeping_advance_same {α : Type} {last next : Record}
    (hshared : grouper.sharedFields last next = .ok grouper.size) (reading : Bool)
    (rest : List Record) (following : Stage → Play σ α) (after : Play σ α)
    (hfollowing : ∀ reading, keeping Event.ofGroups (following (.inside next reading)) =
      (do readRest handler (some next) reading rest; after)) :
    keeping Event.ofGroups
        (advance grouper handler (.inside last reading) (.ok next) >>= following) =
      (do readRest handler (some last) reading (next :: rest); after) := by
  have hskipped : (Event.skipped next).ofGroups = true := rfl
  cases reading with
  | true =>
      simp only [advance, hshared, if_true]
      exact keeping_give next (some last) rest following after hfollowing
  | false =>
      simp only [advance, hshared, if_true, Bool.false_eq_true, if_false, bind_assoc, pure_bind,
        keeping_bind, keeping_say_of_keep hskipped, hfollowing, readRest, List.forM_eq_forM,
        List.forM_cons]

theorem keeping_advance_other {α : Type} {last next : Record} {shared : Nat}
    (hshared : grouper.sharedFields last next = .ok shared) (hother : shared ≠ grouper.size)
    (reading : Bool) (rest : List Record) (following : Stage → Play σ α) (after : Play σ α)
    (hfollowing : ∀ reading, keeping Event.ofGroups (following (.inside next reading)) =
      (do readRest handler (some next) reading rest; after)) :
    keeping Event.ofGroups
        (advance grouper handler (.inside last reading) (.ok next) >>= following) = (do
      readRest handler (some last) reading []
      answerAll grouper handler (grouper.turn (some last) (some next))
      readGroup grouper handler (next :: rest)
      after) := by
  have hboundary : (Event.boundary shared).ofGroups = false := rfl
  have hcount : grouper.shared last next = shared := by rw [Grouper.shared, hshared]
  have henter := keeping_enter grouper next rest following after hfollowing
  rw [keeping_bind] at henter
  simp only [advance, hshared, if_neg hother, bind_assoc, keeping_bind,
    keeping_say_of_not_keep hboundary, pure_bind, keeping_conclude, keeping_closeTo,
    keeping_openFrom, henter, Grouper.turn, hcount, answerAll_append]

theorem exists_groups_keeping_runFrom {last : Record} {rest : List Record}
    (hshared : (last :: rest).IsChain fun left right =>
      ∃ shared, grouper.sharedFields left right = .ok shared) :
    ∃ group groups, grouper.groups (last :: rest) = (last :: group) :: groups ∧
      ∀ reading, keeping Event.ofGroups
          (runFrom grouper handler (.inside last reading) (rest.map .ok)) = (do
        readRest handler (some last) reading group
        answerAll grouper handler (grouper.callbacksFrom (last :: group).getLast? groups)) := by
  have hasked : Event.asked.ofGroups = false := rfl
  -- By induction on the records to come: a record that shares all fields with the next one comes
  -- in front of the first group of those, and any other one is a group by itself.
  induction rest generalizing last with
  | nil =>
      refine ⟨[], [], rfl, ?_⟩
      intro reading
      simp only [List.map_nil, runFrom, finish, keeping_bind, keeping_say_of_not_keep hasked,
        keeping_conclude, keeping_closeTo, pure_bind]
      rfl
  | cons next rest ih =>
      rw [List.isChain_cons_cons] at hshared
      obtain ⟨⟨shared, hshared⟩, hrest⟩ := hshared
      obtain ⟨group, groups, hgroups, hfollowing⟩ := ih hrest
      have hcount : grouper.shared last next = shared := by rw [Grouper.shared, hshared]
      rcases eq_or_ne shared grouper.size with rfl | hother
      · refine ⟨next :: group, groups,
          Blocks.splitBy_of_related (decide_eq_true hcount) hgroups, ?_⟩
        intro reading
        rw [List.getLast?_cons_cons, List.map_cons, runFrom, keeping_bind,
          keeping_say_of_not_keep hasked, pure_bind]
        exact keeping_advance_same hshared reading group _ _ hfollowing
      · refine ⟨[], (next :: group) :: groups, ?_, ?_⟩
        · rw [← hgroups]
          exact Blocks.splitBy_of_unrelated (decide_eq_false (hcount ▸ hother))
        · intro reading
          rw [List.map_cons, runFrom, keeping_bind, keeping_say_of_not_keep hasked, pure_bind,
            keeping_advance_other hshared hother reading group _ _ hfollowing,
            List.getLast?_singleton, Grouper.callbacksFrom, List.head?_cons, answerAll_append,
            answerAll_group_cons]

theorem keeping_runRecords {records : List Record}
    (hshared : records.IsChain fun left right =>
      ∃ shared, grouper.sharedFields left right = .ok shared) :
    keeping Event.ofGroups (runRecords grouper handler records) =
      answerAll grouper handler (grouper.callbacks records) := by
  have hasked : Event.asked.ofGroups = false := rfl
  rcases records with _ | ⟨first, rest⟩
  · rfl
  · obtain ⟨group, groups, hgroups, hfollowing⟩ := exists_groups_keeping_runFrom hshared
    have henter := keeping_enter grouper first group
      (fun stage => runFrom grouper handler stage (rest.map .ok)) _ hfollowing
    rw [keeping_bind] at henter
    simp only [runRecords, run, List.map_cons, runFrom, advance, bind_assoc, keeping_bind,
      keeping_say_of_not_keep hasked, pure_bind, keeping_openFrom, henter, Grouper.callbacks,
      hgroups, Grouper.callbacksFrom, Grouper.turn, List.head?_cons, answerAll_append,
      answerAll_group_cons]

end Kept

section NeverFails

theorem leave_of_neverFails (hnever : handler.NeverFails) (last : Option Record) (state : σ) :
    leave handler last state = ⟨[.left last], (handler.left last state).1, .ok ()⟩ :=
  call_of_none _ (hnever.left last state)

theorem readRest_false (last : Option Record) (records : List Record) (state : σ) :
    readRest handler last false records state = ⟨records.map .skipped, state, .ok ()⟩ := by
  rw [readRest, List.forM_eq_forM, forM_say_map]

/-- The handler is given the first records of a group, and only if it is given all of them it asks
for more in vain. -/
theorem readRest_true (hnever : handler.NeverFails) (last : Option Record)
    (records : List Record) (state : σ) :
    (readRest handler last true records state).outcome = .ok () ∧
      ∃ taken asks, taken ≤ records.length ∧ (0 < asks → taken = records.length) ∧
        (readRest handler last true records state).events =
          (records.take taken).map .gave ++ List.replicate asks .gaveNothing ++
            .left ((records.take taken).getLast?.or last) ::
              (records.drop taken).map .skipped := by
  induction records generalizing last state with
  | nil =>
      have htold := leave_of_neverFails hnever last (handler.ended state).1
      rw [readRest, say_bind, change_bind, List.forM_eq_forM, bind_of_ok (by rw [forM_say]),
        forM_say, htold]
      refine ⟨rfl, 0, (handler.ended state).2 + 1, by simp, by simp, ?_⟩
      simp [List.replicate_succ]
  | cons record records ih =>
      rw [readRest, say_bind, change_bind, change_bind]
      cases hwants : handler.wants (handler.given record state) with
      | true =>
          obtain ⟨houtcome, taken, asks, hbound, hasks, hevents⟩ :=
            ih (some record) (handler.given record state)
          simp only [if_true]
          refine ⟨houtcome, taken + 1, asks, by simpa using hbound, by simpa using hasks, ?_⟩
          rw [hevents]
          simp [List.getLast?_cons]
      | false =>
          have hleave := leave_of_neverFails hnever (some record) (handler.given record state)
          simp only [Bool.false_eq_true, if_false]
          rw [bind_of_ok (by rw [hleave]), hleave, readRest_false]
          exact ⟨rfl, 1, 0, by simp, by simp, by simp⟩

theorem readGroup_of_neverFails (grouper : Grouper) (hnever : handler.NeverFails)
    (records : List Record) (state : σ) :
    (readGroup grouper handler records state).outcome = .ok () ∧
      ∃ taken asks, taken ≤ records.length ∧ (0 < asks → taken = records.length) ∧
        (readGroup grouper handler records state).events =
          .entered (grouper.size - 1) ::
            ((records.take taken).map .gave ++ List.replicate asks .gaveNothing ++
              .left (records.take taken).getLast? :: (records.drop taken).map .skipped) := by
  rw [readGroup, say_bind, change_bind, change_bind]
  cases hwants : handler.wants (handler.entered (grouper.size - 1) state) with
  | true =>
      obtain ⟨houtcome, taken, asks, hbound, hasks, hevents⟩ :=
        readRest_true hnever none records (handler.entered (grouper.size - 1) state)
      simp only [if_true]
      refine ⟨houtcome, taken, asks, hbound, hasks, ?_⟩
      rw [hevents, Option.or_none]
  | false =>
      have hleave := leave_of_neverFails hnever none (handler.entered (grouper.size - 1) state)
      simp only [Bool.false_eq_true, if_false]
      rw [bind_of_ok (by rw [hleave]), hleave, readRest_false]
      exact ⟨rfl, 0, 0, by simp, by simp, by simp⟩

theorem outcome_answer (hnever : handler.NeverFails) (callback : Callback) (state : σ) :
    (answer grouper handler callback state).outcome = .ok () := by
  cases callback with
  | opened depth field first =>
      rw [answer, call_of_none _ (hnever.opened depth field first state)]
  | group records => exact (readGroup_of_neverFails grouper hnever records state).1
  | closed depth field last =>
      rw [answer, call_of_none _ (hnever.closed depth field last state)]

theorem answerAll_cons_apply (hnever : handler.NeverFails) (callback : Callback)
    (callbacks : List Callback) (state : σ) :
    answerAll grouper handler (callback :: callbacks) state =
      let answered := answer grouper handler callback state
      let rest := answerAll grouper handler callbacks answered.state
      ⟨answered.events ++ rest.events, rest.state, rest.outcome⟩ := by
  rw [answerAll, List.forM_eq_forM, List.forM_cons, bind_of_ok (outcome_answer hnever _ _)]
  rfl

theorem outcome_answerAll (grouper : Grouper) (hnever : handler.NeverFails)
    (callbacks : List Callback) (state : σ) :
    (answerAll grouper handler callbacks state).outcome = .ok () := by
  induction callbacks generalizing state with
  | nil => rfl
  | cons callback callbacks ih =>
      rw [answerAll_cons_apply hnever]
      exact ih _

theorem frame?_answer (hnever : handler.NeverFails) (callback : Callback) (state : σ) :
    (answer grouper handler callback state).events.filterMap Event.frame? =
      [callback].filter Callback.isFrame := by
  cases callback with
  | opened depth field first =>
      rw [answer, call_of_none _ (hnever.opened depth field first state)]
      rfl
  | group records =>
      obtain ⟨-, taken, asks, -, -, hevents⟩ := readGroup_of_neverFails grouper hnever records state
      rw [answer, hevents, List.filterMap_eq_nil_iff.mpr]
      · rfl
      · intro event hevent
        simp only [List.mem_cons, List.mem_append, List.mem_map, List.mem_replicate] at hevent
        rcases hevent with rfl | (⟨_, -, rfl⟩ | ⟨-, rfl⟩) | rfl | ⟨_, -, rfl⟩ <;> rfl
  | closed depth field last =>
      rw [answer, call_of_none _ (hnever.closed depth field last state)]
      rfl

theorem frame?_answerAll (hnever : handler.NeverFails) (callbacks : List Callback) (state : σ) :
    (answerAll grouper handler callbacks state).events.filterMap Event.frame? =
      callbacks.filter Callback.isFrame := by
  induction callbacks generalizing state with
  | nil => rfl
  | cons callback callbacks ih =>
      rw [answerAll_cons_apply hnever, List.filterMap_append, frame?_answer hnever, ih,
        ← List.filter_append, List.singleton_append]

theorem outcome_runRecords (hnever : handler.NeverFails) {records : List Record}
    (hshared : records.IsChain fun left right =>
      ∃ shared, grouper.sharedFields left right = .ok shared) (state : σ) :
    (runRecords grouper handler records state).outcome = .ok () := by
  have houtcome := outcome_answerAll grouper hnever (grouper.callbacks records) state
  rw [← keeping_runRecords hshared] at houtcome
  exact houtcome

theorem filter_events_runRecords {records : List Record}
    (hshared : records.IsChain fun left right =>
      ∃ shared, grouper.sharedFields left right = .ok shared) (state : σ) :
    (runRecords grouper handler records state).events.filter Event.ofGroups =
      (answerAll grouper handler (grouper.callbacks records) state).events := by
  rw [← keeping_runRecords hshared]
  rfl

/-- A run over records calls a handler that never fails as the records say, and gives it of every
group the first records, as many as it asks for. -/
theorem runRecords_eq_answerAll (grouper : Grouper) (hnever : handler.NeverFails) :
    (∀ records : List Record,
      (records.IsChain fun left right =>
        ∃ shared, grouper.sharedFields left right = .ok shared) →
      ∀ state : σ,
        let played := runRecords grouper handler records state
        let answered := answerAll grouper handler (grouper.callbacks records) state
        played.outcome = .ok () ∧ played.events.filter Event.ofGroups = answered.events ∧
          played.state = answered.state ∧
          played.events.filterMap Event.frame? =
            (grouper.callbacks records).filter Callback.isFrame) ∧
    ∀ (group : List Record) (state : σ), ∃ taken asks, taken ≤ group.length ∧
      (0 < asks → taken = group.length) ∧
      (readGroup grouper handler group state).events =
        .entered (grouper.size - 1) ::
          ((group.take taken).map .gave ++ List.replicate asks .gaveNothing ++
            .left (group.take taken).getLast? :: (group.drop taken).map .skipped) := by
  constructor
  · intro records hshared state played answered
    have hevents : played.events.filter Event.ofGroups = answered.events :=
      filter_events_runRecords hshared state
    refine ⟨outcome_runRecords hnever hshared state, hevents, ?_, ?_⟩
    · change _ = (answerAll grouper handler (grouper.callbacks records) state).state
      rw [← keeping_runRecords hshared]
      rfl
    · have hframe : ∀ event : Event,
          (if event.ofGroups then event.frame? else none) = event.frame? := by
        intro event
        cases event <;> rfl
      rw [← frame?_answerAll hnever, ← hevents, List.filterMap_filter]
      simp only [hframe]
  · intro group state
    exact (readGroup_of_neverFails grouper hnever group state).2

end NeverFails

end Rollup

namespace Sample

def grouper : Grouper :=
  ⟨plan, 2, 0, by cbv, by decide⟩

def clickStream : List Record :=
  [click "Ann" 5, click "ann" 4, click "Bob" 9]

/-- A handler that asks for so many records of every group. Its state is how many it still wants. -/
def taking (count : Nat) : Rollup.Handler Nat where
  opened _ _ _ wanted := (wanted, none)
  entered _ _ := count
  wants wanted := 0 < wanted
  given _ wanted := wanted - 1
  ended wanted := (wanted, 1)
  left _ wanted := (wanted, none)
  closed _ _ _ wanted := (wanted, none)

theorem taking_neverFails (count : Nat) : (taking count).NeverFails :=
  ⟨fun _ _ _ _ => rfl, fun _ _ => rfl, fun _ _ _ _ => rfl⟩

theorem clickStream_shared :
    clickStream.IsChain fun left right =>
      ∃ shared, grouper.sharedFields left right = .ok shared :=
  .cons_cons ⟨2, by cbv⟩ (.cons_cons ⟨0, by cbv⟩ (.singleton _))

end Sample

namespace Rollup

theorem runRecords_eq_answerAll_clicks :
    (runRecords Sample.grouper (Sample.taking 1) Sample.clickStream 0).events.filterMap
        Event.frame? =
      [.opened 0 "user" (Sample.click "Ann" 5), .opened 1 sourceFieldName (Sample.click "Ann" 5),
        .closed 1 sourceFieldName (Sample.click "ann" 4), .closed 0 "user" (Sample.click "ann" 4),
        .opened 0 "user" (Sample.click "Bob" 9), .opened 1 sourceFieldName (Sample.click "Bob" 9),
        .closed 1 sourceFieldName (Sample.click "Bob" 9),
        .closed 0 "user" (Sample.click "Bob" 9)] := by
  obtain ⟨hruns, -⟩ := runRecords_eq_answerAll Sample.grouper (Sample.taking_neverFails 1)
  obtain ⟨-, -, -, hframes⟩ := hruns Sample.clickStream Sample.clickStream_shared 0
  rw [hframes]
  cbv

end Rollup

end RecordRollup
