import Mathlib
import RecordRollup.Proofs.Rollup.FirstFailure
import RecordRollup.Proofs.Rollup.Reference

namespace RecordRollup

namespace Grouper

open Rollup

variable (grouper : Grouper)

/-- The error with which a stream breaks off at an item, where `last` is the last record before it:
the item is an error, or a record that cannot be compared with `last`. -/
def breakAt? : (last : Option Record) → Except Error Record → Option Error
  | _, .error error => some error
  | none, .ok _ => none
  | some last, .ok next =>
      match grouper.sharedFields last next with
      | .error error => some error
      | .ok _ => none

def finalCloses : (last : Option Record) → List Event
  | none => []
  | some last => (grouper.depthsFrom grouper.base).reverse.map fun depth =>
      .closed depth (grouper.fieldAt depth) last

end Grouper

namespace Rollup

open Play

def Stage.last? : Stage → Option Record
  | .start => none
  | .inside last _ => some last

variable {σ α β : Type}

/-- A part of a run reads nothing of the stream, and its result, if it has one, is as stated. -/
def Yields (play : Play σ α) (holds : α → Prop) : Prop :=
  ∀ state, Event.asked ∉ (play state).events ∧
    ∀ value, (play state).outcome = .ok value → holds value

namespace Yields

variable {holds : α → Prop} {holdsNext : β → Prop}

theorem pure {value : α} (hvalue : holds value) : Yields (pure value : Play σ α) holds := by
  intro state
  refine ⟨List.not_mem_nil, ?_⟩
  rintro other ⟨⟩
  exact hvalue

theorem fail (error : Error) : Yields (fail error : Play σ α) holds := by
  intro state
  refine ⟨List.not_mem_nil, ?_⟩
  rintro value ⟨⟩

theorem say {event : Event} (hevent : event ≠ .asked) :
    Yields (say event : Play σ Unit) fun _ => True :=
  fun _ => ⟨by simpa [Play.say] using hevent.symm, fun _ _ => trivial⟩

theorem change (step : σ → σ × α) : Yields (change step) fun _ => True :=
  fun _ => ⟨List.not_mem_nil, fun _ _ => trivial⟩

theorem bind {play : Play σ α} {next : α → Play σ β} (hplay : Yields play holds)
    (hnext : ∀ value, holds value → Yields (next value) holdsNext) :
    Yields (play >>= next) holdsNext := by
  intro state
  obtain ⟨hasked, hvalue⟩ := hplay state
  cases houtcome : (play state).outcome with
  | error error =>
      rw [bind_of_error houtcome]
      refine ⟨hasked, ?_⟩
      rintro value ⟨⟩
  | ok value =>
      obtain ⟨hrest, hresult⟩ := hnext value (hvalue value houtcome) (play state).state
      rw [bind_of_ok houtcome]
      exact ⟨by simp [hasked, hrest], hresult⟩

theorem call {event : Event} (hevent : event ≠ .asked) (callback : σ → σ × Option Error) :
    Yields (call event callback) fun _ => True := by
  refine (say hevent).bind fun _ _ => (change callback).bind fun failure _ => ?_
  cases failure with
  | none => exact pure trivial
  | some error => exact fail error

theorem forM {γ : Type} (items : List γ) {play : γ → Play σ Unit}
    (hplay : ∀ item ∈ items, Yields (play item) fun _ => True) :
    Yields (items.forM play) fun _ => True := by
  induction items with
  | nil => exact pure trivial
  | cons item items ih =>
      have hrest := ih fun other hother => hplay other (List.mem_cons_of_mem item hother)
      exact (hplay item List.mem_cons_self).bind fun _ _ => hrest

end Yields

variable {grouper : Grouper} {handler : Handler σ}

section Reading

theorem yields_openFrom (level : Nat) (first : Record) :
    Yields (openFrom grouper handler level first) fun _ => True :=
  .forM _ fun (depth, field) _ => .call (by simp) (handler.opened depth field first)

theorem yields_closeTo (level : Nat) (last : Record) :
    Yields (closeTo grouper handler level last) fun _ => True :=
  .forM _ fun (depth, field) _ => .call (by simp) (handler.closed depth field last)

theorem yields_leave (last : Option Record) : Yields (leave handler last) fun _ => True :=
  .call (by simp) (handler.left last)

theorem yields_give (record : Record) :
    Yields (give handler record) fun stage => stage.last? = some record := by
  refine (Yields.say (by simp)).bind fun _ _ => ?_
  refine (Yields.change _).bind fun _ _ => ?_
  refine (Yields.change _).bind fun wants _ => ?_
  cases wants with
  | true => exact .pure rfl
  | false => exact (yields_leave _).bind fun _ _ => .pure rfl

theorem yields_enter (first : Record) :
    Yields (enter grouper handler first) fun stage => stage.last? = some first := by
  refine (Yields.say (by simp)).bind fun _ _ => ?_
  refine (Yields.change _).bind fun _ _ => ?_
  refine (Yields.change _).bind fun wants _ => ?_
  cases wants with
  | true => exact yields_give first
  | false =>
      refine (yields_leave _).bind fun _ _ => ?_
      exact (Yields.say (by simp)).bind fun _ _ => .pure rfl

theorem yields_conclude (last : Record) (reading : Bool) :
    Yields (conclude handler last reading) fun _ => True := by
  cases reading with
  | false => exact .pure trivial
  | true =>
      refine (Yields.say (by simp)).bind fun _ _ => ?_
      refine (Yields.change _).bind fun again _ => ?_
      refine (Yields.forM _ fun event hevent => ?_).bind fun _ _ => yields_leave _
      rw [List.eq_of_mem_replicate hevent]
      exact .say (by simp)

theorem yields_advance (stage : Stage) (next : Record) :
    Yields (advance grouper handler stage (.ok next)) fun ending =>
      ending.last? = some next := by
  cases stage with
  | start => exact (yields_openFrom _ _).bind fun _ _ => yields_enter next
  | inside last reading =>
      rw [advance]
      cases grouper.sharedFields last next with
      | error error => exact (yields_conclude _ _).bind fun _ _ => .fail error
      | ok shared =>
          dsimp only
          split
          · cases reading with
            | true => exact yields_give next
            | false => exact (Yields.say (by simp)).bind fun _ _ => .pure rfl
          · refine (yields_conclude _ _).bind fun _ _ => ?_
            refine (Yields.say (by simp)).bind fun _ _ => ?_
            refine (yields_closeTo _ _).bind fun _ _ => ?_
            exact (yields_openFrom _ _).bind fun _ _ => yields_enter next

end Reading

variable (grouper handler) in
/-- The part of a run in which these items are read. -/
def readItems (stage : Stage) (items : List (Except Error Record)) : Play σ Stage :=
  items.foldlM (fun stage item => do
    say .asked
    advance grouper handler stage item) stage

theorem readItems_cons (stage : Stage) (item : Except Error Record)
    (items : List (Except Error Record)) :
    readItems grouper handler stage (item :: items) = (do
      say .asked
      let next ← advance grouper handler stage item
      readItems grouper handler next items) := by
  simp only [readItems, List.foldlM_cons, bind_assoc]

theorem runFrom_append (stage : Stage) (items rest : List (Except Error Record)) :
    runFrom grouper handler stage (items ++ rest) = (do
      let ending ← readItems grouper handler stage items
      runFrom grouper handler ending rest) := by
  induction items generalizing stage with
  | nil => rfl
  | cons item items ih =>
      simp only [List.cons_append, runFrom, readItems_cons, bind_assoc, ih]

theorem readItems_records {records : List Record} {stage ending : Stage} {state : σ}
    (hending : (readItems grouper handler stage (records.map .ok) state).outcome = .ok ending) :
    (readItems grouper handler stage (records.map .ok) state).events.count .asked =
        records.length ∧
      ending.last? = records.getLast?.or stage.last? := by
  induction records generalizing stage state with
  | nil =>
      cases hending
      exact ⟨rfl, rfl⟩
  | cons next rest ih =>
      rw [List.map_cons, readItems_cons, say_bind] at hending
      obtain ⟨middle, hmiddle, hrest⟩ := outcome_bind_eq_ok_iff.mp hending
      obtain ⟨hasked, hlast⟩ := yields_advance stage next state
      obtain ⟨hcount, hendingLast⟩ := ih hrest
      constructor
      · rw [List.map_cons, readItems_cons, say_bind, bind_of_ok hmiddle, List.count_cons_self,
          List.count_append, List.count_eq_zero_of_not_mem hasked, hcount, List.length_cons]
        omega
      · rw [hendingLast, hlast middle hmiddle, List.getLast?_cons]
        cases rest.getLast? <;> rfl

variable (handler) in
/-- The end of the group that a run stands in. -/
def concludeAt : Stage → Play σ Unit
  | .start => pure ()
  | .inside last reading => conclude handler last reading

theorem yields_concludeAt (stage : Stage) : Yields (concludeAt handler stage) fun _ => True := by
  cases stage with
  | start => exact .pure trivial
  | inside last reading => exact yields_conclude last reading

variable (grouper handler) in
def closeAll : (last : Option Record) → Play σ Unit
  | none => pure ()
  | some last => closeTo grouper handler grouper.base last

theorem finish_eq (stage : Stage) :
    finish grouper handler stage = (do
      concludeAt handler stage
      closeAll grouper handler stage.last?) := by
  cases stage <;> rfl

theorem advance_of_breakAt? {stage : Stage} {item : Except Error Record} {failure : Error}
    (hbreak : grouper.breakAt? stage.last? item = some failure) :
    advance grouper handler stage item = (do
      concludeAt handler stage
      fail failure) := by
  cases item with
  | error error =>
      obtain rfl : error = failure := by cases stage <;> cases hbreak <;> rfl
      cases stage <;> rfl
  | ok next =>
      cases stage with
      | start => cases hbreak
      | inside last reading =>
          rw [Stage.last?, Grouper.breakAt?] at hbreak
          rw [advance]
          cases hshared : grouper.sharedFields last next with
          | error error =>
              rw [hshared] at hbreak
              cases hbreak
              rfl
          | ok shared =>
              rw [hshared] at hbreak
              cases hbreak

theorem events_closeAll {last : Option Record} {state : σ}
    (hclosed : (closeAll grouper handler last state).outcome = .ok ()) :
    (closeAll grouper handler last state).events = grouper.finalCloses last := by
  cases last with
  | none => rfl
  | some last =>
      rw [closeAll, closeTo, List.forM_eq_forM] at hclosed ⊢
      rw [events_forM_call hclosed, levelsFrom_eq, ← List.map_reverse, List.map_map]
      rfl

theorem runFrom_nil_of_ok {stage : Stage} {state : σ}
    (houtcome : (runFrom grouper handler stage [] state).outcome = .ok ()) :
    (concludeAt handler stage state).outcome = .ok () ∧
      (runFrom grouper handler stage [] state).events =
        .asked :: (concludeAt handler stage state).events ++ grouper.finalCloses stage.last? := by
  rw [runFrom, say_bind, finish_eq] at houtcome ⊢
  obtain ⟨_, hconcluded, hclosed⟩ := outcome_bind_eq_ok_iff.mp houtcome
  rw [bind_of_ok hconcluded, events_closeAll hclosed]
  exact ⟨hconcluded, rfl⟩

theorem runFrom_of_breakAt? {stage : Stage} {item : Except Error Record} {failure : Error}
    (hbreak : grouper.breakAt? stage.last? item = some failure) {state : σ}
    (hconcluded : (concludeAt handler stage state).outcome = .ok ())
    (rest : List (Except Error Record)) :
    runFrom grouper handler stage (item :: rest) state =
      ⟨.asked :: (concludeAt handler stage state).events, (concludeAt handler stage state).state,
        .error failure⟩ := by
  have hfailed : ((do concludeAt handler stage; fail failure : Play σ Stage) state).outcome =
      .error failure := by
    rw [bind_of_ok hconcluded]
    rfl
  rw [runFrom, say_bind, advance_of_breakAt? hbreak, bind_of_error hfailed,
    bind_of_ok hconcluded]
  simp [fail]

/-- A run over records that break off is the run over them up to its final closes, and reads the
item at which they break off and none behind it. -/
theorem run_of_break (hnever : handler.NeverFails) {records : List Record}
    (hshared : records.IsChain fun left right =>
      ∃ shared, grouper.sharedFields left right = .ok shared)
    {item : Except Error Record} {failure : Error}
    (hbreak : grouper.breakAt? records.getLast? item = some failure)
    (rest : List (Except Error Record)) (state : σ) :
    let whole := runRecords grouper handler records state
    let broken := run grouper handler (records.map .ok ++ item :: rest) state
    broken.outcome = .error failure ∧
      whole.events = broken.events ++ grouper.finalCloses records.getLast? ∧
      broken.events.count .asked = records.length + 1 := by
  intro whole broken
  -- Both runs first read the records. Only the first one is known to end well, and so these records
  -- are read to their end in both.
  have hwhole : whole = (do
      let ending ← readItems grouper handler .start (records.map .ok)
      runFrom grouper handler ending []) state := by
    rw [← runFrom_append, List.append_nil]
    rfl
  have hbroken : broken = (do
      let ending ← readItems grouper handler .start (records.map .ok)
      runFrom grouper handler ending (item :: rest)) state := by
    rw [← runFrom_append]
    rfl
  have hfine : whole.outcome = .ok () := outcome_runRecords hnever hshared state
  rw [hwhole] at hfine
  obtain ⟨ending, hread, hfinish⟩ := outcome_bind_eq_ok_iff.mp hfine
  obtain ⟨hcount, hlast⟩ := readItems_records hread
  obtain ⟨hconcluded, hevents⟩ := runFrom_nil_of_ok hfinish
  rw [Stage.last?, Option.or_none] at hlast
  rw [← hlast] at hbreak ⊢
  rw [hwhole, hbroken, bind_of_ok hread, bind_of_ok hread, hevents,
    runFrom_of_breakAt? hbreak hconcluded]
  refine ⟨rfl, (List.append_assoc _ _ _).symm, ?_⟩
  have hquiet : Event.asked ∉ (concludeAt handler ending
      (readItems grouper handler .start (records.map .ok) state).state).events :=
    (yields_concludeAt ending _).1
  rw [List.count_append, hcount, List.count_cons_self, List.count_eq_zero_of_not_mem hquiet]

/-- A run stops cleanly. Where the stream breaks off, a handler that never fails has seen the run
over the records before the break up to its final closes, and nothing behind the break is read. Where
a callback fails, its error is the outcome and it is the last thing that happens, also if the stream
broke off in the group that the callback has read. -/
theorem run_stops_at_failure (grouper : Grouper) (handler : Handler σ) (state : σ) :
    (handler.NeverFails → ∀ records : List Record,
      (records.IsChain fun left right =>
        ∃ shared, grouper.sharedFields left right = .ok shared) →
      ∀ item failure rest, grouper.breakAt? records.getLast? item = some failure →
        let whole := runRecords grouper handler records state
        let broken := run grouper handler (records.map .ok ++ item :: rest) state
        broken.outcome = .error failure ∧
          whole.events = broken.events ++ grouper.finalCloses records.getLast? ∧
          broken.events.count .asked = records.length + 1 ∧
          (records = [] → broken.events = [.asked])) ∧
    ∀ stream : List (Except Error Record),
      let played := run grouper handler stream state
      ∃ replies,
        run grouper handler.noted stream (state, []) =
          ⟨played.events, (played.state, replies), played.outcome⟩ ∧
        replies.map Reply.event = played.events.filter Event.canFail ∧
        ∀ place event failure, replies[place]? = some ⟨event, some failure⟩ →
          played.outcome = .error failure ∧ replies.length = place + 1 ∧
            played.events.getLast? = some event := by
  constructor
  · intro hnever records hshared item failure rest hbreak
    obtain ⟨houtcome, hevents, hcount⟩ := run_of_break hnever hshared hbreak rest state
    refine ⟨houtcome, hevents, hcount, ?_⟩
    rintro rfl
    rw [List.getLast?_nil, Grouper.finalCloses, List.append_nil] at hevents
    exact hevents.symm
  · exact fun stream => exists_replies stream state

end Rollup

namespace Sample

/-- A handler that fails when it has read a group. -/
def refusing : Rollup.Handler Nat :=
  { taking 5 with left := fun _ wanted => (wanted, some (.handler "refused")) }

/-- Two clicks of one group, and a third one that cannot be read. -/
def brokenStream : List (Except Error Record) :=
  [click "Ann" 5, click "ann" 4].map .ok ++
    .error (.decoding .noSource) :: [.ok (click "Bob" 9)]

end Sample

namespace Rollup

theorem run_stops_at_failure_clicks :
    (run Sample.grouper (Sample.taking 5) Sample.brokenStream 0).outcome =
        .error (.decoding .noSource) ∧
      (run Sample.grouper (Sample.taking 5) Sample.brokenStream 0).events =
        [.asked, .opened 0 "user" (Sample.click "Ann" 5),
          .opened 1 sourceFieldName (Sample.click "Ann" 5), .entered 1,
          .gave (Sample.click "Ann" 5), .asked, .gave (Sample.click "ann" 4), .asked, .gaveNothing,
          .gaveNothing, .left (some (Sample.click "ann" 4))] ∧
      (run Sample.grouper Sample.refusing Sample.brokenStream 0).outcome =
        .error (.handler "refused") ∧
      (run Sample.grouper Sample.refusing Sample.brokenStream 0).events.getLast? =
        some (.left (some (Sample.click "ann" 4))) := by
  obtain ⟨hbreak, -⟩ := run_stops_at_failure Sample.grouper (Sample.taking 5) 0
  obtain ⟨-, hfailure⟩ := run_stops_at_failure Sample.grouper Sample.refusing 0
  have hshared : [Sample.click "Ann" 5, Sample.click "ann" 4].IsChain fun left right =>
      ∃ shared, Sample.grouper.sharedFields left right = .ok shared :=
    .cons_cons ⟨2, by cbv⟩ (.singleton _)
  obtain ⟨houtcome, hevents, -, -⟩ := hbreak (Sample.taking_neverFails 5) _ hshared
    (.error (.decoding .noSource)) _ [.ok (Sample.click "Bob" 9)] rfl
  have hwhole : (runRecords Sample.grouper (Sample.taking 5)
      [Sample.click "Ann" 5, Sample.click "ann" 4] 0).events =
        [.asked, .opened 0 "user" (Sample.click "Ann" 5),
          .opened 1 sourceFieldName (Sample.click "Ann" 5), .entered 1,
          .gave (Sample.click "Ann" 5), .asked, .gave (Sample.click "ann" 4), .asked, .gaveNothing,
          .gaveNothing, .left (some (Sample.click "ann" 4))] ++
        Sample.grouper.finalCloses (some (Sample.click "ann" 4)) := by cbv
  have hreply : (run Sample.grouper Sample.refusing.noted Sample.brokenStream
      (0, [])).state.2[2]? =
        some ⟨.left (some (Sample.click "ann" 4)), some (.handler "refused")⟩ := by cbv
  obtain ⟨replies, hnoted, -, hends⟩ := hfailure Sample.brokenStream
  rw [hnoted] at hreply
  obtain ⟨hrefused, -, hlast⟩ := hends _ _ _ hreply
  exact ⟨houtcome, List.append_cancel_right (hevents.symm.trans hwhole), hrefused, hlast⟩

end Rollup

end RecordRollup
