import Mathlib
import RecordRollup.Proofs.Rollup.Elements
import RecordRollup.Proofs.Rollup.Nesting

namespace RecordRollup.Rollup

open Play

variable {σ α β : Type} {grouper : Grouper} {handler : Handler σ}
  {stream unread : List (Except Error Record)} {events before after : List Event} {event : Event}

/-- When an event comes. An item is asked for as soon as the records of all items before it have
come; a handler can leave a group then or later; and anything else happens as long as there is one
item that has been asked for and whose record has not come. -/
def InTime (stream : List (Except Error Record)) (before : List Event) : Event → Prop
  | .asked => before.count .asked = (came before).length
  | .left _ => True
  | .boundary _ =>
      before.count .asked = (came before).length + 1 ∧ before.count .asked ≤ stream.length
  | _ => before.count .asked = (came before).length + 1

def Timely (stream : List (Except Error Record)) (events : List Event) : Prop :=
  ∀ before event after, events = before ++ event :: after → InTime stream before event

theorem Timely.nil : Timely stream [] := by
  intro before event after heq
  simp at heq

theorem Timely.concat (timely : Timely stream events) (hevent : InTime stream events event) :
    Timely stream (events ++ [event]) :=
  forall_events_concat timely hevent

theorem count_asked_concat (hasked : event ≠ .asked) :
    (events ++ [event]).count .asked = events.count .asked := by
  have habsent : Event.asked ∉ [event] := by simpa using hasked.symm
  rw [List.count_append, List.count_eq_zero_of_not_mem habsent, Nat.add_zero]

/-- So many items have been asked for, and so many records have come. -/
structure Reads (asks taken : Nat) (events : List Event) : Prop where
  asks_eq : events.count .asked = asks
  taken_eq : (came events).length = taken

/-- What is asked of a part of a run for it to read no further than it has to. -/
def Paced (stream : List (Except Error Record)) (holds : List Event → Prop) (play : Play σ α)
    (holdsNext : List Event → Prop) : Prop :=
  ∀ before state, Timely stream before → holds before →
    Timely stream (before ++ (play state).events) ∧
      ∀ value, (play state).outcome = .ok value → holdsNext (before ++ (play state).events)

namespace Reads

variable {asks taken : Nat}

theorem asked (reads : Reads asks taken events) : Reads (asks + 1) taken (events ++ [.asked]) where
  asks_eq := by rw [List.count_append, List.count_singleton_self, reads.asks_eq]
  taken_eq := by
    have hrecord : Event.asked.record? = none := rfl
    rw [came_concat, hrecord, Option.toList_none, List.append_nil, reads.taken_eq]

theorem took {record : Record} (reads : Reads asks taken events)
    (hrecord : event.record? = some record) : Reads asks (taken + 1) (events ++ [event]) where
  asks_eq := by
    have hasked : event ≠ .asked := by
      rintro rfl
      cases hrecord
    rw [count_asked_concat hasked, reads.asks_eq]
  taken_eq := by
    rw [came_concat, hrecord, Option.toList_some, List.length_append, reads.taken_eq,
      List.length_singleton]

theorem other (reads : Reads asks taken events) (hasked : event ≠ .asked)
    (hrecord : event.record? = none) : Reads asks taken (events ++ [event]) where
  asks_eq := by rw [count_asked_concat hasked, reads.asks_eq]
  taken_eq := by rw [came_concat, hrecord, Option.toList_none, List.append_nil, reads.taken_eq]

theorem ahead (reads : Reads (taken + 1) taken events) :
    events.count .asked = (came events).length + 1 := by
  rw [reads.asks_eq, reads.taken_eq]

end Reads

namespace Paced

variable {holds holdsNext holdsLast : List Event → Prop}

theorem pure (value : α) : Paced stream holds (pure value : Play σ α) holds := by
  intro before state timely hbefore
  have hevents : before ++ ((Pure.pure value : Play σ α) state).events = before :=
    List.append_nil before
  rw [hevents]
  exact ⟨timely, fun _ _ => hbefore⟩

theorem change (step : σ → σ × α) : Paced stream holds (change step) holds := by
  intro before state timely hbefore
  have hevents : before ++ (Play.change step state).events = before := List.append_nil before
  rw [hevents]
  exact ⟨timely, fun _ _ => hbefore⟩

theorem fail (error : Error) : Paced stream holds (fail error : Play σ α) holdsNext := by
  intro before state timely _
  have hevents : before ++ ((Play.fail error : Play σ α) state).events = before :=
    List.append_nil before
  rw [hevents]
  exact ⟨timely, by rintro value ⟨⟩⟩

theorem bind {play : Play σ α} {next : α → Play σ β} (hplay : Paced stream holds play holdsNext)
    (hnext : ∀ value, Paced stream holdsNext (next value) holdsLast) :
    Paced stream holds (play >>= next) holdsLast := by
  intro before state timely hbefore
  obtain ⟨htimely, hresult⟩ := hplay before state timely hbefore
  cases houtcome : (play state).outcome with
  | error error =>
      rw [bind_of_error houtcome]
      exact ⟨htimely, by rintro value ⟨⟩⟩
  | ok value =>
      rw [bind_of_ok houtcome]
      obtain ⟨hall, hlast⟩ :=
        hnext value _ (play state).state htimely (hresult value houtcome)
      rw [List.append_assoc] at hall hlast
      exact ⟨hall, hlast⟩

theorem forM {γ : Type} (items : List γ) {play : γ → Play σ Unit}
    (hplay : ∀ item ∈ items, Paced stream holds (play item) holds) :
    Paced stream holds (items.forM play) holds := by
  induction items with
  | nil => exact .pure ()
  | cons item items ih =>
      have hrest := ih fun other hother => hplay other (List.mem_cons_of_mem item hother)
      exact .bind (hplay item List.mem_cons_self) fun _ => hrest

theorem say (hintime : ∀ before, holds before → InTime stream before event)
    (hnext : ∀ before, holds before → holdsNext (before ++ [event])) :
    Paced stream holds (say event : Play σ Unit) holdsNext := by
  intro before state timely hbefore
  exact ⟨timely.concat (hintime before hbefore), fun _ _ => hnext before hbefore⟩

theorem call {callback : σ → σ × Option Error}
    (hintime : ∀ before, holds before → InTime stream before event)
    (hnext : ∀ before, holds before → holdsNext (before ++ [event])) :
    Paced stream holds (call event callback) holdsNext := by
  intro before state timely hbefore
  rw [events_call]
  exact ⟨timely.concat (hintime before hbefore), fun _ _ => hnext before hbefore⟩

end Paced

section Run

variable {asks taken : Nat}

theorem paced_openFrom (level : Nat) (first : Record) :
    Paced stream (Reads (taken + 1) taken) (openFrom grouper handler level first)
      (Reads (taken + 1) taken) :=
  .forM _ fun _ _ => .call (fun _ reads => reads.ahead) fun _ reads => reads.other (by simp) rfl

theorem paced_closeTo (level : Nat) (last : Record) :
    Paced stream (Reads (taken + 1) taken) (closeTo grouper handler level last)
      (Reads (taken + 1) taken) :=
  .forM _ fun _ _ => .call (fun _ reads => reads.ahead) fun _ reads => reads.other (by simp) rfl

theorem paced_leave (last : Option Record) :
    Paced stream (Reads asks taken) (leave handler last) (Reads asks taken) :=
  .call (fun _ _ => trivial) fun _ reads => reads.other (by simp) rfl

theorem paced_give (record : Record) :
    Paced stream (Reads (taken + 1) taken) (give handler record)
      (Reads (taken + 1) (taken + 1)) := by
  refine .bind (.say (fun _ reads => reads.ahead) fun _ reads => reads.took rfl) fun _ => ?_
  refine .bind (.change _) fun _ => ?_
  refine .bind (.change _) fun wants => ?_
  cases wants with
  | true => exact .pure _
  | false => exact .bind (paced_leave _) fun _ => .pure _

theorem paced_skipped (record : Record) :
    Paced stream (Reads (taken + 1) taken) (say (.skipped record) : Play σ Unit)
      (Reads (taken + 1) (taken + 1)) :=
  .say (fun _ reads => reads.ahead) fun _ reads => reads.took rfl

theorem paced_enter (first : Record) :
    Paced stream (Reads (taken + 1) taken) (enter grouper handler first)
      (Reads (taken + 1) (taken + 1)) := by
  refine .bind (.say (fun _ reads => reads.ahead)
    fun _ reads => reads.other (by simp) rfl) fun _ => ?_
  refine .bind (.change _) fun _ => ?_
  refine .bind (.change _) fun wants => ?_
  cases wants with
  | true => exact paced_give first
  | false =>
      refine .bind (paced_leave _) fun _ => ?_
      exact .bind (paced_skipped first) fun _ => .pure _

theorem paced_gaveNothing :
    Paced stream (Reads (taken + 1) taken) (say .gaveNothing : Play σ Unit)
      (Reads (taken + 1) taken) :=
  .say (fun _ reads => reads.ahead) fun _ reads => reads.other (by simp) rfl

theorem paced_conclude (last : Record) (reading : Bool) :
    Paced stream (Reads (taken + 1) taken) (conclude handler last reading)
      (Reads (taken + 1) taken) := by
  cases reading with
  | false => exact .pure ()
  | true =>
      refine .bind paced_gaveNothing fun _ => ?_
      refine .bind (.change _) fun again => ?_
      refine .bind (.forM _ fun event hevent => ?_) fun _ => paced_leave _
      rw [List.eq_of_mem_replicate hevent]
      exact paced_gaveNothing

theorem paced_advance (hbound : taken + 1 ≤ stream.length) (stage : Stage)
    (item : Except Error Record) :
    Paced stream (Reads (taken + 1) taken) (advance grouper handler stage item)
      (Reads (taken + 1) (taken + 1)) := by
  cases stage with
  | start =>
      cases item with
      | error error => exact .fail error
      | ok first => exact .bind (paced_openFrom _ _) fun _ => paced_enter first
  | inside last reading =>
      cases item with
      | error error => exact .bind (paced_conclude _ _) fun _ => .fail error
      | ok next =>
          rw [advance]
          cases grouper.sharedFields last next with
          | error error => exact .bind (paced_conclude _ _) fun _ => .fail error
          | ok shared =>
              dsimp only
              split
              · cases reading with
                | true => exact paced_give next
                | false => exact .bind (paced_skipped next) fun _ => .pure _
              · refine .bind (paced_conclude _ _) fun _ => ?_
                refine .bind (.say (fun _ reads => ⟨reads.ahead, reads.asks_eq.trans_le hbound⟩)
                  fun _ reads => reads.other (by simp) rfl) fun _ => ?_
                refine .bind (paced_closeTo _ _) fun _ => ?_
                exact .bind (paced_openFrom _ _) fun _ => paced_enter next

theorem paced_finish (stage : Stage) :
    Paced stream (Reads (taken + 1) taken) (finish grouper handler stage)
      (Reads (taken + 1) taken) := by
  cases stage with
  | start => exact .pure ()
  | inside last reading => exact .bind (paced_conclude _ _) fun _ => paced_closeTo _ _

theorem paced_asked :
    Paced stream (Reads taken taken) (say .asked : Play σ Unit) (Reads (taken + 1) taken) :=
  .say (fun _ reads => reads.asks_eq.trans reads.taken_eq.symm) fun _ reads => reads.asked

theorem paced_runFrom (stage : Stage) (hunread : taken + unread.length = stream.length) :
    Paced stream (Reads taken taken) (runFrom grouper handler stage unread)
      (Reads (stream.length + 1) stream.length) := by
  induction unread generalizing taken stage with
  | nil =>
      obtain rfl : taken = stream.length := hunread
      exact .bind paced_asked fun _ => paced_finish stage
  | cons item rest ih =>
      rw [List.length_cons] at hunread
      refine .bind paced_asked fun _ => ?_
      refine .bind (paced_advance (by omega) stage item) fun next => ?_
      exact ih next (by omega)

variable (grouper handler stream) in
theorem timely_run (state : σ) :
    let played := run grouper handler stream state
    Timely stream played.events ∧
      ∀ value, played.outcome = .ok value →
        Reads (stream.length + 1) stream.length played.events :=
  paced_runFrom .start (Nat.zero_add _) [] state .nil ⟨rfl, rfl⟩

end Run

def pulled (stream : List (Except Error Record)) (events : List Event) : Nat :=
  min (events.count .asked) stream.length

/-- The record that an event is the first one about, or among the first ones. -/
def Event.next? : Event → Option Record
  | .opened _ _ record | .gave record | .skipped record => some record
  | _ => none

/-- The stream has gone on with another group, and since then only groups have closed. -/
def AtBoundary (events : List Event) : Prop :=
  ∃ earlier shared closes, events = earlier ++ .boundary shared :: closes ∧
    ∀ event ∈ closes, ∃ depth field last, event = .closed depth field last

theorem lastGroup_suffix (events : List Event) : lastGroup events <:+ came events := by
  induction events using List.reverseRecOn with
  | nil => exact List.suffix_rfl
  | append_singleton events event ih =>
      rw [lastGroup_concat, came_concat]
      cases event with
      | entered depth => exact List.nil_suffix
      | gave record | skipped record =>
          obtain ⟨front, hfront⟩ := ih
          refine ⟨front, ?_⟩
          rw [← hfront, List.append_assoc]
          rfl
      | _ => simpa [Event.record?, Event.groupAfter] using ih

namespace Nested

theorem getElem?_of_came (nested : Nested grouper stream events) {place : Nat} {record : Record}
    (hrecord : (came events)[place]? = some record) : stream[place]? = some (.ok record) := by
  obtain ⟨rest, hrest⟩ := nested.came_prefix
  have hplace : ((came events).map Except.ok : List (Except Error Record))[place]? =
      some (.ok record) := by
    rw [List.getElem?_map, hrecord]
    rfl
  rw [← hrest, List.getElem?_append_left (List.getElem?_eq_some_iff.mp hplace).1, hplace]

theorem getElem?_of_next? (nested : Nested grouper stream (before ++ event :: after))
    {record : Record} (hrecord : event.next? = some record) :
    stream[(came before).length]? = some (.ok record) := by
  have hprefix : (came before ++ [record]).map .ok <+: stream := by
    obtain ⟨hfits, -⟩ := nested before event after rfl
    cases event with
    | opened depth field first =>
        obtain rfl := Option.some.inj hrecord
        exact hfits.2.2.2
    | gave other | skipped other =>
        obtain rfl := Option.some.inj hrecord
        exact hfits.2
    | _ => cases hrecord
  obtain ⟨rest, hrest⟩ := hprefix
  rw [← hrest]
  simp

theorem getElem?_of_closed {depth : Nat} {field : String} {last : Record}
    (nested : Nested grouper stream (before ++ .closed depth field last :: after)) :
    0 < (came before).length ∧ stream[(came before).length - 1]? = some (.ok last) := by
  obtain ⟨⟨-, -, hlast⟩, -⟩ := nested before _ after rfl
  obtain ⟨front, hfront⟩ := lastGroup_suffix before
  have hcame : (came before).getLast? = some last := by
    rw [← hfront, List.getLast?_append, hlast, Option.some_or]
  refine ⟨List.length_pos_iff.mpr ?_, ?_⟩
  · intro hnone
    rw [hnone] at hcame
    cases hcame
  · rw [List.getLast?_eq_getElem?] at hcame
    exact nested.of_append.getElem?_of_came hcame

end Nested

namespace Timely

variable (timely : Timely stream (before ++ event :: after))

include timely

theorem count_asked_of_next? {record : Record} (hrecord : event.next? = some record) :
    before.count .asked = (came before).length + 1 := by
  have hintime := timely before event after rfl
  cases event with
  | opened depth field first => exact hintime
  | gave other | skipped other => exact hintime
  | _ => cases hrecord

theorem count_asked_of_closed {depth : Nat} {field : String} {last : Record}
    (hevent : event = .closed depth field last) :
    before.count .asked = (came before).length + 1 := by
  subst hevent
  exact timely before _ after rfl

theorem count_asked_le_of_atBoundary (hboundary : AtBoundary before) :
    before.count .asked ≤ stream.length := by
  obtain ⟨earlier, shared, closes, rfl, hcloses⟩ := hboundary
  have hquiet : Event.asked ∉ .boundary shared :: closes := by
    rw [List.mem_cons, not_or]
    refine ⟨by simp, fun hmem => ?_⟩
    obtain ⟨depth, field, last, heq⟩ := hcloses _ hmem
    cases heq
  rw [List.count_append, List.count_eq_zero_of_not_mem hquiet]
  exact (timely earlier (.boundary shared) (closes ++ event :: after) (by simp)).2

end Timely

theorem asked_not_mem_after (nested : Nested grouper stream (before ++ .asked :: after))
    (timely : Timely stream (before ++ .asked :: after))
    (hitem : ∀ record, stream[before.count .asked]? ≠ some (.ok record)) :
    Event.asked ∉ after := by
  intro hasked
  obtain ⟨middle, rest, rfl⟩ := List.append_of_mem hasked
  have hevents : before ++ .asked :: (middle ++ .asked :: rest) =
      (before ++ .asked :: middle) ++ .asked :: rest := by simp
  rw [hevents] at nested timely
  have hcount := timely (before ++ .asked :: middle) .asked rest rfl
  have hcame : before.count .asked < (came (before ++ .asked :: middle)).length := by
    rw [InTime, List.count_append, List.count_cons_self] at hcount
    omega
  exact hitem _ (nested.of_append.getElem?_of_came (List.getElem?_eq_getElem hcame))

/-- A run has read the stream up to the record that a group opens with or a handler is given, and one
record further when a group closes since the stream goes on with another one. Nothing is asked for after
the end of the stream or an error in it. -/
theorem reads_one_ahead (grouper : Grouper) (handler : Handler σ)
    (stream : List (Except Error Record)) (state : σ) :
    let played := run grouper handler stream state
    (∀ before event after, played.events = before ++ event :: after →
      (∀ record ∈ event.next?, stream[(came before).length]? = some (.ok record) ∧
        pulled stream before = (came before).length + 1) ∧
      (∀ depth field last, event = .closed depth field last → AtBoundary before →
        0 < (came before).length ∧ stream[(came before).length - 1]? = some (.ok last) ∧
          pulled stream before = (came before).length + 1) ∧
      (event = .asked → (∀ record, stream[before.count .asked]? ≠ some (.ok record)) →
        .asked ∉ after)) ∧
    (played.outcome = .ok () →
      ∃ records : List Record,
        stream = records.map .ok ∧ played.events.count .asked = records.length + 1) ∧
    ∀ count, stream.length + 2 ≤ count →
      (rounds grouper handler count (.idle stream) state).events = played.events := by
  intro played
  obtain ⟨nested, hfinished, -⟩ : Nested grouper stream played.events ∧
    (∀ value, played.outcome = .ok value → Finished stream played.events) ∧ _ :=
      nested_run grouper handler stream state
  obtain ⟨timely, hreads⟩ := timely_run grouper handler stream state
  refine ⟨?_, ?_, ?_⟩
  · intro before event after hevents
    rw [hevents] at nested timely
    refine ⟨?_, ?_, ?_⟩
    · intro record hrecord
      have hitem := nested.getElem?_of_next? hrecord
      have hbound : (came before).length < stream.length := (List.getElem?_eq_some_iff.mp hitem).1
      refine ⟨hitem, ?_⟩
      rw [pulled, timely.count_asked_of_next? hrecord]
      omega
    · rintro depth field last rfl hboundary
      obtain ⟨hpos, hitem⟩ := nested.getElem?_of_closed
      have hcount := timely.count_asked_of_closed rfl
      have hbound := timely.count_asked_le_of_atBoundary hboundary
      refine ⟨hpos, hitem, ?_⟩
      rw [pulled, Nat.min_eq_left hbound, hcount]
    · rintro rfl hitem
      exact asked_not_mem_after nested timely hitem
  · intro houtcome
    have hread := (hfinished () houtcome).read
    refine ⟨came played.events, hread.symm, ?_⟩
    rw [(hreads () houtcome).asks_eq, (hreads () houtcome).taken_eq]
  · intro count hcount
    rw [rounds_eq_run stream hcount, events_bind_pure]

theorem reads_one_ahead_clicks :
    let stream : List (Except Error Record) := Sample.clickStream.map .ok
    let played := run Sample.grouper (Sample.taking 1) stream 0
    played.events.count .asked = 4 ∧
      ∃ before after,
        played.events = before ++ .closed 0 "user" (Sample.click "ann" 4) :: after ∧
        came before = [Sample.click "Ann" 5, Sample.click "ann" 4] ∧ pulled stream before = 3 := by
  intro stream played
  obtain ⟨hevent, hdone, -⟩ := reads_one_ahead Sample.grouper (Sample.taking 1) stream 0
  let earlier : List Event :=
    [.asked, .opened 0 "user" (Sample.click "Ann" 5),
      .opened 1 sourceFieldName (Sample.click "Ann" 5), .entered 1, .gave (Sample.click "Ann" 5),
      .left (some (Sample.click "Ann" 5)), .asked, .skipped (Sample.click "ann" 4), .asked]
  let later : List Event :=
    [.opened 0 "user" (Sample.click "Bob" 9), .opened 1 sourceFieldName (Sample.click "Bob" 9),
      .entered 1, .gave (Sample.click "Bob" 9), .left (some (Sample.click "Bob" 9)), .asked,
      .closed 1 sourceFieldName (Sample.click "Bob" 9), .closed 0 "user" (Sample.click "Bob" 9)]
  have hevents : played.events =
      (earlier ++ .boundary 0 :: [.closed 1 sourceFieldName (Sample.click "ann" 4)]) ++
        .closed 0 "user" (Sample.click "ann" 4) :: later := by cbv
  constructor
  · obtain ⟨records, hrecords, hcount⟩ := hdone (by cbv)
    have hlength := congrArg List.length hrecords
    rw [List.length_map, List.length_map] at hlength
    rw [hcount, ← hlength]
    rfl
  · obtain ⟨-, hclosed, -⟩ := hevent _ _ _ hevents
    obtain ⟨-, -, hpulled⟩ := hclosed _ _ _ rfl ⟨earlier, _, _, rfl, by simp⟩
    refine ⟨_, _, hevents, ?_, ?_⟩
    · cbv
    · rw [hpulled]
      rfl

end RecordRollup.Rollup
