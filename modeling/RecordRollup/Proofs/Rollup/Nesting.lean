import Mathlib
import RecordRollup.Proofs.Plan.OrderLaws
import RecordRollup.Proofs.Rollup.BrokenStream
import RecordRollup.Proofs.Rollup.History

namespace RecordRollup

theorem Grouper.sharedFields_le {grouper : Grouper} {left right : Record} {shared : Nat}
    (hshared : grouper.sharedFields left right = .ok shared) : shared ≤ grouper.size := by
  rw [sharedFields, Plan.sharedKeys, if_pos grouper.size_le] at hshared
  exact (sharedAlong_le hshared).trans (List.length_take_le _ _)

namespace Rollup

open Play

variable {σ α β : Type}

/-- What is asked of a part of a run for the groups to nest. After events that fit and of which
`holds` is true it adds only events that fit, and if it has a result, `holdsNext` is true. If it fails
right after the open of an innermost group, it is that open which has failed. -/
def Keeps (grouper : Grouper) (handler : Handler σ) (stream : List (Except Error Record))
    (holds : List Event → Prop) (play : Play σ α) (holdsNext : α → List Event → Prop) : Prop :=
  ∀ before state, Nested grouper stream before → holds before →
    Nested grouper stream (before ++ (play state).events) ∧
      (∀ value, (play state).outcome = .ok value →
        holdsNext value (before ++ (play state).events)) ∧
      ∀ error, (play state).outcome = .error error → ∀ field first,
        (before ++ (play state).events).getLast? =
            some (.opened (grouper.size - 1) field first) →
          ∃ earlier, handler.opened (grouper.size - 1) field first earlier =
            ((play state).state, some error)

variable {grouper : Grouper} {handler : Handler σ} {stream : List (Except Error Record)}

namespace Keeps

variable {holds : List Event → Prop} {holdsNext : α → List Event → Prop}

theorem pure {value : α} (hvalue : ∀ before, holds before → holdsNext value before) :
    Keeps grouper handler stream holds (pure value : Play σ α) holdsNext := by
  intro before state nested hbefore
  have hevents : before ++ ((Pure.pure value : Play σ α) state).events = before :=
    List.append_nil before
  rw [hevents]
  refine ⟨nested, ?_, ?_⟩
  · rintro other ⟨⟩
    exact hvalue before hbefore
  · rintro error ⟨⟩

theorem fail (error : Error) (hcalm : ∀ before, holds before → ¬ OpensInnermost grouper before) :
    Keeps grouper handler stream holds (fail error : Play σ α) holdsNext := by
  intro before state nested hbefore
  have hevents : before ++ ((Play.fail error : Play σ α) state).events = before :=
    List.append_nil before
  rw [hevents]
  refine ⟨nested, ?_, ?_⟩
  · rintro value ⟨⟩
  · intro _ _ field first hlast
    exact absurd ⟨field, first, hlast⟩ (hcalm before hbefore)

theorem change (step : σ → σ × α) :
    Keeps grouper handler stream holds (change step) fun _ => holds := by
  intro before state nested hbefore
  have hevents : before ++ (Play.change step state).events = before := List.append_nil before
  rw [hevents]
  refine ⟨nested, ?_, ?_⟩
  · intro value _
    exact hbefore
  · rintro error ⟨⟩

theorem bind {play : Play σ α} {next : α → Play σ β} {holdsLast : β → List Event → Prop}
    (hplay : Keeps grouper handler stream holds play holdsNext)
    (hnext : ∀ value, Keeps grouper handler stream (holdsNext value) (next value) holdsLast) :
    Keeps grouper handler stream holds (play >>= next) holdsLast := by
  intro before state nested hbefore
  obtain ⟨hnested, hresult, hfailure⟩ := hplay before state nested hbefore
  cases houtcome : (play state).outcome with
  | error error =>
      rw [bind_of_error houtcome]
      refine ⟨hnested, ?_, ?_⟩
      · rintro value ⟨⟩
      · rintro other ⟨⟩
        exact hfailure error houtcome
  | ok value =>
      rw [bind_of_ok houtcome]
      obtain ⟨hall, hlast⟩ :=
        hnext value _ (play state).state hnested (hresult value houtcome)
      rw [List.append_assoc] at hall hlast
      exact ⟨hall, hlast⟩

theorem mono {play : Play σ α} {holdsMore : α → List Event → Prop}
    (hplay : Keeps grouper handler stream holds play holdsNext)
    (hmore : ∀ value before, holdsNext value before → holdsMore value before) :
    Keeps grouper handler stream holds play holdsMore := by
  intro before state nested hbefore
  obtain ⟨hnested, hresult, hfailure⟩ := hplay before state nested hbefore
  exact ⟨hnested, fun value houtcome => hmore value _ (hresult value houtcome), hfailure⟩

/-- An event that fits, and that is all that can follow the open of an innermost group. -/
structure Adds (grouper : Grouper) (stream : List (Except Error Record)) (before : List Event)
    (event : Event) (holdsNext : List Event → Prop) : Prop where
  fits : Fits grouper stream before event
  entered : OpensInnermost grouper before → event = .entered (grouper.size - 1)
  next : holdsNext (before ++ [event])

theorem say {event : Event} {holdsNext : List Event → Prop}
    (hadds : ∀ before, holds before → Adds grouper stream before event holdsNext) :
    Keeps grouper handler stream holds (say event : Play σ Unit) fun _ => holdsNext := by
  intro before state nested hbefore
  obtain ⟨hfits, hentered, hnext⟩ := hadds before hbefore
  refine ⟨nested.concat hfits hentered, ?_, ?_⟩
  · intro _ _
    exact hnext
  · rintro error ⟨⟩

theorem call {event : Event} {callback : σ → σ × Option Error}
    {holdsNext : List Event → Prop}
    (hadds : ∀ before, holds before → Adds grouper stream before event holdsNext)
    (hcallback : ∀ field first, event = .opened (grouper.size - 1) field first →
      callback = handler.opened (grouper.size - 1) field first) :
    Keeps grouper handler stream holds (call event callback) fun _ => holdsNext := by
  intro before state nested hbefore
  obtain ⟨hfits, hentered, hnext⟩ := hadds before hbefore
  rw [events_call]
  refine ⟨nested.concat hfits hentered, fun _ _ => hnext, ?_⟩
  intro error herror field first hlast
  rw [List.getLast?_concat, Option.some.injEq] at hlast
  rw [← hcallback field first hlast]
  refine ⟨state, ?_⟩
  cases hfailure : (callback state).2 with
  | none =>
      rw [call_of_none event hfailure] at herror
      cases herror
  | some failure =>
      rw [call_of_some event hfailure] at herror ⊢
      cases herror
      rw [← hfailure]

end Keeps

open Keeps (Adds)

/-- Whether an event is about no group that opens or closes, and about no record that comes. -/
def Event.isQuiet : Event → Bool
  | .asked | .gaveNothing | .left _ | .boundary _ => true
  | _ => false

/-- Where a run stands after these events, unless it has just opened an innermost group: the groups
that are open, the last record of the innermost group before, and what of the stream has not come. -/
structure Standing (grouper : Grouper) (stream : List (Except Error Record)) (count : Nat)
    (last : Option Record) (unread : List (Except Error Record)) (before : List Event) : Prop where
  open_eq : openDepths before = List.range' grouper.base count
  last_eq : ∀ record ∈ last, (lastGroup before).getLast? = some record
  read_eq : (came before).map .ok ++ unread = stream
  calm : ¬ OpensInnermost grouper before

/-- The same after the open of an innermost group, of which `first` is the first record. -/
structure Entering (grouper : Grouper) (stream : List (Except Error Record)) (first : Record)
    (unread : List (Except Error Record)) (before : List Event) : Prop where
  open_eq : openDepths before = grouper.depthsFrom grouper.base
  read_eq : (came before).map .ok ++ .ok first :: unread = stream
  opens : OpensInnermost grouper before

theorem not_opensInnermost_concat {before : List Event} {event : Event}
    (hevent : ∀ field first, event ≠ .opened (grouper.size - 1) field first) :
    ¬ OpensInnermost grouper (before ++ [event]) := by
  rintro ⟨field, first, hlast⟩
  rw [List.getLast?_concat, Option.some.injEq] at hlast
  exact hevent field first hlast

namespace Standing

variable {count : Nat} {last : Option Record} {unread : List (Except Error Record)}
  {before : List Event} {event : Event}

theorem next_prefix {record : Record}
    (standing : Standing grouper stream count last (.ok record :: unread) before) :
    (came before ++ [record]).map .ok <+: stream := by
  refine ⟨unread, ?_⟩
  rw [List.map_append, List.append_assoc, ← standing.read_eq]
  rfl

theorem quiet (standing : Standing grouper stream count last unread before)
    (hquiet : event.isQuiet = true) (hfits : Fits grouper stream before event) :
    Adds grouper stream before event (Standing grouper stream count last unread) := by
  have hopen : event.openAfter (openDepths before) = openDepths before := by
    cases event <;> first | rfl | cases hquiet
  have hgroup : event.groupAfter (lastGroup before) = lastGroup before := by
    cases event <;> first | rfl | cases hquiet
  have hrecord : event.record? = none := by
    cases event <;> first | rfl | cases hquiet
  refine ⟨hfits, fun hopens => absurd hopens standing.calm, ?_, ?_, ?_, ?_⟩
  · rw [openDepths_concat, hopen, standing.open_eq]
  · rw [lastGroup_concat, hgroup]
    exact standing.last_eq
  · rw [came_concat, hrecord, Option.toList_none, List.append_nil]
    exact standing.read_eq
  · apply not_opensInnermost_concat
    rintro field first rfl
    cases hquiet

theorem opened {depth : Nat} {first : Record}
    (standing : Standing grouper stream count last (.ok first :: unread) before)
    (hdepth : grouper.base + count = depth) (hinner : depth + 1 < grouper.size) :
    Adds grouper stream before (.opened depth (grouper.fieldAt depth) first)
      (Standing grouper stream (count + 1) last (.ok first :: unread)) := by
  refine ⟨⟨?_, by omega, rfl, standing.next_prefix⟩,
    fun hopens => absurd hopens standing.calm, ?_, ?_, ?_, ?_⟩
  · rw [standing.open_eq, nextDepth_range', hdepth]
  · rw [openDepths_concat, Event.openAfter, standing.open_eq, List.range'_1_concat, hdepth]
  · rw [lastGroup_concat]
    exact standing.last_eq
  · rw [came_concat]
    simpa [Event.record?] using standing.read_eq
  · apply not_opensInnermost_concat
    intro field other heq
    cases heq
    omega

theorem openedInnermost {depth : Nat} {first : Record}
    (standing : Standing grouper stream count last (.ok first :: unread) before)
    (hdepth : grouper.base + count = depth) (hinner : depth + 1 = grouper.size) :
    Adds grouper stream before (.opened depth (grouper.fieldAt depth) first)
      (Entering grouper stream first unread) := by
  refine ⟨⟨?_, by omega, rfl, standing.next_prefix⟩,
    fun hopens => absurd hopens standing.calm, ?_, ?_, ?_⟩
  · rw [standing.open_eq, nextDepth_range', hdepth]
  · have hcount : grouper.size - grouper.base = count + 1 := by omega
    rw [openDepths_concat, Event.openAfter, standing.open_eq, Grouper.depthsFrom, hcount,
      List.range'_1_concat, hdepth]
  · rw [came_concat]
    simpa [Event.record?] using standing.read_eq
  · refine ⟨grouper.fieldAt depth, first, ?_⟩
    rw [List.getLast?_concat, show grouper.size - 1 = depth by omega]

theorem closed {depth : Nat} {record : Record}
    (standing : Standing grouper stream (count + 1) (some record) unread before)
    (hdepth : grouper.base + count = depth) :
    Adds grouper stream before (.closed depth (grouper.fieldAt depth) record)
      (Standing grouper stream count (some record) unread) := by
  refine ⟨⟨?_, rfl, standing.last_eq record rfl⟩, fun hopens => absurd hopens standing.calm,
    ?_, ?_, ?_, ?_⟩
  · rw [standing.open_eq, getLast?_range'_succ, hdepth]
  · rw [openDepths_concat, Event.openAfter, standing.open_eq, ← hdepth, erase_range'_succ]
  · rw [lastGroup_concat]
    exact standing.last_eq
  · rw [came_concat]
    simpa [Event.record?] using standing.read_eq
  · exact not_opensInnermost_concat (by simp)

theorem came {record : Record}
    (standing : Standing grouper stream (grouper.size - grouper.base) last (.ok record :: unread)
      before) (hevent : event = .gave record ∨ event = .skipped record) :
    Adds grouper stream before event
      (Standing grouper stream (grouper.size - grouper.base) (some record) unread) := by
  have hfits : Fits grouper stream before event := by
    rcases hevent with rfl | rfl <;> exact ⟨standing.open_eq, standing.next_prefix⟩
  refine ⟨hfits, fun hopens => absurd hopens standing.calm, ?_, ?_, ?_, ?_⟩
  · rw [openDepths_concat, ← standing.open_eq]
    rcases hevent with rfl | rfl <;> rfl
  · rintro other ⟨⟩
    rw [lastGroup_concat]
    rcases hevent with rfl | rfl <;> exact List.getLast?_concat
  · rw [came_concat, ← standing.read_eq]
    rcases hevent with rfl | rfl <;> simp [Event.record?]
  · apply not_opensInnermost_concat
    rcases hevent with rfl | rfl <;> simp

end Standing

theorem Entering.entered {first : Record} {unread : List (Except Error Record)}
    {before : List Event} (entering : Entering grouper stream first unread before) :
    Adds grouper stream before (.entered (grouper.size - 1))
      (Standing grouper stream (grouper.size - grouper.base) none (.ok first :: unread)) := by
  refine ⟨⟨rfl, entering.open_eq, entering.opens⟩, fun _ => rfl, ?_, by simp, ?_, ?_⟩
  · rw [openDepths_concat]
    exact entering.open_eq
  · rw [came_concat]
    simpa [Event.record?] using entering.read_eq
  · exact not_opensInnermost_concat (by simp)

/-- Where a run stands when it asks for the next item of the stream. -/
def Stands (grouper : Grouper) (stream : List (Except Error Record)) :
    Stage → (unread : List (Except Error Record)) → List Event → Prop
  | .start, unread => Standing grouper stream 0 none unread
  | .inside last _, unread =>
      Standing grouper stream (grouper.size - grouper.base) (some last) unread

section Run

variable {last : Option Record} {count : Nat} {unread : List (Except Error Record)}

theorem keeps_asked :
    Keeps grouper handler stream (Standing grouper stream count last unread) (say .asked)
      fun _ => Standing grouper stream count last unread :=
  .say fun _ standing => standing.quiet rfl trivial

theorem keeps_boundary (shared : Nat) :
    Keeps grouper handler stream (Standing grouper stream count last unread)
      (say (.boundary shared)) fun _ => Standing grouper stream count last unread :=
  .say fun _ standing => standing.quiet rfl trivial

theorem keeps_gaveNothing :
    Keeps grouper handler stream
      (Standing grouper stream (grouper.size - grouper.base) last unread) (say .gaveNothing)
      fun _ => Standing grouper stream (grouper.size - grouper.base) last unread :=
  .say fun _ standing => standing.quiet rfl standing.open_eq

theorem keeps_leave (given : Option Record) :
    Keeps grouper handler stream
      (Standing grouper stream (grouper.size - grouper.base) last unread) (leave handler given)
      fun _ => Standing grouper stream (grouper.size - grouper.base) last unread :=
  .call (fun _ standing => standing.quiet rfl standing.open_eq) (by simp)

theorem keeps_give (record : Record) :
    Keeps grouper handler stream
      (Standing grouper stream (grouper.size - grouper.base) last (.ok record :: unread))
      (give handler record) fun stage => Stands grouper stream stage unread := by
  refine .bind (.say fun _ standing => standing.came (.inl rfl)) fun _ => ?_
  refine .bind (.change _) fun _ => ?_
  refine .bind (.change _) fun wants => ?_
  cases wants with
  | true => exact .pure fun _ standing => standing
  | false => exact .bind (keeps_leave _) fun _ => .pure fun _ standing => standing

theorem keeps_enter (first : Record) :
    Keeps grouper handler stream (Entering grouper stream first unread)
      (enter grouper handler first) fun stage => Stands grouper stream stage unread := by
  refine .bind (.say fun _ entering => entering.entered) fun _ => ?_
  refine .bind (.change _) fun _ => ?_
  refine .bind (.change _) fun wants => ?_
  cases wants with
  | true => exact keeps_give first
  | false =>
      refine .bind (keeps_leave none) fun _ => ?_
      refine .bind (.say fun _ standing => standing.came (.inr rfl)) fun _ => ?_
      exact .pure fun _ standing => standing

theorem keeps_conclude (record : Record) (reading : Bool) :
    Keeps grouper handler stream
      (Standing grouper stream (grouper.size - grouper.base) last unread)
      (conclude handler record reading)
      fun _ => Standing grouper stream (grouper.size - grouper.base) last unread := by
  cases reading with
  | false => exact .pure fun _ standing => standing
  | true =>
      have hagain : ∀ again, Keeps grouper handler stream
          (Standing grouper stream (grouper.size - grouper.base) last unread)
          ((List.replicate again Event.gaveNothing).forM say)
          fun _ => Standing grouper stream (grouper.size - grouper.base) last unread := by
        intro again
        induction again with
        | zero => exact .pure fun _ standing => standing
        | succ again ih => exact .bind keeps_gaveNothing fun _ => ih
      refine .bind keeps_gaveNothing fun _ => ?_
      refine .bind (.change _) fun again => ?_
      exact .bind (hagain again) fun _ => keeps_leave _

theorem keeps_openFrom {level : Nat} (hbase : grouper.base ≤ level) (hlevel : level < grouper.size)
    (first : Record) :
    Keeps grouper handler stream
      (Standing grouper stream (level - grouper.base) last (.ok first :: unread))
      (openFrom grouper handler level first) fun _ => Entering grouper stream first unread := by
  obtain ⟨inner, hinner⟩ : ∃ inner, grouper.size - level = inner + 1 :=
    ⟨grouper.size - level - 1, by omega⟩
  simp only [openFrom, levelsFrom_eq, Grouper.depthsFrom, hinner, List.forM_eq_forM,
    List.forM_map]
  induction inner generalizing level with
  | zero =>
      rw [List.range'_one, List.forM_cons]
      refine .bind (.call (fun _ standing => standing.openedInnermost (by omega) (by omega)) ?_)
        fun _ => .pure fun _ entering => entering
      rintro field other ⟨⟩
      rfl
  | succ inner ih =>
      rw [List.range'_succ, List.forM_cons]
      refine .bind (.call (fun _ standing => standing.opened (by omega) (by omega)) ?_)
        fun _ => ?_
      · rintro field other ⟨⟩
        rfl
      · rw [← Nat.sub_add_comm hbase]
        exact ih (by omega) (by omega) (by omega)

theorem keeps_closeTo {level : Nat} (hbase : grouper.base ≤ level) (hlevel : level ≤ grouper.size)
    (record : Record) :
    Keeps grouper handler stream
      (Standing grouper stream (grouper.size - grouper.base) (some record) unread)
      (closeTo grouper handler level record)
      fun _ => Standing grouper stream (level - grouper.base) (some record) unread := by
  obtain ⟨inner, hinner⟩ : ∃ inner, grouper.size - level = inner := ⟨_, rfl⟩
  have hcount : grouper.size - grouper.base = level - grouper.base + inner := by omega
  simp only [closeTo, levelsFrom_eq, Grouper.depthsFrom, hinner, hcount, List.forM_eq_forM,
    ← List.map_reverse, List.forM_map]
  clear hinner hcount
  induction inner with
  | zero => exact .pure fun _ standing => standing
  | succ inner ih =>
      have hdepth : grouper.base + (level - grouper.base + inner) = level + inner := by omega
      rw [List.range'_1_concat, List.reverse_append, List.reverse_singleton,
        List.singleton_append, List.forM_cons]
      exact .bind (.call (fun _ standing => standing.closed hdepth) (by simp)) fun _ => ih

theorem keeps_advance (stage : Stage) (item : Except Error Record) :
    Keeps grouper handler stream (Stands grouper stream stage (item :: unread))
      (advance grouper handler stage item) fun next => Stands grouper stream next unread := by
  cases stage with
  | start =>
      cases item with
      | error error => exact .fail error fun _ standing => standing.calm
      | ok first =>
          have hopen : Keeps grouper handler stream
              (Standing grouper stream (grouper.base - grouper.base) none (.ok first :: unread))
              (openFrom grouper handler grouper.base first)
              fun _ => Entering grouper stream first unread :=
            keeps_openFrom le_rfl grouper.base_lt first
          rw [Nat.sub_self] at hopen
          exact .bind hopen fun _ => keeps_enter first
  | inside last reading =>
      have hbroken : ∀ error, Keeps grouper handler stream
          (Stands grouper stream (.inside last reading) (item :: unread))
          (do
            conclude handler last reading
            fail error) fun next => Stands grouper stream next unread :=
        fun error => .bind (keeps_conclude last reading) fun _ =>
          .fail error fun _ standing => standing.calm
      cases item with
      | error error => exact hbroken error
      | ok next =>
          rw [advance]
          cases hshared : grouper.sharedFields last next with
          | error error => exact hbroken error
          | ok shared =>
              dsimp only
              split
              · cases reading with
                | true => exact keeps_give next
                | false =>
                    exact .bind (.say fun _ standing => standing.came (.inr rfl)) fun _ =>
                      .pure fun _ standing => standing
              · next hother =>
                  have hlevel : max shared grouper.base < grouper.size := by
                    have := Grouper.sharedFields_le hshared
                    have := grouper.base_lt
                    omega
                  refine .bind (keeps_conclude last reading) fun _ => ?_
                  refine .bind (keeps_boundary shared) fun _ => ?_
                  refine .bind (keeps_closeTo (le_max_right _ _) hlevel.le last) fun _ => ?_
                  refine .bind (keeps_openFrom (le_max_right _ _) hlevel next) fun _ => ?_
                  exact keeps_enter next

structure Finished (stream : List (Except Error Record)) (before : List Event) : Prop where
  closed : openDepths before = []
  read : (came before).map .ok = stream

theorem Standing.finished {before : List Event}
    (standing : Standing grouper stream 0 last [] before) : Finished stream before where
  closed := standing.open_eq
  read := by rw [← standing.read_eq, List.append_nil]

theorem keeps_finish (stage : Stage) :
    Keeps grouper handler stream (Stands grouper stream stage []) (finish grouper handler stage)
      fun _ => Finished stream := by
  cases stage with
  | start => exact .pure fun _ standing => standing.finished
  | inside last reading =>
      refine .bind (keeps_conclude last reading) fun _ => ?_
      refine (keeps_closeTo le_rfl grouper.base_lt.le last).mono fun _ before standing => ?_
      rw [Nat.sub_self] at standing
      exact standing.finished

theorem keeps_runFrom (stage : Stage) :
    Keeps grouper handler stream (Stands grouper stream stage unread)
      (runFrom grouper handler stage unread) fun _ => Finished stream := by
  have hasked : ∀ stage unread, Keeps grouper handler stream (Stands grouper stream stage unread)
      (say .asked) fun _ => Stands grouper stream stage unread := by
    intro stage unread
    cases stage <;> exact keeps_asked
  induction unread generalizing stage with
  | nil => exact .bind (hasked stage []) fun _ => keeps_finish stage
  | cons item rest ih =>
      refine .bind (hasked stage _) fun _ => ?_
      exact .bind (keeps_advance stage item) fun next => ih next

theorem nested_run (grouper : Grouper) (handler : Handler σ) (stream : List (Except Error Record))
    (state : σ) :
    let played := run grouper handler stream state
    Nested grouper stream played.events ∧
      (∀ value, played.outcome = .ok value → Finished stream played.events) ∧
      ∀ error, played.outcome = .error error → ∀ field first,
        played.events.getLast? = some (.opened (grouper.size - 1) field first) →
          ∃ earlier, handler.opened (grouper.size - 1) field first earlier =
            (played.state, some error) := by
  have hstart : Stands grouper stream .start stream [] :=
    ⟨rfl, by simp, rfl, fun ⟨_, _, hlast⟩ => by cases hlast⟩
  exact keeps_runFrom .start [] state .nil hstart

section Noted

variable {state : σ} {replies : List Reply} {played : Played σ Unit} {before after : List Event}
  {field : String} {first : Record}

theorem failed_of_opened_last
    (hnoted : run grouper handler.noted stream (state, []) =
      ⟨played.events, (played.state, replies), played.outcome⟩)
    (hreplies : replies.map Reply.event = played.events.filter Event.canFail)
    (hevents : played.events = before ++ [.opened (grouper.size - 1) field first]) :
    ∃ failure, replies[(before.filter Event.canFail).length]? =
      some ⟨.opened (grouper.size - 1) field first, some failure⟩ := by
  obtain ⟨-, hfinished, hfailed⟩ := nested_run grouper handler.noted stream (state, [])
  rw [hnoted] at hfinished hfailed
  rw [hevents] at hfinished hfailed hreplies
  cases houtcome : played.outcome with
  | ok value =>
      have hopen := (hfinished value houtcome).closed
      rw [openDepths_concat, Event.openAfter] at hopen
      simp at hopen
  | error error =>
      obtain ⟨⟨earlier, noted⟩, hopened⟩ :=
        hfailed error houtcome field first List.getLast?_concat
      obtain ⟨hnotedState, hfailure⟩ := Prod.mk.inj hopened
      have hall : noted ++ [⟨.opened (grouper.size - 1) field first, some error⟩] = replies := by
        rw [← (Prod.mk.inj hnotedState).2, hfailure]
      have hcount : (before.filter Event.canFail).length = noted.length := by
        have hlengths := congrArg List.length hreplies
        rw [← hall, List.filter_append, List.filter_cons_of_pos rfl, List.filter_nil] at hlengths
        simpa using hlengths.symm
      refine ⟨error, ?_⟩
      rw [← hall, hcount, List.getElem?_concat_length]

/-- An innermost group whose open does not fail is entered at once, and once only. -/
theorem entered_of_opened
    (hnoted : run grouper handler.noted stream (state, []) =
      ⟨played.events, (played.state, replies), played.outcome⟩)
    (hreplies : replies.map Reply.event = played.events.filter Event.canFail)
    (hevents : played.events = before ++ .opened (grouper.size - 1) field first :: after)
    (hreply : replies[(before.filter Event.canFail).length]? =
      some ⟨.opened (grouper.size - 1) field first, none⟩) :
    ∃ rest, after = .entered (grouper.size - 1) :: rest ∧
      ∀ middle depth later, rest = middle ++ .entered depth :: later →
        OpensInnermost grouper middle := by
  obtain ⟨nested, -, -⟩ := nested_run grouper handler.noted stream (state, [])
  rw [hnoted, hevents] at nested
  rcases after with _ | ⟨event, rest⟩
  · obtain ⟨failure, hfailed⟩ := failed_of_opened_last hnoted hreplies hevents
    rw [hreply] at hfailed
    cases hfailed
  · have hopens : OpensInnermost grouper
        (before ++ [.opened (grouper.size - 1) field first]) :=
      ⟨field, first, List.getLast?_concat⟩
    obtain rfl : event = .entered (grouper.size - 1) :=
      (nested (before ++ [.opened (grouper.size - 1) field first]) event rest (by simp)).2 hopens
    refine ⟨rest, rfl, ?_⟩
    rintro middle depth later rfl
    rw [← List.singleton_append, ← List.append_assoc] at nested
    exact nested.opensInnermost_of_entered

end Noted

/-- At any time of any run the open groups are those from the base on, down to some depth, and every event
fits them. An innermost group is read once, right after it has been opened without a failure. If the run
does not fail, nothing stays open, and all of the stream has come. -/
theorem run_nested (grouper : Grouper) (handler : Handler σ) (stream : List (Except Error Record))
    (state : σ) :
    let played := run grouper handler stream state
    (∀ before, before <+: played.events → ∃ count, grouper.base + count ≤ grouper.size ∧
      openDepths before = List.range' grouper.base count) ∧
    (∀ before event after, played.events = before ++ event :: after →
      Fits grouper stream before event ∧ ∀ depth field first, event = .opened depth field first →
        ∀ record ∈ (came after).head?, record = first) ∧
    (∃ replies,
      run grouper handler.noted stream (state, []) =
        ⟨played.events, (played.state, replies), played.outcome⟩ ∧
      replies.map Reply.event = played.events.filter Event.canFail ∧
      ∀ before field first after,
        played.events = before ++ .opened (grouper.size - 1) field first :: after →
        replies[(before.filter Event.canFail).length]? =
            some ⟨.opened (grouper.size - 1) field first, none⟩ →
          ∃ rest, after = .entered (grouper.size - 1) :: rest ∧
            ∀ middle depth later, rest = middle ++ .entered depth :: later →
              OpensInnermost grouper middle) ∧
    (played.outcome = .ok () →
      openDepths played.events = [] ∧ (came played.events).map .ok = stream) := by
  intro played
  obtain ⟨nested, hfinished, -⟩ : Nested grouper stream played.events ∧
    (∀ value, played.outcome = .ok value → Finished stream played.events) ∧ _ :=
      nested_run grouper handler stream state
  obtain ⟨replies, hnoted, hreplies, -⟩ : ∃ replies,
      run grouper handler.noted stream (state, []) =
        ⟨played.events, (played.state, replies), played.outcome⟩ ∧
      replies.map Reply.event = played.events.filter Event.canFail ∧ _ :=
    exists_replies stream state
  refine ⟨?_, ?_, ⟨replies, hnoted, hreplies, ?_⟩, ?_⟩
  · rintro before ⟨after, hevents⟩
    rw [← hevents] at nested
    exact nested.of_append.exists_openDepths
  · intro before event after hevents
    refine ⟨(nested before event after hevents).1, ?_⟩
    rintro depth field first rfl record hrecord
    rw [hevents] at nested
    exact nested.eq_first_of_opened hrecord
  · intro before field first after hevents hreply
    exact entered_of_opened hnoted hreplies hevents hreply
  · intro houtcome
    exact ⟨(hfinished () houtcome).closed, (hfinished () houtcome).read⟩

end Run

theorem run_nested_clicks :
    openDepths (runRecords Sample.grouper (Sample.taking 1) Sample.clickStream 0).events = [] ∧
      openDepths (run Sample.grouper Sample.refusing Sample.brokenStream 0).events = [0, 1] ∧
      ∀ before last after,
        (run Sample.grouper (Sample.taking 1) (Sample.clickStream.map .ok) 0).events =
            before ++ .closed 1 sourceFieldName last :: after →
          (lastGroup before).getLast? = some last := by
  obtain ⟨-, hfits, -, hfinished⟩ :=
    run_nested Sample.grouper (Sample.taking 1) (Sample.clickStream.map .ok) 0
  refine ⟨(hfinished ?_).1, by cbv, ?_⟩
  · exact outcome_runRecords (Sample.taking_neverFails 1) Sample.clickStream_shared 0
  · intro before last after hevents
    exact (hfits before _ after hevents).1.2.2

end Rollup

end RecordRollup
