import Mathlib
import RecordRollup.Proofs.Rollup.Play
import RecordRollup.Rollup.Run

namespace RecordRollup.Rollup

def Event.canFail : Event → Bool
  | .opened .. => true
  | .left _ => true
  | .closed .. => true
  | _ => false

/-- What a callback returned: nothing, or an error. -/
structure Reply where
  event : Event
  failure : Option Error
deriving DecidableEq

variable {σ α β : Type}

/-- A callback that also writes down what it returns. -/
def noting (event : Event) (callback : σ → σ × Option Error) :
    σ × List Reply → (σ × List Reply) × Option Error :=
  fun (state, replies) =>
    (((callback state).1, replies ++ [⟨event, (callback state).2⟩]), (callback state).2)

/-- A handler that does what another one does, and writes down what its callbacks return. -/
def Handler.noted (handler : Handler σ) : Handler (σ × List Reply) where
  opened depth field first :=
    noting (.opened depth field first) (handler.opened depth field first)
  entered depth state := (handler.entered depth state.1, state.2)
  wants state := handler.wants state.1
  given record state := (handler.given record state.1, state.2)
  ended state := (((handler.ended state.1).1, state.2), (handler.ended state.1).2)
  left last := noting (.left last) (handler.left last)
  closed depth field last :=
    noting (.closed depth field last) (handler.closed depth field last)

/-- A part of a run, in which callbacks return these replies, ends right after the first failure
among them. -/
inductive EndsAtFailure (played : Played σ α) : List Reply → Prop
  | unfailing {replies : List Reply} (hreplies : ∀ reply ∈ replies, reply.failure = none) :
      EndsAtFailure played replies
  | failing {replies : List Reply} {event : Event} {failure : Error}
      (hreplies : ∀ reply ∈ replies, reply.failure = none)
      (houtcome : played.outcome = .error failure)
      (hlast : played.events.getLast? = some event) :
      EndsAtFailure played (replies ++ [⟨event, some failure⟩])

namespace EndsAtFailure

variable {played : Played σ α} {replies : List Reply}

theorem of_getElem? (hends : EndsAtFailure played replies) {place : Nat} {event : Event}
    {failure : Error} (hreply : replies[place]? = some ⟨event, some failure⟩) :
    played.outcome = .error failure ∧ replies.length = place + 1 ∧
      played.events.getLast? = some event := by
  cases hends with
  | unfailing hreplies => cases hreplies _ (List.mem_of_getElem? hreply)
  | @failing earlier last error hreplies houtcome hlast =>
      rcases Nat.lt_trichotomy place earlier.length with hplace | rfl | hplace
      · rw [List.getElem?_append_left hplace] at hreply
        cases hreplies _ (List.mem_of_getElem? hreply)
      · rw [List.getElem?_concat_length] at hreply
        cases hreply
        exact ⟨houtcome, by simp, hlast⟩
      · rw [List.getElem?_eq_none (by simpa using hplace)] at hreply
        cases hreply

theorem unfailing_of_ok {value : α} (hends : EndsAtFailure played replies)
    (houtcome : played.outcome = .ok value) : ∀ reply ∈ replies, reply.failure = none := by
  cases hends with
  | unfailing hreplies => exact hreplies
  | failing _ hfailed _ => cases houtcome.symm.trans hfailed

theorem of_error {error : Error} (hends : EndsAtFailure played replies)
    (houtcome : played.outcome = .error error) (state : σ) :
    EndsAtFailure (⟨played.events, state, .error error⟩ : Played σ β) replies := by
  cases hends with
  | unfailing hreplies => exact .unfailing hreplies
  | failing hreplies hfailed hlast =>
      cases houtcome.symm.trans hfailed
      exact .failing hreplies rfl hlast

theorem append {events : List Event} {state : σ}
    (hreplies : ∀ reply ∈ replies, reply.failure = none) {others : List Reply}
    (hends : EndsAtFailure played others) :
    EndsAtFailure ⟨events ++ played.events, state, played.outcome⟩ (replies ++ others) := by
  cases hends with
  | unfailing hothers => exact .unfailing (List.forall_mem_append.mpr ⟨hreplies, hothers⟩)
  | failing hothers hfailed hlast =>
      rw [← List.append_assoc]
      refine .failing (List.forall_mem_append.mpr ⟨hreplies, hothers⟩) hfailed ?_
      rw [List.getLast?_append, hlast, Option.some_or]

end EndsAtFailure

open Play

/-- A part of a run, and the same part with callbacks that write down what they return. -/
def NotedBy (play : Play σ α) (noted : Play (σ × List Reply) α) : Prop :=
  ∀ state earlier, ∃ replies,
    noted (state, earlier) =
      ⟨(play state).events, ((play state).state, earlier ++ replies), (play state).outcome⟩ ∧
    replies.map Reply.event = (play state).events.filter Event.canFail ∧
    EndsAtFailure (play state) replies

namespace NotedBy

theorem of_no_reply {play : Play σ α} {noted : Play (σ × List Reply) α}
    (hnoted : ∀ state earlier, noted (state, earlier) =
      ⟨(play state).events, ((play state).state, earlier), (play state).outcome⟩)
    (hevents : ∀ state, (play state).events.filter Event.canFail = []) :
    NotedBy play noted := by
  intro state earlier
  refine ⟨[], ?_, (hevents state).symm, .unfailing (by simp)⟩
  rw [hnoted, List.append_nil]

theorem pure (value : α) : NotedBy (pure value : Play σ α) (pure value) :=
  of_no_reply (fun _ _ => rfl) fun _ => rfl

theorem fail (error : Error) : NotedBy (fail error : Play σ α) (fail error) :=
  of_no_reply (fun _ _ => rfl) fun _ => rfl

theorem say {event : Event} (hevent : event.canFail = false) :
    NotedBy (say event : Play σ Unit) (say event) :=
  of_no_reply (fun _ _ => rfl) fun _ => by simp [Play.say, hevent]

theorem change {step : σ → σ × α} {notedStep : σ × List Reply → (σ × List Reply) × α}
    (hstep : ∀ state replies,
      notedStep (state, replies) = (((step state).1, replies), (step state).2)) :
    NotedBy (change step) (change notedStep) := by
  refine of_no_reply (fun state earlier => ?_) fun _ => rfl
  rw [Play.change, hstep]
  rfl

theorem bind {play : Play σ α} {noted : Play (σ × List Reply) α} {next : α → Play σ β}
    {notedNext : α → Play (σ × List Reply) β} (hplay : NotedBy play noted)
    (hnext : ∀ value, NotedBy (next value) (notedNext value)) :
    NotedBy (play >>= next) (noted >>= notedNext) := by
  intro state earlier
  obtain ⟨replies, hnoted, hevents, hends⟩ := hplay state earlier
  cases houtcome : (play state).outcome with
  | error error =>
      have hfailed : (noted (state, earlier)).outcome = .error error := by
        rw [hnoted, houtcome]
      refine ⟨replies, ?_, ?_, ?_⟩
      · rw [bind_of_error hfailed, bind_of_error houtcome, hnoted]
      · rw [bind_of_error houtcome]
        exact hevents
      · rw [bind_of_error houtcome]
        exact hends.of_error houtcome _
  | ok value =>
      have hfine : (noted (state, earlier)).outcome = .ok value := by rw [hnoted, houtcome]
      obtain ⟨others, hotherNoted, hotherEvents, hotherEnds⟩ :=
        hnext value (play state).state (earlier ++ replies)
      refine ⟨replies ++ others, ?_, ?_, ?_⟩
      · rw [bind_of_ok hfine, bind_of_ok houtcome, hnoted, hotherNoted, List.append_assoc]
      · rw [bind_of_ok houtcome, List.map_append, List.filter_append, hevents, hotherEvents]
      · rw [bind_of_ok houtcome]
        exact .append (hends.unfailing_of_ok houtcome) hotherEnds

theorem forM {γ : Type} (items : List γ) {play : γ → Play σ Unit}
    {noted : γ → Play (σ × List Reply) Unit}
    (hplay : ∀ item ∈ items, NotedBy (play item) (noted item)) :
    NotedBy (items.forM play) (items.forM noted) := by
  induction items with
  | nil => exact .pure ()
  | cons item items ih =>
      have hrest := ih fun other hother => hplay other (List.mem_cons_of_mem item hother)
      exact .bind (hplay item List.mem_cons_self) fun _ => hrest

theorem call {event : Event} (hevent : event.canFail = true) (callback : σ → σ × Option Error) :
    NotedBy (call event callback) (call event (noting event callback)) := by
  intro state earlier
  cases hfailure : (callback state).2 with
  | none =>
      have hnoted : (noting event callback (state, earlier)).2 = none := hfailure
      refine ⟨[⟨event, none⟩], ?_, ?_, .unfailing (by simp)⟩
      · rw [call_of_none event hnoted, call_of_none event hfailure, noting, hfailure]
      · simp [call_of_none event hfailure, hevent]
  | some failure =>
      have hnoted : (noting event callback (state, earlier)).2 = some failure := hfailure
      refine ⟨[] ++ [⟨event, some failure⟩], ?_, ?_, .failing (by simp) ?_ ?_⟩
      · rw [call_of_some event hnoted, call_of_some event hfailure, noting, hfailure,
          List.nil_append]
      · simp [call_of_some event hfailure, hevent]
      · rw [call_of_some event hfailure]
      · rw [call_of_some event hfailure, List.getLast?_singleton]

end NotedBy

section Run

variable {grouper : Grouper} {handler : Handler σ}

theorem notedBy_openFrom (level : Nat) (first : Record) :
    NotedBy (openFrom grouper handler level first)
      (openFrom grouper handler.noted level first) :=
  .forM _ fun (depth, field) _ => .call rfl (handler.opened depth field first)

theorem notedBy_closeTo (level : Nat) (last : Record) :
    NotedBy (closeTo grouper handler level last) (closeTo grouper handler.noted level last) :=
  .forM _ fun (depth, field) _ => .call rfl (handler.closed depth field last)

theorem notedBy_leave (last : Option Record) :
    NotedBy (leave handler last) (leave handler.noted last) :=
  .call rfl (handler.left last)

theorem notedBy_give (record : Record) :
    NotedBy (give handler record) (give handler.noted record) := by
  refine .bind (.say rfl) fun _ => ?_
  refine .bind (.change fun _ _ => rfl) fun _ => ?_
  refine .bind (.change fun _ _ => rfl) fun wants => ?_
  cases wants with
  | true => exact .pure _
  | false => exact .bind (notedBy_leave _) fun _ => .pure _

theorem notedBy_enter (first : Record) :
    NotedBy (enter grouper handler first) (enter grouper handler.noted first) := by
  refine .bind (.say rfl) fun _ => ?_
  refine .bind (.change fun _ _ => rfl) fun _ => ?_
  refine .bind (.change fun _ _ => rfl) fun wants => ?_
  cases wants with
  | true => exact notedBy_give first
  | false => exact .bind (notedBy_leave _) fun _ => .bind (.say rfl) fun _ => .pure _

theorem notedBy_conclude (last : Record) (reading : Bool) :
    NotedBy (conclude handler last reading) (conclude handler.noted last reading) := by
  cases reading with
  | false => exact .pure ()
  | true =>
      refine .bind (.say rfl) fun _ => ?_
      refine .bind (.change fun _ _ => rfl) fun again => ?_
      refine .bind (.forM _ fun event hevent => ?_) fun _ => notedBy_leave _
      rw [List.eq_of_mem_replicate hevent]
      exact .say rfl

theorem notedBy_advance (stage : Stage) (item : Except Error Record) :
    NotedBy (advance grouper handler stage item) (advance grouper handler.noted stage item) := by
  cases stage with
  | start =>
      cases item with
      | error error => exact .fail error
      | ok first => exact .bind (notedBy_openFrom _ _) fun _ => notedBy_enter first
  | inside last reading =>
      cases item with
      | error error => exact .bind (notedBy_conclude _ _) fun _ => .fail error
      | ok next =>
          rw [advance, advance]
          cases grouper.sharedFields last next with
          | error error => exact .bind (notedBy_conclude _ _) fun _ => .fail error
          | ok shared =>
              dsimp only
              split
              · cases reading with
                | true => exact notedBy_give next
                | false => exact .bind (.say rfl) fun _ => .pure _
              · refine .bind (notedBy_conclude _ _) fun _ => ?_
                refine .bind (.say rfl) fun _ => ?_
                refine .bind (notedBy_closeTo _ _) fun _ => ?_
                exact .bind (notedBy_openFrom _ _) fun _ => notedBy_enter next

theorem notedBy_finish (stage : Stage) :
    NotedBy (finish grouper handler stage) (finish grouper handler.noted stage) := by
  cases stage with
  | start => exact .pure ()
  | inside last reading => exact .bind (notedBy_conclude _ _) fun _ => notedBy_closeTo _ _

theorem notedBy_runFrom (stage : Stage) (stream : List (Except Error Record)) :
    NotedBy (runFrom grouper handler stage stream)
      (runFrom grouper handler.noted stage stream) := by
  induction stream generalizing stage with
  | nil => exact .bind (.say rfl) fun _ => notedBy_finish stage
  | cons item rest ih =>
      refine .bind (.say rfl) fun _ => ?_
      exact .bind (notedBy_advance stage item) fun next => ih next

/-- A run returns the error of the first callback that fails, and does nothing after it. -/
theorem exists_replies (stream : List (Except Error Record)) (state : σ) :
    let played := run grouper handler stream state
    ∃ replies,
      run grouper handler.noted stream (state, []) =
        ⟨played.events, (played.state, replies), played.outcome⟩ ∧
      replies.map Reply.event = played.events.filter Event.canFail ∧
      ∀ place event failure, replies[place]? = some ⟨event, some failure⟩ →
        played.outcome = .error failure ∧ replies.length = place + 1 ∧
          played.events.getLast? = some event := by
  intro played
  obtain ⟨replies, hnoted, hevents, hends⟩ :
      ∃ replies, _ ∧ _ ∧ EndsAtFailure played replies := notedBy_runFrom .start stream state []
  exact ⟨replies, hnoted, hevents, fun _ _ _ => hends.of_getElem?⟩

end Run

end RecordRollup.Rollup
