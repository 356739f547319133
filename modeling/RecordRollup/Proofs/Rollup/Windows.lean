import Mathlib
import RecordRollup.Proofs.Rollup.FailureCauses
import RecordRollup.Proofs.Rollup.SortedGroups

namespace RecordRollup

namespace Rollup

def Callback.within (base size : Nat) : Callback → Bool
  | .opened depth _ _ | .closed depth _ _ => base ≤ depth && depth < size
  | .group _ => false

def Callback.group? : Callback → Option (List Record)
  | .group records => some records
  | _ => none

/-- An event in front of others, of which `sequences` are the records that come before the next
group is entered, and those of the groups from there on. -/
def Event.collect (event : Event) (sequences : List Record × List (List Record)) :
    List Record × List (List Record) :=
  match event with
  | .entered _ => ([], sequences.1 :: sequences.2)
  | .gave record | .skipped record => (record :: sequences.1, sequences.2)
  | _ => sequences

/-- The records of the groups that are entered, group by group. -/
def sequences (events : List Event) : List (List Record) :=
  (events.foldr Event.collect ([], [])).2

end Rollup

namespace Grouper

open Rollup

def framesFrom (grouper : Grouper) : (last : Option Record) → List Record → List Callback
  | last, [] => grouper.turn last none
  | last, next :: rest => grouper.turn last (some next) ++ framesFrom grouper (some next) rest

variable {grouper : Grouper} {last next : Record} {rest records : List Record}

theorem mem_turn {start stop : Option Record} {callback : Callback}
    (hcallback : callback ∈ grouper.turn start stop) : callback.isFrame = true := by
  have hopening : ∀ level first, callback ∈ grouper.opening level first → callback.isFrame := by
    intro level first hmem
    obtain ⟨depth, -, rfl⟩ := List.mem_map.mp hmem
    rfl
  have hclosing : ∀ level last, callback ∈ grouper.closing level last → callback.isFrame := by
    intro level last hmem
    obtain ⟨depth, -, rfl⟩ := List.mem_map.mp hmem
    rfl
  cases start with
  | none =>
      cases stop with
      | none => cases hcallback
      | some first => exact hopening _ _ hcallback
  | some last =>
      cases stop with
      | none => exact hclosing _ _ hcallback
      | some next =>
          rcases List.mem_append.mp hcallback with hmem | hmem
          · exact hclosing _ _ hmem
          · exact hopening _ _ hmem

theorem filter_turn (start stop : Option Record) :
    (grouper.turn start stop).filter Callback.isFrame = grouper.turn start stop :=
  List.filter_eq_self.mpr fun _ => mem_turn

theorem filterMap_turn (start stop : Option Record) :
    (grouper.turn start stop).filterMap Callback.group? = [] := by
  refine List.filterMap_eq_nil_iff.mpr fun callback hcallback => ?_
  have hframe := mem_turn hcallback
  cases callback with
  | group records => cases hframe
  | opened depth field first => rfl
  | closed depth field last => rfl

theorem turn_of_same (hsame : grouper.shared last next = grouper.size) :
    grouper.turn (some last) (some next) = [] := by
  have hlevel : grouper.size - max grouper.size grouper.base = 0 := by omega
  rw [turn, hsame, opening, closing, depthsFrom, hlevel]
  rfl

theorem exists_groups_filter_callbacksFrom (last : Record) (rest : List Record) :
    ∃ group groups, grouper.groups (last :: rest) = (last :: group) :: groups ∧
      (grouper.callbacksFrom (last :: group).getLast? groups).filter Callback.isFrame =
        grouper.framesFrom (some last) rest := by
  induction rest generalizing last with
  | nil => exact ⟨[], [], rfl, filter_turn _ _⟩
  | cons next rest ih =>
      obtain ⟨group, groups, hgroups, hframes⟩ := ih next
      rcases eq_or_ne (grouper.shared last next) grouper.size with hsame | hother
      · refine ⟨next :: group, groups, Blocks.splitBy_of_related (decide_eq_true hsame) hgroups, ?_⟩
        rw [List.getLast?_cons_cons, hframes, framesFrom, turn_of_same hsame, List.nil_append]
      · refine ⟨[], (next :: group) :: groups, ?_, ?_⟩
        · rw [← hgroups]
          exact Blocks.splitBy_of_unrelated (decide_eq_false hother)
        · rw [List.getLast?_singleton, callbacksFrom, List.head?_cons, List.filter_append,
            filter_turn, List.filter_cons_of_neg Bool.false_ne_true, hframes, framesFrom]

theorem filter_callbacks (records : List Record) :
    (grouper.callbacks records).filter Callback.isFrame = grouper.framesFrom none records := by
  rcases records with _ | ⟨first, rest⟩
  · rfl
  · obtain ⟨group, groups, hgroups, hframes⟩ := exists_groups_filter_callbacksFrom first rest
    rw [callbacks, hgroups, callbacksFrom, List.head?_cons, List.filter_append, filter_turn,
      List.filter_cons_of_neg Bool.false_ne_true, hframes, framesFrom]

theorem filterMap_callbacksFrom (start : Option Record) (groups : List (List Record)) :
    (grouper.callbacksFrom start groups).filterMap Callback.group? = groups := by
  induction groups generalizing start with
  | nil => exact filterMap_turn _ _
  | cons group groups ih =>
      have hgroup : (Callback.group group).group? = some group := rfl
      rw [callbacksFrom, List.filterMap_append, filterMap_turn, List.nil_append,
        List.filterMap_cons_some hgroup, ih]

/-- One grouper reports a part of the depths that another one does. -/
structure Window (fine coarse : Grouper) : Prop where
  plan_eq : coarse.plan = fine.plan
  size_le : coarse.size ≤ fine.size
  base_le : fine.base ≤ coarse.base

namespace Window

variable {fine coarse : Grouper} (window : Window fine coarse)

include window

theorem sharedFields_eq_ok {shared : Nat} (hshared : fine.sharedFields last next = .ok shared) :
    coarse.sharedFields last next = .ok (min coarse.size shared) := by
  rw [Grouper.sharedFields_eq] at hshared ⊢
  have htake := sharedAlong_take hshared coarse.size
  rwa [List.take_take, Nat.min_eq_left window.size_le, ← window.plan_eq] at htake

theorem shared_eq_size (hshared : fine.shared last next = fine.size) :
    coarse.shared last next = coarse.size := by
  rw [Grouper.shared] at hshared ⊢
  cases hfields : fine.sharedFields last next with
  | error error =>
      rw [hfields] at hshared
      exact absurd hshared (Nat.ne_of_lt (Nat.zero_lt_of_lt fine.base_lt))
  | ok shared =>
      rw [hfields] at hshared
      obtain rfl : shared = fine.size := hshared
      rw [window.sharedFields_eq_ok hfields]
      exact Nat.min_eq_left window.size_le

theorem fieldAt_eq {depth : Nat} (hdepth : depth < coarse.size) :
    fine.fieldAt depth = coarse.fieldAt depth := by
  have hfine := hdepth.trans_le window.size_le
  simp only [Grouper.fieldAt, Grouper.fields, window.plan_eq, List.getD_eq_getElem?_getD,
    List.getElem?_map, List.getElem?_take, if_pos hdepth, if_pos hfine]

theorem filter_depthsFrom {level inner : Nat}
    (hlevel : max level coarse.base = inner ∨ coarse.size ≤ level ∧ coarse.size ≤ inner) :
    (fine.depthsFrom level).filter
        (fun depth => decide (coarse.base ≤ depth) && decide (depth < coarse.size)) =
      coarse.depthsFrom inner := by
  have hsize := window.size_le
  have hfine : (fine.depthsFrom level).Pairwise (· < ·) := List.pairwise_lt_range'
  have hcoarse : (coarse.depthsFrom inner).Pairwise (· < ·) := List.pairwise_lt_range'
  refine (hfine.filter _).eq_of_mem_iff hcoarse fun depth => ?_
  rw [List.mem_filter, Grouper.depthsFrom, Grouper.depthsFrom, List.mem_range'_1, List.mem_range'_1,
    Bool.and_eq_true, decide_eq_true_eq, decide_eq_true_eq]
  omega

theorem filter_opening {level inner : Nat}
    (hlevel : max level coarse.base = inner ∨ coarse.size ≤ level ∧ coarse.size ≤ inner)
    (first : Record) :
    (fine.opening level first).filter (Callback.within coarse.base coarse.size) =
      coarse.opening inner first := by
  rw [Grouper.opening, Grouper.opening, List.filter_map, ← window.filter_depthsFrom hlevel]
  refine List.map_congr_left fun depth hdepth => ?_
  have hinside := (Bool.and_eq_true_iff.mp (List.mem_filter.mp hdepth).2).2
  rw [window.fieldAt_eq (of_decide_eq_true hinside)]

theorem filter_closing {level inner : Nat}
    (hlevel : max level coarse.base = inner ∨ coarse.size ≤ level ∧ coarse.size ≤ inner)
    (last : Record) :
    (fine.closing level last).filter (Callback.within coarse.base coarse.size) =
      coarse.closing inner last := by
  rw [Grouper.closing, Grouper.closing, List.filter_map, ← window.filter_depthsFrom hlevel,
    ← List.filter_reverse]
  refine List.map_congr_left fun depth hdepth => ?_
  have hinside := (Bool.and_eq_true_iff.mp (List.mem_filter.mp hdepth).2).2
  rw [window.fieldAt_eq (of_decide_eq_true hinside)]

theorem filter_turn {shared : Nat} (hshared : fine.sharedFields last next = .ok shared) :
    (fine.turn (some last) (some next)).filter (Callback.within coarse.base coarse.size) =
      coarse.turn (some last) (some next) := by
  have hbase := window.base_le
  have hfine : fine.shared last next = shared := by rw [Grouper.shared, hshared]
  have hcoarse : coarse.shared last next = min coarse.size shared := by
    rw [Grouper.shared, window.sharedFields_eq_ok hshared]
  have hlevel : max (max shared fine.base) coarse.base =
        max (min coarse.size shared) coarse.base ∨
      coarse.size ≤ max shared fine.base ∧
        coarse.size ≤ max (min coarse.size shared) coarse.base := by
    omega
  rw [Grouper.turn, Grouper.turn, hfine, hcoarse, List.filter_append,
    window.filter_closing hlevel, window.filter_opening hlevel]

theorem filter_framesFrom {records : List Record}
    (hshared : records.IsChain fun left right =>
      ∃ shared, fine.sharedFields left right = .ok shared) :
    (fine.framesFrom none records).filter (Callback.within coarse.base coarse.size) =
      coarse.framesFrom none records := by
  have hbase : max fine.base coarse.base = coarse.base := max_eq_right window.base_le
  rcases records with _ | ⟨first, rest⟩
  · rfl
  · have hrest : (fine.framesFrom (some first) rest).filter
        (Callback.within coarse.base coarse.size) = coarse.framesFrom (some first) rest := by
      induction rest generalizing first with
      | nil => exact window.filter_closing (.inl hbase) first
      | cons next rest ih =>
          obtain ⟨⟨shared, hpair⟩, hrest⟩ := List.isChain_cons_cons.mp hshared
          rw [framesFrom, framesFrom, List.filter_append, window.filter_turn hpair, ih next hrest]
    rw [framesFrom, framesFrom, List.filter_append, hrest]
    congr 1
    exact window.filter_opening (.inl hbase) first

theorem exists_parts_groups (records : List Record) :
    ∃ parts : List (List (List Record)),
      fine.groups records = parts.flatten ∧ coarse.groups records = parts.map List.flatten := by
  refine Blocks.exists_parts_splitBy (fun left right hsame => ?_) records
  exact decide_eq_true (window.shared_eq_size (of_decide_eq_true hsame))

end Window

end Grouper

namespace Rollup

open Play

variable {σ τ : Type} {grouper : Grouper} {handler : Handler σ} {records : List Record}

theorem foldr_collect_of_idle {events : List Event}
    (hevents : ∀ event ∈ events, event.collect = id)
    (sequences : List Record × List (List Record)) :
    events.foldr Event.collect sequences = sequences := by
  induction events with
  | nil => rfl
  | cons event events ih =>
      rw [List.forall_mem_cons] at hevents
      rw [List.foldr_cons, ih hevents.2, hevents.1]
      rfl

theorem foldr_collect_map {event : Record → Event}
    (hevent : ∀ record sequences,
      (event record).collect sequences = (record :: sequences.1, sequences.2))
    (records : List Record) (sequences : List Record × List (List Record)) :
    (records.map event).foldr Event.collect sequences = (records ++ sequences.1, sequences.2) := by
  induction records with
  | nil => rfl
  | cons record records ih => rw [List.map_cons, List.foldr_cons, ih, hevent, List.cons_append]

theorem foldr_collect_readGroup (hnever : handler.NeverFails) (records : List Record) (state : σ)
    (sequences : List Record × List (List Record)) :
    (readGroup grouper handler records state).events.foldr Event.collect sequences =
      ([], (records ++ sequences.1) :: sequences.2) := by
  obtain ⟨-, taken, asks, -, -, hevents⟩ := readGroup_of_neverFails grouper hnever records state
  have hnothing : ∀ event ∈ List.replicate asks Event.gaveNothing, event.collect = id := by
    intro event hevent
    rw [List.eq_of_mem_replicate hevent]
    rfl
  have hleft : ∀ last sequences, (Event.left last).collect sequences = sequences := fun _ _ => rfl
  rw [hevents, List.foldr_cons, List.foldr_append, List.foldr_append, List.foldr_cons,
    foldr_collect_map (fun _ _ => rfl), hleft, foldr_collect_of_idle hnothing,
    foldr_collect_map (fun _ _ => rfl), ← List.append_assoc, List.take_append_drop]
  rfl

theorem foldr_collect_answerAll (hnever : handler.NeverFails) (callbacks : List Callback)
    (state : σ) :
    (answerAll grouper handler callbacks state).events.foldr Event.collect ([], []) =
      ([], callbacks.filterMap Callback.group?) := by
  induction callbacks generalizing state with
  | nil => rfl
  | cons callback callbacks ih =>
      rw [answerAll_cons_apply hnever, List.foldr_append, ih]
      cases callback with
      | opened depth field first =>
          rw [answer, call_of_none _ (hnever.opened depth field first state)]
          rfl
      | group records =>
          rw [answer, foldr_collect_readGroup hnever, List.append_nil]
          rfl
      | closed depth field last =>
          rw [answer, call_of_none _ (hnever.closed depth field last state)]
          rfl

theorem sequences_filter (events : List Event) :
    sequences (events.filter Event.ofGroups) = sequences events := by
  have hcollect : ∀ (event : Event) (sequences : List Record × List (List Record)),
      (if event.ofGroups then event.collect sequences else sequences) =
        event.collect sequences := by
    intro event sequences
    cases event <;> rfl
  rw [sequences, sequences, List.foldr_filter]
  simp only [hcollect]

theorem sequences_runRecords (hnever : handler.NeverFails)
    (hshared : records.IsChain fun left right =>
      ∃ shared, grouper.sharedFields left right = .ok shared) (state : σ) :
    sequences (runRecords grouper handler records state).events = grouper.groups records := by
  rw [← sequences_filter, filter_events_runRecords hshared, sequences,
    foldr_collect_answerAll hnever, Grouper.callbacks, Grouper.filterMap_callbacksFrom]

theorem frames_runRecords (hnever : handler.NeverFails)
    (hshared : records.IsChain fun left right =>
      ∃ shared, grouper.sharedFields left right = .ok shared) (state : σ) :
    (runRecords grouper handler records state).events.filterMap Event.frame? =
      grouper.framesFrom none records := by
  have hframe : ∀ event : Event,
      (if event.ofGroups then event.frame? else none) = event.frame? := by
    intro event
    cases event <;> rfl
  rw [← Grouper.filter_callbacks, ← frame?_answerAll hnever _ state,
    ← filter_events_runRecords hshared, List.filterMap_filter]
  simp only [hframe]

def Handler.TakesAll (handler : Handler σ) : Prop :=
  ∀ state, handler.wants state = true

section TakesAll

variable (hnever : handler.NeverFails) (htakes : handler.TakesAll) (record : Record)

include hnever htakes

theorem skipped_not_mem_readRest (last : Option Record) (records : List Record) (state : σ) :
    .skipped record ∉ (readRest handler last true records state).events := by
  induction records generalizing last state with
  | nil =>
      have htold := leave_of_neverFails hnever last (handler.ended state).1
      rw [readRest, say_bind, change_bind, List.forM_eq_forM, bind_of_ok (by rw [forM_say]),
        forM_say, htold]
      simp
  | cons next records ih =>
      rw [readRest, say_bind, change_bind, change_bind, htakes]
      simp only [if_true, List.mem_cons, not_or]
      exact ⟨by simp, ih _ _⟩

theorem skipped_not_mem_answer (callback : Callback) (state : σ) :
    .skipped record ∉ (answer grouper handler callback state).events := by
  cases callback with
  | opened depth field first =>
      rw [answer, events_call]
      simp
  | group records =>
      rw [answer, readGroup, say_bind, change_bind, change_bind, htakes]
      simp only [if_true, List.mem_cons, not_or]
      exact ⟨by simp, skipped_not_mem_readRest hnever htakes record _ _ _⟩
  | closed depth field last =>
      rw [answer, events_call]
      simp

theorem skipped_not_mem_runRecords
    (hshared : records.IsChain fun left right =>
      ∃ shared, grouper.sharedFields left right = .ok shared) (state : σ) :
    .skipped record ∉ (runRecords grouper handler records state).events := by
  have hanswers : ∀ (callbacks : List Callback) (state : σ),
      .skipped record ∉ (answerAll grouper handler callbacks state).events := by
    intro callbacks
    induction callbacks with
    | nil => simp [answerAll, pure]
    | cons callback callbacks ih =>
        intro state
        rw [answerAll_cons_apply hnever, List.mem_append, not_or]
        exact ⟨skipped_not_mem_answer hnever htakes record callback state, ih _⟩
  intro hmem
  have hkept := List.mem_filter.mpr ⟨hmem, (rfl : (Event.skipped record).ofGroups = true)⟩
  rw [filter_events_runRecords hshared] at hkept
  exact hanswers _ _ hkept

end TakesAll

/-- A run is seen by every other one over the same records that groups by no fewer fields and reports from
no deeper one on: its opens and closes are those of the other run at its own depths, and each of its
groups is made of consecutive groups of the other run. -/
theorem runs_of_window {fine coarse : Grouper} (window : Grouper.Window fine coarse)
    {fineHandler : Handler σ} {coarseHandler : Handler τ} (hfine : fineHandler.NeverFails)
    (hcoarse : coarseHandler.NeverFails) (hkeys : ∀ record ∈ records, fine.plan.HasKeys record)
    (fineState : σ) (coarseState : τ) :
    let finer := runRecords fine fineHandler records fineState
    let coarser := runRecords coarse coarseHandler records coarseState
    finer.outcome = .ok () ∧ coarser.outcome = .ok () ∧
      (finer.events.filterMap Event.frame?).filter (Callback.within coarse.base coarse.size) =
        coarser.events.filterMap Event.frame? ∧
      (sequences finer.events).flatten = records ∧ (sequences coarser.events).flatten = records ∧
      (∃ parts : List (List (List Record)), sequences finer.events = parts.flatten ∧
        sequences coarser.events = parts.map List.flatten) ∧
      (fineHandler.TakesAll → ∀ record, .skipped record ∉ finer.events) ∧
      (coarseHandler.TakesAll → ∀ record, .skipped record ∉ coarser.events) := by
  intro finer coarser
  have hshared := isChain_sharedFields hkeys
  have hcoarseShared : records.IsChain fun left right =>
      ∃ shared, coarse.sharedFields left right = .ok shared := by
    refine isChain_sharedFields ?_
    rwa [window.plan_eq]
  have hfinerSequences : sequences finer.events = fine.groups records :=
    sequences_runRecords hfine hshared fineState
  have hcoarserSequences : sequences coarser.events = coarse.groups records :=
    sequences_runRecords hcoarse hcoarseShared coarseState
  refine ⟨outcome_runRecords hfine hshared fineState,
    outcome_runRecords hcoarse hcoarseShared coarseState, ?_, ?_, ?_, ?_, ?_, ?_⟩
  · rw [frames_runRecords hfine hshared, frames_runRecords hcoarse hcoarseShared]
    exact window.filter_framesFrom hshared
  · rw [hfinerSequences]
    exact List.flatten_splitBy _ _
  · rw [hcoarserSequences]
    exact List.flatten_splitBy _ _
  · rw [hfinerSequences, hcoarserSequences]
    exact window.exists_parts_groups records
  · intro htakes record
    exact skipped_not_mem_runRecords hfine htakes record hshared fineState
  · intro htakes record
    exact skipped_not_mem_runRecords hcoarse htakes record hcoarseShared coarseState

end Rollup

namespace Sample

def userGrouper : Grouper :=
  ⟨plan, 1, 0, by cbv, by decide⟩

def takingAll : Rollup.Handler Nat :=
  { taking 0 with wants := fun _ => true }

end Sample

namespace Rollup

theorem runs_of_window_clicks :
    let finer := runRecords Sample.grouper Sample.takingAll Sample.clickStream 0
    let coarser := runRecords Sample.userGrouper (Sample.taking 1) Sample.clickStream 0
    (finer.events.filterMap Event.frame?).filter (Callback.within 0 1) =
        [.opened 0 "user" (Sample.click "Ann" 5), .closed 0 "user" (Sample.click "ann" 4),
          .opened 0 "user" (Sample.click "Bob" 9), .closed 0 "user" (Sample.click "Bob" 9)] ∧
      (sequences coarser.events).flatten = Sample.clickStream ∧
      .skipped (Sample.click "ann" 4) ∉ finer.events := by
  intro finer coarser
  have hkeys : ∀ record ∈ Sample.clickStream, Sample.plan.HasKeys record := by
    intro record hrecord
    simp only [Sample.clickStream, List.mem_cons, List.not_mem_nil, or_false] at hrecord
    rcases hrecord with rfl | rfl | rfl <;>
      exact Plan.hasKeys_of_sourceOf (Sample.exists_sourceOf_click _ _).choose_spec
  have hnever : Sample.takingAll.NeverFails :=
    ⟨fun _ _ _ _ => rfl, fun _ _ => rfl, fun _ _ _ _ => rfl⟩
  have window : Grouper.Window Sample.grouper Sample.userGrouper := ⟨rfl, by decide, by decide⟩
  obtain ⟨-, -, hframes, -, hall, -, htakes, -⟩ :=
    runs_of_window window hnever (Sample.taking_neverFails 1) hkeys 0 0
  refine ⟨?_, hall, htakes (fun _ => rfl) _⟩
  refine hframes.trans ?_
  cbv

end Rollup

end RecordRollup
