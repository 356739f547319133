import Mathlib
import RecordRollup.Proofs.Rollup.Reference

namespace RecordRollup.Rollup

variable {grouper : Grouper} {stream : List (Except Error Record)} {events before after : List Event}
  {event : Event}

def Event.openAfter (depths : List Nat) : Event → List Nat
  | .opened depth _ _ => depths ++ [depth]
  | .closed depth _ _ => depths.erase depth
  | _ => depths

/-- The depths of the groups that are open after these events, in the order of their opens. -/
def openDepths (events : List Event) : List Nat :=
  events.foldl Event.openAfter []

theorem openDepths_concat : openDepths (events ++ [event]) = event.openAfter (openDepths events) := by
  rw [openDepths, List.foldl_append]
  rfl

def Event.record? : Event → Option Record
  | .gave record | .skipped record => some record
  | _ => none

/-- The records that have come, whether or not a handler was given them. -/
def came (events : List Event) : List Record :=
  events.filterMap Event.record?

theorem came_append : came (before ++ after) = came before ++ came after :=
  List.filterMap_append

theorem came_concat : came (events ++ [event]) = came events ++ event.record?.toList := by
  rw [came_append]
  cases hrecord : event.record? <;> simp [came, hrecord]

def Event.groupAfter (records : List Record) : Event → List Record
  | .entered _ => []
  | .gave record | .skipped record => records ++ [record]
  | _ => records

/-- The records that have come of the innermost group that was entered last. -/
def lastGroup (events : List Event) : List Record :=
  events.foldl Event.groupAfter []

theorem lastGroup_concat : lastGroup (events ++ [event]) = event.groupAfter (lastGroup events) := by
  rw [lastGroup, List.foldl_append]
  rfl

theorem forall_events_concat {holds : List Event → Event → Prop}
    (hevents : ∀ before event after, events = before ++ event :: after → holds before event)
    (hevent : holds events event) :
    ∀ before other after, events ++ [event] = before ++ other :: after → holds before other := by
  intro before other after heq
  rcases List.eq_nil_or_concat after with rfl | ⟨middle, last, rfl⟩
  · obtain ⟨rfl, hother⟩ := List.append_inj' heq rfl
    obtain rfl := List.singleton_inj.mp hother
    exact hevent
  · rw [List.concat_eq_append, ← List.cons_append, ← List.append_assoc] at heq
    exact hevents before other middle (List.append_inj' heq rfl).1

def OpensInnermost (grouper : Grouper) (events : List Event) : Prop :=
  ∃ field first, events.getLast? = some (.opened (grouper.size - 1) field first)

/-- What holds of an event at the time at which it comes. -/
def Fits (grouper : Grouper) (stream : List (Except Error Record)) (before : List Event) :
    Event → Prop
  | .opened depth field first =>
      depth = (openDepths before).getLast?.elim grouper.base (· + 1) ∧ depth < grouper.size ∧
        field = grouper.fieldAt depth ∧ (came before ++ [first]).map .ok <+: stream
  | .entered depth =>
      depth = grouper.size - 1 ∧ openDepths before = grouper.depthsFrom grouper.base ∧
        OpensInnermost grouper before
  | .gave record | .skipped record =>
      openDepths before = grouper.depthsFrom grouper.base ∧
        (came before ++ [record]).map .ok <+: stream
  | .gaveNothing | .left _ => openDepths before = grouper.depthsFrom grouper.base
  | .closed depth field last =>
      (openDepths before).getLast? = some depth ∧ field = grouper.fieldAt depth ∧
        (lastGroup before).getLast? = some last
  | .asked | .boundary _ => True

/-- Every event fits those before it, and an innermost group that is opened is entered at once. -/
def Nested (grouper : Grouper) (stream : List (Except Error Record)) (events : List Event) : Prop :=
  ∀ before event after, events = before ++ event :: after →
    Fits grouper stream before event ∧
      (OpensInnermost grouper before → event = .entered (grouper.size - 1))

namespace Nested

theorem nil : Nested grouper stream [] := by
  intro before event after heq
  simp at heq

theorem concat (nested : Nested grouper stream events) (hfits : Fits grouper stream events event)
    (hentered : OpensInnermost grouper events → event = .entered (grouper.size - 1)) :
    Nested grouper stream (events ++ [event]) :=
  forall_events_concat nested ⟨hfits, hentered⟩

theorem of_append (nested : Nested grouper stream (before ++ after)) :
    Nested grouper stream before := by
  intro earlier event later heq
  apply nested earlier event (later ++ after)
  rw [heq, List.append_assoc, List.cons_append]

theorem fits_last (nested : Nested grouper stream (events ++ [event])) :
    Fits grouper stream events event :=
  (nested events event [] rfl).1

end Nested

theorem getLast?_range'_succ (start count : Nat) :
    (List.range' start (count + 1)).getLast? = some (start + count) := by
  rw [List.range'_1_concat, List.getLast?_concat]

theorem erase_range'_succ (start count : Nat) :
    (List.range' start (count + 1)).erase (start + count) = List.range' start count := by
  have habsent : start + count ∉ List.range' start count := by
    rw [List.mem_range'_1]
    omega
  rw [List.range'_1_concat, List.erase_append_right _ habsent, List.erase_cons_head,
    List.append_nil]

theorem nextDepth_range' (start count : Nat) :
    (List.range' start count).getLast?.elim start (· + 1) = start + count := by
  cases count with
  | zero => rfl
  | succ count =>
      rw [getLast?_range'_succ]
      rfl

namespace Nested

theorem exists_openDepths (nested : Nested grouper stream events) :
    ∃ count, grouper.base + count ≤ grouper.size ∧
      openDepths events = List.range' grouper.base count := by
  induction events using List.reverseRecOn with
  | nil => exact ⟨0, grouper.base_lt.le, rfl⟩
  | append_singleton events event ih =>
      obtain ⟨count, hbound, hopen⟩ := ih nested.of_append
      have hfits := nested.fits_last
      rw [openDepths_concat, hopen]
      cases event with
      | opened depth field first =>
          rw [Fits, hopen, nextDepth_range'] at hfits
          obtain ⟨rfl, hdepth, -, -⟩ := hfits
          exact ⟨count + 1, by omega, (List.range'_1_concat ..).symm⟩
      | closed depth field last =>
          rw [Fits, hopen] at hfits
          obtain ⟨hlast, -, -⟩ := hfits
          rcases count with _ | count
          · cases hlast
          · rw [getLast?_range'_succ] at hlast
            obtain rfl := Option.some.inj hlast
            exact ⟨count, by omega, erase_range'_succ _ _⟩
      | _ => exact ⟨count, hbound, rfl⟩

theorem came_prefix (nested : Nested grouper stream events) :
    (came events).map .ok <+: stream := by
  induction events using List.reverseRecOn with
  | nil => exact List.nil_prefix
  | append_singleton events event ih =>
      have hfits := nested.fits_last
      rw [came_concat]
      cases event with
      | gave record | skipped record => exact hfits.2
      | _ => simpa [Event.record?] using ih nested.of_append

theorem eq_first_of_opened {depth : Nat} {field : String} {first record : Record}
    (nested : Nested grouper stream (before ++ .opened depth field first :: after))
    (hrecord : (came after).head? = some record) : record = first := by
  obtain ⟨-, -, -, hnext⟩ := (nested before _ after rfl).1
  obtain ⟨rest, hrest⟩ := List.head?_eq_some_iff.mp hrecord
  have hall := nested.came_prefix
  have hcame : came (before ++ .opened depth field first :: after) =
      came before ++ record :: rest := by
    rw [came_append, ← hrest]
    rfl
  rw [hcame] at hall
  have hfront : ((came before ++ [first]).map Except.ok : List (Except Error Record)) <+:
      (came before ++ record :: rest).map .ok :=
    List.prefix_of_prefix_length_le hnext hall (by simp)
  rw [List.map_append, List.map_append, List.prefix_append_right_inj, List.map_cons,
    List.map_cons, List.cons_prefix_cons] at hfront
  exact (Except.ok.inj hfront.1).symm

theorem opensInnermost_of_entered {middle : List Event} {depth other : Nat}
    (nested : Nested grouper stream
      (before ++ .entered depth :: (middle ++ .entered other :: after))) :
    OpensInnermost grouper middle := by
  obtain ⟨⟨-, -, field, first, hlast⟩, -⟩ :=
    nested (before ++ [.entered depth] ++ middle) (.entered other) after (by simp)
  refine ⟨field, first, ?_⟩
  rw [List.getLast?_append, List.getLast?_concat] at hlast
  cases hmiddle : middle.getLast? with
  | none =>
      rw [hmiddle] at hlast
      cases hlast
  | some event =>
      rw [hmiddle] at hlast
      exact hlast

end Nested

end RecordRollup.Rollup
