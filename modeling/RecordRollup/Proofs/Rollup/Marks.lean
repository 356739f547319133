import Mathlib
import RecordRollup.Proofs.Rollup.Reference

/-!
A run seen at one depth: groups open there, records come, and groups close. Each group at a depth
has the records of one block of the stream.
-/

namespace RecordRollup

/-- The records of a stream by groups at a depth. -/
def Grouper.blocks (grouper : Grouper) (depth : Nat) (records : List Record) :
    List (List Record) :=
  records.splitBy fun left right => depth < grouper.shared left right

namespace Rollup

open Play

inductive Mark
  | opened (first : Record)
  | came (record : Record)
  | closed (last : Record)

def Event.mark? (depth : Nat) : Event → Option Mark
  | .opened level _ first => if level = depth then some (.opened first) else none
  | .gave record => some (.came record)
  | .skipped record => some (.came record)
  | .closed level _ last => if level = depth then some (.closed last) else none
  | _ => none

def marks (depth : Nat) (events : List Event) : List Mark :=
  events.filterMap (Event.mark? depth)

def Mark.record? : Mark → Option Record
  | .came record => some record
  | _ => none

def Mark.first? : Mark → Option Record
  | .opened first => some first
  | _ => none

/-- The records at two positions of the stream come between the opening of a group and its
closing. -/
def InOneGroup (marks : List Mark) (left right : Nat) : Prop :=
  ∃ (before : List Mark) (first : Record) (inside : List Record) (last : Record)
    (after : List Mark),
    marks = before ++ .opened first :: (inside.map .came ++ .closed last :: after) ∧
    ∀ position ∈ [left, right],
      (before.filterMap Mark.record?).length ≤ position ∧
        position < (before.filterMap Mark.record?).length + inside.length

theorem inOneGroup_comm {marks : List Mark} {left right : Nat} :
    InOneGroup marks left right ↔ InOneGroup marks right left := by
  have hpair : ∀ position, position ∈ [left, right] ↔ position ∈ [right, left] := by
    intro position
    rw [List.mem_pair, List.mem_pair, or_comm]
  simp only [InOneGroup, hpair]

namespace Mark

/-- The marks of a group that has the records of a block. -/
def ofBlock (block : List Record) : List Mark :=
  block.head?.toList.map .opened ++ (block.map .came ++ block.getLast?.toList.map .closed)

theorem ofBlock_cons (first : Record) (rest : List Record) :
    ofBlock (first :: rest) = .opened first :: ((first :: rest).map .came ++
      [.closed ((first :: rest).getLast (List.cons_ne_nil first rest))]) := by
  rw [ofBlock, List.getLast?_eq_some_getLast (List.cons_ne_nil first rest)]
  rfl

theorem filterMap_record?_came (records : List Record) :
    (records.map came).filterMap record? = records := by
  rw [List.filterMap_map]
  exact List.filterMap_some

theorem filterMap_record?_ofBlock (block : List Record) :
    (ofBlock block).filterMap record? = block := by
  rcases block with _ | ⟨first, rest⟩
  · rfl
  · rw [ofBlock_cons, List.filterMap_cons_none rfl, List.filterMap_append,
      filterMap_record?_came]
    exact List.append_nil _

theorem filterMap_record?_ofBlocks (blocks : List (List Record)) :
    (blocks.flatMap ofBlock).filterMap record? = blocks.flatten := by
  rw [List.filterMap_flatMap]
  simp only [filterMap_record?_ofBlock, List.flatMap_id']

theorem filterMap_first?_ofBlock (block : List Record) :
    (ofBlock block).filterMap first? = block.head?.toList := by
  have hcame : (block.map came).filterMap first? = [] := by
    rw [List.filterMap_map]
    exact List.filterMap_none block
  rcases block with _ | ⟨first, rest⟩
  · rfl
  · have hopened : (opened first).first? = some first := rfl
    rw [ofBlock_cons, List.filterMap_cons_some hopened, List.filterMap_append, hcame]
    rfl

theorem filterMap_first?_ofBlocks (blocks : List (List Record)) :
    (blocks.flatMap ofBlock).filterMap first? = blocks.filterMap List.head? := by
  rw [List.filterMap_flatMap, List.filterMap_eq_flatMap_toList]
  simp only [filterMap_first?_ofBlock]

theorem eq_of_came_append {block other : List Record} {last otherLast : Record}
    {after otherAfter : List Mark}
    (heq : block.map came ++ .closed last :: after =
      other.map came ++ .closed otherLast :: otherAfter) : block = other := by
  induction block generalizing other with
  | nil =>
      rcases other with _ | ⟨record, other⟩
      · rfl
      · cases (List.cons.inj heq).1
  | cons record block ih =>
      rcases other with _ | ⟨otherRecord, other⟩
      · cases (List.cons.inj heq).1
      · obtain ⟨hfirst, hrest⟩ := List.cons.inj heq
        rw [came.inj hfirst, ih hrest]

theorem exists_of_came_append {block : List Record} {last first : Record}
    {after before rest : List Mark}
    (heq : block.map came ++ .closed last :: after = before ++ .opened first :: rest) :
    ∃ between, before = block.map came ++ .closed last :: between ∧
      after = between ++ .opened first :: rest := by
  induction block generalizing before with
  | nil =>
      rcases before with _ | ⟨mark, before⟩
      · cases (List.cons.inj heq).1
      · obtain ⟨rfl, hrest⟩ := List.cons.inj heq
        exact ⟨before, rfl, hrest⟩
  | cons record block ih =>
      rcases before with _ | ⟨mark, before⟩
      · cases (List.cons.inj heq).1
      · obtain ⟨rfl, hrest⟩ := List.cons.inj heq
        obtain ⟨between, rfl, hafter⟩ := ih hrest
        exact ⟨between, rfl, hafter⟩

theorem exists_block_of_marks {blocks : List (List Record)} (hblocks : [] ∉ blocks)
    {before after : List Mark} {first last : Record} {inside : List Record}
    (hmarks : blocks.flatMap ofBlock =
      before ++ .opened first :: (inside.map .came ++ .closed last :: after)) :
    ∃ earlier later, blocks = earlier ++ inside :: later ∧
      before.filterMap record? = earlier.flatten := by
  induction blocks generalizing before with
  | nil => simp at hmarks
  | cons block blocks ih =>
      rw [List.mem_cons, not_or] at hblocks
      obtain ⟨head, rest, rfl⟩ := List.exists_cons_of_ne_nil (Ne.symm hblocks.1)
      rw [List.flatMap_cons, ofBlock_cons, List.cons_append, List.append_assoc,
        List.singleton_append] at hmarks
      rcases before with _ | ⟨mark, before⟩
      · obtain rfl := eq_of_came_append (List.cons.inj hmarks).2
        exact ⟨[], blocks, rfl, rfl⟩
      · obtain ⟨rfl, hrest⟩ := List.cons.inj hmarks
        obtain ⟨between, rfl, hafter⟩ := exists_of_came_append hrest
        obtain ⟨earlier, later, rfl, hearlier⟩ := ih hblocks.2 hafter
        refine ⟨(head :: rest) :: earlier, later, rfl, ?_⟩
        rw [List.filterMap_cons_none rfl, List.filterMap_append, filterMap_record?_came,
          List.filterMap_cons_none rfl, hearlier, List.flatten_cons]

end Mark

theorem inOneGroup_ofBlocks_iff {blocks : List (List Record)} (hblocks : [] ∉ blocks)
    {left right : Nat} :
    InOneGroup (blocks.flatMap Mark.ofBlock) left right ↔
      ∃ earlier block later, blocks = earlier ++ block :: later ∧
        ∀ position ∈ [left, right], earlier.flatten.length ≤ position ∧
          position < earlier.flatten.length + block.length := by
  constructor
  · rintro ⟨before, first, inside, last, after, hmarks, hpositions⟩
    obtain ⟨earlier, later, hsplit, hbefore⟩ := Mark.exists_block_of_marks hblocks hmarks
    rw [hbefore] at hpositions
    exact ⟨earlier, inside, later, hsplit, hpositions⟩
  · rintro ⟨earlier, block, later, rfl, hpositions⟩
    have hblock : block ≠ [] := by
      rintro rfl
      exact hblocks (by simp)
    obtain ⟨first, rest, rfl⟩ := List.exists_cons_of_ne_nil hblock
    refine ⟨earlier.flatMap Mark.ofBlock, first, first :: rest,
      (first :: rest).getLast hblock, later.flatMap Mark.ofBlock, ?_, ?_⟩
    · rw [List.flatMap_append, List.flatMap_cons, Mark.ofBlock_cons, List.cons_append,
        List.append_assoc, List.singleton_append]
    · rwa [Mark.filterMap_record?_ofBlocks]

def Callback.marks (depth : Nat) : Callback → List Mark
  | .opened level _ first => if level = depth then [.opened first] else []
  | .group records => records.map .came
  | .closed level _ last => if level = depth then [.closed last] else []

theorem flatMap_ite_eq {levels : List Nat} (hlevels : levels.Nodup) (depth : Nat) (mark : Mark) :
    (levels.flatMap fun level => if level = depth then [mark] else []) =
      if depth ∈ levels then [mark] else [] := by
  induction levels with
  | nil => rfl
  | cons level levels ih =>
      rw [List.nodup_cons] at hlevels
      rw [List.flatMap_cons, ih hlevels.2]
      rcases eq_or_ne level depth with rfl | hne
      · simp [hlevels.1]
      · simp [hne, hne.symm]

variable {σ : Type} {grouper : Grouper} {handler : Handler σ} {depth level : Nat}

theorem mem_depthsFrom (hdepth : depth < grouper.size) :
    depth ∈ grouper.depthsFrom level ↔ level ≤ depth := by
  rw [Grouper.depthsFrom, List.mem_range'_1]
  omega

theorem marks_opening (hdepth : depth < grouper.size) (first : Record) :
    (grouper.opening level first).flatMap (Callback.marks depth) =
      if level ≤ depth then [.opened first] else [] := by
  have hdepths : (grouper.depthsFrom level).Nodup := List.nodup_range'
  rw [Grouper.opening, List.flatMap_map]
  refine (flatMap_ite_eq hdepths depth _).trans ?_
  simp only [mem_depthsFrom hdepth]

theorem marks_closing (hdepth : depth < grouper.size) (last : Record) :
    (grouper.closing level last).flatMap (Callback.marks depth) =
      if level ≤ depth then [.closed last] else [] := by
  have hdepths : (grouper.depthsFrom level).reverse.Nodup :=
    List.nodup_reverse.mpr List.nodup_range'
  rw [Grouper.closing, List.flatMap_map]
  refine (flatMap_ite_eq hdepths depth _).trans ?_
  simp only [List.mem_reverse, mem_depthsFrom hdepth]

theorem marks_map {event : Record → Event}
    (hevent : ∀ record, (event record).mark? depth = some (.came record))
    (records : List Record) : marks depth (records.map event) = records.map .came := by
  induction records with
  | nil => rfl
  | cons record records ih =>
      rw [List.map_cons, marks, List.filterMap_cons_some (hevent record), List.map_cons, ← ih]
      rfl

theorem marks_readGroup (hnever : handler.NeverFails) (records : List Record) (state : σ) :
    marks depth (readGroup grouper handler records state).events = records.map .came := by
  obtain ⟨-, taken, asks, -, -, hevents⟩ := readGroup_of_neverFails grouper hnever records state
  have hgave : marks depth ((records.take taken).map .gave) = (records.take taken).map .came :=
    marks_map (fun _ => rfl) _
  have hskipped : marks depth ((records.drop taken).map .skipped) =
      (records.drop taken).map .came :=
    marks_map (fun _ => rfl) _
  have hnothing : marks depth (List.replicate asks .gaveNothing) = [] := by
    refine List.filterMap_eq_nil_iff.mpr ?_
    intro event hevent
    rw [List.eq_of_mem_replicate hevent]
    rfl
  rw [marks] at hgave hskipped hnothing
  rw [marks, hevents, List.filterMap_cons_none rfl, List.filterMap_append, List.filterMap_append,
    List.filterMap_cons_none rfl, hgave, hnothing, hskipped, List.append_nil, ← List.map_append,
    List.take_append_drop]

theorem marks_answer (hnever : handler.NeverFails) (callback : Callback) (state : σ) :
    marks depth (answer grouper handler callback state).events = callback.marks depth := by
  cases callback with
  | opened level field first =>
      rw [answer, call_of_none _ (hnever.opened level field first state)]
      rcases eq_or_ne level depth with heq | hne
      · simp [marks, Event.mark?, Callback.marks, heq]
      · simp [marks, Event.mark?, Callback.marks, hne]
  | group records => exact marks_readGroup hnever records state
  | closed level field last =>
      rw [answer, call_of_none _ (hnever.closed level field last state)]
      rcases eq_or_ne level depth with heq | hne
      · simp [marks, Event.mark?, Callback.marks, heq]
      · simp [marks, Event.mark?, Callback.marks, hne]

theorem marks_answerAll (hnever : handler.NeverFails) (callbacks : List Callback) (state : σ) :
    marks depth (answerAll grouper handler callbacks state).events =
      callbacks.flatMap (Callback.marks depth) := by
  induction callbacks generalizing state with
  | nil => rfl
  | cons callback callbacks ih =>
      rw [answerAll_cons_apply hnever, List.flatMap_cons, ← marks_answer hnever callback state,
        ← ih]
      exact List.filterMap_append

theorem marks_filter (events : List Event) :
    marks depth (events.filter Event.ofGroups) = marks depth events := by
  have hmark : ∀ event : Event,
      (if event.ofGroups then event.mark? depth else none) = event.mark? depth := by
    intro event
    cases event <;> rfl
  rw [marks, List.filterMap_filter]
  simp only [hmark, marks]

theorem exists_marks_callbacksFrom (hbase : grouper.base ≤ depth) (hdepth : depth < grouper.size)
    (last : Record) (rest : List Record) :
    ∃ group groups block blocks,
      grouper.groups (last :: rest) = (last :: group) :: groups ∧
      grouper.blocks depth (last :: rest) = (last :: block) :: blocks ∧
      group.map Mark.came ++
          (grouper.callbacksFrom (last :: group).getLast? groups).flatMap (Callback.marks depth) =
        block.map Mark.came ++ ((last :: block).getLast?.toList.map .closed ++
          blocks.flatMap Mark.ofBlock) := by
  -- The stream is cut into innermost groups wherever it is cut at the depth, so both cuts are
  -- followed at once, from the end of the stream.
  induction rest generalizing last with
  | nil =>
      refine ⟨[], [], [], [], rfl, rfl, ?_⟩
      rw [List.getLast?_singleton, Grouper.callbacksFrom, Grouper.turn, marks_closing hdepth,
        if_pos hbase]
      rfl
  | cons next rest ih =>
      obtain ⟨group, groups, block, blocks, hgroups, hblocks, hrest⟩ := ih next
      rcases eq_or_ne (grouper.shared last next) grouper.size with hsame | hother
      · refine ⟨next :: group, groups, next :: block, blocks,
          Blocks.splitBy_of_related (decide_eq_true hsame) hgroups,
          Blocks.splitBy_of_related (decide_eq_true (hsame ▸ hdepth)) hblocks, ?_⟩
        rw [List.getLast?_cons_cons, List.getLast?_cons_cons, List.map_cons, List.map_cons,
          List.cons_append, List.cons_append, hrest]
      · have hcut : grouper.groups (last :: next :: rest) =
            [last] :: (next :: group) :: groups := by
          rw [← hgroups]
          exact Blocks.splitBy_of_unrelated (decide_eq_false hother)
        have hturn : (grouper.turn (some last) (some next)).flatMap (Callback.marks depth) =
            if max (grouper.shared last next) grouper.base ≤ depth then
              [.closed last, .opened next]
            else [] := by
          rw [Grouper.turn, List.flatMap_append, marks_closing hdepth, marks_opening hdepth]
          split <;> rfl
        rcases Nat.lt_or_ge depth (grouper.shared last next) with hdeep | hshallow
        · refine ⟨[], _, next :: block, blocks, hcut,
            Blocks.splitBy_of_related (decide_eq_true hdeep) hblocks, ?_⟩
          rw [List.getLast?_singleton, Grouper.callbacksFrom, List.head?_cons, List.flatMap_append,
            hturn, if_neg (by omega), List.flatMap_cons, List.getLast?_cons_cons]
          exact congrArg (List.cons (Mark.came next)) hrest
        · refine ⟨[], _, [], (next :: block) :: blocks, hcut, ?_, ?_⟩
          · rw [← hblocks]
            exact Blocks.splitBy_of_unrelated (decide_eq_false (by omega))
          · rw [List.getLast?_singleton, Grouper.callbacksFrom, List.head?_cons,
              List.flatMap_append, hturn, if_pos (by omega), List.flatMap_cons, List.flatMap_cons,
              Mark.ofBlock]
            simp only [List.append_assoc]
            exact congrArg (fun others => .closed last :: .opened next :: .came next :: others)
              hrest

/-- At every depth that is reported, the groups of a run are the blocks of the stream. -/
theorem marks_runRecords (hnever : handler.NeverFails) {records : List Record}
    (hshared : records.IsChain fun left right =>
      ∃ shared, grouper.sharedFields left right = .ok shared)
    (hbase : grouper.base ≤ depth) (hdepth : depth < grouper.size) (state : σ) :
    marks depth (runRecords grouper handler records state).events =
      (grouper.blocks depth records).flatMap Mark.ofBlock := by
  rw [← marks_filter, filter_events_runRecords hshared, marks_answerAll hnever]
  rcases records with _ | ⟨first, rest⟩
  · rfl
  · obtain ⟨group, groups, block, blocks, hgroups, hblocks, hrest⟩ :=
      exists_marks_callbacksFrom hbase hdepth first rest
    rw [Grouper.callbacks, hgroups, Grouper.callbacksFrom, List.flatMap_append,
      List.flatMap_cons, List.head?_cons, Grouper.turn, marks_opening hdepth, if_pos hbase,
      hblocks, List.flatMap_cons, Mark.ofBlock, List.append_assoc, List.append_assoc]
    exact congrArg (fun others => .opened first :: .came first :: others) hrest

end Rollup

end RecordRollup
