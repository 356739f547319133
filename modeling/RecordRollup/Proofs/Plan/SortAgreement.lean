import Mathlib
import RecordRollup.Proofs.Plan.Preorder
import RecordRollup.Proofs.StableSort

namespace RecordRollup.Plan

variable {plan : Plan}

theorem preordersOn_serialized
    (hagrees : ∀ key ∈ plan.keys, ∀ named ∈ key.comparator,
      named.comparator.AgreesOn Wire.IsPayload key.type)
    (hordered : ∀ key ∈ plan.keys, ∀ named ∈ key.comparator,
      Std.TransCmp named.comparator.compareValues)
    {pairs : List (Record × Bytes)}
    (hpairs : ∀ pair ∈ pairs, plan.serialize pair.1 = .ok pair.2 ∧ pair.2.length < 2 ^ 63) :
    PreordersOn (fun left right => plan.compare left.1 right.1) pairs ∧
      ∀ left ∈ pairs, ∀ right ∈ pairs,
        plan.compareBytes left.2 right.2 = plan.compare left.1 right.1 := by
  have hboth : ∀ left ∈ pairs, ∀ right ∈ pairs, ∃ outcome,
      plan.compare left.1 right.1 = .ok outcome ∧
        plan.compareBytes left.2 right.2 = .ok outcome := by
    intro left hleft right hright
    exact exists_compareBytes_serialize hagrees (hpairs left hleft).1 (hpairs right hright).1
      (hpairs left hleft).2 (hpairs right hright).2
  refine ⟨⟨?_, ?_, ?_⟩, ?_⟩
  · intro left hleft right hright
    obtain ⟨outcome, hrecords, -⟩ := hboth left hleft right hright
    exact ⟨outcome, hrecords⟩
  · exact fun _ _ _ _ _ houtcome => compare_swap hordered houtcome
  · exact fun _ _ _ _ _ _ _ _ hlower hupper => compare_trans hordered hlower hupper
  · intro left hleft right hright
    obtain ⟨outcome, hrecords, hbytes⟩ := hboth left hleft right hright
    rw [hrecords, hbytes]

/-- Records that can be written can be sorted, and so can what is written of them. Both become the
one list that has them in order with ties as they came, and place by place the sorted bytes are
those of the sorted records. -/
theorem sortSerialized_of_sortRecords
    (hagrees : ∀ key ∈ plan.keys, ∀ named ∈ key.comparator,
      named.comparator.AgreesOn Wire.IsPayload key.type)
    (hordered : ∀ key ∈ plan.keys, ∀ named ∈ key.comparator,
      Std.TransCmp named.comparator.compareValues)
    {records : List Record} {buffers : List Bytes}
    (hwritten : List.Forall₂ (fun record bytes => plan.serialize record = .ok bytes) records
      buffers)
    (hsize : ∀ bytes ∈ buffers, bytes.length < 2 ^ 63) :
    ∃ sorted sortedBuffers,
      plan.sortRecords records = .ok sorted ∧
      plan.sortSerialized buffers = .ok sortedBuffers ∧
      sorted.Perm records ∧
      (sorted.Pairwise fun left right =>
        ∃ outcome, plan.compare left right = .ok outcome ∧ outcome ≠ .gt) ∧
      (∀ others, IsStableSort plan.compare records others ↔ others = sorted) ∧
      (∀ others, IsStableSort plan.compareBytes buffers others ↔ others = sortedBuffers) ∧
      List.Forall₂ (fun record bytes => plan.serialize record = .ok bytes) sorted
        sortedBuffers := by
  obtain ⟨hlength, hzip⟩ := List.forall₂_iff_zip.mp hwritten
  have hrecords : (records.zip buffers).map Prod.fst = records :=
    List.map_fst_zip hlength.le
  have hbuffers : (records.zip buffers).map Prod.snd = buffers :=
    List.map_snd_zip hlength.ge
  have hpairs : ∀ pair ∈ records.zip buffers,
      plan.serialize pair.1 = .ok pair.2 ∧ pair.2.length < 2 ^ 63 := by
    intro pair hpair
    exact ⟨hzip hpair, hsize _ (List.of_mem_zip hpair).2⟩
  obtain ⟨hpreorders, hsame⟩ := preordersOn_serialized hagrees hordered hpairs
  have hitself : ∀ left ∈ records.zip buffers, ∀ right ∈ records.zip buffers,
      plan.compare left.1 right.1 = plan.compare left.1 right.1 := fun _ _ _ _ => rfl
  obtain ⟨hsorted, hstable⟩ := sortBy_map hpreorders hitself
  obtain ⟨hsortedBuffers, hstableBuffers⟩ := sortBy_map hpreorders hsame
  rw [hrecords] at hsorted hstable
  rw [hbuffers] at hsortedBuffers hstableBuffers
  have hstableSorted := (hstable _).mpr rfl
  refine ⟨_, _, hsorted, hsortedBuffers, hstableSorted.perm, hstableSorted.pairwise, hstable,
    hstableBuffers, ?_⟩
  rw [List.forall₂_map_left_iff, List.forall₂_map_right_iff, List.forall₂_same]
  intro pair hpair
  have hmem := (sortedSoFar_perm _ _).mem_iff.mp (List.mem_reverse.mp hpair)
  exact (hpairs pair hmem).1

theorem sortSerialized_of_sortRecords_clicks :
    Sample.plan.sortRecords
        [Sample.click "Bob" 9, Sample.click "ann" 5, Sample.click "Ann" 5, Sample.click "ANN" 6] =
      .ok [Sample.click "ANN" 6, Sample.click "ann" 5, Sample.click "Ann" 5,
        Sample.click "Bob" 9] ∧
    Sample.plan.sortSerialized
        [[3, 66, 111, 98, 5, 0, 0, 0, 0, 0, 0, 0, 9, 3, 97, 47, 98],
          [3, 97, 110, 110, 5, 0, 0, 0, 0, 0, 0, 0, 5, 3, 97, 47, 98],
          [3, 65, 110, 110, 5, 0, 0, 0, 0, 0, 0, 0, 5, 3, 97, 47, 98],
          [3, 65, 78, 78, 5, 0, 0, 0, 0, 0, 0, 0, 6, 3, 97, 47, 98]] =
      .ok [[3, 65, 78, 78, 5, 0, 0, 0, 0, 0, 0, 0, 6, 3, 97, 47, 98],
        [3, 97, 110, 110, 5, 0, 0, 0, 0, 0, 0, 0, 5, 3, 97, 47, 98],
        [3, 65, 110, 110, 5, 0, 0, 0, 0, 0, 0, 0, 5, 3, 97, 47, 98],
        [3, 66, 111, 98, 5, 0, 0, 0, 0, 0, 0, 0, 9, 3, 97, 47, 98]] := by
  have hbob : Sample.plan.serialize (Sample.click "Bob" 9) =
      .ok [3, 66, 111, 98, 5, 0, 0, 0, 0, 0, 0, 0, 9, 3, 97, 47, 98] := by cbv
  have hlower : Sample.plan.serialize (Sample.click "ann" 5) =
      .ok [3, 97, 110, 110, 5, 0, 0, 0, 0, 0, 0, 0, 5, 3, 97, 47, 98] := by cbv
  have hmixed : Sample.plan.serialize (Sample.click "Ann" 5) =
      .ok [3, 65, 110, 110, 5, 0, 0, 0, 0, 0, 0, 0, 5, 3, 97, 47, 98] := by cbv
  have hupper : Sample.plan.serialize (Sample.click "ANN" 6) =
      .ok [3, 65, 78, 78, 5, 0, 0, 0, 0, 0, 0, 0, 6, 3, 97, 47, 98] := by cbv
  have hcomputed : Sample.plan.sortRecords
      [Sample.click "Bob" 9, Sample.click "ann" 5, Sample.click "Ann" 5, Sample.click "ANN" 6] =
        .ok [Sample.click "ANN" 6, Sample.click "ann" 5, Sample.click "Ann" 5,
          Sample.click "Bob" 9] := by cbv
  obtain ⟨sorted, sortedBuffers, hsorted, hsortedBuffers, -, -, -, -, hwritten⟩ :=
    sortSerialized_of_sortRecords Sample.plan_agrees Sample.plan_ordered
      (.cons hbob (.cons hlower (.cons hmixed (.cons hupper .nil)))) (by decide)
  obtain rfl := Except.ok.inj (hcomputed.symm.trans hsorted)
  refine ⟨hsorted, ?_⟩
  rw [hsortedBuffers]
  simpa [List.forall₂_cons_left_iff, hbob, hlower, hmixed, hupper] using hwritten

end RecordRollup.Plan
