import Mathlib
import RecordRollup.Proofs.Plan.Preorder
import RecordRollup.Proofs.Rollup.Marks

namespace RecordRollup

variable {grouper : Grouper} {depth : Nat} {left right first middle last : Record}
  {records : List Record}

namespace Grouper

/-- Records have one key at a depth if they tie on the group fields up to it. -/
def Tied (grouper : Grouper) (depth : Nat) (left right : Record) : Prop :=
  grouper.plan.sharedKeys left right (depth + 1) = .ok (depth + 1)

def keyClass (grouper : Grouper) (depth : Nat) (records : List Record) (record : Record) :
    Set Record :=
  {other | other ∈ records ∧ (other = record ∨ grouper.Tied depth record other)}

def elementsTo (grouper : Grouper) (depth : Nat) : List SortElement :=
  grouper.plan.common.elements.take (depth + 1)

theorem length_elementsTo (hdepth : depth < grouper.size) :
    (grouper.elementsTo depth).length = depth + 1 := by
  have hsize := grouper.size_le
  rw [elementsTo, List.length_take, Plan.common, List.length_map]
  omega

theorem sharedKeys_eq (hdepth : depth < grouper.size) :
    grouper.plan.sharedKeys left right (depth + 1) =
      sharedAlong (grouper.elementsTo depth) left right :=
  if_pos (Nat.le_trans hdepth grouper.size_le)

theorem tied_iff (hdepth : depth < grouper.size) :
    grouper.Tied depth left right ↔
      compareAlong (grouper.elementsTo depth) left right = .ok .eq := by
  rw [Tied, sharedKeys_eq hdepth, ← sharedAlong_eq_length_iff, length_elementsTo hdepth]

theorem sharedFields_eq :
    grouper.sharedFields left right =
      sharedAlong (grouper.plan.common.elements.take grouper.size) left right :=
  if_pos grouper.size_le

theorem lt_shared_iff {shared : Nat} (hshared : grouper.sharedFields left right = .ok shared)
    (hdepth : depth < grouper.size) :
    depth < grouper.shared left right ↔ grouper.Tied depth left right := by
  have htake := sharedAlong_take (sharedFields_eq.symm.trans hshared) (depth + 1)
  rw [List.take_take, Nat.min_eq_left hdepth] at htake
  have hcount : grouper.shared left right = shared := by rw [Grouper.shared, hshared]
  rw [hcount, Tied, sharedKeys_eq hdepth, elementsTo, htake, Except.ok.injEq]
  omega

theorem exists_sharedFields (horder : InOrder grouper.plan.common.elements left right) :
    ∃ shared, grouper.sharedFields left right = .ok shared := by
  obtain ⟨outcome, houtcome, -⟩ := horder.take grouper.size
  rw [sharedFields_eq]
  exact exists_sharedAlong houtcome

theorem flatten_blocks (grouper : Grouper) (depth : Nat) (records : List Record) :
    (grouper.blocks depth records).flatten = records :=
  List.flatten_splitBy _ _

section Ordered

variable (hordered : ∀ element ∈ grouper.plan.common.elements, Std.TransCmp element.order)

include hordered

theorem transCmp_elementsTo : ∀ element ∈ grouper.elementsTo depth, Std.TransCmp element.order :=
  fun element helement => hordered element (List.mem_of_mem_take helement)

theorem Tied.symm (hdepth : depth < grouper.size) (htied : grouper.Tied depth left right) :
    grouper.Tied depth right left := by
  rw [tied_iff hdepth] at htied ⊢
  exact compareAlong_swap (transCmp_elementsTo hordered) htied

theorem Tied.trans (hdepth : depth < grouper.size) (hlower : grouper.Tied depth first middle)
    (hupper : grouper.Tied depth middle last) : grouper.Tied depth first last := by
  rw [tied_iff hdepth] at hlower hupper ⊢
  exact compareAlong_trans (transCmp_elementsTo hordered) hlower hupper (by simp) (by simp)

theorem pairwise_inOrder (depth : Nat)
    (hsorted : records.IsChain (InOrder grouper.plan.common.elements)) :
    records.Pairwise (InOrder (grouper.elementsTo depth)) := by
  have hprefix : records.IsChain (InOrder (grouper.elementsTo depth)) :=
    hsorted.imp fun _ _ horder => horder.take (depth + 1)
  have : Trans (InOrder (grouper.elementsTo depth)) (InOrder (grouper.elementsTo depth))
      (InOrder (grouper.elementsTo depth)) := ⟨InOrder.trans (transCmp_elementsTo hordered)⟩
  exact hprefix.pairwise

/-- The groups at a depth are the keys: the records of a group tie, and no two records of different
groups do. -/
theorem blocks_of_sorted (hdepth : depth < grouper.size)
    (hsorted : records.IsChain (InOrder grouper.plan.common.elements)) :
    (∀ block ∈ grouper.blocks depth records, block.Pairwise (grouper.Tied depth)) ∧
      (grouper.blocks depth records).Pairwise fun earlier later =>
        ∀ left ∈ earlier, ∀ right ∈ later, ¬ grouper.Tied depth left right := by
  refine Blocks.pairwise_splitBy (pairwise_inOrder hordered depth hsorted) (hsorted.imp ?_)
    (Tied.trans hordered hdepth) ?_
  · intro left right horder
    obtain ⟨shared, hshared⟩ := exists_sharedFields horder
    rw [decide_eq_true_iff, lt_shared_iff hshared hdepth]
  · intro first middle last hlower hupper htied
    rw [tied_iff hdepth] at htied
    rw [tied_iff hdepth, tied_iff hdepth]
    exact InOrder.ties_of_tie (transCmp_elementsTo hordered) hlower hupper htied

theorem pairwise_firsts (hdepth : depth < grouper.size)
    (hsorted : records.IsChain (InOrder grouper.plan.common.elements)) :
    ((grouper.blocks depth records).filterMap List.head?).Pairwise fun left right =>
      left ≠ right ∧ ¬ grouper.Tied depth left right := by
  obtain ⟨-, hapart⟩ := blocks_of_sorted hordered hdepth hsorted
  have hinOrder := pairwise_inOrder hordered depth hsorted
  rw [← flatten_blocks grouper depth records, List.pairwise_flatten] at hinOrder
  refine (hapart.and hinOrder.2).filterMap List.head? ?_
  rintro earlier later ⟨hapart, hinOrder⟩ left hleft right hright
  have hleftMem := List.mem_of_mem_head? hleft
  have hrightMem := List.mem_of_mem_head? hright
  have htied := hapart left hleftMem right hrightMem
  refine ⟨?_, htied⟩
  rintro rfl
  refine htied ((tied_iff hdepth).mpr ?_)
  exact InOrder.tie_self (transCmp_elementsTo hordered) (hinOrder left hleftMem left hrightMem)

theorem exists_first (hdepth : depth < grouper.size)
    (hsorted : records.IsChain (InOrder grouper.plan.common.elements)) {record : Record}
    (hrecord : record ∈ records) :
    ∃ first ∈ (grouper.blocks depth records).filterMap List.head?,
      record = first ∨ grouper.Tied depth first record := by
  obtain ⟨htied, -⟩ := blocks_of_sorted hordered hdepth hsorted
  rw [← flatten_blocks grouper depth records] at hrecord
  obtain ⟨block, hblock, hmem⟩ := List.mem_flatten.mp hrecord
  obtain ⟨first, rest, rfl⟩ := List.exists_cons_of_ne_nil (List.ne_nil_of_mem hmem)
  refine ⟨first, List.mem_filterMap.mpr ⟨_, hblock, rfl⟩, ?_⟩
  rcases List.mem_cons.mp hmem with heq | hrest
  · exact .inl heq
  · exact .inr ((List.pairwise_cons.mp (htied _ hblock)).1 record hrest)

theorem keyClass_eq_of_tied (hdepth : depth < grouper.size)
    (htied : grouper.Tied depth left right) (hleft : left ∈ records) (hright : right ∈ records) :
    grouper.keyClass depth records left = grouper.keyClass depth records right := by
  have hback := Tied.symm hordered hdepth htied
  ext other
  refine and_congr_right fun _ => ?_
  constructor
  · rintro (rfl | hother)
    · exact .inr hback
    · exact .inr (Tied.trans hordered hdepth hback hother)
  · rintro (rfl | hother)
    · exact .inr htied
    · exact .inr (Tied.trans hordered hdepth htied hother)

theorem ncard_keyClass (hdepth : depth < grouper.size)
    (hsorted : records.IsChain (InOrder grouper.plan.common.elements)) :
    (grouper.keyClass depth records '' {record | record ∈ records}).ncard =
      ((grouper.blocks depth records).filterMap List.head?).length := by
  generalize hfirsts : (grouper.blocks depth records).filterMap List.head? = firsts
  have hapart := hfirsts ▸ pairwise_firsts hordered hdepth hsorted
  have hmem : ∀ first ∈ firsts, first ∈ records := by
    rw [← hfirsts]
    intro first hfirst
    obtain ⟨block, hblock, hhead⟩ := List.mem_filterMap.mp hfirst
    rw [← flatten_blocks grouper depth records]
    exact List.mem_flatten_of_mem hblock (List.mem_of_mem_head? hhead)
  have himage : grouper.keyClass depth records '' {record | record ∈ records} =
      grouper.keyClass depth records '' {first | first ∈ firsts} := by
    apply Set.Subset.antisymm
    · rintro _ ⟨record, hrecord, rfl⟩
      obtain ⟨first, hfirst, hkey⟩ := exists_first hordered hdepth hsorted hrecord
      rw [hfirsts] at hfirst
      rcases hkey with rfl | htied
      · exact ⟨record, hfirst, rfl⟩
      · exact ⟨first, hfirst,
          keyClass_eq_of_tied hordered hdepth htied (hmem first hfirst) hrecord⟩
    · exact Set.image_mono hmem
  have hinjective : Set.InjOn (grouper.keyClass depth records) {first | first ∈ firsts} := by
    intro left hleft right hright heq
    have : Std.Symm fun left right => left ≠ right ∧ ¬ grouper.Tied depth left right := by
      constructor
      rintro left right ⟨hne, htied⟩
      exact ⟨hne.symm, fun hback => htied (Tied.symm hordered hdepth hback)⟩
    have hclass : right ∈ grouper.keyClass depth records left := by
      rw [heq]
      exact ⟨hmem right hright, .inl rfl⟩
    rcases hclass.2 with hsame | htied
    · exact hsame.symm
    · by_contra hne
      exact (hapart.forall hleft hright hne).2 htied
  have hnodup : firsts.Nodup := hapart.imp And.left
  rw [himage, hinjective.ncard_image, ← List.coe_toFinset, Set.ncard_coe_finset,
    List.toFinset_card_of_nodup hnodup]

end Ordered

end Grouper

namespace Rollup

variable {σ : Type} {handler : Handler σ}

/-- A run over a sorted stream has one group for every key at every depth: two records come in one
group if and only if they tie, no key has two groups, and there are as many groups as keys. -/
theorem inOneGroup_iff_tied_of_sorted
    (hordered : ∀ key ∈ grouper.plan.keys, ∀ named ∈ key.comparator,
      Std.TransCmp named.comparator.compareValues)
    (hnever : handler.NeverFails)
    (hsorted : records.IsChain fun left right =>
      ∃ outcome, grouper.plan.compare left right = .ok outcome ∧ outcome ≠ .gt)
    (state : σ) :
    (runRecords grouper handler records state).outcome = .ok () ∧
      ∀ depth, grouper.base ≤ depth → depth < grouper.size →
        let seen := marks depth (runRecords grouper handler records state).events
        seen.filterMap Mark.record? = records ∧
        (∀ (left right : Nat) (hleft : left < records.length) (hright : right < records.length),
          left ≠ right →
            (InOneGroup seen left right ↔ grouper.Tied depth records[left] records[right])) ∧
        ((seen.filterMap Mark.first?).Pairwise fun left right =>
          ¬ grouper.Tied depth left right) ∧
        (seen.filterMap Mark.first?).length =
          (grouper.keyClass depth records '' {record | record ∈ records}).ncard := by
  have helements := Plan.transCmp_order hordered
  have hinOrder : records.IsChain (InOrder grouper.plan.common.elements) := by
    refine hsorted.imp ?_
    rintro left right ⟨outcome, houtcome, hup⟩
    exact Plan.inOrder_of_compare houtcome hup
  have hshared := hinOrder.imp fun _ _ horder => Grouper.exists_sharedFields horder
  refine ⟨outcome_runRecords hnever hshared state, ?_⟩
  intro depth hbase hdepth seen
  have hseen : seen = (grouper.blocks depth records).flatMap Mark.ofBlock :=
    marks_runRecords hnever hshared hbase hdepth state
  have hflatten := Grouper.flatten_blocks grouper depth records
  have hgroup : ∀ {left right : Nat} (hleft : left < records.length)
      (hright : right < records.length), left < right →
        (InOneGroup seen left right ↔ grouper.Tied depth records[left] records[right]) := by
    intro left right hleft hright hless
    obtain ⟨htied, hapart⟩ := Grouper.blocks_of_sorted helements hdepth hinOrder
    have hnil : [] ∉ grouper.blocks depth records := List.nil_notMem_splitBy _ _
    rw [hseen, inOneGroup_ofBlocks_iff hnil]
    refine Blocks.exists_block_iff_of_lt htied hapart hless ?_ ?_
    · rw [hflatten, List.getElem?_eq_getElem hleft]
    · rw [hflatten, List.getElem?_eq_getElem hright]
  refine ⟨?_, ?_, ?_, ?_⟩
  · rw [hseen, Mark.filterMap_record?_ofBlocks, hflatten]
  · intro left right hleft hright hne
    rcases Nat.lt_or_gt_of_ne hne with hless | hgreater
    · exact hgroup hleft hright hless
    · rw [inOneGroup_comm, hgroup hright hleft hgreater]
      exact ⟨Grouper.Tied.symm helements hdepth, Grouper.Tied.symm helements hdepth⟩
  · rw [hseen, Mark.filterMap_first?_ofBlocks]
    exact (Grouper.pairwise_firsts helements hdepth hinOrder).imp And.right
  · rw [hseen, Mark.filterMap_first?_ofBlocks, Grouper.ncard_keyClass helements hdepth hinOrder]

theorem inOneGroup_iff_tied_clicks :
    let played := runRecords Sample.grouper (Sample.taking 1) Sample.clickStream 0
    InOneGroup (marks 0 played.events) 0 1 ∧ ¬ InOneGroup (marks 0 played.events) 1 2 := by
  have hordered : ∀ key ∈ Sample.grouper.plan.keys, ∀ named ∈ key.comparator,
      Std.TransCmp named.comparator.compareValues := Sample.plan_ordered
  have hsorted : Sample.clickStream.IsChain fun left right =>
      ∃ outcome, Sample.grouper.plan.compare left right = .ok outcome ∧ outcome ≠ .gt :=
    .cons_cons ⟨.lt, by cbv, by decide⟩ (.cons_cons ⟨.lt, by cbv, by decide⟩ (.singleton _))
  obtain ⟨-, hgroups⟩ :=
    inOneGroup_iff_tied_of_sorted hordered (Sample.taking_neverFails 1) hsorted 0
  obtain ⟨-, hpairs, -, -⟩ := hgroups 0 (by decide) (by decide)
  constructor
  · exact (hpairs 0 1 (by decide) (by decide) (by decide)).mpr (by cbv)
  · have hdiffer : Sample.grouper.plan.sharedKeys (Sample.click "ann" 4) (Sample.click "Bob" 9) 1 =
        .ok 0 := by cbv
    rw [hpairs 1 2 (by decide) (by decide) (by decide)]
    intro htied
    cases hdiffer.symm.trans htied

end Rollup

end RecordRollup
