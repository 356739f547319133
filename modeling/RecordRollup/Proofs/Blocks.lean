import Mathlib

namespace RecordRollup.Blocks

variable {α : Type} {related : α → α → Bool} {first next : α} {rest block : List α}
  {blocks : List (List α)}

theorem exists_splitBy_cons (related : α → α → Bool) (first : α) (rest : List α) :
    ∃ block blocks, (first :: rest).splitBy related = (first :: block) :: blocks := by
  have hflatten := List.flatten_splitBy related (first :: rest)
  rcases hblocks : (first :: rest).splitBy related with _ | ⟨_ | ⟨head, block⟩, blocks⟩
  · simp [hblocks] at hflatten
  · exact absurd (hblocks ▸ List.mem_cons_self) (List.nil_notMem_splitBy related _)
  · obtain rfl : head = first := by
      rw [hblocks] at hflatten
      exact (List.cons.inj hflatten).1
    exact ⟨block, blocks, rfl⟩

theorem splitBy_of_unrelated (hunrelated : related first next = false) :
    (first :: next :: rest).splitBy related = [first] :: (next :: rest).splitBy related := by
  have hlast : ∀ last ∈ [first].getLast?, related last next = false := by simpa using hunrelated
  exact List.splitBy_append_cons rest hlast

theorem splitBy_of_related (hrelated : related first next = true)
    (hblocks : (next :: rest).splitBy related = (next :: block) :: blocks) :
    (first :: next :: rest).splitBy related = (first :: next :: block) :: blocks := by
  obtain ⟨hflatten, hnil, hchains, hapart⟩ := List.splitBy_eq_iff.mp hblocks
  refine List.splitBy_eq_iff.mpr ⟨by simp [hflatten], by simpa using hnil, ?_, ?_⟩
  · intro other hother
    rcases List.mem_cons.mp hother with rfl | hother
    · exact List.isChain_cons_cons.mpr ⟨hrelated, hchains _ (by simp)⟩
    · exact hchains other (by simp [hother])
  · rcases blocks with _ | ⟨second, blocks⟩
    · simp
    · rw [List.isChain_cons_cons] at hapart ⊢
      obtain ⟨⟨hleft, hright, hlast⟩, hrest⟩ := hapart
      exact ⟨⟨by simp, hright, by simpa using hlast⟩, hrest⟩

theorem exists_parts_splitBy {fine coarse : α → α → Bool}
    (hfine : ∀ first next, fine first next = true → coarse first next = true) (items : List α) :
    ∃ parts : List (List (List α)),
      items.splitBy fine = parts.flatten ∧ items.splitBy coarse = parts.map List.flatten := by
  induction items with
  | nil => exact ⟨[], rfl, rfl⟩
  | cons first rest ih =>
      rcases rest with _ | ⟨next, rest⟩
      · exact ⟨[[[first]]], rfl, rfl⟩
      obtain ⟨parts, hparts, hflatten⟩ := ih
      obtain ⟨block, blocks, hblocks⟩ := exists_splitBy_cons fine next rest
      obtain ⟨whole, wholes, hwholes⟩ := exists_splitBy_cons coarse next rest
      rcases parts with _ | ⟨part, parts⟩
      · rw [hparts] at hblocks
        cases hblocks
      rw [List.map_cons, hwholes, List.cons.injEq] at hflatten
      obtain ⟨hpart, hrest⟩ := hflatten
      rcases part with _ | ⟨front, part⟩
      · cases hpart
      rw [List.flatten_cons, List.cons_append, hblocks, List.cons.injEq] at hparts
      obtain ⟨rfl, hlater⟩ := hparts
      cases hrelated : fine first next with
      | true =>
          refine ⟨((first :: next :: block) :: part) :: parts, ?_, ?_⟩
          · rw [splitBy_of_related hrelated hblocks, hlater]
            rfl
          · rw [splitBy_of_related (hfine first next hrelated) hwholes, hpart, hrest]
            rfl
      | false =>
          rw [splitBy_of_unrelated hrelated, hblocks, hlater]
          cases hcoarse : coarse first next with
          | true =>
              refine ⟨([first] :: (next :: block) :: part) :: parts, rfl, ?_⟩
              rw [splitBy_of_related hcoarse hwholes, hpart, hrest]
              rfl
          | false =>
              refine ⟨[[first]] :: ((next :: block) :: part) :: parts, rfl, ?_⟩
              rw [splitBy_of_unrelated hcoarse, hwholes, hpart, hrest]
              rfl

/-- In a list where items between two related ones are related to both, the items of a block are all
related, and items of different blocks are not. -/
theorem pairwise_splitBy {items : List α} {inOrder tied : α → α → Prop}
    (hsorted : items.Pairwise inOrder)
    (hneighbours : items.IsChain fun left right => related left right = true ↔ tied left right)
    (htrans : ∀ {first middle last}, tied first middle → tied middle last → tied first last)
    (hbetween : ∀ {first middle last}, inOrder first middle → inOrder middle last →
      tied first last → tied first middle ∧ tied middle last) :
    (∀ block ∈ items.splitBy related, block.Pairwise tied) ∧
      (items.splitBy related).Pairwise fun earlier later =>
        ∀ left ∈ earlier, ∀ right ∈ later, ¬ tied left right := by
  induction items with
  | nil => simp
  | cons first items ih =>
      rcases items with _ | ⟨next, rest⟩
      · have hsole : [first].splitBy related = [[first]] := rfl
        simp [hsole]
      · obtain ⟨block, blocks, hblocks⟩ := exists_splitBy_cons related next rest
        rw [List.pairwise_cons] at hsorted
        rw [List.isChain_cons_cons] at hneighbours
        obtain ⟨htied, hapart⟩ := ih hsorted.2 hneighbours.2
        have hrest : rest = block ++ blocks.flatten := by
          have hflatten := List.flatten_splitBy related (next :: rest)
          rw [hblocks, List.flatten_cons, List.cons_append] at hflatten
          exact (List.cons.inj hflatten).2.symm
        have hafter : ∀ {item}, item ∈ rest → inOrder next item :=
          fun hitem => (List.pairwise_cons.mp hsorted.2).1 _ hitem
        have hnext : inOrder first next := hsorted.1 next (by simp)
        cases hrelated : related first next with
        | true =>
            have hfirst := hneighbours.1.mp hrelated
            rw [hblocks, List.forall_mem_cons] at htied
            rw [hblocks, List.pairwise_cons] at hapart
            rw [splitBy_of_related hrelated hblocks]
            refine ⟨List.forall_mem_cons.mpr ⟨List.pairwise_cons.mpr ⟨?_, htied.1⟩, htied.2⟩,
              List.pairwise_cons.mpr ⟨?_, hapart.2⟩⟩
            · intro item hitem
              rcases List.mem_cons.mp hitem with rfl | hitem
              · exact hfirst
              · exact htrans hfirst ((List.pairwise_cons.mp htied.1).1 item hitem)
            · intro later hlater left hleft right hright htie
              rcases List.mem_cons.mp hleft with rfl | hleft
              · have hmem : right ∈ rest := by
                  rw [hrest]
                  exact List.mem_append_right _ (List.mem_flatten_of_mem hlater hright)
                exact hapart.1 later hlater next (by simp) right hright
                  (hbetween hnext (hafter hmem) htie).2
              · exact hapart.1 later hlater left hleft right hright htie
        | false =>
            have hfirst : ¬ tied first next := by
              rw [← hneighbours.1, hrelated]
              exact Bool.false_ne_true
            rw [splitBy_of_unrelated hrelated]
            refine ⟨List.forall_mem_cons.mpr ⟨List.pairwise_singleton _ _, htied⟩,
              List.pairwise_cons.mpr ⟨?_, hapart⟩⟩
            intro later hlater left hleft right hright htie
            obtain rfl := List.mem_singleton.mp hleft
            have hmem : right ∈ next :: rest := by
              rw [← List.flatten_splitBy related (next :: rest)]
              exact List.mem_flatten_of_mem hlater hright
            rcases List.mem_cons.mp hmem with rfl | hmem
            · exact hfirst htie
            · exact hfirst (hbetween hnext (hafter hmem) htie).1

theorem exists_block_of_lt {blocks : List (List α)} {position : Nat}
    (hposition : position < blocks.flatten.length) :
    ∃ earlier block later, blocks = earlier ++ block :: later ∧
      earlier.flatten.length ≤ position ∧
      position < earlier.flatten.length + block.length := by
  induction blocks generalizing position with
  | nil => simp at hposition
  | cons block blocks ih =>
      rw [List.flatten_cons, List.length_append] at hposition
      rcases Nat.lt_or_ge position block.length with hhere | hlater
      · exact ⟨[], block, blocks, rfl, by simp, by simpa using hhere⟩
      · have hrest : position - block.length < blocks.flatten.length := by omega
        obtain ⟨earlier, found, later, rfl, hstart, hstop⟩ := ih hrest
        refine ⟨block :: earlier, found, later, rfl, ?_, ?_⟩
        · rw [List.flatten_cons, List.length_append]
          omega
        · rw [List.flatten_cons, List.length_append]
          omega

theorem getElem?_flatten_append {earlier later : List (List α)} {block : List α} {position : Nat}
    (hstart : earlier.flatten.length ≤ position) :
    (earlier ++ block :: later).flatten[position]? =
      (block ++ later.flatten)[position - earlier.flatten.length]? := by
  rw [List.flatten_append, List.flatten_cons, List.getElem?_append_right hstart]

theorem exists_block_iff_of_lt {blocks : List (List α)} {tied : α → α → Prop}
    (htied : ∀ block ∈ blocks, block.Pairwise tied)
    (hapart : blocks.Pairwise fun earlier later =>
      ∀ left ∈ earlier, ∀ right ∈ later, ¬ tied left right)
    {start stop : Nat} (hless : start < stop) {left right : α}
    (hleft : blocks.flatten[start]? = some left) (hright : blocks.flatten[stop]? = some right) :
    (∃ earlier block later, blocks = earlier ++ block :: later ∧
      ∀ position ∈ [start, stop], earlier.flatten.length ≤ position ∧
        position < earlier.flatten.length + block.length) ↔ tied left right := by
  constructor
  · rintro ⟨earlier, block, later, rfl, hpositions⟩
    obtain ⟨hstart, hstartBound⟩ := hpositions start (by simp)
    obtain ⟨hstop, hstopBound⟩ := hpositions stop (by simp)
    rw [getElem?_flatten_append hstart, List.getElem?_append_left (by omega)] at hleft
    rw [getElem?_flatten_append hstop, List.getElem?_append_left (by omega)] at hright
    obtain ⟨hleftBound, rfl⟩ := List.getElem?_eq_some_iff.mp hleft
    obtain ⟨hrightBound, rfl⟩ := List.getElem?_eq_some_iff.mp hright
    exact List.pairwise_iff_getElem.mp (htied block (by simp)) _ _ hleftBound hrightBound (by omega)
  · intro htie
    have hbound : start < blocks.flatten.length := (List.getElem?_eq_some_iff.mp hleft).1
    obtain ⟨earlier, block, later, rfl, hstart, hstartBound⟩ := exists_block_of_lt hbound
    rcases Nat.lt_or_ge stop (earlier.flatten.length + block.length) with hinside | hbehind
    · refine ⟨earlier, block, later, rfl, ?_⟩
      simp only [List.forall_mem_cons, List.not_mem_nil, false_implies, implies_true, and_true]
      omega
    · rw [getElem?_flatten_append hstart, List.getElem?_append_left (by omega)] at hleft
      rw [getElem?_flatten_append (by omega), List.getElem?_append_right (by omega)] at hright
      obtain ⟨other, hother, hmem⟩ := List.mem_flatten.mp (List.mem_of_getElem? hright)
      have hlater := (List.pairwise_cons.mp (List.pairwise_append.mp hapart).2.1).1
      exact absurd htie (hlater other hother left (List.mem_of_getElem? hleft) right hmem)

end RecordRollup.Blocks
