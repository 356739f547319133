import Mathlib
import RecordRollup.Plan.Sorting

namespace RecordRollup

variable {α β : Type} {compare : α → α → Except Error Ordering} {items sorted others : List α}

/-- A comparison that answers on the items of a list and preorders them. -/
structure PreordersOn (compare : α → α → Except Error Ordering) (items : List α) : Prop where
  answers : ∀ left ∈ items, ∀ right ∈ items, ∃ outcome, compare left right = .ok outcome
  swap : ∀ left ∈ items, ∀ right ∈ items, ∀ outcome, compare left right = .ok outcome →
    compare right left = .ok outcome.swap
  trans : ∀ first ∈ items, ∀ middle ∈ items, ∀ last ∈ items, ∀ lower upper,
    compare first middle = .ok lower → compare middle last = .ok upper → lower ≠ .gt →
      upper ≠ .gt → compare first last = .ok (lower.then upper)

/-- Of two items with their places in a list, one goes before the other if it is less, or if they
compare equal and it came first. -/
def GoesBefore (compare : α → α → Except Error Ordering) (left right : α × Nat) : Prop :=
  ∃ outcome, compare left.1 right.1 = .ok outcome ∧ outcome ≠ .gt ∧
    (outcome = .eq → left.2 < right.2)

/-- The items of a list in order, with those that compare equal in the order of the list. -/
def IsStableSort (compare : α → α → Except Error Ordering) (items sorted : List α) : Prop :=
  ∃ placed : List (α × Nat), placed.Perm items.zipIdx ∧ placed.map Prod.fst = sorted ∧
    placed.Pairwise (GoesBefore compare)

namespace IsStableSort

theorem perm (hsort : IsStableSort compare items sorted) : sorted.Perm items := by
  obtain ⟨placed, hperm, rfl, -⟩ := hsort
  simpa using hperm.map Prod.fst

theorem pairwise (hsort : IsStableSort compare items sorted) :
    sorted.Pairwise fun left right =>
      ∃ outcome, compare left right = .ok outcome ∧ outcome ≠ .gt := by
  obtain ⟨placed, -, rfl, hplaced⟩ := hsort
  refine List.pairwise_map.mpr (hplaced.imp ?_)
  rintro left right ⟨outcome, houtcome, hup, -⟩
  exact ⟨outcome, houtcome, hup⟩

end IsStableSort

namespace PreordersOn

theorem map {compareItems : β → β → Except Error Ordering} {part : β → α} {items : List β}
    (hitems : PreordersOn compareItems items)
    (hpart : ∀ left ∈ items, ∀ right ∈ items,
      compare (part left) (part right) = compareItems left right) :
    PreordersOn compare (items.map part) where
  answers := by
    simp only [List.forall_mem_map]
    intro left hleft right hright
    rw [hpart left hleft right hright]
    exact hitems.answers left hleft right hright
  swap := by
    simp only [List.forall_mem_map]
    intro left hleft right hright
    rw [hpart left hleft right hright, hpart right hright left hleft]
    exact hitems.swap left hleft right hright
  trans := by
    simp only [List.forall_mem_map]
    intro first hfirst middle hmiddle last hlast
    rw [hpart first hfirst middle hmiddle, hpart middle hmiddle last hlast,
      hpart first hfirst last hlast]
    exact hitems.trans first hfirst middle hmiddle last hlast

variable (hitems : PreordersOn compare items)

include hitems

theorem goesBefore_trans {first middle last : α × Nat} (hfirst : first.1 ∈ items)
    (hmiddle : middle.1 ∈ items) (hlast : last.1 ∈ items)
    (hlower : GoesBefore compare first middle) (hupper : GoesBefore compare middle last) :
    GoesBefore compare first last := by
  obtain ⟨lower, hlower, hlowerUp, hlowerPlace⟩ := hlower
  obtain ⟨upper, hupper, hupperUp, hupperPlace⟩ := hupper
  refine ⟨lower.then upper,
    hitems.trans _ hfirst _ hmiddle _ hlast _ _ hlower hupper hlowerUp hupperUp, ?_, ?_⟩
  · cases lower <;> simp_all
  · intro htie
    obtain ⟨hlowerTie, hupperTie⟩ := Ordering.then_eq_eq.mp htie
    exact (hlowerPlace hlowerTie).trans (hupperPlace hupperTie)

theorem not_goesBefore {left right : α × Nat} (hleft : left.1 ∈ items) (hright : right.1 ∈ items)
    (hbefore : GoesBefore compare left right) : ¬ GoesBefore compare right left := by
  obtain ⟨outcome, houtcome, hup, hplace⟩ := hbefore
  rintro ⟨back, hback, hbackUp, hbackPlace⟩
  obtain rfl : back = outcome.swap := by
    simpa [hback] using hitems.swap _ hleft _ hright _ houtcome
  cases outcome with
  | lt => exact hbackUp rfl
  | eq => exact (hplace rfl).asymm (hbackPlace rfl)
  | gt => exact hup rfl

theorem eq_of_isStableSort (hsorted : IsStableSort compare items sorted)
    (hothers : IsStableSort compare items others) : sorted = others := by
  obtain ⟨placed, hperm, rfl, hplaced⟩ := hsorted
  obtain ⟨otherPlaced, hotherPerm, rfl, hotherPlaced⟩ := hothers
  refine congrArg (List.map Prod.fst)
    ((hperm.trans hotherPerm.symm).eq_of_pairwise ?_ hplaced hotherPlaced)
  intro left right hleft hright hbefore hafter
  have hleftItem : left.1 ∈ items := List.fst_mem_of_mem_zipIdx (hperm.mem_iff.mp hleft)
  have hrightItem : right.1 ∈ items := List.fst_mem_of_mem_zipIdx (hotherPerm.mem_iff.mp hright)
  exact absurd hafter (hitems.not_goesBefore hleftItem hrightItem hbefore)

theorem pairwise_zipIdx :
    items.zipIdx.Pairwise fun earlier later =>
      if settled (compare later.1 earlier.1) = .lt then GoesBefore compare later earlier
      else GoesBefore compare earlier later := by
  have hplaces : items.zipIdx.Pairwise fun earlier later => earlier.2 < later.2 := by
    refine List.pairwise_map.mp ?_
    rw [List.zipIdx_map_snd]
    exact List.pairwise_lt_range'
  refine hplaces.imp_of_mem ?_
  intro earlier later hearlier hlater hplace
  have hearlierItem : earlier.1 ∈ items := List.fst_mem_of_mem_zipIdx hearlier
  have hlaterItem : later.1 ∈ items := List.fst_mem_of_mem_zipIdx hlater
  obtain ⟨outcome, houtcome⟩ := hitems.answers _ hlaterItem _ hearlierItem
  have hback := hitems.swap _ hlaterItem _ hearlierItem _ houtcome
  rw [houtcome, settled]
  split
  · next hless => exact ⟨outcome, houtcome, by simp [hless], by simp [hless]⟩
  · next hless => exact ⟨outcome.swap, hback, by simpa using hless, fun _ => hplace⟩

end PreordersOn

section Insertion

theorem insertLast_perm (compare : α → α → Except Error Ordering) (item : α) (sorted : List α) :
    (insertLast compare item sorted).Perm (item :: sorted) := by
  induction sorted with
  | nil => exact .refl _
  | cons last rest ih =>
      rw [insertLast]
      split
      · exact (ih.cons last).trans (.swap item last rest)
      · exact .refl _

theorem exists_of_insertionFailure? {item : α} {error : Error}
    (hfailure : insertionFailure? compare item sorted = some error) :
    ∃ other ∈ sorted, compare item other = .error error := by
  induction sorted with
  | nil => cases hfailure
  | cons last rest ih =>
      rw [insertionFailure?] at hfailure
      split at hfailure
      · next hlast =>
          cases hfailure
          exact ⟨last, List.mem_cons_self, hlast⟩
      · obtain ⟨other, hother, herror⟩ := ih hfailure
        exact ⟨other, List.mem_cons_of_mem last hother, herror⟩
      · cases hfailure

theorem pairwise_insertLast {before : α → α → Prop} {item : α}
    (htrans : ∀ first ∈ sorted, ∀ middle ∈ sorted,
      before first middle → before middle item → before first item)
    (hsorted : sorted.Pairwise fun later earlier => before earlier later)
    (hitem : ∀ other ∈ sorted,
      if settled (compare item other) = .lt then before item other else before other item) :
    (insertLast compare item sorted).Pairwise fun later earlier => before earlier later := by
  induction sorted with
  | nil => exact List.pairwise_singleton _ _
  | cons last rest ih =>
      obtain ⟨hlast, hrest⟩ := List.pairwise_cons.mp hsorted
      have hhere := hitem last (by simp)
      rw [insertLast]
      split at hhere
      · next hless =>
          rw [if_pos hless]
          refine List.pairwise_cons.mpr ⟨?_, ih ?_ hrest ?_⟩
          · intro other hother
            rcases List.mem_cons.mp ((insertLast_perm compare item rest).mem_iff.mp hother) with
              rfl | hother
            · exact hhere
            · exact hlast other hother
          · intro first hfirst middle hmiddle
            exact htrans first (by simp [hfirst]) middle (by simp [hmiddle])
          · exact fun other hother => hitem other (by simp [hother])
      · next hless =>
          rw [if_neg hless]
          refine List.pairwise_cons.mpr ⟨?_, hsorted⟩
          intro other hother
          rcases List.mem_cons.mp hother with rfl | hother
          · exact hhere
          · exact htrans other (by simp [hother]) last (by simp) (hlast other hother) hhere

variable {compareItems : β → β → Except Error Ordering} {part : β → α} {item : β}
  {sortedItems : List β}

theorem insertLast_map
    (hpart : ∀ other ∈ sortedItems,
      compare (part item) (part other) = compareItems item other) :
    insertLast compare (part item) (sortedItems.map part) =
      (insertLast compareItems item sortedItems).map part := by
  induction sortedItems with
  | nil => rfl
  | cons last rest ih =>
      have hrest := ih fun other hother => hpart other (by simp [hother])
      rw [List.map_cons, insertLast, insertLast, hpart last (by simp)]
      split
      · rw [List.map_cons, hrest]
      · rfl

theorem insertionFailure?_map
    (hpart : ∀ other ∈ sortedItems,
      compare (part item) (part other) = compareItems item other) :
    insertionFailure? compare (part item) (sortedItems.map part) =
      insertionFailure? compareItems item sortedItems := by
  induction sortedItems with
  | nil => rfl
  | cons last rest ih =>
      have hrest := ih fun other hother => hpart other (by simp [hother])
      rw [List.map_cons, insertionFailure?, insertionFailure?, hpart last (by simp), hrest]

end Insertion

/-- Sorting as far as it has come with some items. -/
def sortedSoFar (compare : α → α → Except Error Ordering) (items : List α) :
    List α × Option Error :=
  items.foldl (insertNext compare) ([], none)

theorem sortedSoFar_concat (item : α) :
    sortedSoFar compare (items ++ [item]) =
      insertNext compare (sortedSoFar compare items) item := by
  simp [sortedSoFar]

theorem sortedSoFar_perm (compare : α → α → Except Error Ordering) (items : List α) :
    (sortedSoFar compare items).1.Perm items := by
  induction items using List.reverseRecOn with
  | nil => exact .refl _
  | append_singleton items item ih =>
      rw [sortedSoFar_concat, insertNext]
      exact (insertLast_perm compare item _).trans
        ((ih.cons item).trans (List.perm_append_singleton item items).symm)

theorem exists_of_snd_sortedSoFar {error : Error}
    (hfailure : (sortedSoFar compare items).2 = some error) :
    ∃ left ∈ items, ∃ right ∈ items, compare left right = .error error := by
  induction items using List.reverseRecOn with
  | nil => cases hfailure
  | append_singleton items item ih =>
      rw [sortedSoFar_concat, insertNext, Option.or_eq_some_iff] at hfailure
      rcases hfailure with hearlier | ⟨-, hitem⟩
      · obtain ⟨left, hleft, right, hright, hcompare⟩ := ih hearlier
        exact ⟨left, List.mem_append_left _ hleft, right, List.mem_append_left _ hright, hcompare⟩
      · obtain ⟨other, hother, hcompare⟩ := exists_of_insertionFailure? hitem
        have hmem := (sortedSoFar_perm compare items).mem_iff.mp hother
        exact ⟨item, by simp, other, List.mem_append_left _ hmem, hcompare⟩

theorem snd_sortedSoFar_eq_none
    (hanswers : ∀ left ∈ items, ∀ right ∈ items, ∃ outcome, compare left right = .ok outcome) :
    (sortedSoFar compare items).2 = none := by
  refine Option.eq_none_iff_forall_ne_some.mpr fun error hfailure => ?_
  obtain ⟨left, hleft, right, hright, herror⟩ := exists_of_snd_sortedSoFar hfailure
  obtain ⟨outcome, houtcome⟩ := hanswers left hleft right hright
  cases herror.symm.trans houtcome

theorem exists_of_sortBy_eq_error {error : Error} (herror : sortBy compare items = .error error) :
    ∃ left ∈ items, ∃ right ∈ items, compare left right = .error error := by
  rw [sortBy] at herror
  split at herror
  · next sorted other hsorted =>
      cases herror
      exact exists_of_snd_sortedSoFar (congrArg Prod.snd hsorted)
  · cases herror

theorem sortBy_eq_ok
    (hanswers : ∀ left ∈ items, ∀ right ∈ items, ∃ outcome, compare left right = .ok outcome) :
    sortBy compare items = .ok (sortedSoFar compare items).1.reverse := by
  have hsorted : items.foldl (insertNext compare) ([], none) =
      ((sortedSoFar compare items).1, none) :=
    Prod.ext rfl (snd_sortedSoFar_eq_none hanswers)
  rw [sortBy, hsorted]

theorem pairwise_sortedSoFar {before : α → α → Prop}
    (htrans : ∀ first ∈ items, ∀ middle ∈ items, ∀ last ∈ items,
      before first middle → before middle last → before first last)
    (hitems : items.Pairwise fun earlier later =>
      if settled (compare later earlier) = .lt then before later earlier
      else before earlier later) :
    (sortedSoFar compare items).1.Pairwise fun later earlier => before earlier later := by
  induction items using List.reverseRecOn with
  | nil => exact .nil
  | append_singleton items item ih =>
      obtain ⟨hearlier, -, hitem⟩ := List.pairwise_append.mp hitems
      have hmem : ∀ other ∈ (sortedSoFar compare items).1, other ∈ items :=
        fun other => (sortedSoFar_perm compare items).mem_iff.mp
      rw [sortedSoFar_concat, insertNext]
      refine pairwise_insertLast ?_ (ih ?_ hearlier) ?_
      · intro first hfirst middle hmiddle
        exact htrans first (by simp [hmem first hfirst]) middle (by simp [hmem middle hmiddle])
          item (by simp)
      · intro first hfirst middle hmiddle last hlast
        exact htrans first (by simp [hfirst]) middle (by simp [hmiddle]) last (by simp [hlast])
      · exact fun other hother => hitem other (hmem other hother) item (by simp)

section Parts

variable {compareItems : β → β → Except Error Ordering} {part : β → α} {wholes : List β}

theorem sortedSoFar_map
    (hpart : ∀ left ∈ wholes, ∀ right ∈ wholes,
      compare (part left) (part right) = compareItems left right) :
    sortedSoFar compare (wholes.map part) =
      ((sortedSoFar compareItems wholes).1.map part, (sortedSoFar compareItems wholes).2) := by
  induction wholes using List.reverseRecOn with
  | nil => rfl
  | append_singleton wholes item ih =>
      have hearlier := ih fun left hleft right hright =>
        hpart left (by simp [hleft]) right (by simp [hright])
      have hitem : ∀ other ∈ (sortedSoFar compareItems wholes).1,
          compare (part item) (part other) = compareItems item other := by
        intro other hother
        have hmem := (sortedSoFar_perm compareItems wholes).mem_iff.mp hother
        exact hpart item (by simp) other (by simp [hmem])
      rw [List.map_append, List.map_singleton, sortedSoFar_concat, sortedSoFar_concat, hearlier,
        insertNext, insertNext, insertLast_map hitem, insertionFailure?_map hitem]

theorem isStableSort_sortedSoFar (hitems : PreordersOn compare items) :
    IsStableSort compare items (sortedSoFar compare items).1.reverse := by
  have hplaces : ∀ place ∈ items.zipIdx, place.1 ∈ items :=
    fun _ => List.fst_mem_of_mem_zipIdx
  refine ⟨(sortedSoFar (fun left right => compare left.1 right.1) items.zipIdx).1.reverse,
    (List.reverse_perm _).trans (sortedSoFar_perm _ _), ?_, ?_⟩
  · have hmap : sortedSoFar compare (items.zipIdx.map Prod.fst) =
        ((sortedSoFar (fun left right => compare left.1 right.1) items.zipIdx).1.map Prod.fst, _) :=
      sortedSoFar_map fun _ _ _ _ => rfl
    rw [List.zipIdx_map_fst] at hmap
    rw [hmap, List.map_reverse]
  · refine List.pairwise_reverse.mpr (pairwise_sortedSoFar ?_ hitems.pairwise_zipIdx)
    intro first hfirst middle hmiddle last hlast
    exact hitems.goesBefore_trans (hplaces first hfirst) (hplaces middle hmiddle)
      (hplaces last hlast)

/-- Where items are compared by parts of them, sorting the parts gives the parts of the sorted items,
and these are the one stable sort of the parts. -/
theorem sortBy_map (hwholes : PreordersOn compareItems wholes)
    (hpart : ∀ left ∈ wholes, ∀ right ∈ wholes,
      compare (part left) (part right) = compareItems left right) :
    sortBy compare (wholes.map part) =
        .ok ((sortedSoFar compareItems wholes).1.reverse.map part) ∧
      ∀ others, IsStableSort compare (wholes.map part) others ↔
        others = (sortedSoFar compareItems wholes).1.reverse.map part := by
  have hparts : PreordersOn compare (wholes.map part) := hwholes.map hpart
  have hsorted : (sortedSoFar compare (wholes.map part)).1.reverse =
      (sortedSoFar compareItems wholes).1.reverse.map part := by
    rw [sortedSoFar_map hpart, List.map_reverse]
  rw [← hsorted]
  refine ⟨sortBy_eq_ok hparts.answers, fun others => ⟨fun hothers => ?_, ?_⟩⟩
  · exact hparts.eq_of_isStableSort hothers (isStableSort_sortedSoFar hparts)
  · rintro rfl
    exact isStableSort_sortedSoFar hparts

end Parts

end RecordRollup
