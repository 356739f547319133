import Mathlib
import RecordRollup.Plan.RecordOrder
import RecordRollup.Proofs.Outcome

namespace RecordRollup

theorem compare_eq_then {α : Type} {cmp : α → α → Ordering} [Std.TransCmp cmp]
    {first middle last : α} (hlower : cmp first middle ≠ .gt) (hupper : cmp middle last ≠ .gt) :
    cmp first last = (cmp first middle).then (cmp middle last) := by
  cases hfirst : cmp first middle with
  | lt =>
      exact Std.TransCmp.lt_of_lt_of_isLE hfirst (Ordering.isLE_iff_ne_gt.mpr hupper)
  | eq => exact Std.TransCmp.congr_left hfirst
  | gt => exact absurd hfirst hlower

namespace Direction

instance {α : Type} {cmp : α → α → Ordering} [Std.TransCmp cmp] (direction : Direction) :
    Std.TransCmp fun left right => direction.apply (cmp left right) := by
  cases direction with
  | ascending => exact inferInstanceAs (Std.TransCmp cmp)
  | descending =>
      have hswap : (fun left right => descending.apply (cmp left right)) =
          fun left right => cmp right left := by
        funext left right
        exact Std.OrientedCmp.eq_swap.symm
      rw [hswap]
      infer_instance

end Direction

namespace SortElement

/-- The order of two values under an element, with its direction. -/
def order (element : SortElement) (left right : Value) : Ordering :=
  element.direction.apply (element.compareValues left right)

theorem transCmp_order {element : SortElement}
    (hordered : ∀ named ∈ element.comparator, Std.TransCmp named.comparator.compareValues) :
    Std.TransCmp element.order := by
  have hvalues : Std.TransCmp element.compareValues := by
    rcases hcomparator : element.comparator with _ | named
    · have hnatural : element.compareValues = Ord.compare := by
        funext left right
        simp only [compareValues, hcomparator]
      rw [hnatural]
      infer_instance
    · have hcustom : element.compareValues = named.comparator.compareValues := by
        funext left right
        simp only [compareValues, hcomparator]
      rw [hcustom]
      exact hordered named hcomparator
  exact inferInstanceAs (Std.TransCmp fun left right => element.direction.apply _)

end SortElement

variable {elements rest : List SortElement} {element : SortElement}
  {first middle last left right : Record} {outcome lower upper : Ordering}

theorem compareAlong_cons {leftValue rightValue : Value}
    (hleft : left.getNamed element.name = .ok leftValue)
    (hright : right.getNamed element.name = .ok rightValue) :
    compareAlong (element :: rest) left right =
      if element.order leftValue rightValue = .eq then compareAlong rest left right
      else .ok (element.order leftValue rightValue) := by
  simp only [compareAlong, hleft, hright, bind, Except.bind, SortElement.order,
    Direction.apply_eq_eq]
  split
  · next htie => rw [if_pos htie]
  · next hdiffer => rw [if_neg hdiffer]; rfl

theorem compareAlong_cons_eq_ok_iff :
    compareAlong (element :: rest) left right = .ok outcome ↔
      ∃ leftValue rightValue, left.getNamed element.name = .ok leftValue ∧
        right.getNamed element.name = .ok rightValue ∧
        (element.order leftValue rightValue = .eq ∧ compareAlong rest left right = .ok outcome ∨
          element.order leftValue rightValue = outcome ∧ outcome ≠ .eq) := by
  constructor
  · intro houtcome
    obtain ⟨leftValue, hleft, hright⟩ := bind_eq_ok_iff.mp houtcome
    obtain ⟨rightValue, hright, -⟩ := bind_eq_ok_iff.mp hright
    refine ⟨leftValue, rightValue, hleft, hright, ?_⟩
    rw [compareAlong_cons hleft hright] at houtcome
    split at houtcome
    · next htie => exact .inl ⟨htie, houtcome⟩
    · next hdiffer =>
        obtain rfl := Except.ok.inj houtcome
        exact .inr ⟨rfl, hdiffer⟩
  · rintro ⟨leftValue, rightValue, hleft, hright, ⟨htie, hrest⟩ | ⟨rfl, hdiffer⟩⟩
    · rw [compareAlong_cons hleft hright, if_pos htie, hrest]
    · rw [compareAlong_cons hleft hright, if_neg hdiffer]

theorem sharedAlong_cons {leftValue rightValue : Value}
    (hleft : left.getNamed element.name = .ok leftValue)
    (hright : right.getNamed element.name = .ok rightValue) :
    sharedAlong (element :: rest) left right =
      if element.order leftValue rightValue = .eq then
        (sharedAlong rest left right).map (· + 1)
      else .ok 0 := by
  simp only [sharedAlong, hleft, hright, bind, Except.bind, SortElement.order,
    Direction.apply_eq_eq]
  split
  · next htie =>
      rw [if_pos htie]
      cases sharedAlong rest left right <;> rfl
  · next hdiffer => rw [if_neg hdiffer]; rfl

theorem sharedAlong_cons_eq_ok_iff {shared : Nat} :
    sharedAlong (element :: rest) left right = .ok shared ↔
      ∃ leftValue rightValue, left.getNamed element.name = .ok leftValue ∧
        right.getNamed element.name = .ok rightValue ∧
        (element.order leftValue rightValue = .eq ∧
            (∃ others, sharedAlong rest left right = .ok others ∧ others + 1 = shared) ∨
          element.order leftValue rightValue ≠ .eq ∧ shared = 0) := by
  constructor
  · intro hshared
    obtain ⟨leftValue, hleft, hright⟩ := bind_eq_ok_iff.mp hshared
    obtain ⟨rightValue, hright, -⟩ := bind_eq_ok_iff.mp hright
    refine ⟨leftValue, rightValue, hleft, hright, ?_⟩
    rw [sharedAlong_cons hleft hright] at hshared
    split at hshared
    · next htie => exact .inl ⟨htie, map_eq_ok_iff.mp hshared⟩
    · next hdiffer => exact .inr ⟨hdiffer, (Except.ok.inj hshared).symm⟩
  · rintro ⟨leftValue, rightValue, hleft, hright, ⟨htie, hrest⟩ | ⟨hdiffer, rfl⟩⟩
    · rw [sharedAlong_cons hleft hright, if_pos htie]
      exact map_eq_ok_iff.mpr hrest
    · rw [sharedAlong_cons hleft hright, if_neg hdiffer]

theorem sharedAlong_take {shared : Nat} (hshared : sharedAlong elements left right = .ok shared)
    (count : Nat) : sharedAlong (elements.take count) left right = .ok (min count shared) := by
  induction elements generalizing shared count with
  | nil =>
      obtain rfl := Except.ok.inj hshared
      rw [List.take_nil, Nat.min_zero]
      rfl
  | cons element elements ih =>
      rcases count with _ | count
      · rw [List.take_zero, Nat.zero_min]
        rfl
      · obtain ⟨leftValue, rightValue, hleft, hright, hdecided⟩ :=
          sharedAlong_cons_eq_ok_iff.mp hshared
        rw [List.take_succ_cons]
        refine sharedAlong_cons_eq_ok_iff.mpr ⟨leftValue, rightValue, hleft, hright, ?_⟩
        rcases hdecided with ⟨htie, others, hothers, rfl⟩ | ⟨hdiffer, rfl⟩
        · exact .inl ⟨htie, _, ih hothers count, by omega⟩
        · exact .inr ⟨hdiffer, Nat.min_zero _⟩

theorem sharedAlong_le {shared : Nat} (hshared : sharedAlong elements left right = .ok shared) :
    shared ≤ elements.length := by
  have htake := sharedAlong_take hshared elements.length
  rw [List.take_length, hshared, Except.ok.injEq] at htake
  exact htake ▸ Nat.min_le_left _ _

theorem sharedAlong_eq_length_iff :
    sharedAlong elements left right = .ok elements.length ↔
      compareAlong elements left right = .ok .eq := by
  induction elements with
  | nil => exact ⟨fun _ => rfl, fun _ => rfl⟩
  | cons element elements ih =>
      rw [sharedAlong_cons_eq_ok_iff, compareAlong_cons_eq_ok_iff, ← ih]
      simp

theorem exists_sharedAlong (houtcome : compareAlong elements left right = .ok outcome) :
    ∃ shared, sharedAlong elements left right = .ok shared := by
  induction elements with
  | nil => exact ⟨0, rfl⟩
  | cons element elements ih =>
      obtain ⟨leftValue, rightValue, hleft, hright, hdecided⟩ :=
        compareAlong_cons_eq_ok_iff.mp houtcome
      rw [sharedAlong_cons hleft hright]
      rcases hdecided with ⟨htie, hrest⟩ | ⟨rfl, hdiffer⟩
      · obtain ⟨shared, hshared⟩ := ih hrest
        rw [if_pos htie, hshared]
        exact ⟨shared + 1, rfl⟩
      · rw [if_neg hdiffer]
        exact ⟨0, rfl⟩

theorem compareAlong_take (houtcome : compareAlong elements left right = .ok outcome)
    (count : Nat) : compareAlong (elements.take count) left right = .ok outcome ∨
      compareAlong (elements.take count) left right = .ok .eq := by
  induction elements generalizing count with
  | nil => exact .inl (by rwa [List.take_nil])
  | cons element elements ih =>
      rcases count with _ | count
      · exact .inr rfl
      · obtain ⟨leftValue, rightValue, hleft, hright, hdecided⟩ :=
          compareAlong_cons_eq_ok_iff.mp houtcome
        rw [List.take_succ_cons, compareAlong_cons hleft hright]
        rcases hdecided with ⟨htie, hrest⟩ | ⟨rfl, hdiffer⟩
        · rw [if_pos htie]
          exact ih hrest count
        · exact .inl (if_neg hdiffer)

section Ordered

variable (hordered : ∀ element ∈ elements, Std.TransCmp element.order)

include hordered

theorem compareAlong_swap (houtcome : compareAlong elements left right = .ok outcome) :
    compareAlong elements right left = .ok outcome.swap := by
  induction elements with
  | nil =>
      obtain rfl := Except.ok.inj houtcome
      rfl
  | cons element elements ih =>
      have helement := hordered element (by simp)
      obtain ⟨leftValue, rightValue, hleft, hright, hdecided⟩ :=
        compareAlong_cons_eq_ok_iff.mp houtcome
      refine compareAlong_cons_eq_ok_iff.mpr ⟨rightValue, leftValue, hright, hleft, ?_⟩
      have hswap : element.order rightValue leftValue =
          (element.order leftValue rightValue).swap := Std.OrientedCmp.eq_swap
      rw [hswap]
      rcases hdecided with ⟨htie, hrest⟩ | ⟨rfl, hdiffer⟩
      · left
        exact ⟨by rw [htie]; rfl, ih (fun other hother => hordered other (by simp [hother])) hrest⟩
      · right
        exact ⟨rfl, by simpa using hdiffer⟩

theorem compareAlong_trans (hlower : compareAlong elements first middle = .ok lower)
    (hupper : compareAlong elements middle last = .ok upper) (hlowerUp : lower ≠ .gt)
    (hupperUp : upper ≠ .gt) : compareAlong elements first last = .ok (lower.then upper) := by
  induction elements with
  | nil =>
      obtain rfl := Except.ok.inj hlower
      obtain rfl := Except.ok.inj hupper
      rfl
  | cons element elements ih =>
      have helement := hordered element (by simp)
      obtain ⟨firstValue, middleValue, hfirst, hmiddle, hlower⟩ :=
        compareAlong_cons_eq_ok_iff.mp hlower
      obtain ⟨middleValue', lastValue, hmiddle', hlast, hupper⟩ :=
        compareAlong_cons_eq_ok_iff.mp hupper
      obtain rfl : middleValue = middleValue' := by simpa [hmiddle] using hmiddle'
      refine compareAlong_cons_eq_ok_iff.mpr ⟨firstValue, lastValue, hfirst, hlast, ?_⟩
      have hacross : element.order firstValue middleValue ≠ .gt →
          element.order middleValue lastValue ≠ .gt → element.order firstValue lastValue =
            (element.order firstValue middleValue).then (element.order middleValue lastValue) :=
        compare_eq_then
      rcases hlower with ⟨hlowerTie, hlowerRest⟩ | ⟨hlowerHere, hlowerDiffer⟩
      · rcases hupper with ⟨hupperTie, hupperRest⟩ | ⟨rfl, hupperDiffer⟩
        · left
          rw [hacross (by simp [hlowerTie]) (by simp [hupperTie]), hlowerTie]
          exact ⟨hupperTie,
            ih (fun other hother => hordered other (by simp [hother])) hlowerRest hupperRest⟩
        · right
          rw [hacross (by simp [hlowerTie]) hupperUp, hlowerTie]
          cases lower <;> cases hupper : element.order middleValue lastValue <;> simp_all
      · right
        obtain rfl : lower = .lt := by cases lower <;> simp_all
        have hupperHere : element.order middleValue lastValue ≠ .gt := by
          rcases hupper with ⟨htie, -⟩ | ⟨rfl, -⟩
          · simp [htie]
          · exact hupperUp
        rw [hacross (by simp [hlowerHere]) hupperHere, hlowerHere]
        simp

end Ordered

/-- Records stand in order along elements if the first one does not come after the second one. -/
def InOrder (elements : List SortElement) (left right : Record) : Prop :=
  ∃ outcome, compareAlong elements left right = .ok outcome ∧ outcome ≠ .gt

namespace InOrder

theorem take (horder : InOrder elements left right) (count : Nat) :
    InOrder (elements.take count) left right := by
  obtain ⟨outcome, houtcome, hup⟩ := horder
  rcases compareAlong_take houtcome count with hsame | htie
  · exact ⟨outcome, hsame, hup⟩
  · exact ⟨.eq, htie, by simp⟩

section Ordered

variable (hordered : ∀ element ∈ elements, Std.TransCmp element.order)

include hordered

theorem trans (hlower : InOrder elements first middle) (hupper : InOrder elements middle last) :
    InOrder elements first last := by
  obtain ⟨lower, hlower, hlowerUp⟩ := hlower
  obtain ⟨upper, hupper, hupperUp⟩ := hupper
  refine ⟨lower.then upper, compareAlong_trans hordered hlower hupper hlowerUp hupperUp, ?_⟩
  cases lower <;> simp_all

theorem ties_of_tie (hlower : InOrder elements first middle) (hupper : InOrder elements middle last)
    (htie : compareAlong elements first last = .ok .eq) :
    compareAlong elements first middle = .ok .eq ∧ compareAlong elements middle last = .ok .eq := by
  obtain ⟨lower, hlower, hlowerUp⟩ := hlower
  obtain ⟨upper, hupper, hupperUp⟩ := hupper
  rw [compareAlong_trans hordered hlower hupper hlowerUp hupperUp, Except.ok.injEq,
    Ordering.then_eq_eq] at htie
  obtain ⟨rfl, rfl⟩ := htie
  exact ⟨hlower, hupper⟩

theorem tie_self (horder : InOrder elements first first) :
    compareAlong elements first first = .ok .eq := by
  obtain ⟨outcome, houtcome, hup⟩ := horder
  have hswap := compareAlong_swap hordered houtcome
  rw [houtcome, Except.ok.injEq] at hswap
  cases outcome with
  | eq => exact houtcome
  | lt | gt => exact absurd hswap (by decide)

end Ordered

end InOrder

namespace Plan

variable {plan : Plan}

theorem inOrder_of_compare (houtcome : plan.compare left right = .ok outcome)
    (hup : outcome ≠ .gt) : InOrder plan.common.elements left right := by
  obtain ⟨common, hcommon, hrest⟩ := bind_eq_ok_iff.mp houtcome
  cases common with
  | lt => exact ⟨.lt, hcommon, by simp⟩
  | eq => exact ⟨.eq, hcommon, by simp⟩
  | gt =>
      obtain rfl : .gt = outcome := Except.ok.inj hrest
      exact absurd rfl hup

theorem transCmp_order
    (hordered : ∀ key ∈ plan.keys, ∀ named ∈ key.comparator,
      Std.TransCmp named.comparator.compareValues) :
    ∀ element ∈ plan.common.elements, Std.TransCmp element.order := by
  intro element helement
  obtain ⟨key, hkey, rfl⟩ := List.mem_map.mp helement
  exact SortElement.transCmp_order (hordered key hkey)

end Plan

theorem Value.compare_of_content {left right : Value} {content : Bytes}
    (hleft : left.content? = some content) (hright : right.content? = none) :
    Ord.compare left right = .gt := by
  cases left <;> cases hleft <;> cases right <;> first | rfl | cases hright

theorem Comparator.transCmp_ofContent (compareContent : Bytes → Bytes → Ordering)
    [Std.TransCmp compareContent] : Std.TransCmp (ofContent compareContent).compareValues where
  eq_swap := by
    intro left right
    simp only [ofContent]
    cases left.content? <;> cases right.content?
    case some.some => exact Std.OrientedCmp.eq_swap
    all_goals exact Std.OrientedOrd.eq_swap
  isLE_trans := by
    intro first middle last hlower hupper
    simp only [ofContent] at hlower hupper ⊢
    rcases hfirst : first.content? with _ | firstContent <;>
      rcases hmiddle : middle.content? with _ | middleContent <;>
        rcases hlast : last.content? with _ | lastContent <;>
          simp only [hfirst, hmiddle, hlast] at hlower hupper ⊢
    case some.some.some => exact Std.TransCmp.isLE_trans hlower hupper
    case none.some.some =>
      have hless := Std.OrientedCmp.gt_iff_lt.mp (Value.compare_of_content hlast hfirst)
      rw [hless]
      rfl
    case some.none.some => simp [Value.compare_of_content hfirst hmiddle] at hlower
    case some.some.none => simp [Value.compare_of_content hmiddle hlast] at hupper
    all_goals exact Std.TransCmp.isLE_trans hlower hupper

end RecordRollup
