import Mathlib
import RecordRollup.Proofs.Plan.Comparability

/-!
How many leading keys records share, and what this says about their order. Counting shared keys and
comparing are two walks along the same keys, and both end at the first key that tells the records
apart.
-/

namespace RecordRollup

variable {elements : List SortElement} {first middle last left right : Record}
  {count shared lower upper across : Nat}

theorem compareAlong_take_eq_tie_iff (hshared : sharedAlong elements left right = .ok shared)
    (hcount : count ≤ elements.length) :
    compareAlong (elements.take count) left right = .ok .eq ↔ count ≤ shared := by
  have htake := sharedAlong_take hshared count
  rw [← sharedAlong_eq_length_iff, List.length_take_of_le hcount, htake, Except.ok.injEq]
  exact min_eq_left_iff

theorem exists_deciding_element (hshared : sharedAlong elements left right = .ok shared)
    (hless : shared < elements.length) :
    ∃ element leftValue rightValue, elements[shared]? = some element ∧
      left.getNamed element.name = .ok leftValue ∧
      right.getNamed element.name = .ok rightValue ∧
      element.order leftValue rightValue ≠ .eq ∧
      compareAlong elements left right = .ok (element.order leftValue rightValue) := by
  induction elements generalizing shared with
  | nil => exact absurd hless (Nat.not_lt_zero shared)
  | cons element elements ih =>
      obtain ⟨leftValue, rightValue, hleft, hright, hdecided⟩ :=
        sharedAlong_cons_eq_ok_iff.mp hshared
      rw [compareAlong_cons hleft hright]
      rcases hdecided with ⟨htie, others, hothers, rfl⟩ | ⟨hdiffer, rfl⟩
      · rw [if_pos htie]
        exact ih hothers (Nat.lt_of_succ_lt_succ hless)
      · rw [if_neg hdiffer]
        exact ⟨element, leftValue, rightValue, rfl, hleft, hright, hdiffer, rfl⟩

section Ordered

variable (hordered : ∀ element ∈ elements, Std.TransCmp element.order)

include hordered

theorem sharedAlong_comm (hshared : sharedAlong elements left right = .ok shared) :
    sharedAlong elements right left = .ok shared := by
  induction elements generalizing shared with
  | nil => exact hshared
  | cons element elements ih =>
      have helement := hordered element List.mem_cons_self
      obtain ⟨leftValue, rightValue, hleft, hright, hdecided⟩ :=
        sharedAlong_cons_eq_ok_iff.mp hshared
      have hswap : element.order rightValue leftValue = .eq ↔
          element.order leftValue rightValue = .eq := Std.OrientedCmp.eq_comm
      refine sharedAlong_cons_eq_ok_iff.mpr ⟨rightValue, leftValue, hright, hleft, ?_⟩
      rcases hdecided with ⟨htie, others, hothers, rfl⟩ | ⟨hdiffer, rfl⟩
      · have hrest := ih (fun other hother => hordered other (List.mem_cons_of_mem _ hother)) hothers
        exact .inl ⟨hswap.mpr htie, others, hrest, rfl⟩
      · exact .inr ⟨mt hswap.mp hdiffer, rfl⟩

theorem min_le_sharedAlong (hlower : sharedAlong elements first middle = .ok lower)
    (hupper : sharedAlong elements middle last = .ok upper)
    (hacross : sharedAlong elements first last = .ok across) : min lower upper ≤ across := by
  have hcount : min lower upper ≤ elements.length :=
    (min_le_left lower upper).trans (sharedAlong_le hlower)
  have hbelow := (compareAlong_take_eq_tie_iff hlower hcount).mpr (min_le_left lower upper)
  have habove := (compareAlong_take_eq_tie_iff hupper hcount).mpr (min_le_right lower upper)
  rw [← compareAlong_take_eq_tie_iff hacross hcount]
  exact compareAlong_trans (fun element helement => hordered element (List.mem_of_mem_take helement))
    hbelow habove (by simp) (by simp)

theorem sharedAlong_eq_min (hlowerUp : InOrder elements first middle)
    (hupperUp : InOrder elements middle last)
    (hlower : sharedAlong elements first middle = .ok lower)
    (hupper : sharedAlong elements middle last = .ok upper)
    (hacross : sharedAlong elements first last = .ok across) : across = min lower upper := by
  have hcount := sharedAlong_le hacross
  have htie := (compareAlong_take_eq_tie_iff hacross hcount).mpr le_rfl
  obtain ⟨hbelow, habove⟩ := InOrder.ties_of_tie
    (fun element helement => hordered element (List.mem_of_mem_take helement))
    (hlowerUp.take across) (hupperUp.take across) htie
  apply le_antisymm
  · exact le_min ((compareAlong_take_eq_tie_iff hlower hcount).mp hbelow)
      ((compareAlong_take_eq_tie_iff hupper hcount).mp habove)
  · exact min_le_sharedAlong hordered hlower hupper hacross

end Ordered

namespace Plan

variable {plan : Plan}

theorem sharedKeys_eq_sharedAlong (hcount : count ≤ plan.keys.length) :
    plan.sharedKeys left right count =
      sharedAlong (plan.common.elements.take count) left right :=
  if_pos hcount

theorem sharedKeys_le (hcount : count ≤ plan.keys.length)
    (hshared : plan.sharedKeys left right count = .ok shared) : shared ≤ count := by
  rw [sharedKeys_eq_sharedAlong hcount] at hshared
  exact (sharedAlong_le hshared).trans (List.length_take_le _ _)

theorem sharedKeys_of_le (hcount : count ≤ plan.keys.length)
    (hshared : plan.sharedKeys left right count = .ok shared) {fewer : Nat}
    (hfewer : fewer ≤ count) : plan.sharedKeys left right fewer = .ok (min fewer shared) := by
  rw [sharedKeys_eq_sharedAlong hcount] at hshared
  have htake := sharedAlong_take hshared fewer
  rwa [List.take_take, Nat.min_eq_left hfewer,
    ← sharedKeys_eq_sharedAlong (hfewer.trans hcount)] at htake

theorem sharedKeys_all (plan : Plan) (left right : Record) :
    plan.sharedKeys left right plan.keys.length = sharedAlong plan.common.elements left right := by
  have hlength : plan.common.elements.length = plan.keys.length := List.length_map _
  rw [sharedKeys_eq_sharedAlong le_rfl, ← hlength, List.take_length]

theorem not_mem_names_of_tieBreakers? {elements : List SortElement}
    (helements : plan.tieBreakers? left = some elements) :
    ∀ element ∈ elements, element.name ∉ plan.common.names := by
  intro element helement hname
  rw [tieBreakers?] at helements
  split at helements
  · obtain ⟨source, hsource, rfl⟩ := Option.map_eq_some_iff.mp helements
    obtain ⟨id, -, hfound⟩ := Option.bind_eq_some_iff.mp hsource
    obtain ⟨key, hkey, rfl⟩ := List.mem_map.mp helement
    obtain ⟨-, -, hnew⟩ :=
      plan.consistent.specific_mem source (source?_eq_some_iff.mp hfound).1 key hkey
    simp only [Criteria.names, common, List.map_map, List.mem_map, Function.comp_apply] at hname
    obtain ⟨common, hcommon, heq⟩ := hname
    exact hnew common hcommon heq.symm
  · cases helements
    cases helement

theorem exists_deciding_key (hshared : plan.sharedKeys left right plan.keys.length = .ok shared)
    (hless : shared < plan.keys.length) :
    ∃ key leftValue rightValue, plan.keys[shared]? = some key ∧
      left.getNamed key.name = .ok leftValue ∧ right.getNamed key.name = .ok rightValue ∧
      key.direction.apply (key.compareValues leftValue rightValue) ≠ .eq ∧
      plan.compare left right =
        .ok (key.direction.apply (key.compareValues leftValue rightValue)) := by
  rw [sharedKeys_all] at hshared
  obtain ⟨element, leftValue, rightValue, helement, hleft, hright, hdiffer, houtcome⟩ :=
    exists_deciding_element hshared (by simpa [common] using hless)
  rw [common, List.getElem?_map, Option.map_eq_some_iff] at helement
  obtain ⟨key, hkey, rfl⟩ := helement
  exact ⟨key, leftValue, rightValue, hkey, hleft, hright, hdiffer, compare_of_differ houtcome hdiffer⟩

theorem compare_of_sharedKeys (hshared : plan.sharedKeys left right plan.keys.length =
      .ok plan.keys.length) :
    (∀ key ∈ plan.keys, ∃ leftValue rightValue, left.getNamed key.name = .ok leftValue ∧
      right.getNamed key.name = .ok rightValue ∧
      key.compareValues leftValue rightValue = .eq) ∧
    ∀ outcome, plan.compare left right = .ok outcome ↔
      ∃ elements, plan.tieBreakers? left = some elements ∧
        (∀ element ∈ elements, element.name ∉ plan.common.names) ∧
        compareAlong elements left right = .ok outcome := by
  have hlength : plan.common.elements.length = plan.keys.length := List.length_map _
  rw [sharedKeys_all, ← hlength, sharedAlong_eq_length_iff] at hshared
  constructor
  · intro key hkey
    exact compareValues_of_compareAlong hshared (List.mem_map_of_mem hkey)
  · intro outcome
    rw [compare_eq_ok_iff]
    constructor
    · rintro (⟨hcommon, hdiffer⟩ | ⟨-, elements, helements, houtcome⟩)
      · rw [hshared, Except.ok.injEq] at hcommon
        exact absurd hcommon.symm hdiffer
      · exact ⟨elements, helements, not_mem_names_of_tieBreakers? helements, houtcome⟩
    · rintro ⟨elements, helements, -, houtcome⟩
      exact .inr ⟨hshared, elements, helements, houtcome⟩

section Ordered

variable (hordered : ∀ key ∈ plan.keys, ∀ named ∈ key.comparator,
  Std.TransCmp named.comparator.compareValues)

include hordered

theorem transCmp_order_take (count : Nat) :
    ∀ element ∈ plan.common.elements.take count, Std.TransCmp element.order :=
  fun element helement => transCmp_order hordered element (List.mem_of_mem_take helement)

theorem sharedKeys_comm (hcount : count ≤ plan.keys.length)
    (hshared : plan.sharedKeys left right count = .ok shared) :
    plan.sharedKeys right left count = .ok shared := by
  rw [sharedKeys_eq_sharedAlong hcount] at hshared ⊢
  exact sharedAlong_comm (transCmp_order_take hordered count) hshared

/-- Three records share keys as points of an ultrametric do, and if they are in order, the outer ones
share what the lesser of the two inner counts says. -/
theorem exists_sharedKeys_across (hfirst : plan.HasKeys first) (hmiddle : plan.HasKeys middle)
    (hlast : plan.HasKeys last) (hcount : count ≤ plan.keys.length) :
    ∃ lower upper across, plan.sharedKeys first middle count = .ok lower ∧
      plan.sharedKeys middle last count = .ok upper ∧
      plan.sharedKeys first last count = .ok across ∧ min lower upper ≤ across ∧
      ((∃ outcome, plan.compare first middle = .ok outcome ∧ outcome ≠ .gt) →
        (∃ outcome, plan.compare middle last = .ok outcome ∧ outcome ≠ .gt) →
          across = min lower upper) := by
  obtain ⟨lower, hlower⟩ := exists_sharedKeys hfirst hmiddle hcount
  obtain ⟨upper, hupper⟩ := exists_sharedKeys hmiddle hlast hcount
  obtain ⟨across, hacross⟩ := exists_sharedKeys hfirst hlast hcount
  refine ⟨lower, upper, across, hlower, hupper, hacross, ?_, ?_⟩
  all_goals rw [sharedKeys_eq_sharedAlong hcount] at hlower hupper hacross
  · exact min_le_sharedAlong (transCmp_order_take hordered count) hlower hupper hacross
  · rintro ⟨below, hbelow, hbelowUp⟩ ⟨above, habove, haboveUp⟩
    exact sharedAlong_eq_min (transCmp_order_take hordered count)
      ((inOrder_of_compare hbelow hbelowUp).take count)
      ((inOrder_of_compare habove haboveUp).take count) hlower hupper hacross

end Ordered

/-- Counting shared keys does not depend on which record comes first, and counting among fewer keys
gives the same as far as these go. Of three records, two share what they both share with the third, and
no more if the third one stands between them. The first key that is not shared decides the order of the
records, and if all keys are shared, no common key does. More keys than there are cannot be counted. -/
theorem sharedKeys_laws (plan : Plan) :
    ((∀ key ∈ plan.keys, ∀ named ∈ key.comparator,
        Std.TransCmp named.comparator.compareValues) →
      ∀ first middle last, plan.HasKeys first → plan.HasKeys middle → plan.HasKeys last →
      ∀ count ≤ plan.keys.length,
        (∃ shared ≤ count, plan.sharedKeys first middle count = .ok shared ∧
          plan.sharedKeys middle first count = .ok shared ∧
          ∀ fewer ≤ count, plan.sharedKeys first middle fewer = .ok (min fewer shared)) ∧
        ∃ lower upper across, plan.sharedKeys first middle count = .ok lower ∧
          plan.sharedKeys middle last count = .ok upper ∧
          plan.sharedKeys first last count = .ok across ∧ min lower upper ≤ across ∧
          ((∃ outcome, plan.compare first middle = .ok outcome ∧ outcome ≠ .gt) →
            (∃ outcome, plan.compare middle last = .ok outcome ∧ outcome ≠ .gt) →
              across = min lower upper)) ∧
    (∀ left right shared, plan.sharedKeys left right plan.keys.length = .ok shared →
      shared < plan.keys.length →
        ∃ key leftValue rightValue, plan.keys[shared]? = some key ∧
          left.getNamed key.name = .ok leftValue ∧ right.getNamed key.name = .ok rightValue ∧
          key.direction.apply (key.compareValues leftValue rightValue) ≠ .eq ∧
          plan.compare left right =
            .ok (key.direction.apply (key.compareValues leftValue rightValue))) ∧
    (∀ left right, plan.sharedKeys left right plan.keys.length = .ok plan.keys.length →
      (∀ key ∈ plan.keys, ∃ leftValue rightValue, left.getNamed key.name = .ok leftValue ∧
        right.getNamed key.name = .ok rightValue ∧
        key.compareValues leftValue rightValue = .eq) ∧
      ∀ outcome, plan.compare left right = .ok outcome ↔
        ∃ elements, plan.tieBreakers? left = some elements ∧
          (∀ element ∈ elements, element.name ∉ plan.common.names) ∧
          compareAlong elements left right = .ok outcome) ∧
    ∀ left right count, plan.keys.length < count →
      plan.sharedKeys left right count =
        .error (.internal (.sharedFields count plan.keys.length)) := by
  refine ⟨?_, ?_, ?_, ?_⟩
  · intro hordered first middle last hfirst hmiddle hlast count hcount
    obtain ⟨shared, hshared⟩ := exists_sharedKeys hfirst hmiddle hcount
    exact ⟨⟨shared, sharedKeys_le hcount hshared, hshared, sharedKeys_comm hordered hcount hshared,
      fun _ hfewer => sharedKeys_of_le hcount hshared hfewer⟩,
      exists_sharedKeys_across hordered hfirst hmiddle hlast hcount⟩
  · exact fun _ _ _ => exists_deciding_key
  · exact fun _ _ => compare_of_sharedKeys
  · exact fun _ _ _ hmore => if_neg (Nat.not_le.mpr hmore)

end Plan

namespace Sample

theorem hasKeys_click (user : String) (time : Int64) : plan.HasKeys (click user time) := by
  rw [Plan.HasKeys, keys_eq]
  intro key hkey
  rcases List.mem_pair.mp hkey with rfl | rfl
  · exact ⟨.string user, rfl⟩
  · exact ⟨.int (-3), rfl⟩

end Sample

namespace Plan

theorem sharedKeys_laws_clicks :
    Sample.plan.sharedKeys (Sample.click "ann" 4) (Sample.click "Ann" 5) 2 = .ok 2 ∧
      Sample.plan.sharedKeys (Sample.click "Ann" 5) (Sample.click "Bob" 9) 2 = .ok 0 ∧
      Sample.plan.compare (Sample.click "Bob" 9) (Sample.click "ann" 4) = .ok .gt ∧
      Sample.plan.sharedKeys (Sample.click "Ann" 5) (Sample.click "ann" 4) 3 =
        .error (.internal (.sharedFields 3 2)) := by
  have hlength : Sample.plan.keys.length = 2 := by
    rw [Sample.keys_eq]
    rfl
  have hsame : Sample.plan.sharedKeys (Sample.click "Ann" 5) (Sample.click "ann" 4) 2 = .ok 2 := by
    cbv
  have hother : Sample.plan.sharedKeys (Sample.click "ann" 4) (Sample.click "Bob" 9) 2 = .ok 0 := by
    cbv
  have hlower : Sample.plan.compare (Sample.click "Ann" 5) (Sample.click "ann" 4) = .ok .lt := by
    cbv
  have hupper : Sample.plan.compare (Sample.click "ann" 4) (Sample.click "Bob" 9) = .ok .lt := by
    cbv
  have hback : Sample.plan.sharedKeys (Sample.click "Bob" 9) (Sample.click "ann" 4) 2 = .ok 0 := by
    cbv
  obtain ⟨hcounts, hdecides, -, hmore⟩ := sharedKeys_laws Sample.plan
  rw [hlength] at hcounts hdecides hmore
  obtain ⟨⟨shared, -, hshared, hswapped, -⟩, lower, upper, across, hlowerShared, hupperShared,
    hacrossShared, -, hmin⟩ := hcounts Sample.plan_ordered _ _ _ (Sample.hasKeys_click "Ann" 5)
      (Sample.hasKeys_click "ann" 4) (Sample.hasKeys_click "Bob" 9) 2 le_rfl
  refine ⟨?_, ?_, ?_, hmore _ _ 3 (by decide)⟩
  · obtain rfl := Except.ok.inj (hsame.symm.trans hshared)
    exact hswapped
  · obtain rfl := Except.ok.inj (hsame.symm.trans hlowerShared)
    obtain rfl := Except.ok.inj (hother.symm.trans hupperShared)
    rw [hacrossShared, hmin ⟨_, hlower, by decide⟩ ⟨_, hupper, by decide⟩]
    rfl
  · obtain ⟨key, leftValue, rightValue, hkey, hleft, hright, -, houtcome⟩ :=
      hdecides _ _ 0 hback (by decide)
    rw [Sample.keys_eq] at hkey
    cases hkey
    cases hleft
    cases hright
    rw [houtcome]
    cbv

end Plan

end RecordRollup
