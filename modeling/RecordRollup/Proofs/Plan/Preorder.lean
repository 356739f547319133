import Mathlib
import RecordRollup.Proofs.Plan.PathAgreement

/-!
The order of records under a plan is a total preorder wherever it answers. The specific keys that
break a tie are those of the source that the first record names, and this does no harm: records that
tie on the common keys name the same source.
-/

namespace RecordRollup

variable {elements : List SortElement} {first middle last left right : Record}

theorem compareValues_of_compareAlong (htie : compareAlong elements left right = .ok .eq)
    {element : SortElement} (helement : element ∈ elements) :
    ∃ leftValue rightValue, left.getNamed element.name = .ok leftValue ∧
      right.getNamed element.name = .ok rightValue ∧
      element.compareValues leftValue rightValue = .eq := by
  induction elements with
  | nil => simp at helement
  | cons first elements ih =>
      obtain ⟨leftValue, rightValue, hleft, hright, hdecided⟩ :=
        compareAlong_cons_eq_ok_iff.mp htie
      rcases hdecided with ⟨hfirst, hrest⟩ | ⟨-, hdiffer⟩
      · rcases List.mem_cons.mp helement with rfl | helement
        · exact ⟨leftValue, rightValue, hleft, hright, Direction.apply_eq_eq.mp hfirst⟩
        · exact ih hrest helement
      · exact absurd rfl hdiffer

namespace Record

theorem sourceId?_eq_none {record : Record}
    (hvalue : record.getNamed sourceFieldName = .ok .null) : record.sourceId? = none := by
  have hnamed : record.getNamed? sourceFieldName = some .null := by
    rw [getNamed] at hvalue
    cases hfound : record.getNamed? sourceFieldName <;> simp_all
  rw [sourceId?, hnamed]

theorem sourceId?_eq_of_compare {leftValue rightValue : Value}
    (hleft : left.getNamed sourceFieldName = .ok leftValue)
    (hright : right.getNamed sourceFieldName = .ok rightValue)
    (htie : Ord.compare leftValue rightValue = .eq) : left.sourceId? = right.sourceId? := by
  rcases eq_or_ne leftValue .null with rfl | hleftSet
  · rcases eq_or_ne rightValue .null with rfl | hrightSet
    · rw [sourceId?_eq_none hleft, sourceId?_eq_none hright]
    · obtain ⟨id, rfl, -⟩ := Plan.sourceId?_eq_some hright hrightSet
      cases htie
  · obtain ⟨leftId, rfl, hleftId⟩ := Plan.sourceId?_eq_some hleft hleftSet
    rcases eq_or_ne rightValue .null with rfl | hrightSet
    · cases htie
    · obtain ⟨rightId, rfl, hrightId⟩ := Plan.sourceId?_eq_some hright hrightSet
      rw [hleftId, hrightId, Value.int_eq_of_compare htie]

end Record

namespace Plan

variable {plan : Plan} {outcome lower upper : Ordering}

/-- The elements that order records that tie on the common keys with a record: those of the source
that it names, if the plan knows that source. A plan of one source has none. -/
def tieBreakers? (plan : Plan) (record : Record) : Option (List SortElement) :=
  if plan.isMultiSource then
    (record.sourceId?.bind plan.source?).map fun source =>
      source.specificKeys.map SortKey.toSortElement
  else some []

theorem compare_eq_ok_iff :
    plan.compare left right = .ok outcome ↔
      compareAlong plan.common.elements left right = .ok outcome ∧ outcome ≠ .eq ∨
      compareAlong plan.common.elements left right = .ok .eq ∧
        ∃ elements, plan.tieBreakers? left = some elements ∧
          compareAlong elements left right = .ok outcome := by
  rcases hcommon : compareAlong plan.common.elements left right with error | common
  · simp [compare, hcommon, bind, Except.bind]
  · rcases eq_or_ne common .eq with rfl | hdiffer
    · cases hmany : plan.isMultiSource with
      | false =>
          simp [compare, hcommon, bind, Except.bind, pure, Except.pure, tieBreakers?, hmany,
            compareAlong, eq_comm]
      | true =>
          cases hsource : left.sourceId?.bind plan.source? <;>
            simp [compare, hcommon, bind, Except.bind, tieBreakers?, hmany, hsource, eq_comm]
    · rw [compare_of_differ hcommon hdiffer]
      simp only [Except.ok.injEq, hdiffer, false_and, or_false]
      constructor
      · rintro rfl
        exact ⟨rfl, hdiffer⟩
      · exact And.left

/-- The choice of the elements that break a tie does not depend on which record comes first. -/
theorem tieBreakers?_eq_of_tie (htie : compareAlong plan.common.elements left right = .ok .eq) :
    plan.tieBreakers? left = plan.tieBreakers? right := by
  cases hmany : plan.isMultiSource with
  | false => simp [tieBreakers?, hmany]
  | true =>
      obtain ⟨key, hkey, hname⟩ := exists_source_key hmany
      have hplain := comparator_of_source hkey hname
      obtain ⟨leftValue, rightValue, hleft, hright, hequal⟩ :=
        compareValues_of_compareAlong htie (List.mem_map_of_mem hkey)
      rw [hname] at hleft hright
      simp only [SortElement.compareValues, hplain] at hequal
      rw [tieBreakers?, tieBreakers?, Record.sourceId?_eq_of_compare hleft hright hequal]

theorem transCmp_tieBreakers {record : Record} {elements : List SortElement}
    (helements : plan.tieBreakers? record = some elements) :
    ∀ element ∈ elements, Std.TransCmp element.order := by
  intro element helement
  rw [tieBreakers?] at helements
  split at helements
  · obtain ⟨source, hsource, rfl⟩ := Option.map_eq_some_iff.mp helements
    obtain ⟨id, -, hfound⟩ := Option.bind_eq_some_iff.mp hsource
    obtain ⟨key, hkey, rfl⟩ := List.mem_map.mp helement
    have hplain :=
      (plan.consistent.specific_mem source (source?_eq_some_iff.mp hfound).1 key hkey).2.1
    refine SortElement.transCmp_order ?_
    simp [hplain]
  · cases helements
    simp at helement

section Ordered

variable (hordered : ∀ key ∈ plan.keys, ∀ named ∈ key.comparator,
  Std.TransCmp named.comparator.compareValues)

include hordered

theorem compare_swap (houtcome : plan.compare left right = .ok outcome) :
    plan.compare right left = .ok outcome.swap := by
  rw [compare_eq_ok_iff] at houtcome ⊢
  rcases houtcome with ⟨hcommon, hdiffer⟩ | ⟨hcommon, elements, helements, hrest⟩
  · left
    exact ⟨compareAlong_swap (transCmp_order hordered) hcommon, by simpa using hdiffer⟩
  · right
    refine ⟨compareAlong_swap (transCmp_order hordered) hcommon, elements, ?_, ?_⟩
    · rw [← tieBreakers?_eq_of_tie hcommon, helements]
    · exact compareAlong_swap (transCmp_tieBreakers helements) hrest

theorem compare_trans (hlower : plan.compare first middle = .ok lower)
    (hupper : plan.compare middle last = .ok upper) (hlowerUp : lower ≠ .gt)
    (hupperUp : upper ≠ .gt) : plan.compare first last = .ok (lower.then upper) := by
  have hcommon := @compareAlong_trans plan.common.elements first middle last
  rw [compare_eq_ok_iff] at hlower hupper ⊢
  -- Either the common keys decide one of the two steps, and then the step across as well, or both
  -- are decided by the same elements behind them.
  rcases hlower with ⟨hlower, hlowerDiffer⟩ | ⟨hlower, elements, helements, hlowerRest⟩
  · obtain rfl : lower = .lt := by cases lower <;> simp_all
    left
    refine ⟨?_, by simp⟩
    rcases hupper with ⟨hupper, -⟩ | ⟨hupper, -⟩
    · exact hcommon (transCmp_order hordered) hlower hupper (by simp) hupperUp
    · exact (hcommon (transCmp_order hordered) hlower hupper (by simp) (by simp) :)
  · have hsame : plan.tieBreakers? middle = some elements := by
      rw [← tieBreakers?_eq_of_tie hlower, helements]
    rcases hupper with ⟨hupper, hupperDiffer⟩ | ⟨hupper, others, hothers, hupperRest⟩
    · obtain rfl : upper = .lt := by cases upper <;> simp_all
      left
      have hacross := hcommon (transCmp_order hordered) hlower hupper (by simp) (by simp)
      refine ⟨?_, by cases lower <;> simp_all⟩
      rw [hacross]
      cases lower <;> simp_all
    · obtain rfl : elements = others := by simpa [hsame] using hothers
      right
      refine ⟨?_, elements, helements, ?_⟩
      · exact hcommon (transCmp_order hordered) hlower hupper (by simp) (by simp)
      · exact compareAlong_trans (transCmp_tieBreakers helements) hlowerRest hupperRest hlowerUp
          hupperUp

theorem compare_self {record : Record} (houtcome : plan.compare record record = .ok outcome) :
    outcome = .eq := by
  have hswap := compare_swap hordered houtcome
  rw [houtcome, Except.ok.injEq] at hswap
  cases outcome with
  | eq => rfl
  | lt | gt => exact absurd hswap (by decide)

/-- Where records can be compared, a record ties with itself, turning a comparison round turns its
outcome round, and two steps that do not go down make one, which goes up if one of them does. -/
theorem compare_totalPreorder :
    (∀ record outcome, plan.compare record record = .ok outcome → outcome = .eq) ∧
    (∀ left right outcome,
      plan.compare left right = .ok outcome ↔ plan.compare right left = .ok outcome.swap) ∧
    ∀ first middle last lower upper, plan.compare first middle = .ok lower →
      plan.compare middle last = .ok upper → lower ≠ .gt → upper ≠ .gt →
      ∃ outcome, plan.compare first last = .ok outcome ∧ outcome ≠ .gt ∧
        (lower = .lt ∨ upper = .lt → outcome = .lt) := by
  refine ⟨fun _ _ => compare_self hordered, ?_, ?_⟩
  · intro left right outcome
    constructor
    · exact compare_swap hordered
    · intro houtcome
      have hswap := compare_swap hordered houtcome
      rwa [Ordering.swap_swap] at hswap
  · intro first middle last lower upper hlower hupper hlowerUp hupperUp
    refine ⟨lower.then upper, compare_trans hordered hlower hupper hlowerUp hupperUp, ?_, ?_⟩
    · cases lower <;> simp_all
    · rintro (rfl | rfl)
      · rfl
      · cases lower <;> simp_all

end Ordered

end Plan

namespace Sample

theorem plan_ordered : ∀ key ∈ plan.keys, ∀ named ∈ key.comparator,
    Std.TransCmp named.comparator.compareValues :=
  forall_comparator (fun comparator _ => Std.TransCmp comparator.compareValues)
    (Comparator.transCmp_ofContent _)

end Sample

namespace Plan

theorem compare_totalPreorder_clicks :
    Sample.plan.compare (Sample.click "Ann" 5) (Sample.click "ann" 4) = .ok .lt ∧
      Sample.plan.compare (Sample.click "ann" 4) (Sample.click "ANN" 4) = .ok .eq ∧
      Sample.plan.compare (Sample.click "Ann" 5) (Sample.click "ANN" 4) = .ok .lt ∧
      Sample.plan.compare (Sample.click "ann" 4) (Sample.click "Ann" 5) = .ok .gt := by
  have hlower : Sample.plan.compare (Sample.click "Ann" 5) (Sample.click "ann" 4) = .ok .lt := by
    cbv
  have hupper : Sample.plan.compare (Sample.click "ann" 4) (Sample.click "ANN" 4) = .ok .eq := by
    cbv
  obtain ⟨-, hswap, htrans⟩ := compare_totalPreorder Sample.plan_ordered
  obtain ⟨outcome, hacross, -, hless⟩ :=
    htrans _ _ _ _ _ hlower hupper (by decide) (by decide)
  obtain rfl := hless (.inl rfl)
  exact ⟨hlower, hupper, hacross, (hswap _ _ _).mp hlower⟩

end Plan

end RecordRollup
