import Mathlib
import RecordRollup.Plan.Build
import RecordRollup.Proofs.Plan.RoundTrip

namespace RecordRollup

namespace Plan.Draft

variable {draft : Draft} {common : Criteria} {element : SortElement} {error : Error}

/-- A comparator that a draft names where it cannot be used: on the source field, on a common field of a
type that it does not support, or in specific criteria. -/
inductive Misused (draft : Draft) : (comparator name : String) → ComparatorFault → Prop
  | onSource {common : Criteria} {element : SortElement} {named : NamedComparator}
      (hcommon : draft.common = some common) (helement : element ∈ common.elements)
      (hnamed : named ∈ element.comparator) (hname : element.name = sourceFieldName) :
      Misused draft named.id element.name .sourceField
  | onType {common : Criteria} {element : SortElement} {named : NamedComparator}
      {source : Int32 × Schema} {type : FieldType} (hcommon : draft.common = some common)
      (helement : element ∈ common.elements) (hnamed : named ∈ element.comparator)
      (hsource : source ∈ draft.sources) (hfield : ⟨element.name, type⟩ ∈ source.2.fields)
      (htype : named.comparator.supports type = false) :
      Misused draft named.id element.name (.unsupportedType type)
  | onSpecific {element : SortElement} {named : NamedComparator} {entry : Int32 × Criteria}
      (hentry : entry ∈ draft.specific) (helement : element ∈ entry.2.elements)
      (hnamed : named ∈ element.comparator) :
      Misused draft named.id element.name .specificField

/-- What the error of a draft can be. -/
def Explains (draft : Draft) (error : Error) : Prop :=
  (∃ fault, error = .plan fault) ∨
    ∃ comparator name fault, error = .unsupportedComparator comparator name fault ∧
      draft.Misused comparator name fault

theorem build_eq_error_iff : draft.build = .error error ↔ draft.fault? = some error := by
  rw [build]
  split
  · next other hfault => simp [hfault]
  · next hfault => simp [hfault]

theorem exists_build_iff : (∃ plan, draft.build = .ok plan) ↔ draft.fault? = none := by
  rw [build]
  split
  · next other hfault => simp [hfault]
  · next hfault => simp [hfault]

theorem explains_of_comparatorFault? {source : Int32 × Schema} {type : FieldType}
    (hcommon : draft.common = some common) (helement : element ∈ common.elements)
    (hsource : source ∈ draft.sources) (hfield : ⟨element.name, type⟩ ∈ source.2.fields)
    (hfault : comparatorFault? element type = some error) : draft.Explains error := by
  rw [comparatorFault?] at hfault
  split at hfault
  · cases hfault
  · next named hnamed =>
      split at hfault
      · next hname =>
          cases hfault
          exact .inr ⟨_, _, _, rfl, .onSource hcommon helement hnamed hname⟩
      · split at hfault
        · cases hfault
        · next htype =>
            cases hfault
            exact .inr ⟨_, _, _, rfl, .onType hcommon helement hnamed hsource hfield
              (Bool.eq_false_of_not_eq_true htype)⟩

/-- The type that a comparator is checked against is that of a field, since there is a first schema and
it has the field. -/
theorem explains_of_commonFault? (hcommon : draft.common = some common)
    (hsources : draft.sources ≠ []) (helement : element ∈ common.elements)
    (hfault : commonFault? (draft.ordered.map Prod.snd) element = some error) :
    draft.Explains error := by
  cases hordered : draft.ordered with
  | nil => exact absurd (ordered_eq_nil_iff.mp hordered) hsources
  | cons first rest =>
      have hfirst : first ∈ draft.sources := mem_ordered.mp (by simp [hordered])
      rw [hordered, List.map_cons, commonFault?, Option.or_eq_some_iff, List.head?_cons,
        Option.bind_some] at hfault
      rcases hfault with hfault | ⟨htypes, hfault⟩
      · obtain ⟨fault, -, rfl⟩ := Option.map_eq_some_iff.mp hfault
        exact .inl ⟨fault, rfl⟩
      · obtain ⟨type, htype⟩ :=
          typesFault?_none_eq_none_iff.mp (Option.map_eq_none_iff.mp htypes)
        have hfield := htype first.2 (by simp)
        rw [hfield] at hfault
        exact explains_of_comparatorFault? hcommon helement hfirst
          (Schema.fieldNamed?_eq_some_iff.mp hfield).1 hfault

theorem explains_of_setupFault? (hcommon : draft.common = some common)
    (hfault : draft.setupFault? common = some error) : draft.Explains error := by
  have hplan : ∀ {fault? : Option PlanFault}, fault?.map Error.plan = some error →
      draft.Explains error := by
    intro fault? hfault
    obtain ⟨fault, -, rfl⟩ := Option.map_eq_some_iff.mp hfault
    exact .inl ⟨fault, rfl⟩
  simp only [setupFault?, Option.or_eq_some_iff] at hfault
  rcases hfault with hempty | ⟨hnonempty, hsources | ⟨-, helements | ⟨-, hkey | ⟨-, hspecifics⟩⟩⟩⟩
  · exact hplan hempty
  · exact hplan hsources
  · -- The common elements are looked at only where there is a source.
    have hne : draft.sources ≠ [] := by
      intro hnil
      rw [Option.map_eq_none_iff, emptyFault?] at hnonempty
      split at hnonempty
      · cases hnonempty
      · simp [hnil] at hnonempty
    obtain ⟨element, helement, hfault⟩ := List.exists_of_findSome?_eq_some helements
    exact explains_of_commonFault? hcommon hne helement hfault
  · exact hplan hkey
  · exact hplan hspecifics

theorem explains_of_specificFault? {entry : Int32 × Criteria} {schema : Schema}
    (hentry : entry ∈ draft.specific) (helement : element ∈ entry.2.elements)
    (hfault : specificFault? common schema element = some error) : draft.Explains error := by
  rw [specificFault?] at hfault
  split at hfault
  · cases hfault
    exact .inl ⟨_, rfl⟩
  · split at hfault
    · next named hnamed =>
        cases hfault
        exact .inr ⟨_, _, _, rfl, .onSpecific hentry helement hnamed⟩
    · split at hfault
      · cases hfault
        exact .inl ⟨_, rfl⟩
      · cases hfault

theorem explains_of_sourceFault? {source : Int32 × Schema}
    (hfault : draft.sourceFault? common source = some error) : draft.Explains error := by
  obtain ⟨criteria, hcriteria, hfault⟩ := Option.bind_eq_some_iff.mp hfault
  obtain ⟨entry, hentry, rfl⟩ := Option.map_eq_some_iff.mp hcriteria
  obtain ⟨element, helement, hfault⟩ := List.exists_of_findSome?_eq_some hfault
  exact explains_of_specificFault? (List.mem_of_find?_eq_some hentry) helement hfault

/-- A draft is built exactly if it is acceptable. The error of another draft is one of the configuration,
or tells of a comparator that the draft misuses; there is no error of any other kind. -/
theorem build_iff_acceptable (draft : Draft) :
    ((∃ plan, draft.build = .ok plan) ↔
      ∃ common, draft.common = some common ∧ draft.Acceptable common) ∧
    ∀ error, draft.build = .error error → (∃ fault, error = .plan fault) ∨
      ∃ comparator name fault, error = .unsupportedComparator comparator name fault ∧
        draft.Misused comparator name fault := by
  refine ⟨exists_build_iff.trans fault?_eq_none_iff, ?_⟩
  intro error herror
  have hfault := build_eq_error_iff.mp herror
  rw [fault?] at hfault
  split at hfault
  · cases hfault
    exact .inl ⟨_, rfl⟩
  · next common hcommon =>
      rcases Option.or_eq_some_iff.mp hfault with hsetup | ⟨-, hsource⟩
      · exact explains_of_setupFault? hcommon hsetup
      · obtain ⟨source, -, hfault⟩ := List.exists_of_findSome?_eq_some hsource
        exact explains_of_sourceFault? hfault

end Plan.Draft

namespace Sample

def byUrl : SortElement :=
  ⟨"url", by decide, .ascending, some ⟨"by_length", by decide, .shortlex⟩⟩

/-- Clicks and orders as before, but with a comparator among the specific fields of the clicks. -/
def comparedClicks : Plan.Draft :=
  { draft with specific := [(-3, ⟨[byTime, byUrl], by decide⟩)] }

end Sample

namespace Plan.Draft

theorem build_iff_acceptable_clicks :
    (∃ common, Sample.draft.common = some common ∧ Sample.draft.Acceptable common) ∧
      Sample.comparedClicks.build =
        .error (.unsupportedComparator "by_length" "url" .specificField) ∧
      Sample.comparedClicks.Misused "by_length" "url" .specificField := by
  have hbuild : Sample.draft.build = .ok Sample.plan :=
    build_eq_ok_iff.mpr ⟨by cbv, rfl, rfl⟩
  have herror : Sample.comparedClicks.build =
      .error (.unsupportedComparator "by_length" "url" .specificField) :=
    build_eq_error_iff.mpr (by cbv)
  refine ⟨(build_iff_acceptable Sample.draft).1.mp ⟨_, hbuild⟩, herror, ?_⟩
  rcases (build_iff_acceptable Sample.comparedClicks).2 _ herror with ⟨fault, hplan⟩ | hmisused
  · cases hplan
  · obtain ⟨comparator, name, fault, heq, hmisused⟩ := hmisused
    cases heq
    exact hmisused

end Plan.Draft

end RecordRollup
