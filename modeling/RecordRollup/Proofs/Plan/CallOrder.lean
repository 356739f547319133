import Mathlib
import RecordRollup.Proofs.Plan.Acceptance

namespace RecordRollup

/-- What part of the work an error is about, whatever it says of it. -/
def Error.kind (error : Error) : Nat :=
  error.ctorIdx

theorem map_or_eq_map_or {α β : Type} {part : α → β} {first second other otherSecond : Option α}
    (hfirst : first.map part = other.map part)
    (hsecond : first = none → other = none → second.map part = otherSecond.map part) :
    (first.or second).map part = (other.or otherSecond).map part := by
  cases first with
  | some fault =>
      cases other with
      | some otherFault => simpa using hfirst
      | none => cases hfirst
  | none =>
      cases other with
      | some otherFault => cases hfirst
      | none => simpa using hsecond rfl rfl

theorem map_kind_plan {fault other : Option PlanFault} (hnone : fault = none ↔ other = none) :
    (fault.map Error.plan).map Error.kind = (other.map Error.plan).map Error.kind := by
  cases fault with
  | none => rw [hnone.mp rfl]
  | some fault =>
      cases other with
      | none => cases hnone.mpr rfl
      | some other => rfl

namespace Plan.Draft

/-- Two drafts of the same parts, given in any order. -/
structure Rearranged (left right : Draft) : Prop where
  common : left.common = right.common
  sources : left.sources.Perm right.sources
  specific : left.specific.Perm right.specific

theorem distinct_of_setupFault?_eq_none {draft : Draft} {common : Criteria}
    (hsetup : draft.setupFault? common = none) :
    (draft.sources.map Prod.fst).Nodup ∧ (draft.specific.map Prod.fst).Nodup := by
  simp only [setupFault?, Option.or_eq_none_iff, Option.map_eq_none_iff, sourcesFault?_eq_none_iff,
    specificsFault?_eq_none_iff] at hsetup
  obtain ⟨-, ⟨-, distinct, -⟩, -, -, -, once⟩ := hsetup
  exact ⟨distinct, once⟩

namespace Rearranged

variable {left right : Draft} {common : Criteria}

theorem ids_nodup (same : left.Rearranged right) :
    (left.sources.map Prod.fst).Nodup ↔ (right.sources.map Prod.fst).Nodup :=
  (same.sources.map Prod.fst).nodup_iff

theorem ordered_eq (same : left.Rearranged right) (distinct : (left.sources.map Prod.fst).Nodup) :
    left.ordered = right.ordered := by
  have hperm : left.ordered.Perm right.ordered :=
    left.ordered_perm.trans (same.sources.trans right.ordered_perm.symm)
  refine hperm.eq_of_pairwise ?_ (pairwise_ordered distinct)
    (pairwise_ordered (same.ids_nodup.mp distinct))
  intro first second _ _ hless hgreater
  exact (Int32.lt_irrefl (Int32.lt_trans hless hgreater)).elim

theorem specificOf?_eq (same : left.Rearranged right) (once : (left.specific.map Prod.fst).Nodup) :
    left.specificOf? = right.specificOf? := by
  have hothers : (right.specific.map Prod.fst).Nodup :=
    (same.specific.map Prod.fst).nodup_iff.mp once
  funext id
  apply Option.ext
  intro criteria
  rw [specificOf?_eq_some_iff once, specificOf?_eq_some_iff hothers]
  exact same.specific.mem_iff

theorem emptyFault?_eq (same : left.Rearranged right) :
    left.emptyFault? common = right.emptyFault? common := by
  have hempty : left.sources.isEmpty = right.sources.isEmpty := by
    rw [Bool.eq_iff_iff, List.isEmpty_iff_length_eq_zero, List.isEmpty_iff_length_eq_zero,
      same.sources.length_eq]
  rw [emptyFault?, emptyFault?, hempty]

theorem sourcesFault?_eq_none_iff (same : left.Rearranged right) :
    sourcesFault? [] [] left.sources = none ↔ sourcesFault? [] [] right.sources = none := by
  have hnames := (same.sources.map fun source => source.2.name).nodup_iff
  simp [Draft.sourcesFault?_eq_none_iff, hnames, same.ids_nodup]

theorem discriminatorFault?_eq (same : left.Rearranged right) :
    left.discriminatorFault? common = right.discriminatorFault? common := by
  rw [discriminatorFault?, discriminatorFault?, same.sources.length_eq]

theorem specificsFault?_eq_none_iff (same : left.Rearranged right) :
    specificsFault? (left.sources.map Prod.fst) [] left.specific = none ↔
      specificsFault? (right.sources.map Prod.fst) [] right.specific = none := by
  have hknown : ∀ id, id ∈ left.sources.map Prod.fst ↔ id ∈ right.sources.map Prod.fst :=
    fun id => (same.sources.map Prod.fst).mem_iff
  have honce := (same.specific.map Prod.fst).nodup_iff
  simp only [Draft.specificsFault?_eq_none_iff, hknown, same.specific.mem_iff, honce]

/-- Repeated sources are found before the sources are put in order, so what is found by their order comes
out alike. -/
theorem map_kind_setupFault? (same : left.Rearranged right) :
    (left.setupFault? common).map Error.kind = (right.setupFault? common).map Error.kind := by
  rw [setupFault?, setupFault?, same.emptyFault?_eq, same.discriminatorFault?_eq]
  apply map_or_eq_map_or rfl
  intro _ _
  apply map_or_eq_map_or (map_kind_plan same.sourcesFault?_eq_none_iff)
  intro hsources _
  have distinct := (Draft.sourcesFault?_eq_none_iff.mp (Option.map_eq_none_iff.mp hsources)).2.1
  rw [same.ordered_eq distinct]
  apply map_or_eq_map_or rfl
  intro _ _
  apply map_or_eq_map_or rfl
  intro _ _
  exact map_kind_plan same.specificsFault?_eq_none_iff

theorem map_kind_fault? (same : left.Rearranged right) :
    left.fault?.map Error.kind = right.fault?.map Error.kind := by
  rw [fault?, fault?, ← same.common]
  cases left.common with
  | none => rfl
  | some common =>
      apply map_or_eq_map_or same.map_kind_setupFault?
      intro hsetup _
      obtain ⟨distinct, once⟩ := distinct_of_setupFault?_eq_none hsetup
      have hfault : left.sourceFault? common = right.sourceFault? common := by
        funext source
        rw [sourceFault?, sourceFault?, same.specificOf?_eq once]
      rw [same.ordered_eq distinct, hfault]

theorem keys_eq (same : left.Rearranged right) (distinct : (left.sources.map Prod.fst).Nodup) :
    left.keys = right.keys := by
  rw [keys, keys, same.common, same.ordered_eq distinct]

theorem planned_eq (same : left.Rearranged right) (distinct : (left.sources.map Prod.fst).Nodup)
    (once : (left.specific.map Prod.fst).Nodup) : left.planned = right.planned := by
  rw [planned, planned, same.ordered_eq distinct, same.specificOf?_eq once]

theorem build (same : left.Rearranged right) :
    (∃ plan, left.build = .ok plan ∧ right.build = .ok plan) ∨
      ∃ error other, left.build = .error error ∧ right.build = .error other ∧
        error.kind = other.kind := by
  have hkind := same.map_kind_fault?
  cases hleft : left.fault? with
  | none =>
      have hright : right.fault? = none := by simpa [hleft] using hkind.symm
      obtain ⟨plan, hplan⟩ := exists_build_iff.mpr hleft
      obtain ⟨-, hkeys, hsources⟩ := build_eq_ok_iff.mp hplan
      obtain ⟨common, -, ok⟩ := fault?_eq_none_iff.mp hleft
      refine .inl ⟨plan, hplan, build_eq_ok_iff.mpr ⟨hright, ?_, ?_⟩⟩
      · exact hkeys.trans (same.keys_eq ok.ids_distinct)
      · exact hsources.trans (same.planned_eq ok.ids_distinct ok.specific_once)
  | some error =>
      cases hright : right.fault? with
      | none => simp [hleft, hright] at hkind
      | some other =>
          refine .inr ⟨error, other, build_eq_error_iff.mpr hleft, build_eq_error_iff.mpr hright, ?_⟩
          simpa [hleft, hright] using hkind

end Rearranged

/-- A part that is given to a draft besides the common criteria. -/
inductive Part
  | source (id : Int32) (schema : Schema)
  | specific (id : Int32) (criteria : Criteria)

def give (draft : Draft) : Part → Draft
  | .source id schema => draft.addSource id schema
  | .specific id criteria => draft.addSpecific id criteria

def Part.source? : Part → Option (Int32 × Schema)
  | .source id schema => some (id, schema)
  | .specific _ _ => none

def Part.specific? : Part → Option (Int32 × Criteria)
  | .source _ _ => none
  | .specific id criteria => some (id, criteria)

theorem foldl_give (draft : Draft) (parts : List Part) :
    parts.foldl give draft =
      { draft with
        sources := draft.sources ++ parts.filterMap Part.source?
        specific := draft.specific ++ parts.filterMap Part.specific? } := by
  induction parts generalizing draft with
  | nil => simp
  | cons part parts ih =>
      rw [List.foldl_cons, ih]
      cases part <;>
        simp [give, addSource, addSpecific, Part.source?, Part.specific?, List.filterMap_cons]

theorem rearranged_of_perm (draft : Draft) {parts others : List Part} (hperm : parts.Perm others) :
    (parts.foldl give draft).Rearranged (others.foldl give draft) := by
  rw [foldl_give, foldl_give]
  exact ⟨rfl, (hperm.filterMap _).append_left _, (hperm.filterMap _).append_left _⟩

/-- Whatever a draft has been given before, sources and specific criteria can be given to it in any order,
and mixed in any way: either the same plan is built in the end, or there are errors of the same kind. -/
theorem build_perm (draft : Draft) {parts others : List Part} (hperm : parts.Perm others) :
    (∃ plan, (parts.foldl give draft).build = .ok plan ∧
      (others.foldl give draft).build = .ok plan) ∨
    ∃ error other, (parts.foldl give draft).build = .error error ∧
      (others.foldl give draft).build = .error other ∧ error.kind = other.kind :=
  (rearranged_of_perm draft hperm).build

end Plan.Draft

namespace Sample

/-- The common criteria of clicks and orders, to which the parts are still to be given. -/
def bare : Plan.Draft :=
  { draft with sources := [], specific := [] }

def parts : List Plan.Draft.Part :=
  draft.sources.map (fun source => .source source.1 source.2) ++
    draft.specific.map fun entry => .specific entry.1 entry.2

/-- Orders under two ids, of which the clicks have one as well. -/
def clashes : List Plan.Draft.Part :=
  [.source 7 orders, .source 7 clicks, .source 8 orders]

end Sample

namespace Plan.Draft

theorem build_perm_clicks :
    (Sample.parts.foldl give Sample.bare).build = .ok Sample.plan ∧
      (Sample.parts.reverse.foldl give Sample.bare).build = .ok Sample.plan ∧
      (Sample.clashes.foldl give Sample.bare).build = .error (.plan (.repeatedSource 7)) ∧
      (Sample.clashes.reverse.foldl give Sample.bare).build =
        .error (.plan (.repeatedSchema "orders")) := by
  have hplan : (Sample.parts.foldl give Sample.bare).build = .ok Sample.plan :=
    build_eq_ok_iff.mpr ⟨by cbv, rfl, rfl⟩
  refine ⟨hplan, ?_, build_eq_error_iff.mpr (by cbv), build_eq_error_iff.mpr (by cbv)⟩
  rcases build_perm Sample.bare (List.reverse_perm Sample.parts).symm with
    ⟨plan, hfirst, hsecond⟩ | ⟨error, other, herror, -⟩
  · rw [hsecond, ← hfirst, hplan]
  · rw [hplan] at herror
    cases herror

end Plan.Draft

end RecordRollup
