import Mathlib
import RecordRollup.Plan.Build
import RecordRollup.Proofs.Plan.RoundTrip

namespace RecordRollup

namespace Schema

theorem map_some_positionsOf {schema : Schema} {keys : List SortKey}
    (hkeys : ∀ key ∈ keys, key.field ∈ schema.fields) :
    (schema.positionsOf keys).map some = (keys.map fun key => key.name).map schema.indexOf? := by
  rw [List.map_map, ← List.forall₂_eq_eq_eq, List.forall₂_map_left_iff,
    List.forall₂_map_right_iff]
  refine (positionsOf_fields hkeys).flip.imp ?_
  intro position key hfield
  exact (indexOf?_eq_some_iff.mpr ⟨key.field, hfield, rfl⟩).symm

theorem length_positionsOf {schema : Schema} {keys : List SortKey}
    (hkeys : ∀ key ∈ keys, key.field ∈ schema.fields) :
    (schema.positionsOf keys).length = keys.length :=
  (positionsOf_fields hkeys).length_eq.symm

end Schema

namespace Plan

variable {plan : Plan} {source : Source}

theorem perm_order (hsource : source ∈ plan.sources) :
    (plan.order source).Perm (List.range source.schema.size) := by
  rw [List.perm_ext_iff_of_nodup (nodup_order hsource) List.nodup_range]
  intro position
  rw [mem_order, List.mem_range]

theorem pairwise_otherPositions (plan : Plan) (source : Source) :
    (plan.otherPositions source).Pairwise (· < ·) :=
  List.pairwise_lt_range.filter _

theorem sourceIndex?_eq_idxOf? (plan : Plan) :
    plan.sourceIndex? = (plan.keys.map fun key => key.name).idxOf? sourceFieldName := by
  rw [sourceIndex?, List.idxOf?, List.findIdx?_map]
  rfl

namespace Draft

variable {draft : Draft} {common : Criteria}

def specificNames (draft : Draft) (id : Int32) : List String :=
  ((draft.specificOf? id).map Criteria.names).getD []

/-- What a plan that was built from a draft has for one of its sources. Its written order has the
positions of all fields: those of the common names, in the order of the criteria, then those of its
specific names, and then the others as they stand in the schema. -/
structure HasSource (draft : Draft) (common : Criteria) (plan : Plan) (source : Source) : Prop where
  given : (source.id, source.schema) ∈ draft.sources
  specific : source.specific.map (List.map SortKey.toSortElement) =
    (draft.specificOf? source.id).map Criteria.elements
  specific_names : source.specificKeys.map (fun key => key.name) = draft.specificNames source.id
  specific_fields : ∀ key ∈ source.specificKeys, source.schema.fieldNamed? key.name = some key.field
  specific_new : ∀ key ∈ source.specificKeys, key.name ∉ common.names
  specific_plain : ∀ key ∈ source.specificKeys, key.comparator = none
  common_fields : ∀ key ∈ plan.keys, source.schema.fieldNamed? key.name = some key.field
  order_all : (plan.order source).Perm (List.range source.schema.size)
  order_common : ((plan.order source).take common.names.length).map some =
    common.names.map source.schema.indexOf?
  order_specific : (((plan.order source).drop common.names.length).take
      (draft.specificNames source.id).length).map some =
    (draft.specificNames source.id).map source.schema.indexOf?
  order_others : ((plan.order source).drop
    (common.names.length + (draft.specificNames source.id).length)).Pairwise (· < ·)

theorem specific_of_planned (ok : draft.Acceptable common) (hsource : source ∈ draft.planned) :
    source.specific.map (List.map SortKey.toSortElement) =
      (draft.specificOf? source.id).map Criteria.elements := by
  obtain ⟨hgiven, hspecific⟩ := mem_planned.mp hsource
  rw [hspecific, Option.map_map]
  cases hfound : draft.specificOf? source.id with
  | none => rfl
  | some criteria =>
      have hentry := (specificOf?_eq_some_iff ok.specific_once).mp hfound
      have helements := Schema.sortKeys_elements fun element helement =>
        (ok.specific_fits _ hentry _ hgiven rfl element helement).2.2
      exact congrArg some helements

theorem specificKeys_names (ok : draft.Acceptable common) (hsource : source ∈ draft.planned) :
    source.specificKeys.map (fun key => key.name) = draft.specificNames source.id := by
  have hspecific := specific_of_planned ok hsource
  rw [Source.specificKeys, specificNames]
  cases hkeys : source.specific with
  | none =>
      rw [hkeys, Option.map_none, eq_comm, Option.map_eq_none_iff] at hspecific
      rw [hspecific]
      rfl
  | some keys =>
      rw [hkeys, Option.map_some, eq_comm, Option.map_eq_some_iff] at hspecific
      obtain ⟨criteria, hfound, helements⟩ := hspecific
      rw [hfound, Option.map_some, Option.getD_some, Option.getD_some, Criteria.names, helements,
        List.map_map]
      rfl

theorem exists_acceptable_of_build (hbuild : draft.build = .ok plan) :
    ∃ common, draft.common = some common ∧ draft.Acceptable common ∧
      plan.keys.map SortKey.toSortElement = common.elements ∧ plan.sources = draft.planned := by
  obtain ⟨hfault, hkeys, hsources⟩ := build_eq_ok_iff.mp hbuild
  obtain ⟨common, hcommon, ok⟩ := fault?_eq_none_iff.mp hfault
  exact ⟨common, hcommon, ok, hkeys ▸ ok.keys_elements hcommon, hsources⟩

theorem hasSource_of_planned (ok : draft.Acceptable common)
    (hkeys : plan.keys.map SortKey.toSortElement = common.elements)
    (hsources : plan.sources = draft.planned) (hsource : source ∈ plan.sources) :
    draft.HasSource common plan source := by
  have hplanned := hsources ▸ hsource
  have hnames : (plan.keys.map fun key => key.name) = common.names := by
    rw [Criteria.names, ← hkeys, List.map_map]
    rfl
  have hspecificNames := specificKeys_names ok hplanned
  have hspecificMem := plan.consistent.specific_mem source hsource
  have hcommonFields := plan.consistent.common_mem source hsource
  have hspecificFields : ∀ key ∈ source.specificKeys, key.field ∈ source.schema.fields :=
    fun key hkey => (hspecificMem key hkey).1
  have hcount : common.names.length = (source.schema.positionsOf plan.keys).length := by
    rw [Schema.length_positionsOf hcommonFields, ← hnames, List.length_map]
  have hspecificCount : (draft.specificNames source.id).length =
      (source.schema.positionsOf source.specificKeys).length := by
    rw [Schema.length_positionsOf hspecificFields, ← hspecificNames, List.length_map]
  exact {
    given := (mem_planned.mp hplanned).1
    specific := specific_of_planned ok hplanned
    specific_names := hspecificNames
    specific_fields := fun key hkey =>
      Schema.fieldNamed?_eq_some_iff.mpr ⟨hspecificFields key hkey, rfl⟩
    specific_new := by
      intro key hkey hname
      rw [← hnames] at hname
      obtain ⟨other, hother, heq⟩ := List.mem_map.mp hname
      exact (hspecificMem key hkey).2.2 other hother heq.symm
    specific_plain := fun key hkey => (hspecificMem key hkey).2.1
    common_fields := fun key hkey =>
      Schema.fieldNamed?_eq_some_iff.mpr ⟨hcommonFields key hkey, rfl⟩
    order_all := perm_order hsource
    order_common := by
      rw [order_eq_append, hcount, List.take_left, Schema.map_some_positionsOf hcommonFields,
        hnames]
    order_specific := by
      rw [order_eq_append, hcount, List.drop_left, hspecificCount, List.take_left,
        Schema.map_some_positionsOf hspecificFields, hspecificNames]
    order_others := by
      rw [order_eq_append, hcount, hspecificCount, ← List.drop_drop, List.drop_left,
        List.drop_left]
      exact plan.pairwise_otherPositions source }

/-- The keys of a built plan are the common criteria of its draft, with types that fit every source and
with comparators only where they can be used; every source has its order and its specific keys; and a
record belongs to the source that has its schema, unless it names another one. -/
theorem build_consistent (hbuild : draft.build = .ok plan) :
    ∃ common, draft.common = some common ∧
      plan.keys.map SortKey.toSortElement = common.elements ∧
      (plan.keys.map SortKey.field).map Field.name = common.names ∧
      (∀ key ∈ plan.keys, ∀ named ∈ key.comparator,
        key.name ≠ sourceFieldName ∧ named.comparator.supports key.type) ∧
      plan.sourceIndex? = common.names.idxOf? sourceFieldName ∧
      (plan.isMultiSource = true → plan.sourceIndex? ≠ none) ∧
      (plan.sources.map fun source => (source.id, source.schema)).Perm draft.sources ∧
      (∀ source ∈ plan.sources, draft.HasSource common plan source) ∧
      (∀ source ∈ plan.sources, ∀ other ∈ plan.sources,
        source.schema.name = other.schema.name → source = other) ∧
      ∀ record source, plan.sourceOf record = .ok source ↔
        source ∈ plan.sources ∧ source.schema = record.schema ∧
          ∀ id ∈ record.sourceId?, id = source.id := by
  obtain ⟨common, hcommon, ok, hkeys, hsources⟩ := exists_acceptable_of_build hbuild
  have hnames : (plan.keys.map fun key => key.name) = common.names := by
    rw [Criteria.names, ← hkeys, List.map_map]
    rfl
  refine ⟨common, hcommon, hkeys, ?_, plan.consistent.comparator_fits, ?_, ?_, ?_, ?_, ?_, ?_⟩
  · rw [List.map_map]
    exact hnames
  · rw [sourceIndex?_eq_idxOf?, hnames]
  · intro hmany
    obtain ⟨position, key, hposition, -, -⟩ := exists_sourceIndex? hmany
    rw [hposition]
    exact Option.some_ne_none position
  · rw [hsources, planned, List.map_map]
    have hordered := draft.ordered_perm
    rwa [← List.map_id draft.ordered] at hordered
  · intro source hsource
    exact hasSource_of_planned ok hkeys hsources hsource
  · intro source hsource other hother
    exact eq_of_mem_of_nodup_map plan.consistent.schemas_distinct hsource hother
  · intro record source
    exact sourceOf_eq_ok_iff

theorem build_consistent_clicks :
    Sample.draft.build = .ok Sample.plan ∧ Sample.plan.sourceIndex? = some 1 ∧
      ∀ source ∈ Sample.plan.sources,
        ((Sample.plan.order source).take 2).map some =
            ["user", sourceFieldName].map source.schema.indexOf? ∧
          ((Sample.plan.order source).drop
            (2 + (Sample.draft.specificNames source.id).length)).Pairwise (· < ·) := by
  have hbuild : Sample.draft.build = .ok Sample.plan :=
    build_eq_ok_iff.mpr ⟨by cbv, rfl, rfl⟩
  obtain ⟨common, hcommon, -, -, -, hindex, -, -, hsources, -, -⟩ := build_consistent hbuild
  obtain rfl := Option.some.inj hcommon
  refine ⟨hbuild, hindex, ?_⟩
  intro source hsource
  exact ⟨(hsources source hsource).order_common, (hsources source hsource).order_others⟩

end Draft

end Plan

end RecordRollup
