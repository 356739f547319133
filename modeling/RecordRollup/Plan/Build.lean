import RecordRollup.Plan.Acceptable

/-!
Building plans from drafts. A draft without fault makes a consistent plan.
-/

namespace RecordRollup

namespace Schema

theorem mem_sortKeys {schema : Schema} {elements : List SortElement} {key : SortKey} :
    key ∈ schema.sortKeys elements ↔
      key.toSortElement ∈ elements ∧ key.field ∈ schema.fields := by
  simp only [sortKeys, List.mem_filterMap, Option.map_eq_some_iff, fieldNamed?_eq_some_iff]
  constructor
  · rintro ⟨element, helement, ⟨name, type⟩, ⟨hfield, rfl⟩, rfl⟩
    exact ⟨helement, hfield⟩
  · rintro ⟨helement, hfield⟩
    exact ⟨key.toSortElement, helement, key.field, ⟨hfield, rfl⟩, rfl⟩

theorem sortKeys_elements {schema : Schema} {elements : List SortElement}
    (hall : ∀ element ∈ elements, ∃ field ∈ schema.fields, field.name = element.name) :
    (schema.sortKeys elements).map SortKey.toSortElement = elements := by
  induction elements with
  | nil => rfl
  | cons element elements ih =>
      obtain ⟨field, hfield, hname⟩ := hall element (by simp)
      have hfound : schema.fieldNamed? element.name = some field :=
        fieldNamed?_eq_some_iff.mpr ⟨hfield, hname⟩
      have hrest := ih fun other hother => hall other (by simp [hother])
      simp only [sortKeys] at hrest
      simp [sortKeys, hfound, hrest]

end Schema

namespace Plan.Draft

variable {draft : Draft} {common : Criteria}

/-- Sources with distinct ids are ordered in one way only. -/
theorem pairwise_ordered (distinct : (draft.sources.map Prod.fst).Nodup) :
    draft.ordered.Pairwise fun left right => left.1 < right.1 := by
  have sorted : draft.ordered.Pairwise fun left right => left.1 ≤ right.1 := by
    have sorted := @List.pairwise_mergeSort _
      (fun left right : Int32 × Schema => decide (left.1 ≤ right.1))
      (by simpa using fun _ _ _ _ _ _ => Int32.le_trans)
      (by simpa using fun _ _ _ _ => Int32.le_total _ _) draft.sources
    simpa [ordered] using sorted
  have distinct : draft.ordered.Pairwise fun left right => left.1 ≠ right.1 :=
    List.pairwise_map.mp ((draft.ordered_perm.map Prod.fst).nodup_iff.mpr distinct)
  exact (sorted.and distinct).imp fun h => Int32.lt_of_le_of_ne h.1 h.2

theorem Acceptable.ordered_ascending (ok : draft.Acceptable common) :
    draft.ordered.Pairwise fun left right => left.1 < right.1 :=
  pairwise_ordered ok.ids_distinct

theorem keys_eq (hcommon : draft.common = some common) {source : Int32 × Schema}
    {rest : List (Int32 × Schema)} (hordered : draft.ordered = source :: rest) :
    draft.keys = source.2.sortKeys common.elements := by
  simp [keys, hcommon, hordered]

/-- The keys of an acceptable draft are its common elements, with types that fit every source. -/
theorem Acceptable.keys_elements (ok : draft.Acceptable common)
    (hcommon : draft.common = some common) :
    draft.keys.map SortKey.toSortElement = common.elements := by
  cases hordered : draft.ordered with
  | nil => exact absurd (ordered_eq_nil_iff.mp hordered) ok.sources_ne_nil
  | cons source rest =>
      rw [keys_eq hcommon hordered]
      refine Schema.sortKeys_elements fun element helement => ?_
      obtain ⟨type, htype, -⟩ := ok.common_fits element helement
      exact ⟨_, htype source (mem_ordered.mp (by simp [hordered])), rfl⟩

theorem Acceptable.mem_keys (ok : draft.Acceptable common) (hcommon : draft.common = some common)
    {key : SortKey} :
    key ∈ draft.keys ↔ key.toSortElement ∈ common.elements ∧
      ∀ source ∈ draft.sources, key.field ∈ source.2.fields := by
  cases hordered : draft.ordered with
  | nil => exact absurd (ordered_eq_nil_iff.mp hordered) ok.sources_ne_nil
  | cons first rest =>
      have hfirst : first ∈ draft.sources := mem_ordered.mp (by simp [hordered])
      rw [keys_eq hcommon hordered, Schema.mem_sortKeys]
      refine and_congr_right fun helement => ⟨fun hfield => ?_, fun hall => hall first hfirst⟩
      obtain ⟨type, htype, -⟩ := ok.common_fits _ helement
      have heq : key.field = ⟨key.name, type⟩ :=
        eq_of_mem_of_nodup_map first.2.wellNamed.distinct hfield (htype first hfirst) rfl
      exact fun source hsource => heq ▸ htype source hsource

theorem mem_planned {source : Source} :
    source ∈ draft.planned ↔ (source.id, source.schema) ∈ draft.sources ∧
      source.specific = (draft.specificOf? source.id).map fun criteria =>
        source.schema.sortKeys criteria.elements := by
  simp only [planned, List.mem_map, mem_ordered]
  constructor
  · rintro ⟨⟨id, schema⟩, hmem, rfl⟩
    exact ⟨hmem, rfl⟩
  · rintro ⟨hmem, hspecific⟩
    exact ⟨_, hmem, by rw [← hspecific]⟩

theorem Acceptable.specificKeys_elements (ok : draft.Acceptable common) {source : Source}
    (hsource : source ∈ draft.planned) :
    source.specificKeys = [] ∨ ∃ criteria, (source.id, criteria) ∈ draft.specific ∧
      source.specificKeys = source.schema.sortKeys criteria.elements ∧
      source.specificKeys.map SortKey.toSortElement = criteria.elements := by
  obtain ⟨hmem, hspecific⟩ := mem_planned.mp hsource
  cases hfound : draft.specificOf? source.id with
  | none => simp [Source.specificKeys, hspecific, hfound]
  | some criteria =>
      have hentry := (specificOf?_eq_some_iff ok.specific_once).mp hfound
      have hkeys : source.specificKeys = source.schema.sortKeys criteria.elements := by
        simp [Source.specificKeys, hspecific, hfound]
      refine .inr ⟨criteria, hentry, hkeys, ?_⟩
      rw [hkeys]
      exact Schema.sortKeys_elements fun element helement =>
        (ok.specific_fits _ hentry _ hmem rfl element helement).2.2

theorem Acceptable.consistent (ok : draft.Acceptable common)
    (hcommon : draft.common = some common) : Consistent draft.keys draft.planned where
  keys_ne_nil hnil := ok.common_ne_nil (by simpa [hnil] using (ok.keys_elements hcommon).symm)
  sources_ne_nil hnil :=
    ok.sources_ne_nil (ordered_eq_nil_iff.mp (List.map_eq_nil_iff.mp hnil))
  keys_distinct := by
    have hnames := common.distinct
    rw [← ok.keys_elements hcommon, List.map_map] at hnames
    exact hnames
  sources_ascending := List.pairwise_map.mpr ok.ordered_ascending
  schemas_distinct := by
    have hnames := (draft.ordered_perm.map fun source => source.2.name).nodup_iff.mpr
      ok.names_distinct
    simpa [planned, Function.comp_def] using hnames
  common_mem source hsource key hkey :=
    ((ok.mem_keys hcommon).mp hkey).2 _ (mem_planned.mp hsource).1
  comparator_fits key hkey named hnamed := by
    obtain ⟨helement, hfields⟩ := (ok.mem_keys hcommon).mp hkey
    obtain ⟨type, htype, hfits⟩ := ok.common_fits _ helement
    obtain ⟨first, hfirst⟩ := List.exists_mem_of_ne_nil _ ok.sources_ne_nil
    have heq : key.field = ⟨key.name, type⟩ :=
      eq_of_mem_of_nodup_map first.2.wellNamed.distinct (hfields first hfirst)
        (htype first hfirst) rfl
    have hkeyType : key.type = type := congrArg Field.type heq
    exact hkeyType ▸ hfits named hnamed
  source_key hmany := by
    have hmem := ok.source_common (by simpa [planned, draft.ordered_perm.length_eq] using hmany)
    rw [Criteria.names, ← ok.keys_elements hcommon, List.map_map, List.mem_map] at hmem
    exact hmem
  specific_mem source hsource key hkey := by
    obtain ⟨hmem, -⟩ := mem_planned.mp hsource
    rcases ok.specificKeys_elements hsource with hnil | ⟨criteria, hentry, hkeys, -⟩
    · simp [hnil] at hkey
    · obtain ⟨helement, hfield⟩ := Schema.mem_sortKeys.mp (hkeys ▸ hkey)
      obtain ⟨hnew, hplain, -⟩ := ok.specific_fits _ hentry _ hmem rfl _ helement
      refine ⟨hfield, hplain, fun other hother heq => hnew ?_⟩
      rw [heq, Criteria.names]
      exact List.mem_map_of_mem ((ok.mem_keys hcommon).mp hother).1
  specific_distinct source hsource := by
    rcases ok.specificKeys_elements hsource with hnil | ⟨criteria, -, -, helements⟩
    · simp [hnil]
    · have hnames := criteria.distinct
      rw [← helements, List.map_map] at hnames
      exact hnames

theorem consistent_of_fault?_eq_none (hfault : draft.fault? = none) :
    Consistent draft.keys draft.planned := by
  obtain ⟨common, hcommon, ok⟩ := fault?_eq_none_iff.mp hfault
  exact ok.consistent hcommon

def build (draft : Draft) : Except Error Plan :=
  match hfault : draft.fault? with
  | some error => .error error
  | none => .ok ⟨draft.keys, draft.planned, consistent_of_fault?_eq_none hfault⟩

theorem build_eq_ok_iff {plan : Plan} :
    draft.build = .ok plan ↔
      draft.fault? = none ∧ plan.keys = draft.keys ∧ plan.sources = draft.planned := by
  simp only [build]
  split
  · next error hfault => simp [hfault]
  · next hfault =>
      cases plan
      simp [hfault, eq_comm]

def layoutLine (common : Criteria) (specific : Option Criteria) (source : Int32 × Schema) :
    Log.Line :=
  let names := common.names ++ (specific.map Criteria.names).getD []
  let fields := (source.2.layout names).filterMap (source.2.fields[·]?)
  ⟨.debug, s!"Source {source.1.toInt} ('{source.2.name}'): ordered layout " ++
    Text.quotedList (fields.map Field.name)⟩

/-- What is said while a plan is built, as far as building comes. -/
def log (draft : Draft) : List Log.Line :=
  match draft.common with
  | none => []
  | some common =>
      if (draft.setupFault? common).isSome then []
      else
        let idle := draft.sources.length ≤ 1 && !draft.specific.isEmpty
        let sound := draft.ordered.takeWhile fun source => (draft.sourceFault? common source).isNone
        (if idle then
          [⟨.warn, "Specific sort criteria on a single-source plan never break ties and are ignored"⟩]
        else []) ++
        sound.map (fun source => layoutLine common (draft.specificOf? source.1) source) ++
        (if sound.length = draft.sources.length then
          [⟨.info, s!"Built sort plan: {draft.sources.length} source(s), " ++
            s!"common criteria '{common.text}'"⟩]
        else [])

def single (schema : Schema) (criteria : Criteria) : Draft :=
  (empty.addSource 0 schema).setCommon criteria

end Plan.Draft

end RecordRollup
