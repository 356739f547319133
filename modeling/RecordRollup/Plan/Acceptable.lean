import RecordRollup.Plan.Draft

/-!
Which drafts have no fault. The checks look for the first fault one after the other; here they
are told as one condition on the draft.
-/

namespace RecordRollup.Plan.Draft

structure Acceptable (draft : Draft) (common : Criteria) : Prop where
  common_ne_nil : common.elements ≠ []
  sources_ne_nil : draft.sources ≠ []
  names_distinct : (draft.sources.map fun source => source.2.name).Nodup
  ids_distinct : (draft.sources.map Prod.fst).Nodup
  common_fits : ∀ element ∈ common.elements, ∃ type : FieldType,
    (∀ source ∈ draft.sources, ⟨element.name, type⟩ ∈ source.2.fields) ∧
      ∀ named ∈ element.comparator,
        element.name ≠ sourceFieldName ∧ named.comparator.supports type
  source_common : 1 < draft.sources.length → sourceFieldName ∈ common.names
  specific_known : ∀ entry ∈ draft.specific, entry.1 ∈ draft.sources.map Prod.fst
  specific_once : (draft.specific.map Prod.fst).Nodup
  specific_fits : ∀ entry ∈ draft.specific, ∀ source ∈ draft.sources, source.1 = entry.1 →
    ∀ element ∈ entry.2.elements, element.name ∉ common.names ∧ element.comparator = none ∧
      ∃ field ∈ source.2.fields, field.name = element.name

theorem ordered_perm (draft : Draft) : draft.ordered.Perm draft.sources :=
  List.mergeSort_perm _ _

theorem mem_ordered {draft : Draft} {source : Int32 × Schema} :
    source ∈ draft.ordered ↔ source ∈ draft.sources :=
  draft.ordered_perm.mem_iff

theorem ordered_eq_nil_iff {draft : Draft} : draft.ordered = [] ↔ draft.sources = [] :=
  ⟨fun h => List.Perm.eq_nil (h ▸ draft.ordered_perm.symm),
    fun h => List.Perm.eq_nil (h ▸ draft.ordered_perm)⟩

theorem sourcesFault?_eq_none_iff {names : List String} {ids : List Int32}
    {sources : List (Int32 × Schema)} :
    sourcesFault? names ids sources = none ↔
      (sources.map fun source => source.2.name).Nodup ∧ (sources.map Prod.fst).Nodup ∧
        ∀ source ∈ sources, source.2.name ∉ names ∧ source.1 ∉ ids := by
  induction sources generalizing names ids with
  | nil => simp [sourcesFault?]
  | cons source sources ih =>
      obtain ⟨id, schema⟩ := source
      by_cases hname : schema.name ∈ names
      · simp [sourcesFault?, hname]
      · by_cases hid : id ∈ ids
        · simp [sourcesFault?, hname, hid]
        · rw [sourcesFault?, if_neg hname, if_neg hid, ih]
          simp only [List.map_cons, List.nodup_cons, List.mem_map, List.mem_cons, not_or,
            not_exists, not_and, forall_eq_or_imp]
          grind

theorem typesFault?_some_eq_none_iff {name : String} {type : FieldType} {schemas : List Schema} :
    typesFault? name (some type) schemas = none ↔
      ∀ schema ∈ schemas, schema.fieldNamed? name = some ⟨name, type⟩ := by
  induction schemas with
  | nil => simp [typesFault?]
  | cons schema schemas ih =>
      cases hfield : schema.fieldNamed? name with
      | none => simp [typesFault?, hfield]
      | some field =>
          obtain ⟨fieldName, fieldType⟩ := field
          obtain rfl : fieldName = name := (Schema.fieldNamed?_eq_some_iff.mp hfield).2
          by_cases htype : fieldType = type <;> simp [typesFault?, hfield, htype, ih]

theorem typesFault?_none_eq_none_iff {name : String} {schema : Schema} {schemas : List Schema} :
    typesFault? name none (schema :: schemas) = none ↔
      ∃ type, ∀ other ∈ schema :: schemas, other.fieldNamed? name = some ⟨name, type⟩ := by
  cases hfield : schema.fieldNamed? name with
  | none => simp [typesFault?, hfield]
  | some field =>
      obtain ⟨fieldName, fieldType⟩ := field
      obtain rfl : fieldName = name := (Schema.fieldNamed?_eq_some_iff.mp hfield).2
      simp [typesFault?, hfield, typesFault?_some_eq_none_iff]

theorem comparatorFault?_eq_none_iff {element : SortElement} {type : FieldType} :
    comparatorFault? element type = none ↔
      ∀ named ∈ element.comparator,
        element.name ≠ sourceFieldName ∧ named.comparator.supports type := by
  cases hcomparator : element.comparator with
  | none => simp [comparatorFault?, hcomparator]
  | some named =>
      by_cases hsource : element.name = sourceFieldName <;>
        simp [comparatorFault?, hcomparator, hsource]

theorem commonFault?_eq_none_iff {schema : Schema} {schemas : List Schema}
    {element : SortElement} :
    commonFault? (schema :: schemas) element = none ↔ ∃ type : FieldType,
      (∀ other ∈ schema :: schemas, ⟨element.name, type⟩ ∈ other.fields) ∧
        ∀ named ∈ element.comparator,
          element.name ≠ sourceFieldName ∧ named.comparator.supports type := by
  have hmem : ∀ (other : Schema) (type : FieldType),
      other.fieldNamed? element.name = some ⟨element.name, type⟩ ↔
        ⟨element.name, type⟩ ∈ other.fields := by
    simp [Schema.fieldNamed?_eq_some_iff]
  simp only [commonFault?, Option.or_eq_none_iff, Option.map_eq_none_iff,
    typesFault?_none_eq_none_iff, hmem, List.head?_cons, Option.bind_some]
  constructor
  · rintro ⟨⟨type, htype⟩, hcomparator⟩
    have hfirst := (hmem schema type).mpr (htype schema (by simp))
    simp only [hfirst, comparatorFault?_eq_none_iff] at hcomparator
    exact ⟨type, htype, hcomparator⟩
  · rintro ⟨type, htype, hcomparator⟩
    have hfirst := (hmem schema type).mpr (htype schema (by simp))
    refine ⟨⟨type, htype⟩, ?_⟩
    simpa only [hfirst, comparatorFault?_eq_none_iff] using hcomparator

theorem specificsFault?_eq_none_iff {known seen : List Int32}
    {specific : List (Int32 × Criteria)} :
    specificsFault? known seen specific = none ↔
      (∀ entry ∈ specific, entry.1 ∈ known ∧ entry.1 ∉ seen) ∧
        (specific.map Prod.fst).Nodup := by
  induction specific generalizing seen with
  | nil => simp [specificsFault?]
  | cons entry specific ih =>
      obtain ⟨id, criteria⟩ := entry
      by_cases hknown : id ∈ known
      · by_cases hseen : id ∈ seen
        · simp [specificsFault?, hknown, hseen]
        · rw [specificsFault?, if_neg (by simpa using hknown), if_neg hseen, ih]
          simp only [List.map_cons, List.nodup_cons, List.mem_map, List.mem_cons, not_or,
            not_exists, not_and, forall_eq_or_imp]
          grind
      · simp [specificsFault?, hknown]

theorem specificFault?_eq_none_iff {common : Criteria} {schema : Schema} {element : SortElement} :
    specificFault? common schema element = none ↔
      element.name ∉ common.names ∧ element.comparator = none ∧
        ∃ field ∈ schema.fields, field.name = element.name := by
  have hfield : (∃ field ∈ schema.fields, field.name = element.name) ↔
      schema.fieldNamed? element.name ≠ none := by
    simp [Option.ne_none_iff_exists', Schema.fieldNamed?_eq_some_iff]
  rw [hfield]
  by_cases hcommon : element.name ∈ common.names
  · simp [specificFault?, Criteria.contains, hcommon]
  · cases hcomparator : element.comparator with
    | some named => simp [specificFault?, Criteria.contains, hcommon, hcomparator]
    | none =>
        cases hfound : schema.fieldNamed? element.name <;>
          simp [specificFault?, Criteria.contains, hcommon, hcomparator, hfound]

theorem specificOf?_eq_some_iff {draft : Draft}
    (once : (draft.specific.map Prod.fst).Nodup) {id : Int32} {criteria : Criteria} :
    draft.specificOf? id = some criteria ↔ (id, criteria) ∈ draft.specific := by
  simp only [specificOf?, Option.map_eq_some_iff, find?_part_eq_some_iff once]
  constructor
  · rintro ⟨⟨otherId, other⟩, ⟨hmem, rfl⟩, rfl⟩
    exact hmem
  · exact fun hmem => ⟨(id, criteria), ⟨hmem, rfl⟩, rfl⟩

theorem sourceFault?_eq_none_iff {draft : Draft} {common : Criteria}
    (once : (draft.specific.map Prod.fst).Nodup) :
    (∀ source ∈ draft.sources, draft.sourceFault? common source = none) ↔
      ∀ entry ∈ draft.specific, ∀ source ∈ draft.sources, source.1 = entry.1 →
        ∀ element ∈ entry.2.elements, element.name ∉ common.names ∧ element.comparator = none ∧
          ∃ field ∈ source.2.fields, field.name = element.name := by
  simp only [sourceFault?, Option.bind_eq_none_iff, specificOf?_eq_some_iff once,
    List.findSome?_eq_none_iff, specificFault?_eq_none_iff]
  constructor
  · rintro h ⟨id, criteria⟩ hentry source hsource rfl
    exact h source hsource criteria hentry
  · intro h source hsource criteria hentry
    exact h (source.1, criteria) hentry source hsource rfl

theorem fault?_eq_none_iff {draft : Draft} :
    draft.fault? = none ↔ ∃ common, draft.common = some common ∧ draft.Acceptable common := by
  cases hcommon : draft.common with
  | none => simp [fault?, hcommon]
  | some common =>
      simp only [fault?, hcommon, Option.some.injEq, exists_eq_left', setupFault?,
        Option.or_eq_none_iff, Option.map_eq_none_iff, List.findSome?_eq_none_iff, mem_ordered,
        sourcesFault?_eq_none_iff, specificsFault?_eq_none_iff, List.not_mem_nil, not_false_eq_true,
        and_true, implies_true]
      have hempty : draft.emptyFault? common = none ↔
          common.elements ≠ [] ∧ draft.sources ≠ [] := by
        by_cases hnil : common.elements = [] <;> simp [emptyFault?, hnil]
      have hdiscriminator : draft.discriminatorFault? common = none ↔
          (1 < draft.sources.length → sourceFieldName ∈ common.names) := by
        simp [discriminatorFault?, Criteria.contains]
      rw [hempty, hdiscriminator]
      have helements : draft.sources ≠ [] →
          ((∀ element ∈ common.elements,
              commonFault? (draft.ordered.map Prod.snd) element = none) ↔
            ∀ element ∈ common.elements, ∃ type : FieldType,
              (∀ source ∈ draft.sources, ⟨element.name, type⟩ ∈ source.2.fields) ∧
                ∀ named ∈ element.comparator,
                  element.name ≠ sourceFieldName ∧ named.comparator.supports type) := by
        intro hsources
        have hmem : ∀ source, source ∈ draft.sources ↔ source ∈ draft.ordered :=
          fun _ => mem_ordered.symm
        cases hordered : draft.ordered with
        | nil => exact absurd (ordered_eq_nil_iff.mp hordered) hsources
        | cons source rest =>
            simp only [hmem, hordered, List.map_cons, commonFault?_eq_none_iff, List.mem_cons,
              forall_eq_or_imp, List.mem_map, forall_exists_index, and_imp,
              forall_apply_eq_imp_iff₂]
      constructor
      · rintro ⟨⟨⟨hcommonNil, hsourcesNil⟩, ⟨hnames, hids⟩, hfits, hsource, hknown, honce⟩, hspecific⟩
        exact ⟨hcommonNil, hsourcesNil, hnames, hids, (helements hsourcesNil).mp hfits, hsource,
          hknown, honce, (sourceFault?_eq_none_iff honce).mp hspecific⟩
      · intro ok
        exact ⟨⟨⟨ok.common_ne_nil, ok.sources_ne_nil⟩, ⟨ok.names_distinct, ok.ids_distinct⟩,
          (helements ok.sources_ne_nil).mpr ok.common_fits, ok.source_common, ok.specific_known,
          ok.specific_once⟩, (sourceFault?_eq_none_iff ok.specific_once).mpr ok.specific_fits⟩

end RecordRollup.Plan.Draft
