import Mathlib
import RecordRollup.Plan

namespace RecordRollup

namespace Schema

theorem indexOf?_eq_some_iff {schema : Schema} {name : String} {position : Nat} :
    schema.indexOf? name = some position ↔
      ∃ field, schema.fields[position]? = some field ∧ field.name = name := by
  rw [indexOf?, List.findIdx?_eq_some_iff_getElem]
  constructor
  · rintro ⟨hposition, hname, -⟩
    exact ⟨_, List.getElem?_eq_getElem hposition, by simpa using hname⟩
  · rintro ⟨field, hfield, rfl⟩
    obtain ⟨hposition, rfl⟩ := List.getElem?_eq_some_iff.mp hfield
    have hdistinct := List.pairwise_iff_getElem.mp
      (List.pairwise_map.mp schema.wellNamed.distinct)
    refine ⟨hposition, by simp, ?_⟩
    intro earlier hearlier heq
    exact hdistinct earlier position (hearlier.trans hposition) hposition hearlier
      (by simpa using heq)

def positionsOf (schema : Schema) (keys : List SortKey) : List Nat :=
  (keys.map fun key => key.name).filterMap schema.indexOf?

theorem positionsOf_fields {schema : Schema} {keys : List SortKey}
    (hkeys : ∀ key ∈ keys, key.field ∈ schema.fields) :
    List.Forall₂ (fun key position => schema.fields[position]? = some key.field) keys
      (schema.positionsOf keys) := by
  induction keys with
  | nil => exact .nil
  | cons key keys ih =>
      obtain ⟨position, hposition⟩ := List.getElem?_of_mem (hkeys key (by simp))
      have hindex : schema.indexOf? key.name = some position :=
        indexOf?_eq_some_iff.mpr ⟨key.field, hposition, rfl⟩
      have hrest := ih fun other hother => hkeys other (by simp [hother])
      simpa [positionsOf, hindex, hposition] using hrest

theorem mem_layout {schema : Schema} {names : List String} {position : Nat} :
    position ∈ schema.layout names ↔ position < schema.size := by
  have hbound : position ∈ names.filterMap schema.indexOf? → position < schema.size := by
    intro hmem
    obtain ⟨name, -, hname⟩ := List.mem_filterMap.mp hmem
    obtain ⟨field, hfield, -⟩ := indexOf?_eq_some_iff.mp hname
    exact (List.getElem?_eq_some_iff.mp hfield).1
  simp only [layout, List.mem_append, List.mem_filter, List.mem_range, decide_not]
  grind

theorem nodup_layout {schema : Schema} {names : List String} (hnames : names.Nodup) :
    (schema.layout names).Nodup := by
  rw [layout, List.nodup_append]
  refine ⟨?_, List.nodup_range.filter _, ?_⟩
  · refine hnames.filterMap ?_
    intro left right position hleft hright
    obtain ⟨field, hfield, rfl⟩ := indexOf?_eq_some_iff.mp hleft
    obtain ⟨other, hother, rfl⟩ := indexOf?_eq_some_iff.mp hright
    rw [Option.some.inj (hfield.symm.trans hother)]
  · intro position hfirst other hother heq
    have habsent := (List.mem_filter.mp hother).2
    simp [← heq, hfirst] at habsent

end Schema

namespace Plan

variable (plan : Plan) (source : Source)

/-- The positions behind those of all keys. -/
def otherPositions : List Nat :=
  (List.range source.schema.size).filter fun position =>
    position ∉ source.schema.positionsOf plan.keys ++
      source.schema.positionsOf source.specificKeys

theorem order_eq_append :
    plan.order source = source.schema.positionsOf plan.keys ++
      (source.schema.positionsOf source.specificKeys ++ plan.otherPositions source) := by
  simp only [order, Schema.layout, otherPositions, Schema.positionsOf, List.filterMap_append,
    List.append_assoc]
  rfl

theorem mem_order {plan : Plan} {source : Source} {position : Nat} :
    position ∈ plan.order source ↔ position < source.schema.size :=
  Schema.mem_layout

theorem nodup_order {plan : Plan} {source : Source} (hsource : source ∈ plan.sources) :
    (plan.order source).Nodup := by
  refine Schema.nodup_layout (List.nodup_append.mpr
    ⟨plan.consistent.keys_distinct, plan.consistent.specific_distinct source hsource, ?_⟩)
  intro name hname other hother
  obtain ⟨common, hcommon, rfl⟩ := List.mem_map.mp hname
  obtain ⟨key, hkey, rfl⟩ := List.mem_map.mp hother
  exact ((plan.consistent.specific_mem source hsource key hkey).2.2 common hcommon).symm

end Plan

namespace Record

/-- The value at a position, with null beyond the last one. -/
def valueAt (record : Record) (position : Nat) : Value :=
  record.values.getD position .null

theorem getElem?_values {record : Record} {position : Nat}
    (hposition : position < record.schema.size) :
    record.values[position]? = some (record.valueAt position) := by
  have hsize : position < record.values.length := record.size_eq ▸ hposition
  simp [valueAt, hsize]

theorem mem_values_iff {record : Record} {value : Value} :
    value ∈ record.values ↔
      ∃ position, position < record.schema.size ∧ record.valueAt position = value := by
  constructor
  · intro hvalue
    obtain ⟨position, hposition, heq⟩ := List.mem_iff_getElem.mp hvalue
    refine ⟨position, record.size_eq ▸ hposition, ?_⟩
    rw [valueAt, List.getD_eq_getElem _ _ hposition, heq]
  · rintro ⟨position, hposition, rfl⟩
    exact List.mem_of_getElem? (getElem?_values hposition)

theorem get_eq_valueAt {record : Record} {position : Nat}
    (hposition : position < record.schema.size) :
    record.get position = .ok (record.valueAt position) := by
  rw [get, getElem?_values hposition]

theorem getNamed_eq_valueAt {record : Record} {field : Field} {position : Nat}
    (hfield : record.schema.fields[position]? = some field) :
    record.getNamed field.name = .ok (record.valueAt position) := by
  have hindex : record.schema.indexOf? field.name = some position :=
    Schema.indexOf?_eq_some_iff.mpr ⟨field, hfield, rfl⟩
  have hposition : position < record.schema.size := (List.getElem?_eq_some_iff.mp hfield).1
  rw [getNamed, getNamed?, hindex, Option.bind_some, getElem?_values hposition]

def valuesFor (record : Record) (keys : List SortKey) : List Value :=
  (record.schema.positionsOf keys).map record.valueAt

theorem getNamed_valuesFor {record : Record} {keys : List SortKey}
    (hkeys : ∀ key ∈ keys, key.field ∈ record.schema.fields) :
    List.Forall₂ (fun key value => record.getNamed key.name = .ok value) keys
      (record.valuesFor keys) := by
  rw [valuesFor, List.forall₂_map_right_iff]
  refine (Schema.positionsOf_fields hkeys).imp ?_
  intro key position hfield
  exact getNamed_eq_valueAt hfield

theorem valuesFor_congr {record other : Record} {keys : List SortKey}
    (hschema : record.schema = other.schema)
    (hsame : ∀ key ∈ keys, record.getNamed key.name = other.getNamed key.name) :
    record.valuesFor keys = other.valuesFor keys := by
  rw [valuesFor, valuesFor, ← hschema]
  refine List.map_congr_left fun position hposition => ?_
  obtain ⟨name, hname, hindex⟩ := List.mem_filterMap.mp hposition
  obtain ⟨key, hkey, rfl⟩ := List.mem_map.mp hname
  obtain ⟨field, hfield, heq⟩ := Schema.indexOf?_eq_some_iff.mp hindex
  have hvalues := hsame key hkey
  rw [← heq, getNamed_eq_valueAt hfield, getNamed_eq_valueAt (hschema ▸ hfield)] at hvalues
  exact Except.ok.inj hvalues

theorem getNamed_of_getElem? {record : Record} {keys : List SortKey} {values : List Value}
    (hnamed : List.Forall₂ (fun key value => record.getNamed key.name = .ok value) keys values)
    {position : Nat} {key : SortKey} {value : Value} (hkey : keys[position]? = some key)
    (hvalue : values[position]? = some value) : record.getNamed key.name = .ok value := by
  obtain ⟨hkeyBound, rfl⟩ := List.getElem?_eq_some_iff.mp hkey
  obtain ⟨hvalueBound, rfl⟩ := List.getElem?_eq_some_iff.mp hvalue
  exact hnamed.get hkeyBound hvalueBound

end Record

namespace Plan

variable {plan : Plan} {source : Source}

theorem schemas_nodup (plan : Plan) : (plan.sources.map Source.schema).Nodup := by
  have hnames := plan.consistent.schemas_distinct
  rw [← Function.comp_def, ← List.map_map] at hnames
  exact hnames.of_map

theorem ids_nodup (plan : Plan) : (plan.sources.map Source.id).Nodup :=
  List.pairwise_map.mpr (plan.consistent.sources_ascending.imp fun hless => Int32.ne_of_lt hless)

theorem source?_eq_some_iff {id : Int32} :
    plan.source? id = some source ↔ source ∈ plan.sources ∧ source.id = id :=
  find?_part_eq_some_iff plan.ids_nodup

theorem sourceOf_eq_ok_iff {record : Record} :
    plan.sourceOf record = .ok source ↔ source ∈ plan.sources ∧ source.schema = record.schema ∧
      ∀ id ∈ record.sourceId?, id = source.id := by
  rw [← and_assoc, ← find?_part_eq_some_iff plan.schemas_nodup, sourceOf]
  cases hfound : plan.sources.find? (fun other => decide (other.schema = record.schema)) with
  | none => simp
  | some found =>
      cases hid : record.sourceId? with
      | none => simp
      | some id =>
          rcases eq_or_ne id found.id with heq | hne
          · simp only [if_pos heq, Except.ok.injEq, Option.some.injEq]
            constructor
            · rintro rfl
              exact ⟨rfl, by simpa using heq⟩
            · exact And.left
          · simp only [if_neg hne, reduceCtorEq, false_iff, Option.some.injEq]
            rintro ⟨rfl, hids⟩
            exact hne (hids id rfl)

theorem exists_source_key (hmany : plan.isMultiSource = true) :
    ∃ key ∈ plan.keys, key.name = sourceFieldName :=
  plan.consistent.source_key (by simpa [isMultiSource] using hmany)

theorem soleSource?_eq_some (hsource : source ∈ plan.sources)
    (hsole : plan.isMultiSource = false) : plan.soleSource? = some source := by
  have hfew : plan.sources.length ≤ 1 := by simpa [isMultiSource] using hsole
  match hsources : plan.sources with
  | [] => simp [hsources] at hsource
  | [only] =>
      obtain rfl : source = only := by simpa [hsources] using hsource
      simp [soleSource?, hsources]
  | _ :: _ :: _ => simp [hsources] at hfew

theorem soleSource?_eq_none (hmany : plan.isMultiSource = true) : plan.soleSource? = none := by
  have hmore : 1 < plan.sources.length := by simpa [isMultiSource] using hmany
  match hsources : plan.sources with
  | [] => simp [hsources] at hmore
  | [_] => simp [hsources] at hmore
  | _ :: _ :: _ => simp [soleSource?, hsources]

theorem comparator_of_source {key : SortKey} (hkey : key ∈ plan.keys)
    (hname : key.name = sourceFieldName) : key.comparator = none := by
  cases hcomparator : key.comparator with
  | none => rfl
  | some named =>
      exact absurd hname (plan.consistent.comparator_fits key hkey named hcomparator).1

end Plan

end RecordRollup
