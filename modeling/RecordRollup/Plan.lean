import RecordRollup.Criteria
import RecordRollup.Record

/-!
Plans: the sources whose records are sorted together, the sort keys that all of them share, and the
further keys of single sources. A plan is consistent by its type; `Plan.Draft` builds plans.
-/

namespace RecordRollup

structure SortKey extends SortElement where
  type : FieldType

namespace SortKey

def field (key : SortKey) : Field :=
  ⟨key.name, key.type⟩

end SortKey

namespace Schema

def sortKeys (schema : Schema) (elements : List SortElement) : List SortKey :=
  elements.filterMap fun element =>
    (schema.fieldNamed? element.name).map fun field => { element with type := field.type }

/-- The positions of the fields in the order in which they are written: those with the given names
first, then the others as they stand in the schema. -/
def layout (schema : Schema) (names : List String) : List Nat :=
  let first := names.filterMap schema.indexOf?
  first ++ (List.range schema.size).filter (· ∉ first)

end Schema

structure Source where
  id : Int32
  schema : Schema
  /-- The keys that order records of this source that agree on all common keys. -/
  specific : Option (List SortKey)

def Source.specificKeys (source : Source) : List SortKey :=
  source.specific.getD []

/-- What every plan is checked for when it is built, so that no later operation has to. -/
structure Plan.Consistent (keys : List SortKey) (sources : List Source) : Prop where
  keys_ne_nil : keys ≠ []
  sources_ne_nil : sources ≠ []
  keys_distinct : (keys.map fun key => key.name).Nodup
  sources_ascending : sources.Pairwise fun left right => left.id < right.id
  schemas_distinct : (sources.map fun source => source.schema.name).Nodup
  common_mem : ∀ source ∈ sources, ∀ key ∈ keys, key.field ∈ source.schema.fields
  comparator_fits : ∀ key ∈ keys, ∀ named ∈ key.comparator,
    key.name ≠ sourceFieldName ∧ named.comparator.supports key.type
  source_key : 1 < sources.length → ∃ key ∈ keys, key.name = sourceFieldName
  specific_mem : ∀ source ∈ sources, ∀ key ∈ source.specificKeys,
    key.field ∈ source.schema.fields ∧ key.comparator = none ∧
      ∀ common ∈ keys, key.name ≠ common.name
  specific_distinct : ∀ source ∈ sources, (source.specificKeys.map fun key => key.name).Nodup

/-- Sources by ascending id, and the sort keys that they have in common. -/
structure Plan where
  keys : List SortKey
  sources : List Source
  consistent : Plan.Consistent keys sources

namespace Plan

def common (plan : Plan) : Criteria where
  elements := plan.keys.map SortKey.toSortElement
  distinct := by simpa [Function.comp_def] using plan.consistent.keys_distinct

def sourceIndex? (plan : Plan) : Option Nat :=
  plan.keys.findIdx? (·.name = sourceFieldName)

def isMultiSource (plan : Plan) : Bool :=
  1 < plan.sources.length

def source? (plan : Plan) (id : Int32) : Option Source :=
  plan.sources.find? (·.id = id)

def soleSource? (plan : Plan) : Option Source :=
  match plan.sources with
  | [source] => some source
  | _ => none

def schema? (plan : Plan) (name : String) : Option Schema :=
  (plan.sources.map Source.schema).find? (·.name = name)

def order (plan : Plan) (source : Source) : List Nat :=
  source.schema.layout
    (plan.keys.map (fun key => key.name) ++ source.specificKeys.map fun key => key.name)

/-- The source that a record belongs to by its schema. A source id that the record carries has to
be that of the source. -/
def sourceOf (plan : Plan) (record : Record) : Except Error Source :=
  match plan.sources.find? (·.schema = record.schema) with
  | none => .error (.field (.unregisteredSchema record.schema.name))
  | some source =>
      match record.sourceId? with
      | none => .ok source
      | some id =>
          if id = source.id then .ok source
          else .error (.field (.otherSource record.schema.name id source.id))

end Plan

end RecordRollup
