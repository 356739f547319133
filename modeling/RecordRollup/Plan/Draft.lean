import RecordRollup.Plan

/-!
Drafts of plans: what is asked for, in the order in which it was asked for, and the first thing that
is wrong with it.
-/

namespace RecordRollup.Plan

/-- Sources, common criteria and specific criteria as given, not yet checked against each other. -/
structure Draft where
  sources : List (Int32 × Schema)
  common : Option Criteria
  specific : List (Int32 × Criteria)

namespace Draft

def empty : Draft := ⟨[], none, []⟩

def addSource (draft : Draft) (id : Int32) (schema : Schema) : Draft :=
  { draft with sources := draft.sources ++ [(id, schema)] }

def setCommon (draft : Draft) (criteria : Criteria) : Draft :=
  { draft with common := some criteria }

def addSpecific (draft : Draft) (id : Int32) (criteria : Criteria) : Draft :=
  { draft with specific := draft.specific ++ [(id, criteria)] }

def ordered (draft : Draft) : List (Int32 × Schema) :=
  draft.sources.mergeSort fun left right => left.1 ≤ right.1

def specificOf? (draft : Draft) (id : Int32) : Option Criteria :=
  (draft.specific.find? (·.1 = id)).map Prod.snd

/-- The first source whose schema name or id was used before. -/
def sourcesFault? (names : List String) (ids : List Int32) :
    List (Int32 × Schema) → Option PlanFault
  | [] => none
  | (id, schema) :: rest =>
      if schema.name ∈ names then some (.repeatedSchema schema.name)
      else if id ∈ ids then some (.repeatedSource id)
      else sourcesFault? (schema.name :: names) (id :: ids) rest

/-- The first schema that has no field of a name, or one of another type than the schemas before
it. -/
def typesFault? (name : String) : (type : Option FieldType) → List Schema → Option PlanFault
  | _, [] => none
  | type, schema :: rest =>
      match schema.fieldNamed? name with
      | none => some (.missingCommonField name schema.name)
      | some field =>
          match type with
          | none => typesFault? name (some field.type) rest
          | some type =>
              if field.type = type then typesFault? name (some type) rest
              else some (.conflictingTypes name type field.type schema.name)

def comparatorFault? (element : SortElement) (type : FieldType) : Option Error :=
  match element.comparator with
  | none => none
  | some named =>
      if element.name = sourceFieldName then
        some (.unsupportedComparator named.id element.name .sourceField)
      else if named.comparator.supports type then none
      else some (.unsupportedComparator named.id element.name (.unsupportedType type))

/-- What is wrong with a common element; its type is that of its field in the first schema. -/
def commonFault? (schemas : List Schema) (element : SortElement) : Option Error :=
  ((typesFault? element.name none schemas).map Error.plan).or
    (match schemas.head?.bind (·.fieldNamed? element.name) with
    | none => some (.internal .noSchemas)
    | some field => comparatorFault? element field.type)

/-- The first specific criteria for a source that is not there or already has one. -/
def specificsFault? (known seen : List Int32) : List (Int32 × Criteria) → Option PlanFault
  | [] => none
  | (id, _) :: rest =>
      if id ∉ known then some (.unknownSource id)
      else if id ∈ seen then some (.repeatedSpecific id)
      else specificsFault? known (id :: seen) rest

def specificFault? (common : Criteria) (schema : Schema) (element : SortElement) : Option Error :=
  if common.contains element.name then some (.plan (.alreadyCommon element.name schema.name))
  else
    match element.comparator with
    | some named => some (.unsupportedComparator named.id element.name .specificField)
    | none =>
        match schema.fieldNamed? element.name with
        | none => some (.plan (.missingSpecificField element.name schema.name))
        | some _ => none

def sourceFault? (draft : Draft) (common : Criteria) (source : Int32 × Schema) : Option Error :=
  (draft.specificOf? source.1).bind fun criteria =>
    criteria.elements.findSome? (specificFault? common source.2)

def emptyFault? (draft : Draft) (common : Criteria) : Option PlanFault :=
  if common.elements.isEmpty then some .emptyCriteria
  else if draft.sources.isEmpty then some .noSources
  else none

def discriminatorFault? (draft : Draft) (common : Criteria) : Option PlanFault :=
  if 1 < draft.sources.length ∧ !common.contains sourceFieldName then some .noSourceField else none

/-- The first fault of a draft, leaving aside the elements of the specific criteria. -/
def setupFault? (draft : Draft) (common : Criteria) : Option Error :=
  ((draft.emptyFault? common).map Error.plan).or <|
  ((sourcesFault? [] [] draft.sources).map Error.plan).or <|
  (common.elements.findSome? (commonFault? (draft.ordered.map Prod.snd))).or <|
  ((draft.discriminatorFault? common).map Error.plan).or <|
  (specificsFault? (draft.sources.map Prod.fst) [] draft.specific).map Error.plan

def fault? (draft : Draft) : Option Error :=
  match draft.common with
  | none => some (.plan .noCriteria)
  | some common =>
      (draft.setupFault? common).or (draft.ordered.findSome? (draft.sourceFault? common))

def keys (draft : Draft) : List SortKey :=
  match draft.common, draft.ordered with
  | some common, (_, schema) :: _ => schema.sortKeys common.elements
  | _, _ => []

def planned (draft : Draft) : List Source :=
  draft.ordered.map fun (id, schema) =>
    ⟨id, schema, (draft.specificOf? id).map fun criteria => schema.sortKeys criteria.elements⟩

end Draft

end RecordRollup.Plan
