import RecordRollup.Distinct
import RecordRollup.Error

/-!
Schemas: named lists of typed fields. The fields of a schema have distinct names, none of them
empty, and the field that holds the source of a record is a 32-bit varint.
-/

namespace RecordRollup

structure Field where
  name : String
  type : FieldType
deriving DecidableEq, Repr

namespace Field

def source : Field :=
  ⟨sourceFieldName, .varInt32⟩

def isSource (field : Field) : Bool :=
  field.name = sourceFieldName

def text (field : Field) : String :=
  field.name ++ ":" ++ field.type.keyword

end Field

structure WellNamed (fields : List Field) : Prop where
  named : ∀ field ∈ fields, field.name ≠ ""
  distinct : (fields.map Field.name).Nodup
  source_type : ∀ field ∈ fields, field.name = sourceFieldName → field.type = .varInt32

structure Schema where
  name : String
  fields : List Field
  fields_ne_nil : fields ≠ []
  wellNamed : WellNamed fields
deriving DecidableEq

namespace Schema

/-- The first fault of a field list whose first field stands at `position`, after fields with the
names `earlier`. -/
def fieldsFault? (schema : String) (position : Nat) (earlier : List String) :
    List Field → Option SchemaFault
  | [] => none
  | field :: rest =>
      if field.name = "" then some (.unnamedField schema position)
      else if field.name = sourceFieldName ∧ field.type ≠ .varInt32 then
        some (.sourceFieldType field.type)
      else if field.name ∈ earlier then some (.repeatedField schema field.name)
      else fieldsFault? schema (position + 1) (field.name :: earlier) rest

theorem fieldsFault?_eq_none_iff {schema : String} {position : Nat} {earlier : List String}
    {fields : List Field} :
    fieldsFault? schema position earlier fields = none ↔
      WellNamed fields ∧ ∀ field ∈ fields, field.name ∉ earlier := by
  induction fields generalizing position earlier with
  | nil => simpa [fieldsFault?] using ⟨by simp, by simp, by simp⟩
  | cons field rest ih =>
      simp only [fieldsFault?]
      split
      · next hname =>
          simp only [reduceCtorEq, false_iff, not_and]
          exact fun wellNamed => absurd hname (wellNamed.named field (by simp))
      · next hname =>
          split
          · next hsource =>
              simp only [reduceCtorEq, false_iff, not_and]
              exact fun wellNamed =>
                absurd (wellNamed.source_type field (by simp) hsource.1) hsource.2
          · next hsource =>
              split
              · next hearlier => simp [hearlier]
              · next hearlier =>
                  rw [ih]
                  constructor
                  · rintro ⟨wellNamed, hnew⟩
                    have hfield : ∀ other ∈ rest, other.name ≠ field.name ∧ other.name ∉ earlier :=
                      fun other hother => by simpa using hnew other hother
                    refine ⟨⟨?_, ?_, ?_⟩, ?_⟩
                    · simpa [hname] using wellNamed.named
                    · simpa [wellNamed.distinct] using fun other hother => (hfield other hother).1
                    · intro other hother hsourceName
                      rcases List.mem_cons.mp hother with rfl | hother
                      · exact Decidable.not_not.mp fun htype => hsource ⟨hsourceName, htype⟩
                      · exact wellNamed.source_type other hother hsourceName
                    · simpa [hearlier] using fun other hother => (hfield other hother).2
                  · rintro ⟨wellNamed, hnew⟩
                    have hdistinct := wellNamed.distinct
                    simp only [List.map_cons, List.nodup_cons, List.mem_map, not_exists,
                      not_and] at hdistinct
                    refine ⟨⟨?_, hdistinct.2, ?_⟩, ?_⟩
                    · exact fun other hother => wellNamed.named other (by simp [hother])
                    · exact fun other hother => wellNamed.source_type other (by simp [hother])
                    · intro other hother
                      simp only [List.mem_cons, not_or]
                      exact ⟨hdistinct.1 other hother, hnew other (by simp [hother])⟩

def ofFields (name : String) (fields : List Field) : Except Error Schema :=
  if hempty : fields = [] then .error (.schema (.noFields name))
  else
    match hfault : fieldsFault? name 0 [] fields with
    | some fault => .error (.schema fault)
    | none => .ok ⟨name, fields, hempty, (fieldsFault?_eq_none_iff.mp hfault).1⟩

/-- Reads one `name:type`, which is shown without its outer blanks when it is not one. -/
def parseField (text : String) (token : List Char) : Except Error Field :=
  let token := Text.trim token
  match Text.splitAtColon? token with
  | none => .error (.schema (.fieldShape (String.ofList token) text))
  | some (name, type) =>
      let keyword := FieldType.keywordOf type
      match FieldType.ofKeyword? keyword with
      | none => .error (.schema (.unknownType keyword))
      | some type => .ok ⟨String.ofList (Text.trim name), type⟩

def parse (name text : String) : Except Error Schema := do
  let fields ← (Text.segments text.toList).mapM (parseField text)
  ofFields name fields

/-- The schema as a text that `parse` reads, unless a field name is in the way. -/
def text (schema : Schema) : String :=
  ",".intercalate (schema.fields.map Field.text)

def size (schema : Schema) : Nat :=
  schema.fields.length

theorem size_pos (schema : Schema) : 0 < schema.size :=
  List.length_pos_iff.mpr schema.fields_ne_nil

def indexOf? (schema : Schema) (name : String) : Option Nat :=
  schema.fields.findIdx? (·.name = name)

def contains (schema : Schema) (name : String) : Bool :=
  (schema.indexOf? name).isSome

def field? (schema : Schema) (position : Nat) : Option Field :=
  schema.fields[position]?

def fieldNamed? (schema : Schema) (name : String) : Option Field :=
  schema.fields.find? (·.name = name)

theorem fieldNamed?_eq_some_iff {schema : Schema} {name : String} {field : Field} :
    schema.fieldNamed? name = some field ↔ field ∈ schema.fields ∧ field.name = name :=
  find?_part_eq_some_iff schema.wellNamed.distinct

def fieldNamed (schema : Schema) (name : String) : Except Error Field :=
  match schema.fieldNamed? name with
  | some field => .ok field
  | none => .error (.field (.absent name schema.name))

end Schema

end RecordRollup
