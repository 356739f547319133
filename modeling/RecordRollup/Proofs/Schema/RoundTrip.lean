import Mathlib
import RecordRollup.Proofs.Outcome
import RecordRollup.Proofs.Text.Cutting
import RecordRollup.Schema

namespace RecordRollup

/-- A name that stands for itself in the text of a schema. -/
structure Text.IsLabel (name : String) : Prop where
  comma : ',' ∉ name.toList
  colon : ':' ∉ name.toList
  trimmed : Text.IsTrimmed name.toList

namespace FieldType

theorem keywordOf_keyword (type : FieldType) : keywordOf type.keyword.toList = type.keyword := by
  cases type <;> decide

theorem comma_not_mem_keyword (type : FieldType) : ',' ∉ type.keyword.toList := by
  cases type <;> decide

theorem isTrimmed_keyword (type : FieldType) : Text.IsTrimmed type.keyword.toList := by
  have htrim : Text.trim type.keyword.toList = type.keyword.toList := by cases type <;> decide
  rw [← htrim]
  exact Text.isTrimmed_trim _

end FieldType

namespace Field

variable {field : Field}

theorem toList_text (field : Field) :
    field.text.toList = field.name.toList ++ ':' :: field.type.keyword.toList := by
  simp [text]

theorem comma_not_mem_text (hname : Text.IsLabel field.name) : ',' ∉ field.text.toList := by
  rw [toList_text, List.mem_append, List.mem_cons]
  rintro (hcomma | hcomma | hcomma)
  · exact hname.comma hcomma
  · cases hcomma
  · exact field.type.comma_not_mem_keyword hcomma

theorem isTrimmed_text (hname : Text.IsLabel field.name) : Text.IsTrimmed field.text.toList := by
  rw [toList_text]
  exact hname.trimmed.append_cons field.type.isTrimmed_keyword rfl

end Field

namespace Schema

variable {schema : Schema} {name text : String} {token : List Char} {field : Field}
  {fields : List Field}

theorem parseField_eq_ok_iff :
    parseField text token = .ok field ↔
      ∃ before after, Text.trim token = before ++ ':' :: after ∧ ':' ∉ before ∧
        String.ofList (Text.trim before) = field.name ∧
          FieldType.ofKeyword? (FieldType.keywordOf after) = some field.type := by
  rw [parseField]
  constructor
  · intro hread
    dsimp only at hread
    split at hread
    · cases hread
    · next before after hcut =>
        obtain ⟨htoken, hcolon⟩ := Text.splitAtColon?_eq_some_iff.mp hcut
        split at hread
        · cases hread
        · next type htype =>
            cases hread
            exact ⟨before, after, htoken, hcolon, rfl, htype⟩
  · rintro ⟨before, after, htoken, hcolon, hname, htype⟩
    have hcut := Text.splitAtColon?_eq_some_iff.mpr ⟨htoken, hcolon⟩
    simp only [hcut, htype, hname]

theorem isLabel_of_parseField (hplain : ',' ∉ token) (hread : parseField text token = .ok field) :
    Text.IsLabel field.name := by
  obtain ⟨before, after, htoken, hcolon, hname, -⟩ := parseField_eq_ok_iff.mp hread
  have hmem : ∀ character ∈ Text.trim before, character ∈ before :=
    fun _ => Text.mem_of_mem_trim
  rw [← hname]
  constructor
  · rw [String.toList_ofList]
    intro hcomma
    apply hplain
    apply Text.mem_of_mem_trim
    rw [htoken]
    exact List.mem_append_left _ (hmem _ hcomma)
  · rw [String.toList_ofList]
    exact fun hmore => hcolon (hmem _ hmore)
  · rw [String.toList_ofList]
    exact Text.isTrimmed_trim before

theorem parseField_text (hname : Text.IsLabel field.name) (text : String) :
    parseField text field.text.toList = .ok field := by
  apply parseField_eq_ok_iff.mpr
  refine ⟨field.name.toList, field.type.keyword.toList, ?_, hname.colon, ?_, ?_⟩
  · rw [Text.trim_of_isTrimmed (Field.isTrimmed_text hname), Field.toList_text]
  · rw [Text.trim_of_isTrimmed hname.trimmed, String.ofList_toList]
  · rw [FieldType.keywordOf_keyword, FieldType.ofKeyword?_keyword]

theorem ofFields_eq_ok_iff :
    ofFields name fields = .ok schema ↔ schema.name = name ∧ schema.fields = fields := by
  rw [ofFields]
  constructor
  · intro hmade
    split at hmade
    · cases hmade
    · split at hmade
      · cases hmade
      · cases hmade
        exact ⟨rfl, rfl⟩
  · rintro ⟨rfl, rfl⟩
    have hfault : fieldsFault? schema.name 0 [] schema.fields = none :=
      fieldsFault?_eq_none_iff.mpr ⟨schema.wellNamed, by simp⟩
    rw [dif_neg schema.fields_ne_nil]
    split
    · next fault hsome =>
        rw [hfault] at hsome
        cases hsome
    · rfl

theorem parse_eq_ok_iff :
    parse name text = .ok schema ↔
      schema.name = name ∧
        List.Forall₂ (fun token field => parseField text token = .ok field)
          (Text.segments text.toList) schema.fields := by
  rw [parse, bind_eq_ok_iff]
  constructor
  · rintro ⟨fields, hfields, hmade⟩
    obtain ⟨hname, rfl⟩ := ofFields_eq_ok_iff.mp hmade
    exact ⟨hname, mapM_eq_ok_iff.mp hfields⟩
  · rintro ⟨hname, hfields⟩
    exact ⟨schema.fields, mapM_eq_ok_iff.mpr hfields, ofFields_eq_ok_iff.mpr ⟨hname, rfl⟩⟩

theorem isLabel_of_parse (hread : parse name text = .ok schema) :
    ∀ field ∈ schema.fields, Text.IsLabel field.name := by
  obtain ⟨-, hfields⟩ := parse_eq_ok_iff.mp hread
  intro field hfield
  obtain ⟨index, hindex, rfl⟩ := List.mem_iff_getElem.mp hfield
  have htoken : index < (Text.segments text.toList).length := hfields.length_eq ▸ hindex
  have hplain := Text.comma_not_mem_of_mem_segments (List.getElem_mem htoken)
  exact isLabel_of_parseField hplain (hfields.get htoken hindex)

theorem segments_text (hlabels : ∀ field ∈ schema.fields, Text.IsLabel field.name) :
    Text.segments schema.text.toList = schema.fields.map fun field => field.text.toList := by
  apply Text.segments_join schema.fields_ne_nil
  exact fun field hfield => Field.comma_not_mem_text (hlabels field hfield)

theorem parse_text_of_isLabel (hlabels : ∀ field ∈ schema.fields, Text.IsLabel field.name) :
    parse schema.name schema.text = .ok schema := by
  rw [parse_eq_ok_iff, segments_text hlabels, List.forall₂_map_left_iff, List.forall₂_same]
  exact ⟨rfl, fun field hfield => parseField_text (hlabels field hfield) _⟩

/-- Every schema is made from its fields. It is read from its own text exactly if all field names are
labels; otherwise the text is not read, or as another schema. A schema that was read, from whatever text,
has labels for names, and so it is read again from its own text. -/
theorem parse_own_text_iff (schema : Schema) :
    ofFields schema.name schema.fields = .ok schema ∧
    (parse schema.name schema.text = .ok schema ↔
      ∀ field ∈ schema.fields, Text.IsLabel field.name) ∧
    ((∃ field ∈ schema.fields, ¬ Text.IsLabel field.name) →
      (∃ error, parse schema.name schema.text = .error error) ∨
        ∃ other, other ≠ schema ∧ parse schema.name schema.text = .ok other) ∧
    ∀ name text, parse name text = .ok schema →
      schema.name = name ∧ (∀ field ∈ schema.fields, Text.IsLabel field.name) ∧
        parse schema.name schema.text = .ok schema := by
  refine ⟨ofFields_eq_ok_iff.mpr ⟨rfl, rfl⟩, ⟨isLabel_of_parse, parse_text_of_isLabel⟩, ?_, ?_⟩
  · rintro ⟨field, hfield, hname⟩
    cases hread : parse schema.name schema.text with
    | error error => exact .inl ⟨error, rfl⟩
    | ok other =>
        refine .inr ⟨other, ?_, rfl⟩
        rintro rfl
        exact hname (isLabel_of_parse hread field hfield)
  · intro name text hread
    have hlabels := isLabel_of_parse hread
    exact ⟨(parse_eq_ok_iff.mp hread).1, hlabels, parse_text_of_isLabel hlabels⟩

end Schema

namespace Sample

/-- A blank inside a name does no harm. -/
def people : Schema where
  name := "people"
  fields := [⟨"full name", .string⟩, Field.source]
  fields_ne_nil := by decide
  wellNamed := ⟨by decide, by decide, by decide⟩

/-- A name that looks like a field with its type and the name of another one. -/
def shifted : Schema where
  name := "shifted"
  fields := [⟨"a:int,b", .int64⟩]
  fields_ne_nil := by decide
  wellNamed := ⟨by decide, by decide, by decide⟩

end Sample

namespace Schema

theorem parse_own_text_iff_people :
    Sample.people.text = "full name:string,#source#:vint" ∧
      parse "people" " full name :STRING, #source#: vint" = .ok Sample.people ∧
      parse "people" "full name:string,#source#:vint" = .ok Sample.people ∧
      Sample.shifted.text = "a:int,b:long" ∧
      ((∃ error, parse "shifted" "a:int,b:long" = .error error) ∨
        ∃ other, other ≠ Sample.shifted ∧ parse "shifted" "a:int,b:long" = .ok other) := by
  have hread : parse "people" " full name :STRING, #source#: vint" = .ok Sample.people := by
    decide
  obtain ⟨-, -, -, hagain⟩ := parse_own_text_iff Sample.people
  obtain ⟨-, -, hother, -⟩ := parse_own_text_iff Sample.shifted
  have hcolon : ¬ Text.IsLabel "a:int,b" := fun hlabel => hlabel.colon (by decide)
  have htext : Sample.people.text = "full name:string,#source#:vint" := by decide
  have hshifted : Sample.shifted.text = "a:int,b:long" := by decide
  refine ⟨htext, hread, ?_, hshifted, ?_⟩
  · rw [← htext]
    exact (hagain _ _ hread).2.2
  · rw [← hshifted]
    exact hother ⟨_, List.mem_singleton_self _, hcolon⟩

end Schema

end RecordRollup
