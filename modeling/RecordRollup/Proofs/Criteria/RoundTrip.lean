import Mathlib
import RecordRollup.Proofs.Criteria.Reading
import RecordRollup.Proofs.Text.Cutting

namespace RecordRollup

theorem Text.IsWord.toList {text : String} (hword : Text.IsWord text) :
    text.toList ≠ [] ∧ ∀ character ∈ text.toList, Text.isBlank character = false :=
  ⟨by simpa using hword.1, fun character hcharacter => (hword.2 character hcharacter).1⟩

namespace Direction

theorem parse?_abbreviation (direction : Direction) :
    parse? direction.abbreviation.toList = some direction := by
  cases direction <;> decide

theorem isWord_abbreviation (direction : Direction) : Text.IsWord direction.abbreviation := by
  cases direction <;> decide

end Direction

namespace SortElement

variable {registry : Registry} {element : SortElement}

def words (element : SortElement) : List String :=
  match element.comparator with
  | some named => [element.name, "using", named.id, element.direction.abbreviation]
  | none => [element.name, element.direction.abbreviation]

theorem toList_text (element : SortElement) :
    element.text.toList = [' '].intercalate (element.words.map String.toList) := by
  rw [text, words]
  cases element.comparator <;> simp [List.intercalate, toString]

theorem isWord_of_mem_words {word : String} (hword : word ∈ element.words) : Text.IsWord word := by
  rw [words] at hword
  cases hcomparator : element.comparator with
  | none =>
      simp only [hcomparator, List.mem_cons, List.not_mem_nil, or_false] at hword
      rcases hword with rfl | rfl
      · exact element.isWord
      · exact element.direction.isWord_abbreviation
  | some named =>
      simp only [hcomparator, List.mem_cons, List.not_mem_nil, or_false] at hword
      rcases hword with rfl | rfl | rfl | rfl
      · exact element.isWord
      · decide
      · exact named.isWord
      · exact element.direction.isWord_abbreviation

theorem words_text (element : SortElement) :
    Text.words element.text.toList = element.words.map String.toList := by
  rw [toList_text]
  refine Text.words_intercalate rfl ?_
  intro part hpart
  obtain ⟨word, hword, rfl⟩ := List.mem_map.mp hpart
  exact (isWord_of_mem_words hword).toList

theorem comma_not_mem_text (element : SortElement) : ',' ∉ element.text.toList := by
  rw [toList_text]
  intro hcomma
  rcases Text.of_mem_intercalate hcomma with hblank | ⟨part, hpart, hcomma⟩
  · cases hblank
  · obtain ⟨word, hword, rfl⟩ := List.mem_map.mp hpart
    exact ((isWord_of_mem_words hword).2 ',' hcomma).2 rfl

/-- The element with the comparator that the registry has under the same identifier. -/
def resolvedIn (registry : Registry) (element : SortElement) : SortElement :=
  { element with comparator := element.comparator.bind fun named => registry.resolve? named.id }

theorem resolvedIn_spelledBy
    (hknown : ∀ named ∈ element.comparator, registry.contains named.id = true) :
    (element.resolvedIn registry).SpelledBy registry (element.words.map String.toList) := by
  obtain ⟨name, isWord, direction, comparator⟩ := element
  have hword : Text.IsWord (String.ofList name.toList) := by rwa [String.ofList_toList]
  have hdirection := direction.parse?_abbreviation
  cases comparator with
  | none =>
      have hspelled := @SpelledBy.natural registry _ hword _ _ hdirection
      simpa only [String.ofList_toList] using! hspelled
  | some named =>
      obtain ⟨found, hfound⟩ := Option.isSome_iff_exists.mp (hknown named rfl)
      have hresolved : registry.resolve? (String.ofList named.id.toList) = some found := by
        rwa [String.ofList_toList]
      have hspelled := @SpelledBy.compared registry _ hword "using".toList _ _ _ _ (by decide)
        hresolved hdirection
      simpa only [String.ofList_toList, resolvedIn, Option.bind_some, hfound] using! hspelled

theorem signature_resolvedIn
    (hknown : ∀ named ∈ element.comparator, registry.contains named.id = true) :
    (element.resolvedIn registry).signature = element.signature := by
  rw [signature, signature, resolvedIn]
  cases hcomparator : element.comparator with
  | none => rfl
  | some named =>
      obtain ⟨found, hfound⟩ := Option.isSome_iff_exists.mp (hknown named hcomparator)
      simp [hfound, Registry.id_of_resolve? hfound]

theorem resolvedIn_eq_self
    (hown : ∀ named ∈ element.comparator, registry.resolve? named.id = some named) :
    element.resolvedIn registry = element := by
  obtain ⟨name, isWord, direction, comparator⟩ := element
  cases comparator with
  | none => rfl
  | some named => simp [resolvedIn, hown named rfl]

theorem SpelledBy.resolve?_eq {words : List (List Char)} (hspelled : element.SpelledBy registry words)
    {named : NamedComparator} (hnamed : named ∈ element.comparator) :
    registry.resolve? named.id = some named := by
  cases hspelled with
  | natural => cases hnamed
  | compared hkeyword hfound hdirection =>
      obtain rfl := Option.mem_some_iff.mp hnamed
      rwa [Registry.id_of_resolve? hfound]

end SortElement

namespace Criteria

variable {registry : Registry} {criteria : Criteria}

def KnownIn (registry : Registry) (criteria : Criteria) : Prop :=
  ∀ element ∈ criteria.elements, ∀ named ∈ element.comparator, registry.contains named.id = true

theorem segments_text (hne : criteria.elements ≠ []) :
    (Text.segments criteria.text.toList).map Text.words =
      criteria.elements.map fun element => element.words.map String.toList := by
  have hsegments := Text.segments_join hne fun element _ => element.comma_not_mem_text
  rw [text, hsegments, List.map_map]
  simp only [Function.comp_def, SortElement.words_text]

/-- The criteria with the comparators that the registry has under the same identifiers. -/
def resolvedIn (registry : Registry) (criteria : Criteria) : Criteria where
  elements := criteria.elements.map (SortElement.resolvedIn registry)
  distinct := by
    rw [List.map_map]
    exact criteria.distinct

theorem parse_text_eq_ok (hknown : criteria.KnownIn registry) (hne : criteria.elements ≠ []) :
    parse criteria.text registry = .ok (criteria.resolvedIn registry) := by
  rw [parse_eq_ok_iff, segments_text hne, resolvedIn, List.forall₂_map_left_iff,
    List.forall₂_map_right_iff, List.forall₂_same]
  intro element helement
  exact SortElement.resolvedIn_spelledBy (hknown element helement)

theorem signature_resolvedIn (hknown : criteria.KnownIn registry) :
    (criteria.resolvedIn registry).signature = criteria.signature := by
  rw [signature, signature, resolvedIn, List.map_map]
  apply List.map_congr_left
  intro element helement
  exact SortElement.signature_resolvedIn (hknown element helement)

theorem resolve?_of_parse {text : String} (hread : parse text registry = .ok criteria)
    {element : SortElement} (helement : element ∈ criteria.elements) {named : NamedComparator}
    (hnamed : named ∈ element.comparator) : registry.resolve? named.id = some named := by
  have hspelled := parse_eq_ok_iff.mp hread
  obtain ⟨index, hindex, rfl⟩ := List.mem_iff_getElem.mp helement
  exact (hspelled.get (hspelled.length_eq ▸ hindex) hindex).resolve?_eq hnamed

theorem resolvedIn_of_parse {text : String} (hread : parse text registry = .ok criteria) :
    criteria.resolvedIn registry = criteria := by
  apply eq_of_elements
  conv_rhs => rw [← List.map_id criteria.elements]
  apply List.map_congr_left
  intro element helement
  exact SortElement.resolvedIn_eq_self fun _ hnamed => resolve?_of_parse hread helement hnamed

theorem elements_ne_nil_of_parse {text : String} (hread : parse text registry = .ok criteria) :
    criteria.elements ≠ [] := by
  have hlength := (parse_eq_ok_iff.mp hread).length_eq
  rw [List.length_map] at hlength
  rw [← List.length_pos_iff, ← hlength, List.length_pos_iff]
  exact Text.segments_ne_nil _

end Criteria

def SortElement.given (element : SortElement) : String × Direction × Option NamedComparator :=
  (element.name, element.direction, element.comparator)

namespace Criteria

variable {registry : Registry} {criteria : Criteria}

theorem given_injective : Function.Injective SortElement.given := by
  rintro ⟨⟩ ⟨⟩ heq
  cases heq
  rfl

theorem ofName_eq_ok_iff {element : SortElement} {name : String} {direction : Direction}
    {comparator : Option NamedComparator} :
    SortElement.ofName name direction comparator = .ok element ↔
      element.given = (name, direction, comparator) := by
  rw [SortElement.ofName]
  split
  · cases element
    simp [SortElement.given, eq_comm]
  · next hword =>
      simp only [reduceCtorEq, false_iff]
      intro heq
      have hname : element.name = name := congrArg Prod.fst heq
      exact hword (hname ▸ element.isWord)

theorem ofElements_eq_ok_iff {given : List (String × Direction × Option NamedComparator)} :
    ofElements given = .ok criteria ↔ criteria.elements.map SortElement.given = given := by
  have hfrom : ∀ start : Criteria,
      given.foldlM (fun criteria entry => do
          let element ← SortElement.ofName entry.1 entry.2.1 entry.2.2
          criteria.push element) start = .ok criteria ↔
        criteria.elements.map SortElement.given = start.elements.map SortElement.given ++ given := by
    induction given with
    | nil =>
        intro start
        rw [List.append_nil, given_injective.list_map.eq_iff, List.foldlM_nil]
        constructor
        · intro hstart
          cases hstart
          rfl
        · intro helements
          rw [eq_of_elements helements]
          rfl
    | cons first rest ih =>
        intro start
        simp only [List.foldlM_cons, bind_eq_ok_iff, ih, ofName_eq_ok_iff, push_eq_ok_iff]
        constructor
        · rintro ⟨pushed, ⟨element, hgiven, hpushed⟩, hcriteria⟩
          rw [hcriteria, hpushed, List.map_append, List.append_assoc, List.map_singleton, hgiven,
            List.singleton_append]
        · intro helements
          obtain ⟨front, back, hsplit, hfront, hback⟩ := List.map_eq_append_iff.mp helements
          obtain ⟨element, others, rfl, hgiven, hothers⟩ := List.map_eq_cons_iff.mp hback
          rw [given_injective.list_map hfront] at hsplit
          obtain ⟨pushed, hpushed, hrest⟩ := exists_push hsplit
          refine ⟨pushed, ⟨element, hgiven, hpushed⟩, ?_⟩
          rw [hrest, List.map_append, hothers]
  exact hfrom empty

/-- A criteria that has elements is read from its text with the same names, directions and comparators,
wherever all its comparators are known; only the empty criteria, which is one all the same, has a text
that is not read. Whatever is read has elements, which make the same criteria when they are put together
one by one, and it is read again from its own text. -/
theorem parse_text (registry : Registry) :
    (∀ criteria : Criteria, criteria.elements ≠ [] → criteria.KnownIn registry →
      ∃ read, parse criteria.text registry = .ok read ∧ read.signature = criteria.signature) ∧
    (∀ criteria : Criteria, criteria.elements = [] →
      ofElements [] = .ok criteria ∧
        parse criteria.text registry = .error (.criteria (.shape "" ""))) ∧
    ∀ text read, parse text registry = .ok read →
      read.elements ≠ [] ∧ ofElements (read.elements.map SortElement.given) = .ok read ∧
        parse read.text registry = .ok read := by
  refine ⟨?_, ?_, ?_⟩
  · intro criteria hne hknown
    exact ⟨_, parse_text_eq_ok hknown hne, signature_resolvedIn hknown⟩
  · intro criteria hnil
    obtain rfl : criteria = empty := eq_of_elements hnil
    exact ⟨rfl, rfl⟩
  · intro text read hread
    have hne := elements_ne_nil_of_parse hread
    have hknown : read.KnownIn registry := by
      intro element helement named hnamed
      rw [Registry.contains, resolve?_of_parse hread helement hnamed, Option.isSome_some]
    refine ⟨hne, ofElements_eq_ok_iff.mpr rfl, ?_⟩
    rw [parse_text_eq_ok hknown hne, resolvedIn_of_parse hread]

end Criteria

namespace Sample

/-- Fields that are called like the words around them. -/
def keywords : Criteria where
  elements := [⟨"using", by decide, .descending, Registry.builtins.resolve? "shortlex"⟩,
    ⟨"asc", by decide, .ascending, none⟩, ⟨"#source#", by decide, .descending, none⟩]
  distinct := by decide

end Sample

namespace Criteria

theorem parse_text_keywords :
    Sample.keywords.text = "using using shortlex desc,asc asc,#source# desc" ∧
      (∃ read, parse "using using shortlex desc,asc asc,#source# desc" .builtins = .ok read ∧
        read.signature = [("using", .descending, some "shortlex"), ("asc", .ascending, none),
          ("#source#", .descending, none)] ∧
        ofElements (read.elements.map SortElement.given) = .ok read ∧
        parse read.text .builtins = .ok read) ∧
      parse empty.text .builtins = .error (.criteria (.shape "" "")) := by
  have htext : Sample.keywords.text = "using using shortlex desc,asc asc,#source# desc" := by
    decide
  have hknown : Sample.keywords.KnownIn .builtins := by
    simp [KnownIn, Sample.keywords, Registry.contains, Registry.resolve?, Registry.builtins]
  obtain ⟨hfull, hempty, hagain⟩ := parse_text .builtins
  obtain ⟨read, hread, hsignature⟩ := hfull Sample.keywords (by decide) hknown
  obtain ⟨-, haccepted, hsame⟩ := hagain _ read hread
  rw [htext] at hread
  exact ⟨htext, ⟨read, hread, hsignature, haccepted, hsame⟩, (hempty empty rfl).2⟩

end Criteria

end RecordRollup
