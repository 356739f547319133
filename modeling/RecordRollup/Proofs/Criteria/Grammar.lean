import Mathlib
import RecordRollup.Proofs.Criteria.Reading

namespace RecordRollup

variable {registry : Registry}

theorem Direction.parse?_eq_some_iff {word : List Char} {direction : Direction} :
    parse? word = some direction ↔ Text.lowerCase word = direction.abbreviation.toList := by
  rw [parse?]
  split_ifs with hascending hdescending <;> cases direction <;> simp_all [abbreviation]

theorem Direction.parse?_eq_none_iff {word : List Char} :
    parse? word = none ↔ ∀ direction : Direction, Text.lowerCase word ≠ direction.abbreviation.toList := by
  rw [Option.eq_none_iff_forall_ne_some]
  exact forall_congr' fun direction => not_congr parse?_eq_some_iff

namespace Criteria

/-- The words of a segment of `text` that is read as no element, and the error: they are neither two nor
four with `using` in the second place; or they name a comparator that the registry does not have, whatever
the last word is; or the last word is no direction. -/
inductive Misspelled (registry : Registry) (text : String) (segment : List Char) :
    List (List Char) → Error → Prop
  | shape {words : List (List Char)} (hnatural : ∀ name word, words ≠ [name, word])
      (hcompared : ∀ name keyword id word, words = [name, keyword, id, word] →
        Text.lowerCase keyword ≠ "using".toList) :
      Misspelled registry text segment words
        (.criteria (.shape (String.ofList (Text.trim segment)) text))
  | comparator {name keyword id word : List Char} (hkeyword : Text.lowerCase keyword = "using".toList)
      (hunknown : registry.contains (String.ofList id) = false) :
      Misspelled registry text segment [name, keyword, id, word]
        (.unknownComparator (String.ofList id))
  | direction {name word : List Char}
      (hdirection : ∀ direction : Direction, Text.lowerCase word ≠ direction.abbreviation.toList) :
      Misspelled registry text segment [name, word]
        (.criteria (.direction (String.ofList word) text))
  | comparedDirection {name keyword id word : List Char}
      (hkeyword : Text.lowerCase keyword = "using".toList)
      (hknown : registry.contains (String.ofList id) = true)
      (hdirection : ∀ direction : Direction, Text.lowerCase word ≠ direction.abbreviation.toList) :
      Misspelled registry text segment [name, keyword, id, word]
        (.criteria (.direction (String.ofList word) text))

/-- What is wrong with a segment behind others with the names `earlier`: its words, or else the name of
the element that they spell. -/
inductive Offends (registry : Registry) (text : String) (earlier : List String) (segment : List Char) :
    Error → Prop
  | words {error : Error} (hmisspelled : Misspelled registry text segment (Text.words segment) error) :
      Offends registry text earlier segment error
  | name {element : SortElement} (hspelled : element.SpelledBy registry (Text.words segment))
      (hearlier : element.name ∈ earlier) :
      Offends registry text earlier segment (.repeatedSortField element.name)

variable {text : String} {segment : List Char} {element : SortElement} {start : Criteria}
  {error : Error}

theorem parseDirection_eq_error_iff {word : List Char} :
    parseDirection text word = .error error ↔
      (∀ direction : Direction, Text.lowerCase word ≠ direction.abbreviation.toList) ∧
        .criteria (.direction (String.ofList word) text) = error := by
  rw [← Direction.parse?_eq_none_iff, parseDirection]
  cases Direction.parse? word <;> simp

theorem resolve_eq_error_iff {id : String} :
    registry.resolve id = .error error ↔
      registry.contains id = false ∧ .unknownComparator id = error := by
  rw [Registry.resolve, Registry.contains]
  cases registry.resolve? id <;> simp

theorem exists_resolve {id : String} (hknown : registry.contains id = true) :
    ∃ named, registry.resolve id = .ok named := by
  obtain ⟨named, hnamed⟩ := Option.isSome_iff_exists.mp hknown
  exact ⟨named, resolve_eq_ok_iff.mpr hnamed⟩

theorem misspelled_of_parseElement {plain : ',' ∉ segment}
    (hread : parseElement text registry segment plain = .error error) :
    Misspelled registry text segment (Text.words segment) error := by
  rw [parseElement] at hread
  split at hread
  · next name word hwords =>
      rw [hwords]
      split at hread
      · next other hdirection =>
          cases hread
          obtain ⟨hnone, rfl⟩ := parseDirection_eq_error_iff.mp hdirection
          exact .direction hnone
      · cases hread
  · next name keyword id word hwords =>
      rw [hwords]
      split at hread
      · next hkeyword =>
          split at hread
          · next other hresolve =>
              cases hread
              obtain ⟨hunknown, rfl⟩ := resolve_eq_error_iff.mp hresolve
              exact .comparator hkeyword hunknown
          · next named hresolve =>
              split at hread
              · next other hdirection =>
                  cases hread
                  obtain ⟨hnone, rfl⟩ := parseDirection_eq_error_iff.mp hdirection
                  refine .comparedDirection hkeyword ?_ hnone
                  rw [Registry.contains, resolve_eq_ok_iff.mp hresolve, Option.isSome_some]
              · cases hread
      · next hkeyword =>
          cases hread
          refine .shape (by simp) fun _ _ _ _ hother => ?_
          cases hother
          exact hkeyword
  · next hnatural hcompared =>
      cases hread
      exact .shape hnatural fun name keyword id word hwords =>
        absurd hwords (hcompared name keyword id word)

theorem parseElement_of_misspelled {plain : ',' ∉ segment}
    (hmisspelled : Misspelled registry text segment (Text.words segment) error) :
    parseElement text registry segment plain = .error error := by
  rw [parseElement]
  split
  · next name word hwords =>
      rw [hwords] at hmisspelled
      cases hmisspelled with
      | shape hnatural => exact absurd rfl (hnatural name word)
      | direction hdirection => rw [parseDirection_eq_error_iff.mpr ⟨hdirection, rfl⟩]
  · next name keyword id word hwords =>
      rw [hwords] at hmisspelled
      cases hmisspelled with
      | shape _ hcompared => rw [if_neg (hcompared name keyword id word rfl)]
      | comparator hkeyword hunknown =>
          rw [if_pos hkeyword, resolve_eq_error_iff.mpr ⟨hunknown, rfl⟩]
      | comparedDirection hkeyword hknown hdirection =>
          obtain ⟨named, hnamed⟩ := exists_resolve hknown
          rw [if_pos hkeyword, hnamed, parseDirection_eq_error_iff.mpr ⟨hdirection, rfl⟩]
  · next hnatural hcompared =>
      generalize Text.words segment = words at *
      cases hmisspelled with
      | shape => rfl
      | comparator | comparedDirection => exact absurd rfl (hcompared _ _ _ _)
      | direction => exact absurd rfl (hnatural _ _)

theorem parseElement_eq_error_iff {plain : ',' ∉ segment} :
    parseElement text registry segment plain = .error error ↔
      Misspelled registry text segment (Text.words segment) error :=
  ⟨misspelled_of_parseElement, parseElement_of_misspelled⟩

theorem push_eq_error_iff :
    start.push element = .error error ↔
      element.name ∈ start.names ∧ .repeatedSortField element.name = error := by
  rw [push]
  split
  · next hknown => simp [hknown]
  · next hnew => simp [hnew]

theorem names_of_push {pushed : Criteria} (hpushed : start.push element = .ok pushed) :
    pushed.names = start.names ++ [element.name] := by
  rw [names, push_eq_ok_iff.mp hpushed, List.map_append, List.map_singleton, names]

theorem exists_push_of_not_mem (hnew : element.name ∉ start.names) :
    ∃ pushed, start.push element = .ok pushed := by
  rw [push, dif_neg hnew]
  exact ⟨_, rfl⟩

theorem parseSegments_cons_eq_error_iff {segments : List (List Char)}
    {plain : ∀ other ∈ segment :: segments, ',' ∉ other} :
    parseSegments text registry (segment :: segments) plain start = .error error ↔
      Offends registry text start.names segment error ∨
        ∃ element pushed, element.SpelledBy registry (Text.words segment) ∧
          start.push element = .ok pushed ∧
            parseSegments text registry segments (fun other hother => plain other (by simp [hother]))
              pushed = .error error := by
  simp only [parseSegments, bind_eq_error_iff, parseElement_eq_error_iff, parseElement_eq_ok_iff]
  constructor
  · rintro (hmisspelled | ⟨element, hspelled, hpush | ⟨pushed, hpushed, hrest⟩⟩)
    · exact .inl (.words hmisspelled)
    · obtain ⟨hearlier, rfl⟩ := push_eq_error_iff.mp hpush
      exact .inl (.name hspelled hearlier)
    · exact .inr ⟨element, pushed, hspelled, hpushed, hrest⟩
  · rintro ((hmisspelled | ⟨hspelled, hearlier⟩) | ⟨element, pushed, hspelled, hpushed, hrest⟩)
    · exact .inl hmisspelled
    · exact .inr ⟨_, hspelled, .inl (push_eq_error_iff.mpr ⟨hearlier, rfl⟩)⟩
    · exact .inr ⟨element, hspelled, .inr ⟨pushed, hpushed, hrest⟩⟩

/-- The error is about the first segment that offends, behind segments that spell elements with names of
their own. -/
theorem parseSegments_eq_error_iff {segments : List (List Char)}
    {plain : ∀ segment ∈ segments, ',' ∉ segment} :
    parseSegments text registry segments plain start = .error error ↔
      ∃ before segment after elements, segments = before ++ segment :: after ∧
        List.Forall₂ (SortElement.SpelledBy registry) (before.map Text.words) elements ∧
        (start.names ++ elements.map SortElement.name).Nodup ∧
        Offends registry text (start.names ++ elements.map SortElement.name) segment error := by
  induction segments generalizing start with
  | nil => simp [parseSegments]
  | cons first rest ih =>
      rw [parseSegments_cons_eq_error_iff]
      constructor
      · rintro (hoffends | ⟨element, pushed, hspelled, hpushed, hrest⟩)
        · refine ⟨[], first, rest, [], rfl, .nil, ?_, ?_⟩
          · simpa using! start.distinct
          · simpa using hoffends
        · obtain ⟨before, segment, after, elements, rfl, hbefore, hdistinct, hoffends⟩ :=
            ih.mp hrest
          rw [names_of_push hpushed, List.append_assoc, List.singleton_append] at hdistinct hoffends
          exact ⟨first :: before, segment, after, element :: elements, rfl, .cons hspelled hbefore,
            hdistinct, hoffends⟩
      · rintro ⟨before, segment, after, elements, hsegments, hbefore, hdistinct, hoffends⟩
        rcases before with _ | ⟨head, before⟩
        · cases hsegments
          cases hbefore
          exact .inl (by simpa using hoffends)
        · cases hsegments
          obtain ⟨element, elements, hspelled, hothers, rfl⟩ :=
            List.forall₂_cons_left_iff.mp hbefore
          have hnew : element.name ∉ start.names := by
            intro hmem
            exact (List.nodup_append.mp hdistinct).2.2 _ hmem _ (by simp) rfl
          obtain ⟨pushed, hpushed⟩ := exists_push_of_not_mem hnew
          refine .inr ⟨element, pushed, hspelled, hpushed, ih.mpr ?_⟩
          refine ⟨before, segment, after, elements, rfl, hothers, ?_, ?_⟩
          · rw [names_of_push hpushed, List.append_assoc]
            exact hdistinct
          · rw [names_of_push hpushed, List.append_assoc]
            exact hoffends

/-- A text is read exactly if each of its segments spells an element and no name comes twice, and then as
these elements, in order. Any other text has a first segment that offends, and the error is the one that
is told of it. A word is a direction whatever the case of its letters. -/
theorem parse_grammar (text : String) (registry : Registry) :
    (∀ word direction, Direction.parse? word = some direction ↔
      Text.lowerCase word = direction.abbreviation.toList) ∧
    (∀ elements, (∃ criteria, parse text registry = .ok criteria ∧ criteria.elements = elements) ↔
      List.Forall₂ (SortElement.SpelledBy registry)
          ((Text.segments text.toList).map Text.words) elements ∧
        (elements.map SortElement.name).Nodup) ∧
    ∀ error, parse text registry = .error error ↔
      ∃ before segment after elements, Text.segments text.toList = before ++ segment :: after ∧
        List.Forall₂ (SortElement.SpelledBy registry) (before.map Text.words) elements ∧
        (elements.map SortElement.name).Nodup ∧
        Offends registry text (elements.map SortElement.name) segment error := by
  refine ⟨fun word direction => Direction.parse?_eq_some_iff, ?_, ?_⟩
  · intro elements
    constructor
    · rintro ⟨criteria, hread, rfl⟩
      exact ⟨parse_eq_ok_iff.mp hread, criteria.distinct⟩
    · rintro ⟨hspelled, hdistinct⟩
      exact ⟨⟨elements, hdistinct⟩, parse_eq_ok_iff.mpr hspelled, rfl⟩
  · intro error
    rw [parse, parseSegments_eq_error_iff]
    simp [names, empty]

/-- The second segment has two faults, and a third one has the name of the first. -/
example : (parse "a asc,b using nope up,a desc" .builtins).map signature =
    .error (.unknownComparator "nope") := by
  cbv

end Criteria

end RecordRollup
