import Mathlib
import RecordRollup.Criteria
import RecordRollup.Proofs.Outcome

namespace RecordRollup

variable {registry : Registry}

/-- The words of a segment that is read as an element: the name, then `using` and a comparator of the
registry if the element has one, and the direction. The letters of `using` and of the direction may be
of either case. -/
inductive SortElement.SpelledBy (registry : Registry) : List (List Char) → SortElement → Prop
  | natural {name : List Char} {isWord : Text.IsWord (String.ofList name)} {word : List Char}
      {direction : Direction} (hdirection : Direction.parse? word = some direction) :
      SpelledBy registry [name, word] ⟨String.ofList name, isWord, direction, none⟩
  | compared {name : List Char} {isWord : Text.IsWord (String.ofList name)}
      {keyword id word : List Char} {named : NamedComparator} {direction : Direction}
      (hkeyword : Text.lowerCase keyword = "using".toList)
      (hnamed : registry.resolve? (String.ofList id) = some named)
      (hdirection : Direction.parse? word = some direction) :
      SpelledBy registry [name, keyword, id, word]
        ⟨String.ofList name, isWord, direction, some named⟩

namespace Criteria

variable {text : String} {segment : List Char} {element : SortElement}
  {criteria start : Criteria}

theorem eq_of_elements {left right : Criteria} (helements : left.elements = right.elements) :
    left = right := by
  cases left
  cases right
  congr

theorem parseDirection_eq_ok_iff {word : List Char} {direction : Direction} :
    parseDirection text word = .ok direction ↔ Direction.parse? word = some direction := by
  rw [parseDirection]
  cases Direction.parse? word <;> simp

theorem resolve_eq_ok_iff {id : String} {named : NamedComparator} :
    registry.resolve id = .ok named ↔ registry.resolve? id = some named := by
  rw [Registry.resolve]
  cases registry.resolve? id <;> simp

theorem parseElement_eq_ok_iff {plain : ',' ∉ segment} :
    parseElement text registry segment plain = .ok element ↔
      element.SpelledBy registry (Text.words segment) := by
  rw [parseElement]
  constructor
  · intro hread
    split at hread
    · next name word hwords =>
        rw [hwords]
        split at hread
        · cases hread
        · next direction hdirection =>
            cases hread
            exact .natural (parseDirection_eq_ok_iff.mp hdirection)
    · next name keyword id word hwords =>
        rw [hwords]
        split at hread
        · next hkeyword =>
            split at hread
            · cases hread
            · next named hnamed =>
                split at hread
                · cases hread
                · next direction hdirection =>
                    cases hread
                    exact .compared hkeyword (resolve_eq_ok_iff.mp hnamed)
                      (parseDirection_eq_ok_iff.mp hdirection)
        · cases hread
    · cases hread
  · intro hspelled
    split
    · next name word hwords =>
        rw [hwords] at hspelled
        rcases hspelled with ⟨hdirection⟩
        rw [parseDirection_eq_ok_iff.mpr hdirection]
    · next name keyword id word hwords =>
        rw [hwords] at hspelled
        rcases hspelled with _ | ⟨hkeyword, hnamed, hdirection⟩
        rw [if_pos hkeyword, resolve_eq_ok_iff.mpr hnamed, parseDirection_eq_ok_iff.mpr hdirection]
    · next hnatural hcompared =>
        generalize Text.words segment = words at *
        cases hspelled with
        | natural => exact absurd rfl (hnatural _ _)
        | compared => exact absurd rfl (hcompared _ _ _ _)

theorem push_eq_ok_iff :
    start.push element = .ok criteria ↔ criteria.elements = start.elements ++ [element] := by
  rw [push]
  split
  · next known =>
      simp only [reduceCtorEq, false_iff]
      intro helements
      have hdistinct := criteria.distinct
      rw [helements, List.map_append, List.map_singleton, List.nodup_append] at hdistinct
      exact hdistinct.2.2 _ known _ (by simp) rfl
  · cases criteria
    simp [eq_comm]

theorem exists_push {rest : List SortElement}
    (helements : criteria.elements = start.elements ++ element :: rest) :
    ∃ pushed : Criteria, pushed.elements = start.elements ++ [element] ∧
      criteria.elements = pushed.elements ++ rest := by
  have hfront : (start.elements ++ [element]).Sublist criteria.elements := by
    rw [helements]
    exact (List.prefix_append [element] rest).sublist.append_left start.elements
  refine ⟨⟨start.elements ++ [element], criteria.distinct.sublist (hfront.map _)⟩, rfl, ?_⟩
  simpa using helements

theorem parseSegments_eq_ok_iff {segments : List (List Char)}
    {plain : ∀ segment ∈ segments, ',' ∉ segment} :
    parseSegments text registry segments plain start = .ok criteria ↔
      ∃ elements, List.Forall₂ (SortElement.SpelledBy registry) (segments.map Text.words) elements ∧
        criteria.elements = start.elements ++ elements := by
  induction segments generalizing start with
  | nil =>
      simp only [parseSegments, Except.ok.injEq, List.map_nil, List.forall₂_nil_left_iff,
        exists_eq_left, List.append_nil]
      constructor
      · rintro rfl
        rfl
      · intro helements
        exact eq_of_elements helements.symm
  | cons segment segments ih =>
      simp only [parseSegments, bind_eq_ok_iff, parseElement_eq_ok_iff, push_eq_ok_iff, ih,
        List.map_cons, List.forall₂_cons_left_iff]
      constructor
      · rintro ⟨element, hspelled, pushed, hpushed, elements, helements, hcriteria⟩
        refine ⟨element :: elements, ⟨element, elements, hspelled, helements, rfl⟩, ?_⟩
        rw [hcriteria, hpushed, List.append_assoc, List.singleton_append]
      · rintro ⟨_, ⟨element, elements, hspelled, helements, rfl⟩, hcriteria⟩
        obtain ⟨pushed, hpushed, hrest⟩ := exists_push hcriteria
        exact ⟨element, hspelled, pushed, hpushed, elements, helements, hrest⟩

theorem parse_eq_ok_iff :
    parse text registry = .ok criteria ↔
      List.Forall₂ (SortElement.SpelledBy registry) ((Text.segments text.toList).map Text.words)
        criteria.elements := by
  simp [parse, parseSegments_eq_ok_iff, empty]

end Criteria

end RecordRollup
