import Mathlib
import RecordRollup.Text.Words

namespace RecordRollup.Text

theorem splitBy_eq_splitOnP (isBreak : Char → Bool) (text : List Char) :
    splitBy isBreak text = text.splitOnP isBreak := by
  induction text with
  | nil => rfl
  | cons character rest ih => rw [splitBy, List.splitOnP_cons_eq_if_modifyHead, ih]

theorem segments_ne_nil (text : List Char) : segments text ≠ [] :=
  splitBy_ne_nil _ text

theorem segments_intercalate {parts : List (List Char)} (hparts : parts ≠ [])
    (hplain : ∀ part ∈ parts, ',' ∉ part) : segments ([','].intercalate parts) = parts := by
  rw [segments, splitBy_eq_splitOnP]
  exact List.splitOn_intercalate ',' hplain hparts

theorem segments_join {α : Type} {items : List α} {write : α → String} (hitems : items ≠ [])
    (hplain : ∀ item ∈ items, ',' ∉ (write item).toList) :
    segments (",".intercalate (items.map write)).toList =
      items.map fun item => (write item).toList := by
  have hparts : (items.map write).map String.toList ≠ [] := by simpa using hitems
  rw [String.toList_intercalate]
  change segments ([','].intercalate _) = _
  rw [segments_intercalate hparts, List.map_map]
  · rfl
  · simp only [List.mem_map, forall_exists_index, and_imp, forall_apply_eq_imp_iff₂]
    exact hplain

theorem words_of_plain {word : List Char} (hword : word ≠ [])
    (hplain : ∀ character ∈ word, isBlank character = false) : words word = [word] := by
  rw [words, splitBy_eq_splitOnP, List.splitOnP_eq_singleton hplain]
  simp [hword]

theorem words_append_blank {blank : Char} (hblank : isBlank blank = true)
    (before after : List Char) : words (before ++ blank :: after) = words before ++ words after := by
  simp only [words, splitBy_eq_splitOnP]
  rw [List.splitOnP_append_cons before after hblank, List.filter_append]

theorem words_intercalate {blank : Char} (hblank : isBlank blank = true) {parts : List (List Char)}
    (hparts : ∀ part ∈ parts, part ≠ [] ∧ ∀ character ∈ part, isBlank character = false) :
    words ([blank].intercalate parts) = parts := by
  induction parts with
  | nil => rfl
  | cons part parts ih =>
      obtain ⟨hword, hplain⟩ := hparts part (by simp)
      have hfirst := words_of_plain hword hplain
      have hrest := ih fun other hother => hparts other (by simp [hother])
      rcases parts with _ | ⟨next, parts⟩
      · simpa using hfirst
      · rw [List.intercalate_cons_cons, List.append_assoc, List.singleton_append,
          words_append_blank hblank, hfirst, hrest, List.singleton_append]

theorem of_mem_intercalate {separator character : Char} {parts : List (List Char)}
    (hmem : character ∈ [separator].intercalate parts) :
    character = separator ∨ ∃ part ∈ parts, character ∈ part := by
  induction parts with
  | nil => simp at hmem
  | cons part parts ih =>
      rcases parts with _ | ⟨next, parts⟩
      · exact .inr ⟨part, by simp, by simpa using hmem⟩
      · rw [List.intercalate_cons_cons, List.mem_append, List.mem_append,
          List.mem_singleton] at hmem
        rcases hmem with (hfirst | hseparator) | hrest
        · exact .inr ⟨part, by simp, hfirst⟩
        · exact .inl hseparator
        · apply (ih hrest).imp_right
          rintro ⟨other, hother, hcharacter⟩
          exact ⟨other, by simp [hother], hcharacter⟩

def IsTrimmed (text : List Char) : Prop :=
  (∀ character ∈ text.head?, isBlank character = false) ∧
    ∀ character ∈ text.getLast?, isBlank character = false

theorem IsTrimmed.append_cons {front back : List Char} {separator : Char} (hfront : IsTrimmed front)
    (hback : IsTrimmed back) (hseparator : isBlank separator = false) :
    IsTrimmed (front ++ separator :: back) := by
  constructor
  · intro character hcharacter
    rcases front with _ | ⟨first, front⟩
    · cases hcharacter
      exact hseparator
    · exact hfront.1 character hcharacter
  · intro character hcharacter
    rw [List.getLast?_append, List.getLast?_cons, Option.some_or, Option.mem_some_iff] at hcharacter
    subst hcharacter
    cases hlast : back.getLast? with
    | none => exact hseparator
    | some last => exact hback.2 last hlast

theorem trim_eq_rdropWhile (text : List Char) :
    trim text = (text.dropWhile isBlank).rdropWhile isBlank := rfl

theorem trim_of_isTrimmed {text : List Char} (htrimmed : IsTrimmed text) : trim text = text := by
  obtain ⟨hfirst, hlast⟩ := htrimmed
  have hfront : text.dropWhile isBlank = text := by
    cases text with
    | nil => rfl
    | cons character rest => simp [hfirst character rfl]
  rw [trim_eq_rdropWhile, hfront, List.rdropWhile_eq_self_iff]
  intro hne
  simp [hlast _ (List.getLast?_eq_some_getLast hne)]

theorem isTrimmed_trim (text : List Char) : IsTrimmed (trim text) := by
  rw [trim_eq_rdropWhile]
  constructor
  · intro character hcharacter
    obtain ⟨rest, hrest⟩ := List.head?_eq_some_iff.mp hcharacter
    obtain ⟨more, hmore⟩ := List.rdropWhile_prefix isBlank (text.dropWhile isBlank)
    have hfirst := List.head?_dropWhile_not isBlank text
    rw [← hmore, hrest, List.cons_append, List.head?_cons] at hfirst
    exact hfirst
  · intro character hcharacter
    obtain ⟨front, hfront⟩ := List.getLast?_eq_some_iff.mp hcharacter
    have hne : (text.dropWhile isBlank).rdropWhile isBlank ≠ [] := by simp [hfront]
    have hlast := List.rdropWhile_last_not isBlank (text.dropWhile isBlank) hne
    simpa [hfront] using hlast

theorem mem_of_mem_trim {text : List Char} {character : Char} (hmem : character ∈ trim text) :
    character ∈ text := by
  rw [trim_eq_rdropWhile] at hmem
  exact List.dropWhile_subset _ (List.rdropWhile_prefix .. |>.subset hmem)

theorem splitAtColon?_eq_some_iff {text before after : List Char} :
    splitAtColon? text = some (before, after) ↔ text = before ++ ':' :: after ∧ ':' ∉ before := by
  induction text generalizing before after with
  | nil => simp [splitAtColon?]
  | cons character rest ih =>
      rw [splitAtColon?]
      split
      · next hcolon =>
          subst hcolon
          rcases before with _ | ⟨first, before⟩
          · simp
          · simp only [Option.some.injEq, Prod.mk.injEq, reduceCtorEq, false_and, List.cons_append,
              List.cons.injEq, List.mem_cons, not_or, false_iff]
            rintro ⟨⟨rfl, -⟩, hne, -⟩
            exact hne rfl
      · next hcolon =>
          rcases before with _ | ⟨first, before⟩
          · simp [hcolon]
          · simp only [Option.map_eq_some_iff, Prod.exists, Prod.mk.injEq, List.cons.injEq, ih,
              List.cons_append, List.mem_cons, not_or]
            constructor
            · rintro ⟨front, back, ⟨rfl, hfront⟩, ⟨rfl, rfl⟩, rfl⟩
              exact ⟨⟨rfl, rfl⟩, Ne.symm hcolon, hfront⟩
            · rintro ⟨⟨rfl, rfl⟩, -, hfront⟩
              exact ⟨before, after, ⟨rfl, hfront⟩, ⟨rfl, rfl⟩, rfl⟩

end RecordRollup.Text
