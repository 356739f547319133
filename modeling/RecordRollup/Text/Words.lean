/-!
Cutting a text at single characters: the parts between commas, the words between blanks, and a text
without its outer blanks.
-/

namespace RecordRollup.Text

/-- The characters of Unicode's property `White_Space`. -/
def isBlank (character : Char) : Bool :=
  let code := character.toNat
  (9 ≤ code && code ≤ 13) || code == 0x20 || code == 0x85 || code == 0xa0 || code == 0x1680 ||
    (0x2000 ≤ code && code ≤ 0x200a) || code == 0x2028 || code == 0x2029 || code == 0x202f ||
    code == 0x205f || code == 0x3000

theorem isBlank_of_isWhitespace {character : Char} (h : character.isWhitespace) :
    isBlank character := by
  simp only [Char.isWhitespace, Bool.or_eq_true, decide_eq_true_eq, or_assoc] at h
  rcases h with rfl | rfl | rfl | rfl <;> rfl

/-- The parts of a text between the characters that `isBreak` accepts, one more than there are
such characters. -/
def splitBy (isBreak : Char → Bool) : List Char → List (List Char)
  | [] => [[]]
  | character :: rest =>
      if isBreak character then [] :: splitBy isBreak rest
      else (splitBy isBreak rest).modifyHead (character :: ·)

theorem splitBy_ne_nil (isBreak : Char → Bool) (text : List Char) :
    splitBy isBreak text ≠ [] := by
  induction text with
  | nil => simp [splitBy]
  | cons character rest ih =>
      cases hparts : splitBy isBreak rest with
      | nil => exact absurd hparts ih
      | cons part parts => by_cases hbreak : isBreak character <;> simp [splitBy, hparts, hbreak]

/-- A part holds characters of the text, and none of those at which the text is cut. -/
theorem of_mem_splitBy {isBreak : Char → Bool} {text part : List Char}
    (hpart : part ∈ splitBy isBreak text) :
    ∀ character ∈ part, isBreak character = false ∧ character ∈ text := by
  induction text generalizing part with
  | nil => simp_all [splitBy]
  | cons first rest ih =>
      cases hparts : splitBy isBreak rest with
      | nil => exact absurd hparts (splitBy_ne_nil isBreak rest)
      | cons head tail =>
          have inRest : ∀ other ∈ head :: tail, ∀ character ∈ other,
              isBreak character = false ∧ character ∈ first :: rest := by
            intro other hother character hcharacter
            have := ih (hparts ▸ hother) character hcharacter
            exact ⟨this.1, List.mem_cons_of_mem _ this.2⟩
          by_cases hbreak : isBreak first
          · simp only [splitBy, hbreak, if_true, hparts, List.mem_cons] at hpart
            rcases hpart with rfl | hpart
            · simp
            · exact inRest part (by simpa using hpart)
          · rw [splitBy, if_neg hbreak, hparts, List.modifyHead_cons, List.mem_cons] at hpart
            rcases hpart with rfl | hpart
            · intro character hcharacter
              rcases List.mem_cons.mp hcharacter with rfl | hcharacter
              · exact ⟨by simpa using hbreak, by simp⟩
              · exact inRest head (by simp) character hcharacter
            · exact inRest part (by simp [hpart])

def segments (text : List Char) : List (List Char) :=
  splitBy (· == ',') text

/-- The longest parts of a text that are neither empty nor hold a blank, in order. -/
def words (text : List Char) : List (List Char) :=
  (splitBy isBlank text).filter (· ≠ [])

def trim (text : List Char) : List Char :=
  ((text.dropWhile isBlank).reverse.dropWhile isBlank).reverse

def splitAtColon? : List Char → Option (List Char × List Char)
  | [] => none
  | character :: rest =>
      if character = ':' then some ([], rest)
      else (splitAtColon? rest).map fun (before, after) => (character :: before, after)

/-- Letters `A` to `Z` in lower case; all other characters stay as they are. -/
def lowerCase (text : List Char) : List Char :=
  text.map Char.toLower

/-- A text that can stand as one word between commas: not empty, without blank or comma. -/
def IsWord (text : String) : Prop :=
  text ≠ "" ∧ ∀ character ∈ text.toList, isBlank character = false ∧ character ≠ ','

instance (text : String) : Decidable (IsWord text) :=
  decidable_of_iff
    (text ≠ "" ∧ text.toList.all fun character => !isBlank character && character != ',')
    (by simp [IsWord])

theorem isWord_of_mem_words {segment word : List Char} (hplain : ',' ∉ segment)
    (hword : word ∈ words segment) : IsWord (String.ofList word) := by
  simp only [words, List.mem_filter, ne_eq, decide_not, Bool.not_eq_true',
    decide_eq_false_iff_not] at hword
  obtain ⟨hmem, hne⟩ := hword
  refine ⟨by simpa using hne, fun character hcharacter => ?_⟩
  have hparts := of_mem_splitBy hmem character (by simpa using hcharacter)
  exact ⟨hparts.1, fun hcomma => hplain (hcomma ▸ hparts.2)⟩

theorem comma_not_mem_of_mem_segments {text segment : List Char}
    (hsegment : segment ∈ segments text) : ',' ∉ segment := fun hcomma => by
  simpa using (of_mem_splitBy hsegment ',' hcomma).1

end RecordRollup.Text
