import RecordRollup.Direction
import RecordRollup.Registry

/-!
Sort criteria: fields with a direction and, at choice, a comparator. In text, a criteria is
`name [using comparator] (asc|desc)` for each field, with commas between them.
-/

namespace RecordRollup

structure SortElement where
  name : String
  isWord : Text.IsWord name
  direction : Direction
  comparator : Option NamedComparator

namespace SortElement

def text (element : SortElement) : String :=
  match element.comparator with
  | some comparator => s!"{element.name} using {comparator.id} {element.direction.abbreviation}"
  | none => s!"{element.name} {element.direction.abbreviation}"

/-- What makes two elements the same: comparators count by their identifiers. -/
def signature (element : SortElement) : String × Direction × Option String :=
  (element.name, element.direction, element.comparator.map NamedComparator.id)

def compareValues (element : SortElement) (left right : Value) : Ordering :=
  match element.comparator with
  | some named => named.comparator.compareValues left right
  | none => compare left right

/-- An element with a name as given, which a criteria text has to be able to carry. -/
def ofName (name : String) (direction : Direction) (comparator : Option NamedComparator) :
    Except Error SortElement :=
  if isWord : Text.IsWord name then .ok ⟨name, isWord, direction, comparator⟩
  else .error (.criteria (.notAWord .fieldName name))

end SortElement

structure Criteria where
  elements : List SortElement
  distinct : (elements.map SortElement.name).Nodup

namespace Criteria

def empty : Criteria := ⟨[], by simp⟩

def names (criteria : Criteria) : List String :=
  criteria.elements.map SortElement.name

def contains (criteria : Criteria) (name : String) : Bool :=
  name ∈ criteria.names

def size (criteria : Criteria) : Nat :=
  criteria.elements.length

def signature (criteria : Criteria) : List (String × Direction × Option String) :=
  criteria.elements.map SortElement.signature

instance : BEq Criteria where
  beq left right := left.signature == right.signature

def push (criteria : Criteria) (element : SortElement) : Except Error Criteria :=
  if known : element.name ∈ criteria.names then .error (.repeatedSortField element.name)
  else .ok {
    elements := criteria.elements ++ [element]
    distinct := by
      rw [List.map_append, List.map_singleton, List.nodup_append]
      refine ⟨criteria.distinct, by simp, fun name hname other hother => ?_⟩
      rw [List.mem_singleton] at hother
      exact fun heq => known (hother ▸ heq ▸ hname) }

def ofElements (elements : List (String × Direction × Option NamedComparator)) :
    Except Error Criteria :=
  elements.foldlM (fun criteria (name, direction, comparator) => do
    let element ← SortElement.ofName name direction comparator
    criteria.push element) empty

def parseDirection (text : String) (word : List Char) : Except Error Direction :=
  match Direction.parse? word with
  | some direction => .ok direction
  | none => .error (.criteria (.direction (String.ofList word) text))

/-- Reads one element of `text`. A comparator is looked up before the direction is read. -/
def parseElement (text : String) (registry : Registry) (segment : List Char)
    (plain : ',' ∉ segment) : Except Error SortElement :=
  let shapeError : Except Error SortElement :=
    .error (.criteria (.shape (String.ofList (Text.trim segment)) text))
  match hwords : Text.words segment with
  | [name, direction] =>
      match parseDirection text direction with
      | .error error => .error error
      | .ok direction =>
          .ok ⟨String.ofList name, Text.isWord_of_mem_words plain (by simp [hwords]), direction,
            none⟩
  | [name, keyword, id, direction] =>
      if Text.lowerCase keyword = "using".toList then
        match registry.resolve (String.ofList id) with
        | .error error => .error error
        | .ok comparator =>
            match parseDirection text direction with
            | .error error => .error error
            | .ok direction =>
                .ok ⟨String.ofList name, Text.isWord_of_mem_words plain (by simp [hwords]),
                  direction, some comparator⟩
      else shapeError
  | _ => shapeError

def parseSegments (text : String) (registry : Registry) :
    (segments : List (List Char)) → (∀ segment ∈ segments, ',' ∉ segment) → Criteria →
      Except Error Criteria
  | [], _, criteria => .ok criteria
  | segment :: rest, plain, criteria => do
      let element ← parseElement text registry segment (plain segment (by simp))
      let criteria ← criteria.push element
      parseSegments text registry rest (fun other hother => plain other (by simp [hother])) criteria

def parse (text : String) (registry : Registry) : Except Error Criteria :=
  parseSegments text registry (Text.segments text.toList)
    (fun _ => Text.comma_not_mem_of_mem_segments) empty

def text (criteria : Criteria) : String :=
  ",".intercalate (criteria.elements.map SortElement.text)

end Criteria

end RecordRollup
