import RecordRollup.Comparator
import RecordRollup.Log

namespace RecordRollup

/-- Named comparators, at most one of each name. -/
structure Registry where
  entries : List NamedComparator

namespace Registry

def empty : Registry := ⟨[]⟩

def builtins : Registry where
  entries := [⟨"case_insensitive", by decide, .caseInsensitive⟩, ⟨"shortlex", by decide, .shortlex⟩]

def resolve? (registry : Registry) (id : String) : Option NamedComparator :=
  registry.entries.find? (·.id = id)

theorem id_of_resolve? {registry : Registry} {id : String} {named : NamedComparator}
    (h : registry.resolve? id = some named) : named.id = id := by
  simpa using List.find?_some h

def resolve (registry : Registry) (id : String) : Except Error NamedComparator :=
  match registry.resolve? id with
  | some named => .ok named
  | none => .error (.unknownComparator id)

def contains (registry : Registry) (id : String) : Bool :=
  (registry.resolve? id).isSome

def insert (registry : Registry) (named : NamedComparator) : Registry where
  entries := named :: registry.entries.filter (·.id ≠ named.id)

theorem resolve?_insert (registry : Registry) (named : NamedComparator) (id : String) :
    (registry.insert named).resolve? id =
      if id = named.id then some named else registry.resolve? id := by
  by_cases h : named.id = id
  · simp [insert, resolve?, h]
  · simp only [insert, resolve?, List.find?_cons, h, decide_false, Ne.symm h, if_false]
    rw [List.find?_filter]
    congr 1
    funext other
    by_cases hother : other.id = id
    · simp [hother, Ne.symm h]
    · simp [hother]

/-- Registers a comparator under an identifier, which criteria texts have to be able to carry. -/
def register (registry : Registry) (id : String) (comparator : Comparator) :
    Except Error Registry :=
  if isWord : Text.IsWord id then .ok (registry.insert ⟨id, isWord, comparator⟩)
  else .error (.criteria (.notAWord .comparatorId id))

def registerLog (registry : Registry) (id : String) : List Log.Line :=
  if registry.contains id then
    [⟨.warn, s!"Comparator '{id}' was registered twice; keeping the latest"⟩]
  else []

end Registry

end RecordRollup
