import RecordRollup.Text.Words

namespace RecordRollup

inductive Direction
  | ascending
  | descending
deriving DecidableEq, Repr

namespace Direction

instance : Inhabited Direction := ⟨ascending⟩

def abbreviation : Direction → String
  | ascending => "asc"
  | descending => "desc"

/-- Turns the outcome of an ascending comparison into that of the direction. -/
def apply : Direction → Ordering → Ordering
  | ascending, outcome => outcome
  | descending, outcome => outcome.swap

@[simp] theorem apply_eq_eq {direction : Direction} {outcome : Ordering} :
    direction.apply outcome = .eq ↔ outcome = .eq := by
  cases direction <;> cases outcome <;> simp [apply]

def parse? (word : List Char) : Option Direction :=
  if Text.lowerCase word = "asc".toList then some ascending
  else if Text.lowerCase word = "desc".toList then some descending
  else none

end Direction

end RecordRollup
