import RecordRollup.Fault

/-!
Reading JSON text from left to right. A reader takes what it knows how to read from the front of the
text; the first problem that it meets is the one that counts.
-/

namespace RecordRollup.Json

abbrev Reader := StateT (List Char) (Except JsonFault)

namespace Reader

variable {α : Type}

def isBlank (character : Char) : Bool :=
  character = ' ' || character = '\n' || character = '\t' || character = '\r'

/-- The next character, which is still to be read. -/
def peek : Reader (Option Char) :=
  return (← get).head?

def advance : Reader Unit :=
  modify List.tail

/-- The next character that is not blank, which is still to be read. -/
def peekSolid : Reader (Option Char) := do
  modify (·.dropWhile isBlank)
  peek

def next : Reader Char := do
  match ← peek with
  | none => throw .unfinished
  | some character =>
      advance
      return character

def accept (accepted : Char → Bool) : Reader (Option Char) := do
  match ← peek with
  | some character =>
      if accepted character then
        advance
        return some character
      else return none
  | none => return none

def expect (characters : List Char) : Reader Unit :=
  characters.forM fun expected => do
    if (← next) ≠ expected then throw .malformed

def digits : Reader (List Char) := do
  let text ← get
  set (text.dropWhile Char.isDigit)
  return text.takeWhile Char.isDigit

/-- Does a step as long as it gives a new value. Each step but the last has to read something, so
the length of the text bounds their number. -/
def iterate (step : α → Reader (Option α)) (start : α) : Reader α := do
  loop ((← get).length + 1) start
where
  loop : Nat → α → Reader α
    | 0, value => return value
    | bound + 1, value => do
        match ← step value with
        | some value => loop bound value
        | none => return value

def finish : Reader Unit := do
  match ← peekSolid with
  | none => return ()
  | some _ => throw .malformed

def runOn (reader : Reader α) (text : String) : Except JsonFault α :=
  (do
    let value ← reader
    finish
    return value : Reader α).run' text.toList

end Reader

end RecordRollup.Json
