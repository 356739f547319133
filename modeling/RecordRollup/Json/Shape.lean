import RecordRollup.Json.Numeral
import RecordRollup.Json.Quoted

/-!
Readers of JSON values of a known shape. A value of another shape is read as far as it takes to see
that it is JSON, and then refused.
-/

namespace RecordRollup.Json

namespace Reader

variable {α β δ : Type}

/-- Whether another element of a list follows. The opening bracket has been read; the closing one
is still to be read. -/
def nextElement (isFirst : Bool) : Reader Bool := do
  match ← peekSolid with
  | none => throw .unfinished
  | some ']' => return false
  | some ',' =>
      if isFirst then return true
      else
        advance
        match ← peekSolid with
        | none => throw .unfinished
        | some ']' => throw .malformed
        | some _ => return true
  | some _ => if isFirst then return true else throw .malformed

def closeList : Reader Unit := do
  match ← peekSolid with
  | none => throw .unfinished
  | some ']' => advance
  | some _ => throw .malformed

/-- Whether another member of an object follows; if so, the quote of its name is next. The closing
brace is still to be read. -/
def nextMember (isFirst : Bool) : Reader Bool := do
  match ← peekSolid with
  | none => throw .unfinished
  | some '\x7d' => return false
  | some character =>
      if !isFirst then
        if character ≠ ',' then throw .malformed
        advance
      match ← peekSolid with
      | none => throw .unfinished
      | some '"' => return true
      | some _ => throw .malformed

def colon : Reader Unit := do
  match ← peekSolid with
  | none => throw .unfinished
  | some ':' => advance
  | some _ => throw .malformed

mutual

/-- Reads past a value that is of no interest. Each step into a value takes one from `bound`. -/
def skipWithin : (bound : Nat) → Reader Unit
  | 0 => throw .malformed
  | bound + 1 => do
      match ← peekSolid with
      | none => throw .unfinished
      | some 'n' => expect "null".toList
      | some 't' => expect "true".toList
      | some 'f' => expect "false".toList
      | some '"' => discard (quoted false)
      | some '[' =>
          advance
          if ← nextElement true then skipElements bound
          advance
      | some '\x7b' =>
          advance
          if ← nextMember true then skipMembers bound
          advance
      | some character =>
          if character = '-' || character.isDigit then discard (numeral .malformed)
          else throw .malformed

def skipElements : (bound : Nat) → Reader Unit
  | 0 => throw .malformed
  | bound + 1 => do
      skipWithin bound
      if ← nextElement false then skipElements bound

def skipMembers : (bound : Nat) → Reader Unit
  | 0 => throw .malformed
  | bound + 1 => do
      discard (quoted false)
      colon
      skipWithin bound
      if ← nextMember false then skipMembers bound

end

/-- Reads past a value that is of no interest. It takes at most two steps for each character. -/
def skip : Reader Unit := do
  skipWithin (2 * (← get).length + 2)

/-- Refuses the value that is next. It is read before that unless it is a list or an object. -/
def refuse : Reader α := do
  match ← peek with
  | some 'n' => expect "null".toList
  | some 't' => expect "true".toList
  | some 'f' => expect "false".toList
  | some '"' => discard (quoted true)
  | some '[' | some '\x7b' => throw .mismatched
  | some character =>
      if character = '-' || character.isDigit then discard checkedNumeral else throw .malformed
  | none => throw .unfinished
  throw .mismatched

def startingWith (reader? : Char → Option (Reader α)) : Reader α := do
  match ← peekSolid with
  | none => throw .unfinished
  | some character =>
      match reader? character with
      | some reader => reader
      | none => refuse

def string : Reader String :=
  startingWith fun character => if character = '"' then some (quoted true) else none

def int32Of (read : Numeral) : Reader Int32 :=
  match read.toInt? with
  | some number =>
      if Int32.minValue.toInt ≤ number ∧ number ≤ Int32.maxValue.toInt then
        return Int32.ofInt number
      else throw .mismatched
  | none => throw .mismatched

def int32 : Reader Int32 :=
  startingWith fun character =>
    if character = '-' || character.isDigit then
      some (do int32Of (← checkedNumeral))
    else none

def null : Reader Unit :=
  startingWith fun character => if character = 'n' then some (expect "null".toList) else none

def optional (reader : Reader α) : Reader (Option α) := do
  if (← peekSolid) = some 'n' then
    expect "null".toList
    return none
  else return some (← reader)

def list (element : Reader α) : Reader (List α) :=
  startingWith fun character => if character ≠ '[' then none else some do
    advance
    let elements ← iterate (fun elements : List α => do
      if ← nextElement elements.isEmpty then
        return some ((← element) :: elements)
      else return none) []
    advance
    return elements.reverse

def int32Name : Reader Int32 := do
  advance
  match ← peek with
  | some character =>
      if character = '-' || character.isDigit then
        let number ← int32Of (← checkedNumeral)
        if (← peek) ≠ some '"' then throw .malformed
        advance
        return number
      else throw .malformed
  | none => throw .malformed

/-- Reads an object whose member names are whole numbers. Of members with one name the last one
counts. -/
def int32Object (value : Reader α) : Reader (List (Int32 × α)) :=
  startingWith fun character => if character ≠ '\x7b' then none else some do
    advance
    let (_, members) ← iterate (fun (isFirst, members) => do
      if ← nextMember isFirst then
        let name ← int32Name
        colon
        let value ← value
        return some (false, members.filter (·.1 ≠ name) ++ [(name, value)])
      else return none) (true, ([] : List (Int32 × α)))
    advance
    return members

/-- Reads one of a few names, written as a string or as an object from it to null. -/
def oneOf (value? : String → Option α) : Reader α := do
  let named : Reader α := do
    match value? (← string) with
    | some value => return value
    | none => throw .mismatched
  match ← peekSolid with
  | none => throw .unfinished
  | some '"' => named
  | some '\x7b' =>
      advance
      if !(← nextMember true) then throw .malformed
      let value ← named
      colon
      null
      match ← peekSolid with
      | none => throw .unfinished
      | some '\x7d' =>
          advance
          return value
      | some _ => throw .malformed
  | some _ => throw .malformed

end Reader

structure Member (δ : Type) where
  name : String
  isSet : δ → Bool
  read : δ → Reader δ
  absent : δ → Except JsonFault δ

/-- A member that has to be there, or has a default. -/
def Member.of {δ α : Type} (name : String) (get : δ → Option α) (set : δ → α → δ)
    (reader : Reader α) (default : Option α) : Member δ where
  name := name
  isSet collected := (get collected).isSome
  read collected := return set collected (← reader)
  absent collected :=
    match default with
    | some value => .ok (set collected value)
    | none => .error .mismatched

namespace Reader

variable {δ : Type}

/-- Reads the members of an object in any order. Members of other names are read past; a second
member of one name is refused as soon as its name has been read. -/
def objectMembers (members : List (Member δ)) (start : δ) : Reader δ := do
  let (_, collected) ← iterate (fun (isFirst, collected) => do
    if ← nextMember isFirst then
      let name ← quoted true
      match members.find? (·.name = name) with
      | some member =>
          if member.isSet collected then throw .mismatched
          colon
          return some (false, ← member.read collected)
      | none =>
          colon
          skip
          return some (false, collected)
    else return none) (true, start)
  let collected ← members.foldlM (fun collected member =>
    if member.isSet collected then return collected else member.absent collected) collected
  advance
  return collected

def listedMembers (members : List (Member δ)) (start : δ) : Reader δ := do
  let (_, collected) ← members.foldlM (fun (isFirst, collected) member => do
    if ← nextElement isFirst then return (false, ← member.read collected)
    else return (isFirst, ← member.absent collected)) (true, start)
  closeList
  return collected

def object (members : List (Member δ)) (start : δ) : Reader δ :=
  startingWith fun character =>
    if character = '\x7b' then some (do advance; objectMembers members start)
    else if character = '[' then some (do advance; listedMembers members start)
    else none

end Reader

end RecordRollup.Json
