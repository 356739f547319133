import RecordRollup.Json.Reader

namespace RecordRollup.Json

/-- The characters that stand behind a backslash for one other character. -/
def shortEscape? : Char → Option Char
  | '"' => some '"'
  | '\\' => some '\\'
  | '/' => some '/'
  | 'b' => some '\x08'
  | 'f' => some '\x0c'
  | 'n' => some '\n'
  | 'r' => some '\r'
  | 't' => some '\t'
  | _ => none

def hexDigit? (character : Char) : Option Nat :=
  let code := character.toNat
  if '0' ≤ character ∧ character ≤ '9' then some (code - 48)
  else if 'a' ≤ character ∧ character ≤ 'f' then some (code - 87)
  else if 'A' ≤ character ∧ character ≤ 'F' then some (code - 55)
  else none

/-- What of an escape has been read. A character beyond `ffff` is written as two escapes, the
first of which is its `lead`. -/
inductive Pending
  | nothing
  /-- A lead, which another escape has to follow. -/
  | follow (lead : Nat)
  | escape (lead : Option Nat)
  /-- All but `missing` hexadecimal digits. -/
  | hex (lead : Option Nat) (missing code : Nat)

def isLead (code : Nat) : Bool :=
  0xd800 ≤ code && code ≤ 0xdbff

def isTrail (code : Nat) : Bool :=
  0xdc00 ≤ code && code ≤ 0xdfff

/-- The character of a complete escape, or what has to follow it. Where `strict` does not hold, the
text is of no interest, and neither are escapes that belong together. -/
def completeEscape (strict : Bool) (lead : Option Nat) (code : Nat) :
    Except JsonFault (Option Char × Pending) :=
  if !strict then .ok (none, .nothing)
  else
    match lead with
    | none =>
        if isLead code then .ok (none, .follow code)
        else if isTrail code then .error .malformed
        else .ok (some (Char.ofNat code), .nothing)
    | some lead =>
        if isTrail code then
          .ok (some (Char.ofNat (0x10000 + (lead - 0xd800) * 0x400 + (code - 0xdc00))), .nothing)
        else .error .malformed

def hasFourBytes (text : List Char) : Bool :=
  4 ≤ (text.take 4).foldl (fun size character => size + character.utf8Size) 0

def quotedFrom (strict : Bool) : Pending → List Char → Except JsonFault (List Char × List Char)
  | _, [] => .error .unfinished
  | .nothing, character :: rest =>
      if character = '"' then .ok ([], rest)
      else if character = '\\' then quotedFrom strict (.escape none) rest
      else if character.toNat < 0x20 then .error .malformed
      else (quotedFrom strict .nothing rest).map fun (content, rest) => (character :: content, rest)
  | .follow lead, character :: rest =>
      if character = '\\' then quotedFrom strict (.escape (some lead)) rest else .error .malformed
  | .escape lead, character :: rest =>
      if character = 'u' then
        if hasFourBytes rest then quotedFrom strict (.hex lead 4 0) rest else .error .unfinished
      else
        match lead, shortEscape? character with
        | none, some escaped =>
            (quotedFrom strict .nothing rest).map fun (content, rest) => (escaped :: content, rest)
        | _, _ => .error .malformed
  | .hex lead missing code, character :: rest =>
      match hexDigit? character with
      | none => .error .malformed
      | some digit =>
          if 1 < missing then quotedFrom strict (.hex lead (missing - 1) (code * 16 + digit)) rest
          else
            match completeEscape strict lead (code * 16 + digit) with
            | .error fault => .error fault
            | .ok (character, pending) =>
                (quotedFrom strict pending rest).map fun (content, rest) =>
                  (character.toList ++ content, rest)

namespace Reader

def quoted (strict : Bool) : Reader String := do
  advance
  let (content, rest) ← quotedFrom strict .nothing (← get)
  set rest
  return String.ofList content

end Reader

def writtenChar (character : Char) : String :=
  match character with
  | '"' => "\\\""
  | '\\' => "\\\\"
  | '\x08' => "\\b"
  | '\x0c' => "\\f"
  | '\n' => "\\n"
  | '\r' => "\\r"
  | '\t' => "\\t"
  | _ =>
      if character.toNat < 0x20 then "\\u00" ++ Bytes.hexPair (UInt8.ofNat character.toNat)
      else character.toString

def writeString (text : String) : String :=
  "\"" ++ String.join (text.toList.map writtenChar) ++ "\""

end RecordRollup.Json
