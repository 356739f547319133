import RecordRollup.Text.Printable

/-!
Texts shown between double quotes, with escapes for what would not be seen or would end the quote.
-/

namespace RecordRollup.Text

def hexNumber (number : Nat) : String :=
  String.ofList (Nat.toDigits 16 number)

/-- One character of a quoted text. Characters that are drawn onto the one before them could land
on the quote or on an escape, so they are shown by number like the invisible ones. -/
def quotedChar (character : Char) : String :=
  match character with
  | '"' => "\\\""
  | '\\' => "\\\\"
  | '\n' => "\\n"
  | '\t' => "\\t"
  | '\r' => "\\r"
  | '\x00' => "\\0"
  | _ =>
      if isCombining character || !isPrintable character then
        "\\u\x7b" ++ hexNumber character.toNat ++ "\x7d"
      else character.toString

def quoted (text : String) : String :=
  "\"" ++ String.join (text.toList.map quotedChar) ++ "\""

/-- A list of quoted texts, as in `["a", "b"]`. -/
def quotedList (texts : List String) : String :=
  "[" ++ ", ".intercalate (texts.map quoted) ++ "]"

end RecordRollup.Text
