import RecordRollup.Wire.Varint

/-!
Varints by shifts and masks on a word of a fixed width. A number that the word has no room for and a
shift by all of its bits have no meaning; where one of them comes up there is no outcome.
-/

namespace RecordRollup

namespace Word

variable {width : Nat}

def ofNat? (width number : Nat) : Option (BitVec width) :=
  if number < Nat.pow 2 width then some (BitVec.ofNat width number) else none

def toByte? (word : BitVec width) : Option UInt8 :=
  if word.toNat < 256 then some (UInt8.ofNat word.toNat) else none

def shiftLeft? (word : BitVec width) (amount : Nat) : Option (BitVec width) :=
  if amount < width then some (word <<< amount) else none

def shiftRight? (word : BitVec width) (amount : Nat) : Option (BitVec width) :=
  if amount < width then some (word >>> amount) else none

theorem toNat_lt_of_shiftRight? {word rest : BitVec width} (hrest : shiftRight? word 7 = some rest)
    (hzero : rest ≠ 0) : rest.toNat < word.toNat := by
  rw [shiftRight?] at hrest
  split at hrest
  · obtain rfl := Option.some.inj hrest
    have hpos : (word >>> 7).toNat ≠ 0 := fun h => hzero (BitVec.eq_of_toNat_eq (by simpa using h))
    rw [BitVec.toNat_ushiftRight, Nat.shiftRight_eq_div_pow] at hpos ⊢
    exact Nat.div_lt_self (Nat.pos_of_ne_zero fun h => hpos (by rw [h, Nat.zero_div])) (by decide)
  · cases hrest

end Word

namespace Varint

variable {width : Nat}

/-- Appends a word to a buffer, the lowest group first. -/
def appendWord? (word : BitVec width) (buffer : Bytes) : Option Bytes := do
  let mask ← Word.ofNat? width 0x7f
  let group ← Word.toByte? (word &&& mask)
  match _ : Word.shiftRight? word 7 with
  | none => none
  | some rest =>
      if _ : rest = 0 then some (buffer ++ [group])
      else appendWord? rest (buffer ++ [group ||| 0x80])
termination_by word.toNat
decreasing_by exact Word.toNat_lt_of_shiftRight? (by assumption) (by assumption)

/-- The number of bytes that a word of 64 bits is written in, from the place of its highest bit. -/
def wordLength (word : BitVec 64) : Nat :=
  (max (64 - word.clz.toNat) 1 + 6) / 7

/-- The bits of a group for which a word that has `room` bits to spare has no place. -/
def beyond? (group : UInt8) (room : Nat) : Option (BitVec 32) :=
  if room < 7 then Word.shiftRight? (BitVec.ofNat 32 group.toNat) room else some 0

/-- Reads on behind `used` bytes, whose groups are the lowest `shift` bits of `word`. -/
def collect? (word : BitVec width) (shift used : Nat) :
    Bytes → Option (Except ReadFault (BitVec width × Nat))
  | [] => some (.error .varintEnds)
  | byte :: rest =>
      if width ≤ shift then some (.error .varintTooLarge)
      else do
        let group ← Word.ofNat? width (byte &&& 0x7f).toNat
        let beyond ← beyond? (byte &&& 0x7f) (width - shift)
        if 0 < beyond then some (.error .varintTooLarge)
        else
          let shifted ← Word.shiftLeft? group shift
          if byte &&& 0x80 = 0 then some (.ok (word ||| shifted, used + 1))
          else collect? (word ||| shifted) (shift + 7) (used + 1) rest

def readWord? (width : Nat) : Bytes → Option (Except ReadFault (BitVec width × Nat)) :=
  collect? 0 0 0

end Varint

end RecordRollup
