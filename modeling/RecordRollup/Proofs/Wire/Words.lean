import Mathlib
import RecordRollup.Proofs.Wire.Varint
import RecordRollup.Wire.Words

/-!
Varints on words are varints of numbers. Where a word has room for a group, shifts and masks read and
write the same bytes as division does, and never shift by as many bits as the word has.
-/

namespace RecordRollup

namespace Word

variable {width : Nat}

theorem ofNat?_of_lt {number : Nat} (hroom : number < 2 ^ width) :
    ofNat? width number = some (BitVec.ofNat width number) :=
  if_pos hroom

theorem shiftLeft?_of_lt {word : BitVec width} {amount : Nat} (hamount : amount < width) :
    shiftLeft? word amount = some (word <<< amount) :=
  if_pos hamount

theorem shiftRight?_of_lt {word : BitVec width} {amount : Nat} (hamount : amount < width) :
    shiftRight? word amount = some (word >>> amount) :=
  if_pos hamount

end Word

namespace Varint

variable {width : Nat}

theorem toNat_group (byte : UInt8) : (byte &&& 0x7f).toNat = byte.toNat % 128 := by
  rw [UInt8.toNat_and]
  exact Nat.and_two_pow_sub_one_eq_mod byte.toNat 7

theorem and_high_eq_zero_iff (byte : UInt8) : byte &&& 0x80 = 0 ↔ byte.toNat < 128 := by
  have hbound := byte.toNat_lt
  have hbit : (byte &&& 0x80).toNat = (byte.toNat.testBit 7).toNat * 128 := by
    rw [UInt8.toNat_and]
    exact Nat.and_two_pow byte.toNat 7
  have hpower : (2 : Nat) ^ 7 = 128 := rfl
  rw [← UInt8.toNat_inj, hbit, Nat.testBit_eq_decide_div_mod_eq, hpower, UInt8.toNat_zero]
  by_cases hhigh : byte.toNat / 128 % 2 = 1
  · rw [decide_eq_true hhigh, Bool.toNat_true]
    omega
  · rw [decide_eq_false hhigh, Bool.toNat_false]
    omega

theorem or_high {group : UInt8} (hgroup : group.toNat < 2 ^ 7) :
    group ||| 0x80 = UInt8.ofNat (group.toNat + 128) := by
  rw [← UInt8.toNat_inj, UInt8.toNat_or, UInt8.toNat_ofNat', Nat.mod_eq_of_lt (by omega),
    Nat.or_comm, Nat.add_comm]
  exact (Nat.two_pow_add_eq_or_of_lt hgroup 1).symm

theorem exists_beyond? {group : UInt8} (hgroup : group.toNat < 2 ^ 7) (room : Nat) :
    ∃ beyond, beyond? group room = some beyond ∧ (0 < beyond ↔ 2 ^ room ≤ group.toNat) := by
  rw [beyond?]
  split
  · next hnarrow =>
      refine ⟨_, Word.shiftRight?_of_lt (by omega), ?_⟩
      have hpower : 0 < 2 ^ room := Nat.two_pow_pos room
      change 0 < (BitVec.ofNat 32 group.toNat >>> room).toNat ↔ _
      rw [BitVec.toNat_ushiftRight, Nat.shiftRight_eq_div_pow, BitVec.toNat_ofNat,
        Nat.mod_eq_of_lt (by omega), Nat.div_pos_iff, and_iff_right hpower]
  · next hwide =>
      refine ⟨0, rfl, ?_⟩
      have hpower : 2 ^ 7 ≤ 2 ^ room := Nat.pow_le_pow_right (by omega) (by omega)
      simp only [BitVec.lt_irrefl, false_iff]
      omega

theorem toNat_or_shiftLeft {word : BitVec width} {group shift : Nat} (hword : word.toNat < 2 ^ shift)
    (hshift : shift < width) (hgroup : group < 2 ^ (width - shift)) :
    (word ||| BitVec.ofNat width group <<< shift).toNat = word.toNat + 2 ^ shift * group := by
  have hroom : 2 ^ width = 2 ^ shift * 2 ^ (width - shift) := by
    rw [← Nat.pow_add, Nat.add_sub_cancel' hshift.le]
  have hfits : 2 ^ shift * group < 2 ^ width := by
    rw [hroom]
    exact (Nat.mul_lt_mul_left (Nat.two_pow_pos shift)).mpr hgroup
  have hgroupFits : group < 2 ^ width :=
    hgroup.trans_le (Nat.pow_le_pow_right (by omega) (Nat.sub_le width shift))
  rw [BitVec.toNat_or, BitVec.toNat_shiftLeft, BitVec.toNat_ofNat, Nat.mod_eq_of_lt hgroupFits,
    Nat.shiftLeft_eq, Nat.mul_comm group, Nat.mod_eq_of_lt hfits, Nat.or_comm, Nat.add_comm]
  exact (Nat.two_pow_add_eq_or_of_lt hword group).symm

/-- One step on a word takes the decisions of one step on a number with the bits that are left. -/
theorem collect?_cons (hwidth : 7 ≤ width) (word : BitVec width) (shift used : Nat) (byte : UInt8)
    (rest : Bytes) :
    collect? word shift used (byte :: rest) =
      if width - shift = 0 ∨ 2 ^ (width - shift) ≤ byte.toNat % 128 then
        some (.error .varintTooLarge)
      else if byte.toNat < 128 then
        some (.ok (word ||| BitVec.ofNat width (byte.toNat % 128) <<< shift, used + 1))
      else
        collect? (word ||| BitVec.ofNat width (byte.toNat % 128) <<< shift) (shift + 7) (used + 1)
          rest := by
  have hgroup : (byte &&& 0x7f).toNat < 2 ^ 7 := by
    rw [toNat_group]
    exact Nat.mod_lt _ (by decide)
  have hroom : (byte &&& 0x7f).toNat < 2 ^ width :=
    hgroup.trans_le (Nat.pow_le_pow_right (by omega) hwidth)
  obtain ⟨beyond, hbeyond, hlarge⟩ := exists_beyond? hgroup (width - shift)
  rw [toNat_group] at hlarge hroom
  simp only [collect?, toNat_group, Word.ofNat?_of_lt hroom, hbeyond, Option.bind_eq_bind,
    Option.bind_some, hlarge, and_high_eq_zero_iff]
  rcases Nat.lt_or_ge shift width with hshift | hfull
  · have hleft : width - shift ≠ 0 := by omega
    rw [if_neg hshift.not_ge, Word.shiftLeft?_of_lt hshift, Option.bind_some]
    simp only [hleft, false_or]
  · rw [if_pos hfull, if_pos (.inl (Nat.sub_eq_zero_of_le hfull))]

/-- Behind the groups that are in the word, the number goes on with what is read of it for the bits that
are left. -/
theorem collect?_eq (hwidth : 7 ≤ width) {word : BitVec width} {shift used : Nat}
    (hword : word.toNat < 2 ^ shift) (bytes : Bytes) :
    collect? word shift used bytes =
      some ((read (width - shift) bytes).map fun (high, more) =>
        (BitVec.ofNat width (word.toNat + 2 ^ shift * high), used + more)) := by
  induction bytes generalizing word shift used with
  | nil => rfl
  | cons byte rest ih =>
      rw [collect?_cons hwidth, read, Nat.pow_eq]
      dsimp only
      split
      · rfl
      · next hfits =>
          have hnext := toNat_or_shiftLeft hword (by omega) (Nat.lt_of_not_le fun h => hfits (.inr h))
          split
          · next hlast =>
              simp only [Except.map, ← hnext, BitVec.ofNat_toNat, BitVec.setWidth_eq]
          · next hmore =>
              have hpower : 2 ^ (shift + 7) = 2 ^ shift * 128 := Nat.pow_add 2 shift 7
              have hmod : byte.toNat % 128 < 128 := Nat.mod_lt _ (by decide)
              rw [ih (by rw [hnext, hpower]; nlinarith), hnext, Nat.sub_sub]
              cases read (width - (shift + 7)) rest with
              | error fault => rfl
              | ok found =>
                  obtain ⟨high, more⟩ := found
                  simp only [Except.map, hpower, Option.some.injEq, Except.ok.injEq, Prod.mk.injEq]
                  exact ⟨congrArg _ (by ring), by ring⟩

theorem readWord?_eq (hwidth : 7 ≤ width) (bytes : Bytes) :
    readWord? width bytes =
      some ((read width bytes).map fun (value, used) => (BitVec.ofNat width value, used)) := by
  rw [readWord?, collect?_eq hwidth (by simp)]
  simp

theorem toNat_shiftRight_seven (word : BitVec width) : (word >>> 7).toNat = word.toNat / 128 := by
  rw [BitVec.toNat_ushiftRight]
  exact Nat.shiftRight_eq_div_pow word.toNat 7

theorem mask_lt (hwidth : 7 < width) : 0x7f < 2 ^ width := by
  have hpower : 2 ^ 7 ≤ 2 ^ width := Nat.pow_le_pow_right (by omega) hwidth.le
  omega

theorem toByte?_and_mask (hwidth : 7 < width) (word : BitVec width) :
    Word.toByte? (word &&& BitVec.ofNat width 0x7f) = some (UInt8.ofNat (word.toNat % 128)) := by
  have hgroup : (word &&& BitVec.ofNat width 0x7f).toNat = word.toNat % 128 := by
    rw [BitVec.toNat_and, BitVec.toNat_ofNat, Nat.mod_eq_of_lt (mask_lt hwidth)]
    exact Nat.and_two_pow_sub_one_eq_mod word.toNat 7
  rw [Word.toByte?, hgroup, if_pos (by omega)]

theorem appendWord?_eq_ite (hwidth : 7 < width) (word : BitVec width) (buffer : Bytes) :
    appendWord? word buffer =
      if word.toNat < 128 then some (buffer ++ [UInt8.ofNat word.toNat])
      else appendWord? (word >>> 7) (buffer ++ [UInt8.ofNat (word.toNat % 128 + 128)]) := by
  have hgroup : (UInt8.ofNat (word.toNat % 128)).toNat = word.toNat % 128 := by
    rw [UInt8.toNat_ofNat']
    omega
  have hlast : word >>> 7 = 0 ↔ word.toNat < 128 := by
    rw [← BitVec.toNat_inj, toNat_shiftRight_seven]
    change _ = 0 ↔ _
    omega
  rw [appendWord?, Word.ofNat?_of_lt (mask_lt hwidth), Option.bind_eq_bind, Option.bind_some,
    toByte?_and_mask hwidth, Option.bind_eq_bind, Option.bind_some]
  split
  · next hnone =>
      rw [Word.shiftRight?_of_lt hwidth] at hnone
      cases hnone
  · next rest hsome =>
      rw [Word.shiftRight?_of_lt hwidth] at hsome
      obtain rfl := Option.some.inj hsome
      by_cases hsmall : word.toNat < 128
      · rw [dif_pos (hlast.mpr hsmall), if_pos hsmall, Nat.mod_eq_of_lt hsmall]
      · rw [dif_neg (fun h => hsmall (hlast.mp h)), if_neg hsmall,
          or_high (hgroup.trans_lt (Nat.mod_lt _ (by decide))), hgroup]

theorem appendWord?_eq (hwidth : 7 < width) (word : BitVec width) (buffer : Bytes) :
    appendWord? word buffer = some (buffer ++ encode word.toNat) := by
  generalize hvalue : word.toNat = value
  induction value using encode.induct generalizing word buffer with
  | case1 value hsmall =>
      rw [appendWord?_eq_ite hwidth, hvalue, if_pos hsmall, encode, if_pos hsmall]
  | case2 value hlarge ih =>
      have hrest : (word >>> 7).toNat = value / 128 := by
        rw [toNat_shiftRight_seven, hvalue]
      have hgroups : encode value = UInt8.ofNat (value % 128 + 128) :: encode (value / 128) := by
        rw [encode, if_neg hlarge]
      rw [appendWord?_eq_ite hwidth, hvalue, if_neg hlarge, ih _ _ hrest, hgroups,
        List.append_assoc, List.singleton_append]

end Varint

end RecordRollup
