import Mathlib
import RecordRollup.Proofs.Wire.Words
import RecordRollup.Proofs.Wire.ZigZag

namespace RecordRollup.ZigZag

variable {width : Nat} {number : BitVec width}

theorem encode_of_msb_false (hsign : number.msb = false) : encode number = number <<< 1 := by
  rw [encode, Word.sshiftRight_last, hsign, BitVec.fill_false, BitVec.xor_zero]

theorem encode_of_msb_true (hsign : number.msb = true) : encode number = ~~~(number <<< 1) := by
  rw [encode, Word.sshiftRight_last, hsign, BitVec.fill_true, BitVec.xor_allOnes]

/-- Zero and the positive numbers take the even places, the negative numbers the odd ones between them.
No place is beyond the width, so nothing is lost at either limit. -/
theorem toNat_encode (number : BitVec width) :
    ((encode number).toNat : Int) =
      if 0 ≤ number.toInt then 2 * number.toInt else -2 * number.toInt - 1 := by
  have hbound := number.isLt
  rcases hsign : number.msb
  · have hsmall := BitVec.msb_eq_false_iff_two_mul_lt.mp hsign
    rw [encode_of_msb_false hsign, BitVec.toInt_eq_toNat_of_msb hsign, if_pos (by omega),
      BitVec.toNat_shiftLeft, Nat.shiftLeft_eq, Nat.pow_one, Nat.mod_eq_of_lt (by omega)]
    omega
  · -- The bit that is shifted out is the sign, which the flip of all bits makes up for.
    have hlarge := BitVec.msb_eq_true_iff_two_mul_ge.mp hsign
    have hshifted : number.toNat * 2 % 2 ^ width = number.toNat * 2 - 2 ^ width := by
      rw [Nat.mod_eq_sub_mod (by omega), Nat.mod_eq_of_lt (by omega)]
    rw [encode_of_msb_true hsign, BitVec.toInt_eq_msb_cond, if_pos hsign, if_neg (by omega),
      BitVec.toNat_not, BitVec.toNat_shiftLeft, Nat.shiftLeft_eq, Nat.pow_one, hshifted]
    omega

theorem toInt_decode (folded : BitVec width) :
    (decode folded).toInt =
      if folded.toNat % 2 = 0 then (folded.toNat / 2 : Int) else -(folded.toNat / 2 : Int) - 1 := by
  have hplace := toNat_encode (decode folded)
  rw [encode_decode] at hplace
  split at hplace <;> split <;> omega

theorem encode_intMin (hwidth : 0 < width) :
    encode (BitVec.intMin width) = BitVec.allOnes width := by
  have hplace := toNat_encode (BitVec.intMin width)
  have hpower := mul_pow_sub_one hwidth.ne' (2 : Int)
  have hpos : (0 : Int) < 2 ^ (width - 1) := by positivity
  rw [BitVec.toInt_intMin_of_pos hwidth, if_neg (by omega)] at hplace
  apply BitVec.eq_of_toNat_eq
  rw [BitVec.toNat_allOnes]
  zify [Nat.one_le_two_pow]
  omega

theorem toNat_encode_intMax (hwidth : 0 < width) :
    (encode (BitVec.intMax width)).toNat = 2 ^ width - 2 := by
  have hplace := toNat_encode (BitVec.intMax width)
  have hpower := mul_pow_sub_one hwidth.ne' (2 : Int)
  have hpos : (0 : Int) < 2 ^ (width - 1) := by positivity
  rw [BitVec.toInt_intMax, if_pos (by omega)] at hplace
  zify [Nat.le_self_pow hwidth.ne' 2]
  omega

theorem toNat_encode_lt_of_natAbs_lt {other : BitVec width}
    (hnearer : other.toInt.natAbs < number.toInt.natAbs) :
    (encode other).toNat < (encode number).toNat := by
  have hother := toNat_encode other
  have hnumber := toNat_encode number
  split at hother <;> split at hnumber <;> omega

theorem appendWord?_encode (hwidth : 7 < width) (number : BitVec width) (buffer : Bytes) :
    Varint.appendWord? (encode number) buffer = some (buffer ++ write number) :=
  Varint.appendWord?_eq hwidth (encode number) buffer

theorem readWord?_write (hwidth : 7 ≤ width) (number : BitVec width) (rest : Bytes) :
    Varint.readWord? width (write number ++ rest) =
      some (.ok (encode number, (write number).length)) := by
  rw [Varint.readWord?_eq hwidth, write, Varint.read_encode (by omega) (encode number).isLt]
  simp [Except.map]

/-- Folding is a bijection between the signed and the unsigned numbers of a width, up to both limits of it.
A folded number is appended to any buffer and read back between any bytes, and no number that is nearer
to zero takes more bytes. -/
theorem signed_bijection (hwidth : 8 ≤ width) (number : BitVec width) (before after : Bytes) :
    ((encode number).toNat : Int) =
      (if 0 ≤ number.toInt then 2 * number.toInt else -2 * number.toInt - 1) ∧
    (encode (BitVec.intMin width) = BitVec.allOnes width ∧
      (encode (BitVec.intMax width)).toNat = 2 ^ width - 2) ∧
    decode (encode number) = number ∧
    (∀ folded : BitVec width, encode (decode folded) = folded ∧
      (decode folded).toInt =
        if folded.toNat % 2 = 0 then (folded.toNat / 2 : Int) else -(folded.toNat / 2 : Int) - 1) ∧
    Varint.appendWord? (encode number) before = some (before ++ write number) ∧
    readAt width (before ++ write number ++ after) before.length =
      .ok (number, (write number).length) ∧
    Varint.readWord? width (write number ++ after) =
      some (.ok (encode number, (write number).length)) ∧
    ∀ other : BitVec width, other.toInt.natAbs < number.toInt.natAbs →
      (write other).length ≤ (write number).length := by
  have hpos : 0 < width := by omega
  refine ⟨toNat_encode number, ⟨encode_intMin hpos, toNat_encode_intMax hpos⟩, decode_encode number,
    fun folded => ⟨encode_decode folded, toInt_decode folded⟩, appendWord?_encode hwidth number before,
    ?_, readWord?_write (by omega) number after, ?_⟩
  · apply Wire.readAt_eq_ok_iff.mpr
    rw [List.append_assoc, List.drop_left]
    exact read_write hpos number after
  · intro other hnearer
    exact Varint.length_encode_mono (toNat_encode_lt_of_natAbs_lt hnearer).le

theorem signed_bijection_limits :
    Varint.appendWord? (encode (BitVec.intMin 32)) [7] = some [7, 255, 255, 255, 255, 15] ∧
      readAt 32 [7, 255, 255, 255, 255, 15, 7] 1 = .ok (BitVec.intMin 32, 5) ∧
      (write (BitVec.intMax 32)).length ≤ 5 ∧
      (encode (BitVec.intMin 64)).toNat = 2 ^ 64 - 1 ∧
      readAt 64 [7, 255, 255, 255, 255, 255, 255, 255, 255, 255, 1, 7] 1 =
        .ok (BitVec.intMin 64, 10) ∧
      (write (BitVec.intMax 64)).length ≤ 10 := by
  have hshort : write (BitVec.intMin 32) = [255, 255, 255, 255, 15] := by cbv
  have hlong : write (BitVec.intMin 64) = [255, 255, 255, 255, 255, 255, 255, 255, 255, 1] := by cbv
  obtain ⟨-, -, -, -, happend, hread, -, hnearer⟩ :=
    signed_bijection (by decide : 8 ≤ 32) (BitVec.intMin 32) [7] [7]
  obtain ⟨-, ⟨hleast, -⟩, -, -, -, hreadLong, -, hnearerLong⟩ :=
    signed_bijection (by decide : 8 ≤ 64) (BitVec.intMin 64) [7] [7]
  have hmore := hnearer (BitVec.intMax 32) (by decide)
  have hmoreLong := hnearerLong (BitVec.intMax 64) (by decide)
  rw [hshort] at happend hread hmore
  rw [hlong] at hreadLong hmoreLong
  exact ⟨happend, hread, hmore, congrArg BitVec.toNat hleast, hreadLong, hmoreLong⟩

end RecordRollup.ZigZag
