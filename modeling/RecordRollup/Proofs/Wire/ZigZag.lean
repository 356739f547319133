import Mathlib
import RecordRollup.Proofs.Wire.Varint
import RecordRollup.Wire.ZigZag

namespace RecordRollup

variable {width : Nat}

theorem Word.sshiftRight_last (word : BitVec width) :
    word.sshiftRight (width - 1) = BitVec.fill width word.msb := by
  ext index hindex
  rw [BitVec.getElem_sshiftRight, BitVec.getElem_fill]
  split
  · next hlast =>
      obtain rfl : index = 0 := by omega
      rw [BitVec.msb_eq_getLsbD_last, ← BitVec.getLsbD_eq_getElem]
      rfl
  · rfl

namespace ZigZag

/-- Folding moves every bit one place up and flips all of them for a negative number. -/
theorem getLsbD_encode (number : BitVec width) {index : Nat} (hindex : index < width) :
    (encode number).getLsbD index =
      ((decide (0 < index) && number.getLsbD (index - 1)) ^^ number.msb) := by
  rw [encode, Word.sshiftRight_last, BitVec.getLsbD_xor, BitVec.getLsbD_shiftLeft,
    BitVec.getLsbD_eq_getElem hindex, BitVec.getElem_fill]
  rcases Nat.eq_zero_or_pos index with rfl | hpos
  · simp
  · simp [hindex, hpos, hpos.ne']

theorem encode_and_one (number : BitVec width) (hwidth : 0 < width) :
    encode number &&& 1 = if number.msb then 1 else 0 := by
  apply BitVec.eq_of_getLsbD_eq
  intro index hindex
  have hone : (1 : BitVec width).getLsbD index = decide (index = 0) := by
    simp [BitVec.getLsbD_one, hwidth]
  rw [BitVec.getLsbD_and, getLsbD_encode number hindex, hone]
  rcases Nat.eq_zero_or_pos index with rfl | hpos
  · cases number.msb <;> simp [hwidth]
  · cases number.msb <;> simp [hpos.ne']

theorem decode_encode (number : BitVec width) : decode (encode number) = number := by
  apply BitVec.eq_of_getLsbD_eq
  intro index hindex
  have hwidth : 0 < width := by omega
  have hflip : (-(encode number &&& 1)).getLsbD index = number.msb := by
    rw [encode_and_one number hwidth]
    cases number.msb
    · simp
    · rw [if_pos rfl, BitVec.ofNat_eq_ofNat, BitVec.neg_one_eq_allOnes, BitVec.getLsbD_allOnes]
      simpa using hindex
  rw [decode, BitVec.getLsbD_xor, hflip, BitVec.getLsbD_ushiftRight]
  rcases Nat.lt_or_ge (index + 1) width with hinner | hlast
  · rw [Nat.add_comm 1 index, getLsbD_encode number hinner]
    simp
  · -- The shift leaves no bit here, so the sign itself is what is left.
    obtain rfl : index = width - 1 := by omega
    rw [BitVec.getLsbD_of_ge _ _ (by omega), BitVec.msb_eq_getLsbD_last]
    simp

theorem encode_decode (folded : BitVec width) : encode (decode folded) = folded := by
  have hsurjective : Function.Surjective (encode : BitVec width → BitVec width) :=
    Finite.injective_iff_surjective.mp (Function.LeftInverse.injective decode_encode)
  obtain ⟨number, rfl⟩ := hsurjective folded
  rw [decode_encode]

theorem read_write (hwidth : 0 < width) (number : BitVec width) (rest : Bytes) :
    read width (write number ++ rest) = .ok (number, (write number).length) := by
  rw [read, write, Varint.read_encode hwidth (encode number).isLt]
  simp [Except.map, decode_encode]

theorem length_write_le_of_read {bytes : Bytes} {number : BitVec width} {used : Nat}
    (hread : read width bytes = .ok (number, used)) : (write number).length ≤ used := by
  obtain ⟨⟨folded, count⟩, hfolded, heq⟩ := map_eq_ok_iff.mp hread
  cases heq
  have hkept : (BitVec.ofNat width folded).toNat = folded := by
    rw [BitVec.toNat_ofNat, Nat.mod_eq_of_lt (Varint.lt_of_read hfolded)]
  rw [write, encode_decode, hkept]
  exact Varint.length_encode_le_of_read hfolded

end ZigZag

end RecordRollup
