import Mathlib
import RecordRollup.Proofs.Wire.Words

namespace RecordRollup

namespace Varint

theorem length_encode (value : Nat) : (encode value).length = encodedLength value := by
  induction value using encode.induct with
  | case1 value hsmall =>
      have hbits : Nat.log2 value < 7 := by
        rcases eq_or_ne value 0 with rfl | hvalue
        · decide
        · exact (Nat.log2_lt hvalue).mpr hsmall
      rw [encode, if_pos hsmall, encodedLength, Nat.div_eq_of_lt hbits]
      rfl
  | case2 value hlarge ih =>
      have hbits : 7 ≤ Nat.log2 value := (Nat.le_log2 (by omega)).mpr (by omega)
      have hrest : Nat.log2 (value / 128) = Nat.log2 value - 7 := by
        rw [Nat.log2_eq_log_two, Nat.log2_eq_log_two]
        exact Nat.log_div_base_pow 2 value 7
      rw [encode, if_neg hlarge, List.length_cons, ih, encodedLength, encodedLength, hrest]
      omega

theorem log2_eq_sub_clz {word : BitVec 64} (hword : word ≠ 0) :
    Nat.log2 word.toNat = 63 - word.clz.toNat := by
  have hne : word.toNat ≠ 0 := fun h => hword (BitVec.eq_of_toNat_eq h)
  have hlower : 2 ^ (63 - word.clz.toNat) ≤ word.toNat :=
    BitVec.two_pow_sub_clz_le_toNat_of_ne_zero (by decide) hword
  have hupper : word.toNat < 2 ^ (64 - word.clz.toNat) := BitVec.toNat_lt_two_pow_sub_clz
  have hbelow := (Nat.le_log2 hne).mpr hlower
  have habove := (Nat.log2_lt hne).mpr hupper
  omega

theorem wordLength_eq (word : BitVec 64) : wordLength word = encodedLength word.toNat := by
  rcases eq_or_ne word 0 with rfl | hword
  · decide
  · have hclz : word.clz.toNat < 64 := by
      have hlt := BitVec.clz_lt_iff_ne_zero.mpr hword
      exact hlt
    rw [wordLength, encodedLength, log2_eq_sub_clz hword]
    omega

/-- A word of at least eight bits is appended to any buffer, as the bytes of its number. Between any
bytes it is read back, in full and no further, with its own width and with every larger one. For a word
of 64 bits, and for all numbers that it has room for, the place of the highest bit tells how many bytes
are written. No bytes that are read as this number are fewer, and none of a larger number are. -/
theorem encode_shortest {bits : Nat} (hbits : 8 ≤ bits) (word : BitVec bits) (before after : Bytes) :
    appendWord? word before = some (before ++ encode word.toNat) ∧
    (∀ wider, bits ≤ wider →
      readAt wider (before ++ encode word.toNat ++ after) before.length =
          .ok (word.toNat, (encode word.toNat).length) ∧
        readWord? wider (encode word.toNat ++ after) =
          some (.ok (word.setWidth wider, (encode word.toNat).length))) ∧
    (∀ counted : BitVec 64, counted.toNat = word.toNat →
      (encode word.toNat).length = wordLength counted ∧
        wordLength counted = encodedLength word.toNat) ∧
    (∀ width spelled, readAt width spelled 0 = .ok (word.toNat, spelled.length) →
      (encode word.toNat).length ≤ spelled.length) ∧
    ∀ larger : BitVec bits, word ≤ larger →
      (encode word.toNat).length ≤ (encode larger.toNat).length := by
  refine ⟨appendWord?_eq hbits word before, ?_, ?_, ?_, ?_⟩
  · intro wider hwider
    have hroom : word.toNat < 2 ^ wider :=
      word.isLt.trans_le (Nat.pow_le_pow_right (by omega) hwider)
    have hread := read_encode (by omega) hroom after
    constructor
    · apply Wire.readAt_eq_ok_iff.mpr
      rw [List.append_assoc, List.drop_left, hread]
    · rw [readWord?_eq (by omega), hread, ← BitVec.ofNat_toNat]
      rfl
  · intro counted hcounted
    rw [length_encode, wordLength_eq, hcounted]
    exact ⟨rfl, rfl⟩
  · intro width spelled hread
    exact length_encode_le_of_read (Wire.readAt_eq_ok_iff.mp hread)
  · intro larger hlarger
    exact length_encode_mono hlarger

theorem encode_shortest_three_hundred :
    appendWord? (300#16) [7] = some [7, 0xac, 0x02] ∧
      readAt 64 [7, 0xac, 0x02, 7] 1 = .ok (300, 2) ∧
      readAt 16 [0xac, 0x82, 0x00] 0 = .ok (300, 3) ∧
      (encode 300).length ≤ 3 ∧ wordLength 300 = 2 ∧
      (encode 300).length ≤ (encode 65535).length := by
  obtain ⟨happend, hread, hcounted, hspelled, hlarger⟩ :=
    encode_shortest (by decide : 8 ≤ 16) (300#16) [7] [7]
  have hbytes : encode (300#16).toNat = [0xac, 0x02] := by cbv
  have hlong : readAt 16 [0xac, 0x82, 0x00] 0 = .ok (300, 3) := by decide
  have hlength := hspelled 16 [0xac, 0x82, 0x00] hlong
  obtain ⟨hcount, -⟩ := hcounted 300 rfl
  have hmore := hlarger (65535#16) (by decide)
  rw [hbytes] at happend hread hcount
  exact ⟨happend, (hread 64 (by decide)).1, hlong, hlength, hcount.symm, hmore⟩

end Varint

end RecordRollup
