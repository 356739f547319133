import Mathlib
import RecordRollup.Proofs.Outcome
import RecordRollup.Wire.Varint

namespace RecordRollup.Varint

theorem two_pow_eq_mul {bits : Nat} (hwide : 7 ≤ bits) : 2 ^ bits = 128 * 2 ^ (bits - 7) := by
  rw [show (128 : Nat) = 2 ^ 7 from rfl, ← Nat.pow_add, Nat.add_sub_cancel' hwide]

theorem read_encode {bits value : Nat} (hbits : 0 < bits) (hvalue : value < 2 ^ bits)
    (rest : Bytes) :
    read bits (encode value ++ rest) = .ok (value, (encode value).length) := by
  induction value using encode.induct generalizing bits with
  | case1 value hsmall =>
      have hgroup : (UInt8.ofNat value).toNat = value := by
        rw [UInt8.toNat_ofNat']
        omega
      rw [encode, if_pos hsmall]
      simp only [List.singleton_append, read, hgroup, Nat.mod_eq_of_lt hsmall, hsmall, if_true,
        Nat.pow_eq, List.length_singleton]
      rw [if_neg (by omega)]
  | case2 value hlarge ih =>
      have hbyte : (UInt8.ofNat (value % 128 + 128)).toNat = value % 128 + 128 := by
        rw [UInt8.toNat_ofNat']
        omega
      have hgroup : (value % 128 + 128) % 128 = value % 128 := by omega
      have hwide : 7 < bits := by
        by_contra hnarrow
        have hpower : 2 ^ bits ≤ 2 ^ 7 := Nat.pow_le_pow_right (by omega) (by omega)
        omega
      have hpower := two_pow_eq_mul hwide.le
      have hrest := @ih (bits - 7) (by omega) (by omega)
      rw [encode, if_neg hlarge]
      simp only [List.cons_append, read, hbyte, hgroup, Nat.pow_eq]
      rw [if_neg (by omega), if_neg (by omega), hrest]
      simp only [Except.map, List.length_cons, Except.ok.injEq, Prod.mk.injEq, and_true]
      exact Nat.mod_add_div value 128

theorem read_cons_eq_ok_iff {bits : Nat} {byte : UInt8} {rest : Bytes} {value used : Nat} :
    read bits (byte :: rest) = .ok (value, used) ↔
      (bits ≠ 0 ∧ byte.toNat % 128 < 2 ^ bits) ∧
        ((byte.toNat < 128 ∧ byte.toNat = value ∧ 1 = used) ∨
          (128 ≤ byte.toNat ∧ ∃ high count, read (bits - 7) rest = .ok (high, count) ∧
            byte.toNat % 128 + 128 * high = value ∧ count + 1 = used)) := by
  simp only [read, Nat.pow_eq]
  split
  · next hrefused =>
      simp only [reduceCtorEq, false_iff, not_and]
      omega
  · next hfits =>
      have hgroup : bits ≠ 0 ∧ byte.toNat % 128 < 2 ^ bits := by omega
      rw [and_iff_right hgroup]
      split
      · next hlast =>
          simp only [Except.ok.injEq, Prod.mk.injEq, Nat.mod_eq_of_lt hlast, hlast, true_and,
            Nat.not_le.mpr hlast, false_and, or_false]
      · next hmore =>
          simp only [map_eq_ok_iff, Prod.exists, Prod.mk.injEq, hmore, false_and, false_or,
            Nat.not_lt.mp hmore, true_and]

theorem lt_of_read {bits : Nat} {bytes : Bytes} {value used : Nat}
    (hread : read bits bytes = .ok (value, used)) : value < 2 ^ bits := by
  induction bytes generalizing bits value used with
  | nil => cases hread
  | cons byte rest ih =>
      simp only [read, Nat.pow_eq] at hread
      split at hread
      · cases hread
      · next hfits =>
          split at hread
          · cases hread
            omega
          · obtain ⟨⟨high, count⟩, hhigh, heq⟩ := map_eq_ok_iff.mp hread
            cases heq
            have hbound := ih hhigh
            rcases Nat.lt_or_ge bits 7 with hnarrow | hwide
            · have hzero : bits - 7 = 0 := by omega
              rw [hzero] at hbound
              omega
            · have hpower := two_pow_eq_mul hwide
              omega

theorem length_encode_mono {small large : Nat} (hle : small ≤ large) :
    (encode small).length ≤ (encode large).length := by
  induction large using encode.induct generalizing small with
  | case1 large hlarge =>
      rw [encode, if_pos (by omega), encode, if_pos hlarge]
      rfl
  | case2 large hlarge ih =>
      have hgroups : (encode large).length = (encode (large / 128)).length + 1 := by
        rw [encode, if_neg hlarge, List.length_cons]
      rw [hgroups, encode]
      split
      · simp
      · rw [List.length_cons]
        exact Nat.succ_le_succ (ih (Nat.div_le_div_right hle))

theorem length_encode_le_of_read {bits : Nat} {bytes : Bytes} {value used : Nat}
    (hread : read bits bytes = .ok (value, used)) : (encode value).length ≤ used := by
  induction bytes generalizing bits value used with
  | nil => cases hread
  | cons byte rest ih =>
      obtain ⟨-, ⟨hlast, rfl, rfl⟩ | ⟨-, high, count, hrest, rfl, rfl⟩⟩ :=
        read_cons_eq_ok_iff.mp hread
      · rw [encode, if_pos hlast]
        rfl
      · rw [encode]
        split
        · simp
        · -- The groups behind the first one are what is read of the rest.
          have hhigh : (byte.toNat % 128 + 128 * high) / 128 = high := by omega
          rw [hhigh, List.length_cons]
          exact Nat.succ_le_succ (ih hrest)

theorem eq_of_read_encode {bits value : Nat} {rest : Bytes} {found used : Nat}
    (hread : read bits (encode value ++ rest) = .ok (found, used)) :
    found = value ∧ used = (encode value).length := by
  induction value using encode.induct generalizing bits found used with
  | case1 value hsmall =>
      have hgroup : (UInt8.ofNat value).toNat = value := by
        rw [UInt8.toNat_ofNat']
        omega
      rw [encode, if_pos hsmall, List.singleton_append, read_cons_eq_ok_iff, hgroup] at hread
      rw [encode, if_pos hsmall]
      obtain ⟨-, ⟨-, rfl, rfl⟩ | ⟨hmore, -⟩⟩ := hread
      · exact ⟨rfl, rfl⟩
      · omega
  | case2 value hlarge ih =>
      have hbyte : (UInt8.ofNat (value % 128 + 128)).toNat = value % 128 + 128 := by
        rw [UInt8.toNat_ofNat']
        omega
      rw [encode, if_neg hlarge, List.cons_append, read_cons_eq_ok_iff, hbyte] at hread
      rw [encode, if_neg hlarge]
      obtain ⟨-, ⟨hlast, -⟩ | ⟨-, high, count, hrest, rfl, rfl⟩⟩ := hread
      · omega
      · obtain ⟨rfl, rfl⟩ := ih hrest
        refine ⟨?_, rfl⟩
        omega

theorem encode_append_inj {left right : Nat} {leftRest rightRest : Bytes}
    (heq : encode left ++ leftRest = encode right ++ rightRest) :
    left = right ∧ leftRest = rightRest := by
  have hbound : left < 2 ^ (left + 1) :=
    Nat.lt_two_pow_self.trans (Nat.pow_lt_pow_right (by omega) (by omega))
  have hread := read_encode (by omega) hbound leftRest
  rw [heq] at hread
  obtain ⟨rfl, -⟩ := eq_of_read_encode hread
  exact ⟨rfl, List.append_cancel_left heq⟩

end RecordRollup.Varint
