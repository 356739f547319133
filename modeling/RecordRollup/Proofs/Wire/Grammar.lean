import Mathlib
import RecordRollup.Proofs.Wire.Words

namespace RecordRollup

namespace Varint

variable {bits value used : Nat} {byte : UInt8} {bytes rest groups : Bytes}

/-- The number whose groups of seven bits are in the bytes, the lowest one first. -/
def number (bytes : Bytes) : Nat :=
  Nat.ofDigits 128 (bytes.map fun byte => byte.toNat % 128)

/-- Each of the bytes says that another one follows. -/
def Continued (bytes : Bytes) : Prop :=
  ∀ byte ∈ bytes, 128 ≤ byte.toNat

/-- Bytes that are a number of at most `bits` bits. Only the last one says that none follows. -/
structure Spells (bits : Nat) (groups : Bytes) (value : Nat) : Prop where
  closed : ∃ front last, groups = front ++ [last] ∧ Continued front ∧ last.toNat < 128
  length_le : groups.length ≤ bits ⌈/⌉ 7
  number_eq : number groups = value
  value_lt : value < 2 ^ bits

/-- Bytes that could go on as a number of at most `bits` bits, or as an overlong spelling of one. -/
structure CutShort (bits : Nat) (bytes : Bytes) : Prop where
  continued : Continued bytes
  length_le : bytes.length ≤ bits ⌈/⌉ 7
  number_lt : number bytes < 2 ^ bits

theorem number_cons (byte : UInt8) (rest : Bytes) :
    number (byte :: rest) = byte.toNat % 128 + 128 * number rest :=
  Nat.ofDigits_cons ..

theorem not_spells_nil : ¬ Spells bits [] value := by
  rintro ⟨⟨front, last, hbytes, -⟩, -⟩
  simp at hbytes

theorem closed_cons_iff :
    (∃ front last, byte :: rest = front ++ [last] ∧ Continued front ∧ last.toNat < 128) ↔
      rest = [] ∧ byte.toNat < 128 ∨ 128 ≤ byte.toNat ∧
        ∃ front last, rest = front ++ [last] ∧ Continued front ∧ last.toNat < 128 := by
  constructor
  · rintro ⟨front, last, hbytes, hfront, hlast⟩
    rcases front with _ | ⟨head, front⟩
    · cases hbytes
      exact .inl ⟨rfl, hlast⟩
    · cases hbytes
      exact .inr ⟨hfront byte (by simp), front, last, rfl, fun other hother => hfront other (by simp [hother]),
        hlast⟩
  · rintro (⟨rfl, hlast⟩ | ⟨hmore, front, last, rfl, hfront, hlast⟩)
    · exact ⟨[], byte, rfl, by simp [Continued], hlast⟩
    · exact ⟨byte :: front, last, rfl, List.forall_mem_cons.mpr ⟨hmore, hfront⟩, hlast⟩

theorem length_cons_le_iff :
    (byte :: rest).length ≤ bits ⌈/⌉ 7 ↔ bits ≠ 0 ∧ rest.length ≤ (bits - 7) ⌈/⌉ 7 := by
  rw [List.length_cons, Nat.ceilDiv_eq_add_pred_div, Nat.ceilDiv_eq_add_pred_div]
  omega

theorem number_cons_lt_iff (hlength : rest.length ≤ (bits - 7) ⌈/⌉ 7) :
    number (byte :: rest) < 2 ^ bits ↔
      byte.toNat % 128 < 2 ^ bits ∧ number rest < 2 ^ (bits - 7) := by
  rw [number_cons]
  rcases Nat.lt_or_ge bits 7 with hnarrow | hwide
  · obtain rfl : rest = [] := by
      rw [Nat.sub_eq_zero_of_le hnarrow.le, zero_ceilDiv] at hlength
      exact List.eq_nil_of_length_eq_zero (by omega)
    simp [number]
  · have hpower := two_pow_eq_mul hwide
    have hgroup : byte.toNat % 128 < 128 := Nat.mod_lt _ (by decide)
    have hpos : 0 < 2 ^ (bits - 7) := Nat.two_pow_pos _
    omega

theorem spells_cons_iff :
    Spells bits (byte :: rest) value ↔
      (bits ≠ 0 ∧ byte.toNat % 128 < 2 ^ bits) ∧
        (byte.toNat < 128 ∧ rest = [] ∧ byte.toNat = value ∨
          128 ≤ byte.toNat ∧ ∃ high, Spells (bits - 7) rest high ∧
            byte.toNat % 128 + 128 * high = value) := by
  constructor
  · rintro ⟨hclosed, hlength, rfl, hfits⟩
    obtain ⟨hbits, hlength⟩ := length_cons_le_iff.mp hlength
    obtain ⟨hgroup, hhigh⟩ := (number_cons_lt_iff hlength).mp hfits
    refine ⟨⟨hbits, hgroup⟩, ?_⟩
    rcases closed_cons_iff.mp hclosed with ⟨rfl, hlast⟩ | ⟨hmore, hclosed⟩
    · exact .inl ⟨hlast, rfl, by simp [number, Nat.mod_eq_of_lt hlast]⟩
    · exact .inr ⟨hmore, number rest, ⟨hclosed, hlength, rfl, hhigh⟩, (number_cons _ _).symm⟩
  · rintro ⟨⟨hbits, hgroup⟩, ⟨hlast, rfl, rfl⟩ | ⟨hmore, high, hrest, rfl⟩⟩
    · have hvalue : number [byte] = byte.toNat := by simp [number, Nat.mod_eq_of_lt hlast]
      rw [Nat.mod_eq_of_lt hlast] at hgroup
      exact ⟨closed_cons_iff.mpr (.inl ⟨rfl, hlast⟩), length_cons_le_iff.mpr ⟨hbits, Nat.zero_le _⟩,
        hvalue, hgroup⟩
    · obtain ⟨hclosed, hlength, rfl, hhigh⟩ := hrest
      rw [← number_cons]
      exact ⟨closed_cons_iff.mpr (.inr ⟨hmore, hclosed⟩), length_cons_le_iff.mpr ⟨hbits, hlength⟩, rfl,
        (number_cons_lt_iff hlength).mpr ⟨hgroup, hhigh⟩⟩

theorem cutShort_cons_iff :
    CutShort bits (byte :: rest) ↔
      (bits ≠ 0 ∧ byte.toNat % 128 < 2 ^ bits) ∧ 128 ≤ byte.toNat ∧ CutShort (bits - 7) rest := by
  constructor
  · rintro ⟨hcontinued, hlength, hfits⟩
    obtain ⟨hmore, hcontinued⟩ := List.forall_mem_cons.mp hcontinued
    obtain ⟨hbits, hlength⟩ := length_cons_le_iff.mp hlength
    obtain ⟨hgroup, hhigh⟩ := (number_cons_lt_iff hlength).mp hfits
    exact ⟨⟨hbits, hgroup⟩, hmore, hcontinued, hlength, hhigh⟩
  · rintro ⟨⟨hbits, hgroup⟩, hmore, hcontinued, hlength, hhigh⟩
    exact ⟨List.forall_mem_cons.mpr ⟨hmore, hcontinued⟩, length_cons_le_iff.mpr ⟨hbits, hlength⟩,
      (number_cons_lt_iff hlength).mpr ⟨hgroup, hhigh⟩⟩

theorem read_eq_ok_iff :
    read bits bytes = .ok (value, used) ↔
      used ≤ bytes.length ∧ Spells bits (bytes.take used) value := by
  induction bytes generalizing bits value used with
  | nil => simp [read, not_spells_nil]
  | cons byte rest ih =>
      rw [read_cons_eq_ok_iff]
      rcases used with _ | used
      · simp [not_spells_nil]
      · simp only [ih, List.take_succ_cons, spells_cons_iff, List.length_cons, Nat.add_le_add_iff_right]
        constructor
        · rintro ⟨hgroup, ⟨hlast, rfl, hone⟩ | ⟨hmore, high, count, ⟨hcount, hrest⟩, rfl, heq⟩⟩
          · obtain rfl : used = 0 := by omega
            exact ⟨Nat.zero_le _, hgroup, .inl ⟨hlast, List.take_zero, rfl⟩⟩
          · obtain rfl : count = used := by omega
            exact ⟨hcount, hgroup, .inr ⟨hmore, high, hrest, rfl⟩⟩
        · rintro ⟨hinside, hgroup, ⟨hlast, hnone, rfl⟩ | ⟨hmore, high, hrest, rfl⟩⟩
          · obtain rfl : used = 0 := by
              have hlength := congrArg List.length hnone
              rw [List.length_take, List.length_nil] at hlength
              omega
            exact ⟨hgroup, .inl ⟨hlast, rfl, rfl⟩⟩
          · exact ⟨hgroup, .inr ⟨hmore, high, used, ⟨hinside, hrest⟩, rfl, rfl⟩⟩

theorem read_cons_eq_ends_iff :
    read bits (byte :: rest) = .error .varintEnds ↔
      (bits ≠ 0 ∧ byte.toNat % 128 < 2 ^ bits) ∧ 128 ≤ byte.toNat ∧
        read (bits - 7) rest = .error .varintEnds := by
  simp only [read, Nat.pow_eq]
  split
  · next hrefused =>
      simp only [Except.error.injEq, reduceCtorEq, false_iff, not_and]
      omega
  · next hfits =>
      have hgroup : bits ≠ 0 ∧ byte.toNat % 128 < 2 ^ bits := by omega
      rw [and_iff_right hgroup]
      split
      · next hlast => simp [Nat.not_le.mpr hlast]
      · next hmore => rw [map_eq_error_iff, and_iff_right (Nat.not_lt.mp hmore)]

theorem read_eq_ends_iff : read bits bytes = .error .varintEnds ↔ CutShort bits bytes := by
  induction bytes generalizing bits with
  | nil => exact ⟨fun _ => ⟨by simp [Continued], Nat.zero_le _, Nat.two_pow_pos bits⟩, fun _ => rfl⟩
  | cons byte rest ih => rw [read_cons_eq_ends_iff, cutShort_cons_iff, ih]

theorem fault_of_read {fault : ReadFault} (hread : read bits bytes = .error fault) :
    fault = .varintEnds ∨ fault = .varintTooLarge := by
  induction bytes generalizing bits with
  | nil =>
      cases hread
      exact .inl rfl
  | cons byte rest ih =>
      rw [read] at hread
      dsimp only at hread
      split at hread
      · cases hread
        exact .inr rfl
      · split at hread
        · cases hread
        · exact ih (map_eq_error_iff.mp hread)

theorem read_eq_tooLarge_iff :
    read bits bytes = .error .varintTooLarge ↔
      ¬ CutShort bits bytes ∧ ∀ used ≤ bytes.length, ∀ value, ¬ Spells bits (bytes.take used) value := by
  rw [← read_eq_ends_iff]
  constructor
  · intro hread
    refine ⟨by simp [hread], fun used hused value hspells => ?_⟩
    have hfound := read_eq_ok_iff.mpr ⟨hused, hspells⟩
    rw [hread] at hfound
    cases hfound
  · rintro ⟨hends, hnone⟩
    cases hread : read bits bytes with
    | error fault =>
        rcases fault_of_read hread with rfl | rfl
        · exact absurd hread hends
        · rfl
    | ok found =>
        obtain ⟨hused, hspells⟩ := read_eq_ok_iff.mp hread
        exact absurd hspells (hnone _ hused _)

theorem exists_slice?_iff {buffer : Bytes} {position : Nat} :
    (∃ groups, Bytes.slice? buffer position used = some groups ∧ Spells bits groups value) ↔
      used ≤ (buffer.drop position).length ∧ Spells bits ((buffer.drop position).take used) value := by
  rw [Bytes.slice?, List.length_drop]
  constructor
  · rintro ⟨groups, hgroups, hspells⟩
    split at hgroups
    · cases hgroups
      exact ⟨by omega, hspells⟩
    · cases hgroups
  · rintro ⟨hused, hspells⟩
    have hpos : used ≠ 0 := by
      rintro rfl
      exact not_spells_nil hspells
    exact ⟨_, if_pos (by omega), hspells⟩

theorem read_drop_eq_tooLarge_iff {buffer : Bytes} {position : Nat} :
    read bits (buffer.drop position) = .error .varintTooLarge ↔
      ¬ CutShort bits (buffer.drop position) ∧ ∀ used groups value,
        Bytes.slice? buffer position used = some groups → ¬ Spells bits groups value := by
  rw [read_eq_tooLarge_iff]
  refine and_congr_right fun _ => ?_
  constructor
  · intro hnone used groups value hgroups hspells
    obtain ⟨hused, hspells⟩ := exists_slice?_iff.mp ⟨groups, hgroups, hspells⟩
    exact hnone used hused value hspells
  · intro hnone used hused value hspells
    obtain ⟨groups, hgroups, hspells⟩ := exists_slice?_iff.mpr ⟨hused, hspells⟩
    exact hnone used groups value hgroups hspells

/-- What is read at a position is exactly what is spelled out there. Otherwise the error tells of the end of
the buffer if the bytes behind the position are cut short, and else of a number that is too large. A word
of that many bits is read with the same outcome. -/
theorem readAt_grammar (bits : Nat) (buffer : Bytes) (position : Nat) :
    (∀ value used, readAt bits buffer position = .ok (value, used) ↔
      ∃ groups, Bytes.slice? buffer position used = some groups ∧ Spells bits groups value) ∧
    (∀ error, readAt bits buffer position = .error error ↔
      CutShort bits (buffer.drop position) ∧
          error = .decoding (.unreadable .varintEnds position buffer.length) ∨
        (¬ CutShort bits (buffer.drop position) ∧ ∀ used groups value,
            Bytes.slice? buffer position used = some groups → ¬ Spells bits groups value) ∧
          error = .decoding (.unreadable .varintTooLarge position buffer.length)) ∧
    (∀ size, ReadFault.varintEnds.message position size =
        s!"Unexpected end of buffer reading varint at offset {position}" ∧
      ReadFault.varintTooLarge.message position size =
        "Integer overflow during varint decoding") ∧
    (7 ≤ bits → readWord? bits (buffer.drop position) =
      some ((read bits (buffer.drop position)).map fun (value, used) =>
        (BitVec.ofNat bits value, used))) := by
  refine ⟨?_, ?_, fun size => ⟨rfl, rfl⟩, fun hwide => readWord?_eq hwide _⟩
  · intro value used
    rw [readAt, Wire.readAt_eq_ok_iff, read_eq_ok_iff, exists_slice?_iff]
  · intro error
    rw [readAt, Wire.readAt_eq_error_iff, ← read_drop_eq_tooLarge_iff, ← read_eq_ends_iff]
    constructor
    · rintro ⟨fault, hread, rfl⟩
      rcases fault_of_read hread with rfl | rfl
      · exact .inl ⟨hread, rfl⟩
      · exact .inr ⟨hread, rfl⟩
    · rintro (⟨hread, rfl⟩ | ⟨hread, rfl⟩)
      · exact ⟨_, hread, rfl⟩
      · exact ⟨_, hread, rfl⟩

theorem readAt_grammar_byte :
    readAt 8 [7, 0x85, 0x00, 7] 1 = .ok (5, 2) ∧
      readWord? 8 [0x85, 0x00, 7] = some (.ok (5, 2)) ∧
      readAt 8 [0x85, 0x81] 0 = .error (.decoding (.unreadable .varintEnds 0 2)) ∧
      readAt 8 [0x85, 0x82] 0 = .error (.decoding (.unreadable .varintTooLarge 0 2)) := by
  have hspells : Spells 8 [0x85, 0x00] 5 :=
    ⟨⟨[0x85], 0x00, rfl, by simp [Continued], by decide⟩, by decide, by decide, by decide⟩
  have hshort : CutShort 8 [0x85, 0x81] := ⟨by simp [Continued], by decide, by decide⟩
  have hlarge : ¬ CutShort 8 [0x85, 0x82] := fun h => absurd h.number_lt (by decide)
  obtain ⟨hread, -, -, hword⟩ := readAt_grammar 8 [7, 0x85, 0x00, 7] 1
  have hfive := (hread 5 2).mpr ⟨_, rfl, hspells⟩
  obtain ⟨-, hends, -, -⟩ := readAt_grammar 8 [0x85, 0x81] 0
  obtain ⟨hok, herror, -, -⟩ := readAt_grammar 8 [0x85, 0x82] 0
  refine ⟨hfive, ?_, (hends _).mpr (.inl ⟨hshort, rfl⟩), ?_⟩
  · exact hword (by decide)
  · refine (herror _).mpr (.inr ⟨⟨hlarge, ?_⟩, rfl⟩)
    intro used groups value hgroups hspells
    have hfound := (hok value used).mpr ⟨groups, hgroups, hspells⟩
    cases hfound

end Varint

end RecordRollup
