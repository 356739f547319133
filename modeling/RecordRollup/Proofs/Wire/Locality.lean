import Mathlib
import RecordRollup.Proofs.Wire.Field

/-!
How far readers look. A reader takes at least one byte and none behind the end of its input, and what
it gives depends on the bytes that it takes and on nothing behind them.
-/

namespace RecordRollup

namespace Wire

variable {α β : Type}

/-- A reader takes one or more of the bytes that there are, and gives the same wherever these bytes
come first. -/
def IsLocal (read : Bytes → Except ReadFault (α × Nat)) : Prop :=
  ∀ ⦃bytes value used⦄, read bytes = .ok (value, used) →
    0 < used ∧ used ≤ bytes.length ∧
      ∀ other : Bytes, other.take used = bytes.take used → read other = .ok (value, used)

/-- The same of a reader at a position: it gives the same in all buffers that begin alike up to the
last byte that it takes. -/
def IsLocalAt (readAt : Bytes → Nat → Except Error (α × Nat)) : Prop :=
  ∀ ⦃buffer position value used⦄, readAt buffer position = .ok (value, used) →
    0 < used ∧ position + used ≤ buffer.length ∧
      ∀ other : Bytes, other.take (position + used) = buffer.take (position + used) →
        readAt other position = .ok (value, used)

variable {read : Bytes → Except ReadFault (α × Nat)}

theorem IsLocal.of_outcome {whole : Bytes → Except ReadFault (β × Nat)} (hlocal : IsLocal read)
    (htaken : ∀ bytes value used, whole bytes = .ok (value, used) →
      ∃ part, read bytes = .ok (part, used))
    (houtcome : ∀ bytes other, read other = read bytes → whole other = whole bytes) :
    IsLocal whole := by
  intro bytes value used hwhole
  obtain ⟨part, hpart⟩ := htaken bytes value used hwhole
  obtain ⟨hpos, hle, hsame⟩ := hlocal hpart
  refine ⟨hpos, hle, fun other hother => ?_⟩
  rw [houtcome bytes other ((hsame other hother).trans hpart.symm), hwhole]

theorem IsLocal.map (hlocal : IsLocal read) {convert : α × Nat → β × Nat}
    (hconvert : ∀ result, (convert result).2 = result.2) :
    IsLocal fun bytes => (read bytes).map convert := by
  apply hlocal.of_outcome
  · intro bytes value used hwhole
    obtain ⟨⟨part, count⟩, hpart, heq⟩ := map_eq_ok_iff.mp hwhole
    have hcount := hconvert (part, count)
    rw [heq] at hcount
    obtain rfl : used = count := hcount
    exact ⟨part, hpart⟩
  · intro bytes other hsame
    rw [hsame]

theorem IsLocal.readAt (hlocal : IsLocal read) : IsLocalAt (readAt read) := by
  intro buffer position value used hread
  obtain ⟨hpos, hle, hsame⟩ := hlocal (readAt_eq_ok_iff.mp hread)
  rw [List.length_drop] at hle
  refine ⟨hpos, by omega, fun other hother => ?_⟩
  apply readAt_eq_ok_iff.mpr
  apply hsame
  rw [List.take_drop, List.take_drop, hother]

theorem IsLocalAt.append {readAt : Bytes → Nat → Except Error (α × Nat)}
    (hlocal : IsLocalAt readAt) {buffer : Bytes} {position : Nat} {result : α × Nat}
    (hread : readAt buffer position = .ok result) (more : Bytes) :
    readAt (buffer ++ more) position = .ok result := by
  obtain ⟨-, hinside, hsame⟩ := hlocal hread
  exact hsame _ (List.take_append_of_le_length hinside)

end Wire

theorem Varint.isLocal (bits : Nat) : Wire.IsLocal (Varint.read bits) := by
  intro bytes
  induction bytes generalizing bits with
  | nil =>
      rintro value used ⟨⟩
  | cons byte rest ih =>
      intro value used hread
      obtain ⟨hgroup, hcases⟩ := read_cons_eq_ok_iff.mp hread
      have hfirst : ∀ {count : Nat} {other : Bytes},
          other.take (count + 1) = (byte :: rest).take (count + 1) →
            ∃ tail, other = byte :: tail ∧ tail.take count = rest.take count := by
        intro count other hother
        rcases other with _ | ⟨head, tail⟩
        · simp at hother
        · rw [List.take_succ_cons, List.take_succ_cons] at hother
          obtain ⟨rfl, htail⟩ := List.cons.inj hother
          exact ⟨tail, rfl, htail⟩
      rcases hcases with ⟨hlast, rfl, rfl⟩ | ⟨hmore, high, count, hrest, rfl, rfl⟩
      · refine ⟨by omega, by simp, fun other hother => ?_⟩
        obtain ⟨tail, rfl, -⟩ := hfirst hother
        exact read_cons_eq_ok_iff.mpr ⟨hgroup, .inl ⟨hlast, rfl, rfl⟩⟩
      · obtain ⟨-, hle, hsame⟩ := ih (bits - 7) hrest
        refine ⟨by omega, by simpa using hle, fun other hother => ?_⟩
        obtain ⟨tail, rfl, htail⟩ := hfirst hother
        exact read_cons_eq_ok_iff.mpr
          ⟨hgroup, .inr ⟨hmore, high, count, hsame tail htail, rfl, rfl⟩⟩

theorem ZigZag.isLocal (width : Nat) : Wire.IsLocal (ZigZag.read width) :=
  (Varint.isLocal width).map fun _ => rfl

theorem Fixed.isLocal {width : Nat} (hwidth : 0 < width) : Wire.IsLocal (Fixed.read width) := by
  intro bytes value used hread
  rw [read] at hread
  split at hread
  · next hle =>
      cases hread
      refine ⟨hwidth, hle, fun other hother => ?_⟩
      have hlength : width ≤ other.length := by
        have := congrArg List.length hother
        rw [List.length_take, List.length_take] at this
        omega
      rw [read, if_pos hlength, hother]
  · cases hread

namespace Span

theorem read_eq_ok_iff {bytes content : Bytes} {used : Nat} :
    read bytes = .ok (content, used) ↔
      ∃ header, Varint.read 64 bytes = .ok (content.length, header) ∧
        (bytes.drop header).take content.length = content ∧ header + content.length = used := by
  rw [read]
  constructor
  · intro hread
    split at hread
    · cases hread
    · next length header hlength =>
        split at hread
        · next hfits =>
            obtain ⟨rfl, rfl⟩ := Prod.mk.inj (Except.ok.inj hread)
            have hcontent : ((bytes.drop header).take length).length = length := by
              rw [List.length_take, List.length_drop]
              omega
            rw [hcontent]
            exact ⟨header, hlength, rfl, rfl⟩
        · cases hread
  · rintro ⟨header, hlength, hcontent, rfl⟩
    obtain ⟨-, hheader, -⟩ := Varint.isLocal 64 hlength
    have hfits : header + content.length ≤ bytes.length := by
      have := congrArg List.length hcontent
      rw [List.length_take, List.length_drop] at this
      omega
    simp only [hlength]
    rw [if_pos hfits, hcontent]

theorem isLocal : Wire.IsLocal read := by
  intro bytes content used hread
  obtain ⟨header, hlength, hcontent, rfl⟩ := read_eq_ok_iff.mp hread
  obtain ⟨hpos, hheader, hsame⟩ := Varint.isLocal 64 hlength
  have hsize := congrArg List.length hcontent
  rw [List.length_take, List.length_drop] at hsize
  refine ⟨by omega, by omega, fun other hother => ?_⟩
  have hfront : other.take header = bytes.take header := by
    have := congrArg (List.take header) hother
    rwa [List.take_take, List.take_take, Nat.min_eq_left (by omega)] at this
  refine read_eq_ok_iff.mpr ⟨header, hsame other hfront, ?_, rfl⟩
  rw [List.take_drop, hother, ← List.take_drop, hcontent]

end Span

namespace Wire

theorem isLocal_readBoolean : IsLocal readBoolean := by
  apply (Fixed.isLocal Nat.one_pos).of_outcome
  · intro bytes value used hread
    rw [readBoolean] at hread
    split at hread <;> cases hread
    · exact ⟨0, ‹_›⟩
    · exact ⟨1, ‹_›⟩
  · intro bytes other hsame
    rw [readBoolean, readBoolean, hsame]

theorem isLocal_read (type : FieldType) : IsLocal (read type) := by
  have hbinary : type.isBinary = true → IsLocal (read type) := by
    intro htype
    apply Span.isLocal.of_outcome
    · intro bytes value used hread
      rw [read_of_isBinary htype] at hread
      split at hread
      · cases hread
      · next content count hspan =>
          obtain ⟨found, -, heq⟩ := map_eq_ok_iff.mp hread
          cases heq
          exact ⟨content, hspan⟩
    · intro bytes other hsame
      rw [read_of_isBinary htype, read_of_isBinary htype, hsame]
  cases type with
  | int32 | int64 | float32 | float64 => exact (Fixed.isLocal (by decide)).map fun _ => rfl
  | varInt32 | varInt64 => exact (ZigZag.isLocal _).map fun _ => rfl
  | boolean => exact isLocal_readBoolean
  | enum => exact (Varint.isLocal 32).map fun _ => rfl
  | string | bytes => exact hbinary rfl

theorem isLocal_readKey (type : FieldType) : IsLocal (readKey type) := by
  cases type with
  | int32 | int64 | float32 | float64 | boolean =>
      exact (Fixed.isLocal (by decide)).map fun _ => rfl
  | varInt32 | varInt64 => exact (ZigZag.isLocal _).map fun _ => rfl
  | enum => exact (Varint.isLocal 32).map fun _ => rfl
  | string | bytes => exact Span.isLocal.map fun _ => rfl

end Wire

end RecordRollup
