import RecordRollup.Error

/-!
Reading at a position of a buffer, and appending to one. Readers work on the rest of a buffer and
count from its start; here their faults are told in terms of the whole buffer.
-/

namespace RecordRollup.Wire

/-- Reads what begins at `position`; a position beyond the end leaves nothing to read. -/
def readAt {α : Type} (read : Bytes → Except ReadFault α) (buffer : Bytes) (position : Nat) :
    Except Error α :=
  match read (buffer.drop position) with
  | .ok result => .ok result
  | .error fault => .error (.decoding (.unreadable fault position buffer.length))

theorem readAt_eq_ok_iff {α : Type} {read : Bytes → Except ReadFault α} {buffer : Bytes}
    {position : Nat} {result : α} :
    readAt read buffer position = .ok result ↔ read (buffer.drop position) = .ok result := by
  simp only [readAt]
  cases read (buffer.drop position) <;> simp

theorem readAt_eq_error_iff {α : Type} {read : Bytes → Except ReadFault α} {buffer : Bytes}
    {position : Nat} {error : Error} :
    readAt read buffer position = .error error ↔
      ∃ fault, read (buffer.drop position) = .error fault ∧
        error = .decoding (.unreadable fault position buffer.length) := by
  simp only [readAt]
  cases read (buffer.drop position) <;> simp [eq_comm]

/-- A buffer after an attempt to append to it, and the error if the attempt failed. -/
def appended (buffer : Bytes) : Except Error Bytes → Bytes × Option Error
  | .ok bytes => (buffer ++ bytes, none)
  | .error error => (buffer, some error)

end RecordRollup.Wire
