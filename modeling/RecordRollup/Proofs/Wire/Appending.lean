import Mathlib
import RecordRollup.Proofs.Outcome
import RecordRollup.Wire.Appending

namespace RecordRollup

open Wire

namespace Wire

/-- A writer adds bytes to any buffer, or fails on any buffer. It may have added something before it
fails, of which nothing is said but that it comes after what was there. -/
def Emits (writer : Writer Unit) : Except Error Bytes → Prop
  | .ok bytes => ∀ buffer, writer.run.run buffer = (.ok (), buffer ++ bytes)
  | .error error => ∀ buffer, ∃ added, writer.run.run buffer = (.error error, buffer ++ added)

namespace Writer

variable {α : Type} {given : Writer α} {step : α → Writer Unit} {buffer : Bytes}

theorem run_bind (given : Writer α) (step : α → Writer Unit) (buffer : Bytes) :
    (given >>= step).run.run buffer =
      match given.run.run buffer with
      | (.ok value, middle) => (step value).run.run middle
      | (.error error, middle) => (.error error, middle) := by
  rw [ExceptT.run_bind, StateT.run_bind]
  rcases given.run.run buffer with ⟨error | value, middle⟩ <;> rfl

theorem apply_orRestore (writer : Writer Unit) (buffer : Bytes) :
    (orRestore writer).apply buffer =
      match writer.run.run buffer with
      | (.ok (), written) => (written, none)
      | (.error error, written) => (written.take buffer.length, some error) := by
  have hrun : (orRestore writer).run.run buffer =
      match writer.run.run buffer with
      | (.ok (), written) => (.ok (), written)
      | (.error error, written) => (.error error, written.take buffer.length) := by
    rw [orRestore, run_bind]
    change (tryCatch writer _ : Writer Unit).run.run buffer = _
    rw [ExceptT.run_tryCatch, StateT.run_bind]
    rcases writer.run.run buffer with ⟨error | value, written⟩ <;> rfl
  rw [apply, hrun]
  rcases writer.run.run buffer with ⟨error | value, written⟩ <;> rfl

end Writer

namespace Emits

variable {first second writer : Writer Unit} {outcome next : Except Error Bytes}

theorem put (bytes : Bytes) : Emits (Writer.put bytes) (.ok bytes) := by
  intro buffer
  rfl

theorem done : Emits (pure ()) (.ok []) := by
  intro buffer
  rw [List.append_nil]
  rfl

theorem fail (error : Error) : Emits (throw error) (.error error) := by
  intro buffer
  refine ⟨[], ?_⟩
  rw [List.append_nil]
  rfl

theorem append (hfirst : Emits first outcome) (hsecond : Emits second next) :
    Emits (do first; second) (do return (← outcome) ++ (← next)) := by
  cases outcome with
  | error error =>
      intro buffer
      obtain ⟨added, hadded⟩ := hfirst buffer
      refine ⟨added, ?_⟩
      rw [Writer.run_bind, hadded]
  | ok front =>
      have hrun : ∀ buffer, (do first; second : Writer Unit).run.run buffer =
          second.run.run (buffer ++ front) := by
        intro buffer
        rw [Writer.run_bind, hfirst buffer]
      cases next with
      | error error =>
          intro buffer
          obtain ⟨added, hadded⟩ := hsecond (buffer ++ front)
          refine ⟨front ++ added, ?_⟩
          rw [hrun, hadded, List.append_assoc]
      | ok back =>
          intro buffer
          rw [hrun, hsecond, List.append_assoc]

theorem lift {α : Type} {given : Except Error α} {step : α → Writer Unit}
    {following : α → Except Error Bytes}
    (hstep : ∀ value, given = .ok value → Emits (step value) (following value)) :
    Emits (do step (← given)) (given >>= following) := by
  cases given with
  | error error => exact fail error
  | ok value => exact hstep value rfl

theorem adapt (hwriter : Emits writer outcome) (tell : Error → Error) :
    Emits (writer.adapt tell) (outcome.mapError tell) := by
  have hrun : ∀ buffer, (writer.adapt tell).run.run buffer =
      ((writer.run.run buffer).1.mapError tell, (writer.run.run buffer).2) := fun _ => rfl
  cases outcome with
  | error error =>
      intro buffer
      obtain ⟨added, hadded⟩ := hwriter buffer
      refine ⟨added, ?_⟩
      rw [hrun, hadded]
      rfl
  | ok bytes =>
      intro buffer
      rw [hrun, hwriter buffer]
      rfl

theorem gather {step : Bytes → Writer Unit} {following : Bytes → Except Error Bytes}
    (hwriter : Emits writer outcome)
    (hstep : ∀ bytes, outcome = .ok bytes → Emits (step bytes) (following bytes)) :
    Emits (do step (← writer.gather)) (outcome >>= following) := by
  cases outcome with
  | error error =>
      obtain ⟨added, hadded⟩ := hwriter []
      rw [Writer.gather, hadded]
      exact fail error
  | ok bytes =>
      rw [Writer.gather, hwriter []]
      exact hstep bytes rfl

theorem forM {α : Type} {items : List α} {write : α → Writer Unit} {bytes : α → Except Error Bytes}
    (hitems : ∀ item ∈ items, Emits (write item) (bytes item)) :
    Emits (items.forM write) (do return (← items.mapM bytes).flatten) := by
  induction items with
  | nil => exact done
  | cons item items ih =>
      have hfirst := hitems item (by simp)
      have hrest := ih fun other hother => hitems other (by simp [hother])
      have hall := hfirst.append hrest
      simpa [List.mapM_cons] using hall

theorem orRestore (hwriter : Emits writer outcome) (buffer : Bytes) :
    (Writer.orRestore writer).apply buffer = appended buffer outcome := by
  rw [Writer.apply_orRestore]
  cases outcome with
  | error error =>
      obtain ⟨added, hadded⟩ := hwriter buffer
      rw [hadded]
      simp [appended]
  | ok bytes =>
      rw [hwriter buffer]
      rfl

end Emits

end Wire

theorem Span.emits_append (payload : Bytes) : Emits (append payload) (.ok (encode payload)) :=
  (Emits.put _).append (Emits.put _)

namespace Wire

theorem emits_appendPayload (type : FieldType) (value : Value) :
    Emits (appendPayload type value) ((encodePayload type value).mapError .encoding) := by
  rw [appendPayload]
  cases encodePayload type value with
  | error fault => exact .fail _
  | ok payload => exact .put _

theorem emits_appendValue (type : FieldType) (value : Value) :
    Emits (appendValue type value) ((encode type value).mapError .encoding) := by
  rw [appendValue.eq_def]
  split
  · exact Span.emits_append _
  · exact Span.emits_append _
  · next hstring hbytes =>
      have hencode : encode type value = encodePayload type value := by
        rw [encode]
        cases hpayload : encodePayload type value with
        | error fault => rfl
        | ok payload =>
            have hnatural : type.isBinary = false := by
              cases type <;> cases value <;> cases hpayload <;> try rfl
              case string.string => exact (hstring _ rfl rfl).elim
              case bytes.bytes => exact (hbytes _ rfl rfl).elim
            rw [hnatural]
            rfl
      rw [hencode]
      exact emits_appendPayload type value

end Wire

end RecordRollup
