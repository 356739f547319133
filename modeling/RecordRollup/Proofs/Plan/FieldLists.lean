import Mathlib
import RecordRollup.Proofs.Plan.FieldForms

namespace RecordRollup

/-- The bytes of fields that are written one after the other. -/
inductive Written : List FieldForm → List Value → Bytes → Prop
  | nil : Written [] [] []
  | cons {form : FieldForm} {value : Value} {field : Bytes} {forms : List FieldForm}
      {values : List Value} {bytes : Bytes} (first : form.write value = .ok field)
      (rest : Written forms values bytes) :
      Written (form :: forms) (value :: values) (field ++ bytes)

variable {buffer : Bytes} {forms others : List FieldForm} {values : List Value}
  {start stop : Nat}

theorem readFields_cons_eq_ok_iff {form : FieldForm} :
    readFields buffer (form :: forms) start = .ok (values, stop) ↔
      ∃ value used rest, form.readAt buffer start = .ok (value, used) ∧
        readFields buffer forms (start + used) = .ok (rest, stop) ∧ value :: rest = values := by
  simp only [readFields, bind_eq_ok_iff, Prod.exists, pure, Except.pure, Except.ok.injEq,
    Prod.mk.injEq]
  constructor
  · rintro ⟨value, used, hfirst, rest, _, hrest, rfl, rfl⟩
    exact ⟨value, used, rest, hfirst, hrest, rfl⟩
  · rintro ⟨value, used, rest, hfirst, hrest, rfl⟩
    exact ⟨value, used, hfirst, rest, stop, hrest, rfl, rfl⟩

theorem length_of_readFields (hread : readFields buffer forms start = .ok (values, stop)) :
    forms.length = values.length := by
  induction forms generalizing values start with
  | nil =>
      cases hread
      rfl
  | cons form forms ih =>
      obtain ⟨value, used, rest, -, hrest, rfl⟩ := readFields_cons_eq_ok_iff.mp hread
      rw [List.length_cons, List.length_cons, ih hrest]

theorem readFields_append_eq_ok_iff {first second : List Value}
    (hlength : forms.length = first.length) :
    readFields buffer (forms ++ others) start = .ok (first ++ second, stop) ↔
      ∃ middle, readFields buffer forms start = .ok (first, middle) ∧
        readFields buffer others middle = .ok (second, stop) := by
  induction forms generalizing first start with
  | nil =>
      obtain rfl : first = [] := List.eq_nil_of_length_eq_zero hlength.symm
      simp [readFields]
  | cons form forms ih =>
      rcases first with _ | ⟨value, first⟩
      · simp at hlength
      · have hrestLength : forms.length = first.length := by simpa using hlength
        simp only [List.cons_append, readFields_cons_eq_ok_iff, List.cons.injEq]
        constructor
        · rintro ⟨head, used, rest, hhead, hrest, rfl, rfl⟩
          obtain ⟨middle, hfirst, hsecond⟩ := (ih hrestLength).mp hrest
          exact ⟨middle, ⟨head, used, first, hhead, hfirst, rfl, rfl⟩, hsecond⟩
        · rintro ⟨middle, ⟨head, used, rest, hhead, hfirst, rfl, rfl⟩, hsecond⟩
          exact ⟨head, used, rest ++ second, hhead,
            (ih hrestLength).mpr ⟨middle, hfirst, hsecond⟩, rfl, rfl⟩

theorem start_le_of_readFields (hread : readFields buffer forms start = .ok (values, stop)) :
    start ≤ stop := by
  induction forms generalizing values start with
  | nil =>
      cases hread
      exact le_rfl
  | cons form forms ih =>
      obtain ⟨value, used, rest, -, hrest, rfl⟩ := readFields_cons_eq_ok_iff.mp hread
      exact (Nat.le_add_right start used).trans (ih hrest)

theorem le_length_of_readFields (hstart : start ≤ buffer.length)
    (hread : readFields buffer forms start = .ok (values, stop)) : stop ≤ buffer.length := by
  induction forms generalizing values start with
  | nil =>
      cases hread
      exact hstart
  | cons form forms ih =>
      obtain ⟨value, used, rest, hfirst, hrest, rfl⟩ := readFields_cons_eq_ok_iff.mp hread
      obtain ⟨-, hinside, -⟩ := form.isLocalAt hfirst
      exact ih hinside hrest

theorem readFields_of_take_eq (hread : readFields buffer forms start = .ok (values, stop))
    {other : Bytes} (hother : other.take stop = buffer.take stop) :
    readFields other forms start = .ok (values, stop) := by
  induction forms generalizing values start with
  | nil =>
      cases hread
      rfl
  | cons form forms ih =>
      obtain ⟨value, used, rest, hfirst, hrest, rfl⟩ := readFields_cons_eq_ok_iff.mp hread
      obtain ⟨-, -, hsame⟩ := form.isLocalAt hfirst
      have hfront : other.take (start + used) = buffer.take (start + used) := by
        have hle := start_le_of_readFields hrest
        have htaken := congrArg (List.take (start + used)) hother
        rwa [List.take_take, List.take_take, Nat.min_eq_left hle] at htaken
      exact readFields_cons_eq_ok_iff.mpr
        ⟨value, used, rest, hsame other hfront, ih hrest, rfl⟩

theorem conforming_of_readFields (hread : readFields buffer forms start = .ok (values, stop)) :
    List.Forall₂ (fun form value => value ≠ .null ∧ value.conformsTo form.type = true) forms
      values := by
  induction forms generalizing values start with
  | nil =>
      cases hread
      exact .nil
  | cons form forms ih =>
      obtain ⟨value, used, rest, hfirst, hrest, rfl⟩ := readFields_cons_eq_ok_iff.mp hread
      obtain ⟨field, hwrite, -, -⟩ := FieldForm.exists_write_of_readAt hfirst
      exact .cons ⟨FieldForm.write_ne_null hwrite, FieldForm.write_conformsTo hwrite⟩ (ih hrest)

namespace Written

theorem unique {forms : List FieldForm} {values : List Value} {bytes other : Bytes}
    (written : Written forms values bytes) (hother : Written forms values other) :
    bytes = other := by
  induction written generalizing other with
  | nil =>
      cases hother
      rfl
  | cons hfirst hrest ih =>
      cases hother with
      | cons hotherFirst hotherRest =>
          rw [Except.ok.inj (hfirst.symm.trans hotherFirst), ih hotherRest]

theorem ne_null {forms : List FieldForm} {values : List Value} {bytes : Bytes}
    (written : Written forms values bytes) : ∀ value ∈ values, value ≠ .null := by
  induction written with
  | nil => simp
  | cons first _ ih =>
      intro value hvalue
      rcases List.mem_cons.mp hvalue with rfl | hvalue
      · exact FieldForm.write_ne_null first
      · exact ih value hvalue

theorem append_iff {forms others : List FieldForm} {values otherValues : List Value}
    {bytes : Bytes} (hlength : forms.length = values.length) :
    Written (forms ++ others) (values ++ otherValues) bytes ↔
      ∃ first second, Written forms values first ∧ Written others otherValues second ∧
        first ++ second = bytes := by
  induction forms generalizing values bytes with
  | nil =>
      obtain rfl : values = [] := List.eq_nil_of_length_eq_zero hlength.symm
      constructor
      · intro written
        exact ⟨[], bytes, .nil, written, rfl⟩
      · rintro ⟨first, second, hfirst, hsecond, rfl⟩
        cases hfirst
        exact hsecond
  | cons form forms ih =>
      rcases values with _ | ⟨value, values⟩
      · simp at hlength
      · have hlength : forms.length = values.length := by simpa using hlength
        constructor
        · intro written
          rcases written with _ | ⟨hfield, hrest⟩
          obtain ⟨first, second, hfirst, hsecond, rfl⟩ := (ih hlength).mp hrest
          exact ⟨_, second, .cons hfield hfirst, hsecond, List.append_assoc _ _ _⟩
        · rintro ⟨first, second, hfirst, hsecond, rfl⟩
          rcases hfirst with _ | ⟨hfield, hrest⟩
          rw [List.append_assoc]
          exact .cons hfield ((ih hlength).mpr ⟨_, second, hrest, hsecond, rfl⟩)

theorem readFields {forms : List FieldForm} {values : List Value} {bytes : Bytes}
    (written : Written forms values bytes) (hsize : bytes.length < 2 ^ 64)
    (before after : Bytes) :
    readFields (before ++ (bytes ++ after)) forms before.length =
      .ok (values, before.length + bytes.length) := by
  induction written generalizing before with
  | nil => simp [RecordRollup.readFields]
  | @cons form value field forms values bytes first _ ih =>
      rw [List.length_append] at hsize
      have hfield := FieldForm.readAt_write first (by omega) before (bytes ++ after)
      have hrest := ih (by omega) (before ++ field)
      rw [List.append_assoc, List.length_append] at hrest
      rw [RecordRollup.readFields, List.append_assoc, hfield]
      simp [bind, Except.bind, hrest, pure, Except.pure, Nat.add_assoc]

theorem eq_of_readFields {forms : List FieldForm} {values found : List Value}
    {bytes before after : Bytes} {stop : Nat} (written : Written forms values bytes)
    (hread : RecordRollup.readFields (before ++ (bytes ++ after)) forms before.length =
      .ok (found, stop)) :
    found = values ∧ stop = before.length + bytes.length := by
  induction written generalizing before found with
  | nil =>
      cases hread
      exact ⟨rfl, rfl⟩
  | @cons form value field forms values bytes first _ ih =>
      obtain ⟨head, used, rest, hhead, hrest, rfl⟩ := readFields_cons_eq_ok_iff.mp hread
      rw [List.append_assoc] at hhead hrest
      obtain ⟨rfl, rfl⟩ := FieldForm.eq_of_readAt_write first hhead
      rw [← List.length_append, ← List.append_assoc] at hrest
      obtain ⟨rfl, rfl⟩ := ih hrest
      simp [Nat.add_assoc]

theorem append_inj {forms : List FieldForm} {left right : List Value}
    {leftBytes rightBytes leftRest rightRest : Bytes} (hleft : Written forms left leftBytes)
    (hright : Written forms right rightBytes)
    (heq : leftBytes ++ leftRest = rightBytes ++ rightRest) :
    left = right ∧ leftBytes = rightBytes ∧ leftRest = rightRest := by
  induction hleft generalizing right rightBytes with
  | nil =>
      cases hright
      exact ⟨rfl, rfl, heq⟩
  | cons leftFirst _ ih =>
      rcases hright with _ | ⟨rightFirst, rightWritten⟩
      rw [List.append_assoc, List.append_assoc] at heq
      obtain ⟨rfl, hrest⟩ := FieldForm.write_append_inj leftFirst rightFirst heq
      obtain ⟨rfl, rfl, rfl⟩ := ih rightWritten hrest
      rw [Except.ok.inj (leftFirst.symm.trans rightFirst)]
      exact ⟨rfl, rfl, rfl⟩

theorem exists_of_readFields {buffer : Bytes} {forms : List FieldForm} {values : List Value}
    {start stop : Nat}
    (hread : RecordRollup.readFields buffer forms start = .ok (values, stop)) :
    ∃ bytes, Written forms values bytes ∧ start + bytes.length ≤ stop ∧
      ∀ before after : Bytes,
        RecordRollup.readFields (before ++ (bytes ++ after)) forms before.length =
          .ok (values, before.length + bytes.length) := by
  induction forms generalizing values start with
  | nil =>
      cases hread
      exact ⟨[], .nil, le_rfl, fun _ _ => rfl⟩
  | cons form forms ih =>
      obtain ⟨value, used, rest, hfirst, hrest, rfl⟩ := readFields_cons_eq_ok_iff.mp hread
      obtain ⟨field, hwrite, hfield, hfirstAgain⟩ := FieldForm.exists_write_of_readAt hfirst
      obtain ⟨bytes, hwritten, hbytes, hrestAgain⟩ := ih hrest
      refine ⟨field ++ bytes, .cons hwrite hwritten, ?_, ?_⟩
      · rw [List.length_append]
        omega
      · intro before after
        have hbehind := hrestAgain (before ++ field) after
        rw [List.append_assoc, List.length_append] at hbehind
        rw [List.append_assoc, List.length_append, ← Nat.add_assoc]
        exact readFields_cons_eq_ok_iff.mpr
          ⟨value, field.length, rest, hfirstAgain before (bytes ++ after), hbehind, rfl⟩

end Written

end RecordRollup
