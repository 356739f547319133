import Mathlib
import RecordRollup.Proofs.Wire.Locality

namespace RecordRollup

theorem Value.Key.compare_eq (left right : Key) :
    Ord.compare left right =
      (Ord.compare left.group right.group).then
        ((Ord.compare left.number right.number).then (Ord.compare left.content right.content)) := rfl

theorem Bytes.compare_singleton (left right : UInt8) :
    compare [left] [right] = compare (left.toNat : Int) right.toNat := by
  have hbytes : compare left right = compare (left.toNat : Int) right.toNat := by
    simp only [compare, compareOfLessAndEq, UInt8.lt_iff_toNat_lt, ← UInt8.toNat_inj, Int.ofNat_lt,
      Int.ofNat_inj]
  rw [List.compare_cons_cons, hbytes]
  cases compare (left.toNat : Int) right.toNat <;> rfl

theorem Bytes.slice?_eq_some_iff {bytes part : Bytes} {start length : Nat} :
    bytes.slice? start length = some part ↔
      start + length ≤ bytes.length ∧ (bytes.drop start).take length = part := by
  rw [slice?]
  split
  · next hinside => rw [Option.some.injEq, and_iff_right hinside]
  · next houtside => simp only [reduceCtorEq, houtside, false_and]

theorem Fixed.read_one_drop (buffer : Bytes) (position : Nat) :
    read 1 (buffer.drop position) =
      match buffer[position]? with
      | some byte => .ok (byte.toNat, 1)
      | none => .error (.tooFewBytes 1) := by
  cases hbyte : buffer[position]? with
  | none =>
      have hend : buffer.length ≤ position := List.getElem?_eq_none_iff.mp hbyte
      rw [List.drop_eq_nil_of_le hend]
      rfl
  | some byte =>
      obtain ⟨hposition, rfl⟩ := List.getElem?_eq_some_iff.mp hbyte
      have hrest : 1 ≤ (buffer.drop position).length := by
        rw [List.length_drop]
        omega
      rw [read, if_pos hrest, List.drop_eq_getElem_cons hposition, List.take_succ_cons,
        List.take_zero]
      simp [value]

theorem Span.readAt_eq_ok_iff {buffer content : Bytes} {position used : Nat} :
    Span.readAt buffer position = .ok (content, used) ↔
      ∃ header, Varint.readAt 64 buffer position = .ok (content.length, header) ∧
        buffer.slice? (position + header) content.length = some content ∧
        header + content.length = used := by
  simp only [Span.readAt, Varint.readAt, Wire.readAt_eq_ok_iff, Span.read_eq_ok_iff,
    Bytes.slice?_eq_some_iff, List.drop_drop]
  constructor
  · rintro ⟨header, hheader, hcontent, hused⟩
    obtain ⟨hpos, hinside, -⟩ := Varint.isLocal 64 hheader
    have hsize := congrArg List.length hcontent
    rw [List.length_take, List.length_drop] at hsize
    rw [List.length_drop] at hinside
    exact ⟨header, hheader, ⟨by omega, hcontent⟩, hused⟩
  · rintro ⟨header, hheader, ⟨-, hcontent⟩, hused⟩
    exact ⟨header, hheader, hcontent, hused⟩

namespace Wire

variable {type : FieldType} {bytes buffer content : Bytes} {position used : Nat}
  {fault : ReadFault} {error : Error}

theorem read_of_readKey_error (hkey : readKey type bytes = .error fault) :
    read type bytes = .error fault := by
  cases type
  case boolean =>
    rw [read, readBoolean, map_eq_error_iff.mp hkey]
  case string | bytes =>
    rw [read, map_eq_error_iff.mp hkey]
  all_goals
    rw [read, map_eq_error_iff.mp hkey]
    rfl

theorem decodeAt_of_keyAt_error (hkey : keyAt type buffer position = .error error) :
    decodeAt type buffer position = .error error := by
  obtain ⟨fault, hfault, rfl⟩ := readAt_eq_error_iff.mp hkey
  exact readAt_eq_error_iff.mpr ⟨fault, read_of_readKey_error hfault, rfl⟩

/-- The bytes of a truth value or a text at a position, whatever they stand for: a single byte, or as
many bytes as the length in front of them says. -/
inductive ContentAt (buffer : Bytes) (position : Nat) : FieldType → Bytes → Nat → Prop
  | truth {byte : UInt8} (hbyte : buffer[position]? = some byte) :
      ContentAt buffer position .boolean [byte] 1
  | text {content : Bytes} {header : Nat}
      (hheader : Varint.readAt 64 buffer position = .ok (content.length, header))
      (hcontent : buffer.slice? (position + header) content.length = some content) :
      ContentAt buffer position .string content (header + content.length)

inductive Meaningful : FieldType → Bytes → Prop
  | no : Meaningful .boolean [0]
  | yes : Meaningful .boolean [1]
  | text (text : String) : Meaningful .string (Utf8.encode text)

theorem exists_contentAt_of_keyAt {key : Value.Key} (htype : type = .boolean ∨ type = .string)
    (hkey : keyAt type buffer position = .ok (key, used)) :
    ∃ content, ContentAt buffer position type content used := by
  have hread := readAt_eq_ok_iff.mp hkey
  rcases htype with rfl | rfl
  · obtain ⟨⟨word, count⟩, hword, heq⟩ := map_eq_ok_iff.mp hread
    cases heq
    rw [Fixed.read_one_drop] at hword
    split at hword
    · next byte hbyte =>
        cases hword
        exact ⟨[byte], .truth hbyte⟩
    · cases hword
  · obtain ⟨⟨content, count⟩, hspan, heq⟩ := map_eq_ok_iff.mp hread
    cases heq
    obtain ⟨header, hheader, hcontent, rfl⟩ :=
      Span.readAt_eq_ok_iff.mp (readAt_eq_ok_iff.mpr hspan)
    exact ⟨content, .text hheader hcontent⟩

theorem exists_decodeAt_of_keyAt {key : Value.Key} (htruth : type ≠ .boolean) (htext : type ≠ .string)
    (hkey : keyAt type buffer position = .ok (key, used)) :
    ∃ value, decodeAt type buffer position = .ok (value, used) := by
  simp only [decodeAt, readAt_eq_ok_iff]
  cases type
  case boolean => exact absurd rfl htruth
  case string => exact absurd rfl htext
  all_goals
    obtain ⟨⟨word, count⟩, hword, heq⟩ := map_eq_ok_iff.mp (readAt_eq_ok_iff.mp hkey)
    cases heq
    rw [read, hword]
    exact ⟨_, rfl⟩

theorem keyAt_truth {byte : UInt8} (hbyte : buffer[position]? = some byte) :
    keyAt .boolean buffer position = .ok (⟨1, byte.toNat, []⟩, 1) := by
  rw [keyAt, readAt_eq_ok_iff, readKey, Fixed.read_one_drop, hbyte]
  rfl

theorem keyAt_text (hspan : Span.readAt buffer position = .ok (content, used)) :
    keyAt .string buffer position = .ok (⟨7, 0, content⟩, used) := by
  rw [keyAt, readAt_eq_ok_iff, readKey, readAt_eq_ok_iff.mp hspan]
  rfl

theorem meaningful_truth_iff {byte : UInt8} :
    Meaningful .boolean [byte] ↔ byte = 0 ∨ byte = 1 := by
  constructor
  · rintro (_ | _)
    · exact .inl rfl
    · exact .inr rfl
  · rintro (rfl | rfl)
    · exact .no
    · exact .yes

theorem meaningful_text_iff :
    Meaningful .string content ↔ ∃ text, Utf8.decode content = .ok text := by
  constructor
  · rintro (_ | _ | text)
    exact ⟨text, Utf8.decode_encode text⟩
  · rintro ⟨text, htext⟩
    rw [← Utf8.encode_of_decode htext]
    exact .text text

theorem exists_readAt_eq_error_iff {α : Type} {read : Bytes → Except ReadFault α} :
    (∃ error, readAt read buffer position = .error error) ↔
      ∃ fault, read (buffer.drop position) = .error fault := by
  simp only [readAt_eq_error_iff]
  constructor
  · rintro ⟨_, fault, hfault, -⟩
    exact ⟨fault, hfault⟩
  · rintro ⟨fault, hfault⟩
    exact ⟨_, fault, hfault, rfl⟩

theorem readBoolean_drop {byte : UInt8} (hbyte : buffer[position]? = some byte) :
    readBoolean (buffer.drop position) =
      if byte = 0 then .ok (.bool false, 1)
      else if byte = 1 then .ok (.bool true, 1) else .error (.notBoolean byte) := by
  have hword : Fixed.read 1 (buffer.drop position) = .ok (byte.toNat, 1) := by
    rw [Fixed.read_one_drop, hbyte]
  by_cases hzero : byte = 0
  · subst hzero
    rw [readBoolean, hword]
    rfl
  by_cases hone : byte = 1
  · subst hone
    rw [readBoolean, hword]
    rfl
  rw [if_neg hzero, if_neg hone, readBoolean, hword]
  split
  · next heq => cases heq
  · next heq => exact absurd (UInt8.toNat_inj.mp (Prod.mk.inj (Except.ok.inj heq)).1) hzero
  · next heq => exact absurd (UInt8.toNat_inj.mp (Prod.mk.inj (Except.ok.inj heq)).1) hone
  · next heq =>
      rw [← (Prod.mk.inj (Except.ok.inj heq)).1, UInt8.ofNat_toNat]

namespace ContentAt

theorem compareAt {left right leftContent rightContent : Bytes}
    {leftPosition rightPosition leftUsed rightUsed : Nat}
    (hleft : ContentAt left leftPosition type leftContent leftUsed)
    (hright : ContentAt right rightPosition type rightContent rightUsed) :
    compareAt type left leftPosition right rightPosition =
      .ok (compare leftContent rightContent, leftUsed, rightUsed) := by
  rw [Wire.compareAt]
  cases hleft with
  | @truth leftByte hleftByte =>
      cases hright with
      | @truth rightByte hrightByte =>
          have horder : compare (⟨1, leftByte.toNat, []⟩ : Value.Key) ⟨1, rightByte.toNat, []⟩ =
              compare [leftByte] [rightByte] := by
            rw [Value.Key.compare_eq, Bytes.compare_singleton]
            simp
          rw [keyAt_truth hleftByte, keyAt_truth hrightByte, ← horder]
          rfl
  | text hleftHeader hleftContent =>
      cases hright with
      | text hrightHeader hrightContent =>
          have hleftSpan := Span.readAt_eq_ok_iff.mpr ⟨_, hleftHeader, hleftContent, rfl⟩
          have hrightSpan := Span.readAt_eq_ok_iff.mpr ⟨_, hrightHeader, hrightContent, rfl⟩
          have horder : compare (⟨7, 0, leftContent⟩ : Value.Key) ⟨7, 0, rightContent⟩ =
              compare leftContent rightContent := by
            rw [Value.Key.compare_eq]
            simp
          rw [keyAt_text hleftSpan, keyAt_text hrightSpan, ← horder]
          rfl

theorem decodeAt_error_iff (hcontent : ContentAt buffer position type content used) :
    (∃ error, decodeAt type buffer position = .error error) ↔ ¬ Meaningful type content := by
  rw [decodeAt, exists_readAt_eq_error_iff]
  cases hcontent with
  | @truth byte hbyte =>
      rw [read, readBoolean_drop hbyte, meaningful_truth_iff]
      split_ifs <;> simp [*]
  | text hheader hcontent =>
      have hspan := readAt_eq_ok_iff.mp (Span.readAt_eq_ok_iff.mpr ⟨_, hheader, hcontent, rfl⟩)
      rw [read, hspan, meaningful_text_iff]
      simp only [contentValue, if_true, map_eq_error_iff]
      cases Utf8.decode content <;> simp

end ContentAt

section Comparing

variable {left right : Bytes} {leftPosition rightPosition leftUsed rightUsed : Nat}
  {leftValue rightValue : Value} {outcome : Ordering}

theorem compareAt_eq_ok_iff :
    compareAt type left leftPosition right rightPosition = .ok (outcome, leftUsed, rightUsed) ↔
      ∃ leftKey rightKey, keyAt type left leftPosition = .ok (leftKey, leftUsed) ∧
        keyAt type right rightPosition = .ok (rightKey, rightUsed) ∧
          compare leftKey rightKey = outcome := by
  simp only [compareAt, bind_eq_ok_iff, Prod.exists, pure, Except.pure, Except.ok.injEq,
    Prod.mk.injEq]
  constructor
  · rintro ⟨leftKey, _, hleft, rightKey, _, hright, rfl, rfl, rfl⟩
    exact ⟨leftKey, rightKey, hleft, hright, rfl⟩
  · rintro ⟨leftKey, rightKey, hleft, hright, rfl⟩
    exact ⟨leftKey, leftUsed, hleft, rightKey, rightUsed, hright, rfl, rfl, rfl⟩

theorem keyAt_of_decodeAt {value : Value} (hvalue : decodeAt type buffer position = .ok (value, used)) :
    keyAt type buffer position = .ok (value.key, used) :=
  readAt_eq_ok_iff.mpr (readKey_of_read (readAt_eq_ok_iff.mp hvalue))

theorem compareAt_of_decodeAt (hleft : decodeAt type left leftPosition = .ok (leftValue, leftUsed))
    (hright : decodeAt type right rightPosition = .ok (rightValue, rightUsed)) :
    compareAt type left leftPosition right rightPosition =
      .ok (compare leftValue rightValue, leftUsed, rightUsed) := by
  rw [Value.compare_eq, compareAt_eq_ok_iff]
  exact ⟨_, _, keyAt_of_decodeAt hleft, keyAt_of_decodeAt hright, rfl⟩

theorem decodeAt_of_compareAt_error
    (herror : compareAt type left leftPosition right rightPosition = .error error) :
    decodeAt type left leftPosition = .error error ∨
      decodeAt type right rightPosition = .error error := by
  rw [compareAt, bind_eq_error_iff] at herror
  rcases herror with hleft | ⟨leftKey, -, hrest⟩
  · exact .inl (decodeAt_of_keyAt_error hleft)
  · rcases bind_eq_error_iff.mp hrest with hright | ⟨rightKey, -, hnone⟩
    · exact .inr (decodeAt_of_keyAt_error hright)
    · cases hnone

theorem exists_contentAt_of_compareAt
    (hcompare : compareAt type left leftPosition right rightPosition =
      .ok (outcome, leftUsed, rightUsed))
    (herror : decodeAt type left leftPosition = .error error ∨
      decodeAt type right rightPosition = .error error) :
    ∃ leftContent rightContent, ContentAt left leftPosition type leftContent leftUsed ∧
      ContentAt right rightPosition type rightContent rightUsed ∧
        (¬ Meaningful type leftContent ∨ ¬ Meaningful type rightContent) := by
  obtain ⟨leftKey, rightKey, hleft, hright, -⟩ := compareAt_eq_ok_iff.mp hcompare
  have htype : type = .boolean ∨ type = .string := by
    by_contra hother
    obtain ⟨htruth, htext⟩ := not_or.mp hother
    obtain ⟨leftValue, hleftValue⟩ := exists_decodeAt_of_keyAt htruth htext hleft
    obtain ⟨rightValue, hrightValue⟩ := exists_decodeAt_of_keyAt htruth htext hright
    rw [hleftValue, hrightValue] at herror
    rcases herror with hnone | hnone <;> cases hnone
  obtain ⟨leftContent, hleftContent⟩ := exists_contentAt_of_keyAt htype hleft
  obtain ⟨rightContent, hrightContent⟩ := exists_contentAt_of_keyAt htype hright
  refine ⟨leftContent, rightContent, hleftContent, hrightContent, ?_⟩
  rcases herror with hleftError | hrightError
  · exact .inl (hleftContent.decodeAt_error_iff.mp ⟨error, hleftError⟩)
  · exact .inr (hrightContent.decodeAt_error_iff.mp ⟨error, hrightError⟩)

end Comparing

/-- Two fields compared in place give the natural order of what is decoded of them, and if they cannot be
compared, then one of them cannot be decoded, for the same reason. What is compared although it is not
decoded is a pair of truth values or of texts, and these are compared by their bytes. -/
theorem compareAt_refines_decodeAt (type : FieldType) (left right : Bytes)
    (leftPosition rightPosition : Nat) :
    (∀ leftValue leftUsed rightValue rightUsed,
      decodeAt type left leftPosition = .ok (leftValue, leftUsed) →
      decodeAt type right rightPosition = .ok (rightValue, rightUsed) →
        compareAt type left leftPosition right rightPosition =
          .ok (compare leftValue rightValue, leftUsed, rightUsed)) ∧
    (∀ error, compareAt type left leftPosition right rightPosition = .error error →
      decodeAt type left leftPosition = .error error ∨
        decodeAt type right rightPosition = .error error) ∧
    (∀ outcome leftUsed rightUsed error,
      compareAt type left leftPosition right rightPosition = .ok (outcome, leftUsed, rightUsed) →
      decodeAt type left leftPosition = .error error ∨
        decodeAt type right rightPosition = .error error →
      ∃ leftContent rightContent, ContentAt left leftPosition type leftContent leftUsed ∧
        ContentAt right rightPosition type rightContent rightUsed ∧
          (¬ Meaningful type leftContent ∨ ¬ Meaningful type rightContent)) ∧
    ∀ leftContent leftUsed rightContent rightUsed,
      ContentAt left leftPosition type leftContent leftUsed →
      ContentAt right rightPosition type rightContent rightUsed →
        compareAt type left leftPosition right rightPosition =
          .ok (compare leftContent rightContent, leftUsed, rightUsed) ∧
        ((∃ error, decodeAt type left leftPosition = .error error) ↔
          ¬ Meaningful type leftContent) ∧
        ((∃ error, decodeAt type right rightPosition = .error error) ↔
          ¬ Meaningful type rightContent) := by
  refine ⟨?_, ?_, ?_, ?_⟩
  · intro leftValue leftUsed rightValue rightUsed hleft hright
    exact compareAt_of_decodeAt hleft hright
  · intro error herror
    exact decodeAt_of_compareAt_error herror
  · intro outcome leftUsed rightUsed error hcompare herror
    exact exists_contentAt_of_compareAt hcompare herror
  · intro leftContent leftUsed rightContent rightUsed hleft hright
    exact ⟨hleft.compareAt hright, hleft.decodeAt_error_iff, hright.decodeAt_error_iff⟩

theorem compareAt_refines_decodeAt_fields :
    compareAt .varInt32 [255, 0x82, 0] 1 [3] 0 = .ok (.gt, 2, 1) ∧
    decodeAt .bytes [5, 1] 0 = .error (.decoding (.unreadable (.spanOverruns 5 1) 0 2)) ∧
    (∃ leftContent rightContent, ContentAt [2, 97, 98] 0 .string leftContent 3 ∧
      ContentAt [0x81, 0, 255] 0 .string rightContent 3 ∧
        (¬ Meaningful .string leftContent ∨ ¬ Meaningful .string rightContent)) ∧
    compareAt .boolean [2] 0 [1] 0 = .ok (.gt, 1, 1) ∧
      ∃ error, decodeAt .boolean [2] 0 = .error error := by
  have hnumber := (compareAt_refines_decodeAt .varInt32 [255, 0x82, 0] [3] 1 0).1
  have hcut := (compareAt_refines_decodeAt .bytes [5, 1] [0] 0 0).2.1
  have htext := (compareAt_refines_decodeAt .string [2, 97, 98] [0x81, 0, 255] 0 0).2.2.1
  have htruth := (compareAt_refines_decodeAt .boolean [2] [1] 0 0).2.2.2
  obtain ⟨hcompare, herror, -⟩ := htruth [2] 1 [1] 1 (.truth rfl) (.truth rfl)
  refine ⟨?_, ?_, ?_, hcompare, herror.mpr ?_⟩
  · exact hnumber (.int 1) 2 (.int (-2)) 1 (by decide) (by decide)
  · exact (hcut _ (by decide)).resolve_right (by decide)
  · exact htext .lt 3 3 (.decoding (.unreadable (.notText (.broken 1 0)) 0 3)) (by decide)
      (.inr (by decide +kernel))
  · rintro ⟨⟩

end Wire

end RecordRollup
