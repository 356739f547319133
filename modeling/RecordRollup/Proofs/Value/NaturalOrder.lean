import Mathlib
import RecordRollup.Registry
import RecordRollup.Proofs.Plan.OrderLaws
import RecordRollup.Proofs.Wire.Comparison
import RecordRollup.Proofs.Wire.ZigZag

/-!
The natural order of values, pair of kinds by pair of kinds, and the laws that it shares with the
built-in comparators. The kinds follow one another by their ranks, but texts and byte strings meet in
their bytes, so that the order is more than one order for each kind put end to end.
-/

namespace RecordRollup

theorem compareOfLessAndEq_of_iff {α β : Type} [LT α] [DecidableLT α] [DecidableEq α] [LT β]
    [DecidableLT β] [DecidableEq β] (number : α → β)
    (hless : ∀ {left right : α}, left < right ↔ number left < number right)
    (hsame : ∀ {left right : α}, number left = number right ↔ left = right) (left right : α) :
    compareOfLessAndEq (number left) (number right) = compareOfLessAndEq left right := by
  simp only [compareOfLessAndEq, hless, hsame]

theorem compare_int32 (left right : Int32) : compare left.toInt right.toInt = compare left right :=
  compareOfLessAndEq_of_iff Int32.toInt Int32.lt_iff_toInt_lt Int32.toInt_inj left right

theorem compare_int64 (left right : Int64) : compare left.toInt right.toInt = compare left right :=
  compareOfLessAndEq_of_iff Int64.toInt Int64.lt_iff_toInt_lt Int64.toInt_inj left right

theorem compare_uint32 (left right : UInt32) :
    compare (left.toNat : Int) right.toNat = compare left right :=
  compareOfLessAndEq_of_iff (fun word : UInt32 => (word.toNat : Int))
    (UInt32.lt_iff_toNat_lt.trans Int.ofNat_lt.symm) (Int.ofNat_inj.trans UInt32.toNat_inj) left right

theorem Utf8.encode_injective : Function.Injective encode := by
  intro left right hbytes
  have hdecoded := decode?_encode left
  rw [hbytes, decode?_encode] at hdecoded
  exact (Option.some.inj hdecoded).symm

namespace FloatFormat

variable {width : Nat}

/-- A bit pattern with all bits below the sign turned over if the sign is set. Patterns folded so are
in the total order of floating-point numbers when they are read as signed numbers. -/
def folded (bits : BitVec width) : BitVec width :=
  bits ^^^ (bits.sshiftRight (width - 1) >>> 1)

theorem msb_folded (bits : BitVec width) : (folded bits).msb = bits.msb := by
  rw [folded, BitVec.msb_xor, BitVec.msb_ushiftRight]
  simp

theorem folded_involutive : Function.Involutive (folded : BitVec width → BitVec width) := by
  intro bits
  rw [folded, Word.sshiftRight_last, msb_folded, folded, Word.sshiftRight_last, BitVec.xor_assoc,
    BitVec.xor_self, BitVec.xor_zero]

theorem toInt_folded_inj {left right : BitVec width} :
    (folded left).toInt = (folded right).toInt ↔ left = right :=
  BitVec.toInt_inj.trans folded_involutive.injective.eq_iff

theorem folded_of_positive {bits : BitVec width} (hsign : bits.msb = false) : folded bits = bits := by
  rw [folded, Word.sshiftRight_last, hsign]
  simp

theorem folded_of_negative {bits : BitVec width} (hsign : bits.msb = true) :
    folded bits = ~~~(bits.setWidth (width - 1)).setWidth width := by
  rw [folded, Word.sshiftRight_last, hsign]
  ext index hindex
  by_cases hlast : index = width - 1
  · subst hlast
    rw [BitVec.msb_eq_getLsbD_last, BitVec.getLsbD_eq_getElem hindex] at hsign
    simp [hsign, show ¬ 1 + (width - 1) < width by omega]
  · simp [hindex, show index < width - 1 by omega, show 1 + index < width by omega]

/-- Read as signed numbers, folded patterns are ranked as their format ranks them. -/
theorem toInt_folded (format : FloatFormat) (bits : BitVec width)
    (hwidth : width = format.exponentBits + format.fractionBits + 1) :
    (folded bits).toInt = format.rank bits.toNat := by
  obtain ⟨unsigned, rfl⟩ : ∃ unsigned, width = unsigned + 1 := ⟨_, hwidth⟩
  have hunsigned : format.exponentBits + format.fractionBits = unsigned := by omega
  have hbound := bits.isLt
  have hpow : 2 ^ (unsigned + 1) = 2 * 2 ^ unsigned := pow_succ' 2 unsigned
  rw [rank, isNegative, magnitude, hunsigned, Nat.pow_eq]
  rcases hsign : bits.msb
  · have hsmall := BitVec.msb_eq_false_iff_two_mul_lt.mp hsign
    have hlower : bits.toNat < 2 ^ unsigned := by omega
    rw [folded_of_positive hsign, BitVec.toInt_eq_toNat_of_msb hsign, if_neg (by simpa using hlower),
      Nat.mod_eq_of_lt hlower]
  · have hlarge := BitVec.msb_eq_true_iff_two_mul_ge.mp hsign
    have hupper : 2 ^ unsigned ≤ bits.toNat := by omega
    have hmagnitude := Nat.mod_lt bits.toNat (Nat.two_pow_pos unsigned)
    have hfolded : (folded bits).toNat = 2 ^ (unsigned + 1) - 1 - bits.toNat % 2 ^ unsigned := by
      rw [folded_of_negative hsign, BitVec.toNat_not, BitVec.toNat_setWidth, BitVec.toNat_setWidth,
        Nat.add_sub_cancel, Nat.mod_eq_of_lt (by omega)]
    rw [BitVec.toInt_eq_toNat_cond, hfolded, if_neg (by omega), if_pos (by simpa using hupper)]
    omega

end FloatFormat

namespace Value

/-- The place of the kind of a value among the kinds. -/
def rank : Value → Nat
  | null => 0
  | bool _ => 1
  | int _ => 2
  | long _ => 3
  | float _ => 4
  | double _ => 5
  | enum _ => 6
  | string _ => 7
  | bytes _ => 8

/-- The natural order, pair of kinds by pair of kinds: what can be compared as contents is, and all
other pairs go by their ranks. -/
def naturalOrder : Value → Value → Ordering
  | null, null => .eq
  | int left, int right => compare left right
  | long left, long right => compare left right
  | float left, float right =>
      compare (FloatFormat.folded left.toBitVec).toInt (FloatFormat.folded right.toBitVec).toInt
  | double left, double right =>
      compare (FloatFormat.folded left.toBitVec).toInt (FloatFormat.folded right.toBitVec).toInt
  | bool left, bool right => compare left right
  | enum left, enum right => compare left right
  | string left, string right => compare (Utf8.encode left) (Utf8.encode right)
  | bytes left, bytes right => compare left right
  | string left, bytes right => compare (Utf8.encode left) right
  | bytes left, string right => compare left (Utf8.encode right)
  | left, right => compare left.rank right.rank

namespace Key

theorem compare_numbers (group : Nat) (left right : Int) :
    compare (⟨group, left, []⟩ : Key) ⟨group, right, []⟩ = compare left right := by
  rw [compare_eq]
  cases hcompare : compare left right <;> simp

theorem compare_contents (group : Nat) (left right : Bytes) :
    compare (⟨group, 0, left⟩ : Key) ⟨group, 0, right⟩ = compare left right := by
  rw [compare_eq]
  simp

end Key

theorem compare_eq_naturalOrder (left right : Value) :
    compare left right = left.naturalOrder right := by
  rw [compare_eq]
  cases left <;> cases right
  case int.int left right => exact (Key.compare_numbers ..).trans (compare_int32 left right)
  case long.long left right => exact (Key.compare_numbers ..).trans (compare_int64 left right)
  case float.float left right =>
      rw [naturalOrder, FloatFormat.toInt_folded .single left.toBitVec rfl,
        FloatFormat.toInt_folded .single right.toBitVec rfl]
      exact Key.compare_numbers ..
  case double.double left right =>
      rw [naturalOrder, FloatFormat.toInt_folded .double left.toBitVec rfl,
        FloatFormat.toInt_folded .double right.toBitVec rfl]
      exact Key.compare_numbers ..
  case bool.bool left right => cases left <;> cases right <;> rfl
  case enum.enum left right => exact (Key.compare_numbers ..).trans (compare_uint32 left right)
  case string.string | string.bytes | bytes.string | bytes.bytes => exact Key.compare_contents ..
  all_goals rfl

theorem compare_eq_eq_iff (left right : Value) :
    compare left right = .eq ↔ left = right ∨
      (∃ text, left = string text ∧ right = bytes (Utf8.encode text)) ∨
      ∃ text, left = bytes (Utf8.encode text) ∧ right = string text := by
  rw [compare_eq_naturalOrder]
  constructor
  · intro heq
    cases left <;> cases right
    case null.null => exact .inl rfl
    case int.int => exact .inl (congrArg int (Std.compare_eq_iff_eq.mp heq))
    case long.long => exact .inl (congrArg long (Std.compare_eq_iff_eq.mp heq))
    case float.float =>
        have hbits := FloatFormat.toInt_folded_inj.mp (Std.compare_eq_iff_eq.mp heq)
        exact .inl (congrArg float (UInt32.toBitVec_inj.mp hbits))
    case double.double =>
        have hbits := FloatFormat.toInt_folded_inj.mp (Std.compare_eq_iff_eq.mp heq)
        exact .inl (congrArg double (UInt64.toBitVec_inj.mp hbits))
    case bool.bool => exact .inl (congrArg bool (Std.compare_eq_iff_eq.mp heq))
    case enum.enum => exact .inl (congrArg enum (Std.compare_eq_iff_eq.mp heq))
    case string.string =>
        exact .inl (congrArg string (Utf8.encode_injective (Std.compare_eq_iff_eq.mp heq)))
    case string.bytes text content =>
        exact .inr (.inl ⟨text, rfl, congrArg bytes (Std.compare_eq_iff_eq.mp heq).symm⟩)
    case bytes.string content text =>
        exact .inr (.inr ⟨text, congrArg bytes (Std.compare_eq_iff_eq.mp heq), rfl⟩)
    case bytes.bytes => exact .inl (congrArg bytes (Std.compare_eq_iff_eq.mp heq))
    all_goals cases heq
  · rintro (rfl | ⟨text, rfl, rfl⟩ | ⟨text, rfl, rfl⟩)
    · rw [← compare_eq_naturalOrder]
      exact Std.ReflOrd.compare_self
    · exact Std.ReflOrd.compare_self
    · exact Std.ReflOrd.compare_self

/-- An order of values in which null comes first, that turns over with its operands, and that two steps
up pass on: as a tie if both are ties, as less if one of them is. -/
structure TotalPreorder (order : Value → Value → Ordering) : Prop where
  total : ∀ left right, order left right ≠ .gt ∨ order right left ≠ .gt
  swap : ∀ left right, order right left = (order left right).swap
  trans : ∀ first middle last, order first middle ≠ .gt → order middle last ≠ .gt →
    order first last = (order first middle).then (order middle last)
  null_first : ∀ value, value ≠ null → order null value = .lt

theorem TotalPreorder.of_transCmp {order : Value → Value → Ordering} [Std.TransCmp order]
    (hnull : ∀ value, value ≠ null → order null value = .lt) : TotalPreorder order where
  total := by
    intro left right
    have hswap : order right left = (order left right).swap := Std.OrientedCmp.eq_swap
    rw [hswap]
    cases order left right <;> simp
  swap := fun _ _ => Std.OrientedCmp.eq_swap
  trans := fun _ _ _ hlower hupper => compare_eq_then hlower hupper
  null_first := hnull

theorem compare_null {value : Value} (hvalue : value ≠ null) : compare null value = .lt := by
  cases value with
  | null => exact absurd rfl hvalue
  | _ => rfl

theorem totalPreorder_compare : TotalPreorder compare :=
  .of_transCmp fun _ hvalue => compare_null hvalue

end Value

namespace Comparator

variable (compareContent : Bytes → Bytes → Ordering) {left right : Value}

theorem totalPreorder_ofContent [Std.TransCmp compareContent] :
    Value.TotalPreorder (ofContent compareContent).compareValues :=
  have := transCmp_ofContent compareContent
  .of_transCmp fun _ hvalue => Value.compare_null hvalue

theorem compareBytes_ofContent {leftContent rightContent : Bytes}
    (hleft : left.content? = some leftContent) (hright : right.content? = some rightContent) :
    (ofContent compareContent).compareBytes leftContent rightContent =
      .ok ((ofContent compareContent).compareValues left right) := by
  simp only [ofContent, hleft, hright]

end Comparator

/-- The natural order and both built-in comparators order all values, null first. Two values tie in the
natural order exactly if they are the same value, or a text and the byte string that has its bytes. On texts
and byte strings the built-in comparators say the same of the values and of their contents. -/
theorem Value.orders_totalPreorder :
    (∀ left right : Value, compare left right = left.naturalOrder right) ∧
    TotalPreorder compare ∧
    TotalPreorder Comparator.caseInsensitive.compareValues ∧
    TotalPreorder Comparator.shortlex.compareValues ∧
    (∀ left right : Value, compare left right = .eq ↔ left = right ∨
      (∃ text, left = string text ∧ right = bytes (Utf8.encode text)) ∨
      ∃ text, left = bytes (Utf8.encode text) ∧ right = string text) ∧
    ∀ (left right : Value) (leftContent rightContent : Bytes),
      left.content? = some leftContent → right.content? = some rightContent →
        Comparator.caseInsensitive.compareBytes leftContent rightContent =
            .ok (Comparator.caseInsensitive.compareValues left right) ∧
          Comparator.shortlex.compareBytes leftContent rightContent =
            .ok (Comparator.shortlex.compareValues left right) := by
  refine ⟨compare_eq_naturalOrder, totalPreorder_compare, Comparator.totalPreorder_ofContent _,
    Comparator.totalPreorder_ofContent _, compare_eq_eq_iff, ?_⟩
  intro left right leftContent rightContent hleft hright
  exact ⟨Comparator.compareBytes_ofContent _ hleft hright,
    Comparator.compareBytes_ofContent _ hleft hright⟩

theorem Value.orders_totalPreorder_mixed :
    compare null (float 0x80000000) = .lt ∧
    compare (float 0x80000000) (float 0) = .lt ∧
    compare (float 0x80000000) (bytes [0xc3, 0x84]) = .lt ∧
    compare (bytes [0xc3, 0x84]) (string "Ä") = .eq ∧
    Comparator.caseInsensitive.compareBytes [66] [98] = .ok .eq ∧
    Comparator.shortlex.compareBytes [66] [65, 65] = .ok .lt := by
  obtain ⟨hnatural, horder, -, -, htie, hcontent⟩ := orders_totalPreorder
  have hzeros : compare (float 0x80000000) (float 0) = .lt := by
    rw [hnatural]
    decide
  have hkinds : compare (float 0) (bytes [0xc3, 0x84]) = .lt := by
    rw [hnatural]
    decide
  have hacross := horder.trans (float 0x80000000) (float 0) (bytes [0xc3, 0x84])
    (by simp [hzeros]) (by simp [hkinds])
  refine ⟨horder.null_first _ (by decide), hzeros, ?_, ?_, ?_, ?_⟩
  · rw [hacross, hzeros]
    rfl
  · exact (htie _ _).mpr (.inr (.inr ⟨"Ä", by decide +kernel, rfl⟩))
  · exact (hcontent (string "B") (bytes [98]) _ _ (by decide +kernel) rfl).1
  · exact (hcontent (string "B") (string "AA") _ _ (by decide +kernel) (by decide +kernel)).2

end RecordRollup
