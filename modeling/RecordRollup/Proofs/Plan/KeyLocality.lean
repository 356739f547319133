import Mathlib
import RecordRollup.Proofs.Plan.DecodedAgreement
import RecordRollup.Proofs.Plan.KeyReading

namespace RecordRollup

namespace SortKey

variable {key : SortKey} {left right otherLeft otherRight : Bytes} {progress : Progress}

theorem orderNext_append {result : Ordering × Progress}
    (hnext : key.orderNext left right progress = .ok result) (leftMore rightMore : Bytes) :
    key.orderNext (left ++ leftMore) (right ++ rightMore) progress = .ok result := by
  obtain ⟨outcome, next⟩ := result
  obtain ⟨leftRead, leftUsed, rightRead, rightUsed, hleft, hright, hrest⟩ :=
    orderNext_eq_ok_iff.mp hnext
  exact orderNext_eq_ok_iff.mpr ⟨leftRead, leftUsed, rightRead, rightUsed,
    key.isLocalAt_readAt.append hleft leftMore, key.isLocalAt_readAt.append hright rightMore, hrest⟩

theorem orderNext_congr (hleft : key.readAt otherLeft progress.left = key.readAt left progress.left)
    (hright : key.readAt otherRight progress.right = key.readAt right progress.right) :
    key.orderNext otherLeft otherRight progress = key.orderNext left right progress := by
  rw [orderNext_eq, orderNext_eq, hleft, hright]

theorem exists_readAt_of_holds {denotes : FieldType → Bytes → Value → Prop} {buffer : Bytes}
    {position used : Nat} {value : Value} (hholds : key.Holds denotes buffer position value used) :
    ∃ content, key.readAt buffer position = .ok (content, used) ∧
      ∀ source, key.sourceRead content source = key.sourceAfter value source := by
  cases hcomparator : key.comparator with
  | none =>
      simp only [Holds, hcomparator] at hholds
      refine ⟨value.key, ?_, fun source => ?_⟩
      · simp only [readAt, hcomparator, hholds]
      · simp only [sourceRead, sourceAfter, hcomparator, Option.isNone_none]
  | some named =>
      simp only [Holds, hcomparator] at hholds
      obtain ⟨payload, hspan, -⟩ := hholds
      refine ⟨⟨7, 0, payload⟩, ?_, fun source => ?_⟩
      · simp only [readAt, hcomparator]
        exact map_eq_ok_iff.mpr ⟨_, hspan, rfl⟩
      · simp [sourceRead, sourceAfter, hcomparator]

end SortKey

section Along

variable {keys : List SortKey} {left right otherLeft otherRight front : Bytes}
  {progress : Progress}

theorem compareBytesAlong_append {result : Ordering × Progress}
    (halong : compareBytesAlong left right keys progress = .ok result)
    (leftMore rightMore : Bytes) :
    compareBytesAlong (left ++ leftMore) (right ++ rightMore) keys progress = .ok result := by
  obtain ⟨outcome, last⟩ := result
  induction keys generalizing progress with
  | nil => exact halong
  | cons key keys ih =>
      rw [compareBytesAlong_cons_eq_ok_iff] at halong ⊢
      rcases halong with ⟨middle, hhere, hrest⟩ | ⟨hhere, hdiffer⟩
      · exact .inl ⟨middle, SortKey.orderNext_append hhere leftMore rightMore, ih hrest⟩
      · exact .inr ⟨SortKey.orderNext_append hhere leftMore rightMore, hdiffer⟩

/-- The same is read of two buffers along sort keys, up to the first field that cannot be read. -/
def ReadAlike (buffer other : Bytes) : List SortKey → Nat → Prop
  | [], _ => True
  | key :: keys, position => key.readAt other position = key.readAt buffer position ∧
      ∀ content used, key.readAt buffer position = .ok (content, used) →
        ReadAlike buffer other keys (position + used)

theorem ReadAlike.refl (buffer : Bytes) (keys : List SortKey) (position : Nat) :
    ReadAlike buffer buffer keys position := by
  induction keys generalizing position with
  | nil => trivial
  | cons key keys ih => exact ⟨rfl, fun content used _ => ih (position + used)⟩

theorem compareBytesAlong_congr (hleft : ReadAlike left otherLeft keys progress.left)
    (hright : ReadAlike right otherRight keys progress.right) :
    compareBytesAlong otherLeft otherRight keys progress =
      compareBytesAlong left right keys progress := by
  induction keys generalizing progress with
  | nil => rfl
  | cons key keys ih =>
      rw [compareBytesAlong_cons, compareBytesAlong_cons,
        SortKey.orderNext_congr hleft.1 hright.1]
      cases hnext : key.orderNext left right progress with
      | error error => rfl
      | ok result =>
          obtain ⟨outcome, next⟩ := result
          obtain ⟨leftRead, leftUsed, rightRead, rightUsed, hleftRead, hrightRead, -, rfl⟩ :=
            SortKey.orderNext_eq_ok_iff.mp hnext
          cases outcome with
          | lt | gt => rfl
          | eq =>
              apply ih
              · exact hleft.2 leftRead leftUsed hleftRead
              · exact hright.2 rightRead rightUsed hrightRead

namespace Laid

variable {denotes : FieldType → Bytes → Value → Prop} {position stop : Nat}
  {values : List Value}

theorem readAlike (hlaid : Laid denotes front keys position values stop) (more : Bytes) :
    ReadAlike front (front ++ more) keys position := by
  induction hlaid with
  | nil position => trivial
  | @cons key keys position used stop value values hfirst hrest ih =>
      obtain ⟨content, hread, -⟩ := SortKey.exists_readAt_of_holds hfirst
      refine ⟨?_, fun other count hother => ?_⟩
      · rw [hread, key.isLocalAt_readAt.append hread more]
      · cases hread.symm.trans hother
        exact ih

theorem skipAlong_eq (hlaid : Laid denotes front keys position values stop)
    (source : Option Int32) :
    skipAlong front keys (position, source) = .ok (stop, sourceAlong source keys values) := by
  induction hlaid generalizing source with
  | nil position => rfl
  | cons hfirst hrest ih =>
      obtain ⟨content, hread, hsource⟩ := SortKey.exists_readAt_of_holds hfirst
      rw [skipAlong_cons hread, hsource, ih]
      rfl

end Laid

end Along

namespace Plan

variable {plan : Plan} {source : Source} {record : Record}
  {left right otherLeft otherRight front bytes : Bytes} {outcome : Ordering}

theorem compareBytes_append (houtcome : plan.compareBytes left right = .ok outcome)
    (leftMore rightMore : Bytes) :
    plan.compareBytes (left ++ leftMore) (right ++ rightMore) = .ok outcome := by
  rw [compareBytes_eq_ok_iff] at houtcome ⊢
  obtain ⟨common, next, hcommon, hrest⟩ := houtcome
  refine ⟨common, next, compareBytesAlong_append hcommon leftMore rightMore, ?_⟩
  rcases hrest with hdiffer | ⟨htie, keys, last, hkeys, hspecific⟩
  · exact .inl hdiffer
  · exact .inr ⟨htie, keys, last, hkeys, compareBytesAlong_append hspecific leftMore rightMore⟩

theorem compareBytes_congr (hleft : ReadAlike left otherLeft plan.keys 0)
    (hright : ReadAlike right otherRight plan.keys 0)
    (htied : ∀ next keys, compareBytesAlong left right plan.keys ⟨0, 0, none⟩ = .ok (.eq, next) →
      plan.tieKeys? next.source = some keys →
        ReadAlike left otherLeft keys next.left ∧ ReadAlike right otherRight keys next.right) :
    plan.compareBytes otherLeft otherRight = plan.compareBytes left right := by
  rw [compareBytes_eq, compareBytes_eq, compareBytesAlong_congr hleft hright]
  rcases hcommon : compareBytesAlong left right plan.keys ⟨0, 0, none⟩ with error | ⟨outcome, next⟩
  · rfl
  · cases outcome with
    | lt | gt => rfl
    | eq =>
        cases hkeys : plan.tieKeys? next.source with
        | none => simp only [hkeys]
        | some keys =>
            obtain ⟨hleftTied, hrightTied⟩ := htied next keys hcommon hkeys
            simp only [hkeys, compareBytesAlong_congr hleftTied hrightTied]

namespace Keyed

variable {denotes : FieldType → Bytes → Value → Prop}

theorem readAlike_keys (keyed : plan.Keyed denotes source record front) (more : Bytes) :
    ReadAlike front (front ++ more) plan.keys 0 := by
  obtain ⟨middle, stop, hcommon, -⟩ := keyed.laid
  exact hcommon.readAlike more

theorem readAlike_tieKeys (keyed : plan.Keyed denotes source record front) {position : Nat}
    {carried : Option Int32} {keys : List SortKey}
    (hskip : skipAlong front plan.keys (0, none) = .ok (position, carried))
    (hkeys : plan.tieKeys? carried = some keys) (more : Bytes) :
    ReadAlike front (front ++ more) keys position := by
  obtain ⟨middle, stop, hcommon, hspecific⟩ := keyed.laid
  cases (hcommon.skipAlong_eq none).symm.trans hskip
  cases hmany : plan.isMultiSource with
  | false =>
      rw [tieKeys?, hmany] at hkeys
      cases hkeys
      trivial
  | true =>
      obtain ⟨index, key, -, hkey, hname⟩ := exists_sourceIndex? hmany
      have hplain := comparator_of_source (List.mem_of_getElem? hkey) hname
      have hcarried := sourceAlong_eq plan.consistent.keys_distinct hkey hname hplain
        (keyed.source_value hmany hkey hname) none
      have hfound : plan.source? source.id = some source :=
        source?_eq_some_iff.mpr ⟨keyed.source_mem, rfl⟩
      rw [tieKeys?, if_pos hmany, hcarried, Option.bind_some, hfound] at hkeys
      cases hkeys
      exact hspecific.readAlike more

theorem compareBytes_append_left (keyed : plan.Keyed denotes source record front)
    (more right : Bytes) :
    plan.compareBytes (front ++ more) right = plan.compareBytes front right := by
  apply compareBytes_congr (keyed.readAlike_keys more) (.refl right plan.keys 0)
  intro next keys htie hkeys
  constructor
  · exact keyed.readAlike_tieKeys (skipAlong_of_tie htie).1 hkeys more
  · exact .refl right keys next.right

theorem compareBytes_append_right (keyed : plan.Keyed denotes source record front)
    (more left : Bytes) :
    plan.compareBytes left (front ++ more) = plan.compareBytes left front := by
  apply compareBytes_congr (.refl left plan.keys 0) (keyed.readAlike_keys more)
  intro next keys htie hkeys
  constructor
  · exact .refl left keys next.left
  · exact keyed.readAlike_tieKeys (skipAlong_of_tie htie).2 hkeys more

end Keyed

/-- The outcome of comparing buffers does not change with bytes behind them. And for records of one
source that have the same common and specific keys, bit for bit, it does not matter which of them was
written: comparing with any bytes, on either side, gives the same outcome or the same error. -/
theorem compareBytes_sees_keys (plan : Plan) :
    (∀ left right outcome, plan.compareBytes left right = .ok outcome →
      ∀ leftMore rightMore,
        plan.compareBytes (left ++ leftMore) (right ++ rightMore) = .ok outcome) ∧
    ∀ source first second firstBytes secondBytes, plan.sourceOf first = .ok source →
      plan.sourceOf second = .ok source →
      (∀ key ∈ plan.keys ++ source.specificKeys,
        first.getNamed key.name = second.getNamed key.name) →
      plan.serialize first = .ok firstBytes → plan.serialize second = .ok secondBytes →
      firstBytes.length < 2 ^ 63 → secondBytes.length < 2 ^ 63 →
        ∀ other, plan.compareBytes firstBytes other = plan.compareBytes secondBytes other ∧
          plan.compareBytes other firstBytes = plan.compareBytes other secondBytes := by
  refine ⟨fun _ _ _ houtcome => compareBytes_append houtcome, ?_⟩
  intro source first second firstBytes secondBytes hfirst hsecond hsame hfirstBytes hsecondBytes
    hfirstSize hsecondSize other
  obtain ⟨front, more, rfl, written, hkeyed⟩ :=
    exists_front_serialize hfirst hfirstBytes hfirstSize
  obtain ⟨otherFront, otherMore, rfl, otherWritten, -⟩ :=
    exists_front_serialize hsecond hsecondBytes hsecondSize
  have hschema : second.schema = first.schema :=
    (sourceOf_eq_ok_iff.mp hsecond).2.1.symm.trans (sourceOf_eq_ok_iff.mp hfirst).2.1
  rw [List.forall_mem_append] at hsame
  rw [Record.valuesFor_congr hschema fun key hkey => (hsame.1 key hkey).symm,
    Record.valuesFor_congr hschema fun key hkey => (hsame.2 key hkey).symm] at otherWritten
  obtain rfl := written.unique otherWritten
  have keyed := hkeyed []
  rw [List.append_nil] at keyed
  constructor
  · rw [keyed.compareBytes_append_left, keyed.compareBytes_append_left]
  · rw [keyed.compareBytes_append_right, keyed.compareBytes_append_right]

end Plan

namespace Sample

def clickOn (url : String) : Record where
  schema := clicks
  values := [.string "Ann", .string url, .int (-3), .long 5]
  size_eq := rfl
  conforming := Record.mismatch?_eq_none_iff.mp rfl

theorem clickOn_keys (url other : String) : ∀ key ∈ plan.keys ++ clickSource.specificKeys,
    (clickOn url).getNamed key.name = (clickOn other).getNamed key.name := by
  have hkeys : plan.keys ++ clickSource.specificKeys =
      [⟨byUser, .string⟩, ⟨bySource, .varInt32⟩, ⟨byTime, .int64⟩] := by
    rw [keys_eq]
    rfl
  rw [hkeys]
  simp only [List.forall_mem_cons]
  exact ⟨rfl, rfl, rfl, List.forall_mem_nil _⟩

end Sample

namespace Plan

theorem compareBytes_sees_keys_clicks :
    Sample.plan.serialize (Sample.clickOn "a") =
        .ok [3, 65, 110, 110, 5, 0, 0, 0, 0, 0, 0, 0, 5, 1, 97] ∧
      Sample.plan.serialize (Sample.clickOn "bc") =
        .ok [3, 65, 110, 110, 5, 0, 0, 0, 0, 0, 0, 0, 5, 2, 98, 99] ∧
      (∀ other,
        Sample.plan.compareBytes [3, 65, 110, 110, 5, 0, 0, 0, 0, 0, 0, 0, 5, 1, 97] other =
          Sample.plan.compareBytes [3, 65, 110, 110, 5, 0, 0, 0, 0, 0, 0, 0, 5, 2, 98, 99] other ∧
        Sample.plan.compareBytes other [3, 65, 110, 110, 5, 0, 0, 0, 0, 0, 0, 0, 5, 1, 97] =
          Sample.plan.compareBytes other
            [3, 65, 110, 110, 5, 0, 0, 0, 0, 0, 0, 0, 5, 2, 98, 99]) ∧
      Sample.plan.compareBytes ([1, 97] ++ [255]) ([1, 98] ++ [5, 0]) = .ok .lt := by
  have hfirst : Sample.plan.sourceOf (Sample.clickOn "a") = .ok Sample.clickSource := by cbv
  have hsecond : Sample.plan.sourceOf (Sample.clickOn "bc") = .ok Sample.clickSource := by cbv
  have hfirstBytes : Sample.plan.serialize (Sample.clickOn "a") =
      .ok [3, 65, 110, 110, 5, 0, 0, 0, 0, 0, 0, 0, 5, 1, 97] := by cbv
  have hsecondBytes : Sample.plan.serialize (Sample.clickOn "bc") =
      .ok [3, 65, 110, 110, 5, 0, 0, 0, 0, 0, 0, 0, 5, 2, 98, 99] := by cbv
  have hdiffer : Sample.plan.compareBytes [1, 97] [1, 98] = .ok .lt := by
    rw [compareBytes, Sample.keys_eq]
    rfl
  obtain ⟨hmore, hkeys⟩ := compareBytes_sees_keys Sample.plan
  exact ⟨hfirstBytes, hsecondBytes,
    hkeys _ _ _ _ _ hfirst hsecond (Sample.clickOn_keys "a" "bc") hfirstBytes hsecondBytes
      (by decide) (by decide),
    hmore _ _ _ hdiffer [255] [5, 0]⟩

end Plan

end RecordRollup
