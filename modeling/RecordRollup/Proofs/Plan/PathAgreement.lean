import Mathlib
import RecordRollup.Plan.SerializedOrder
import RecordRollup.Proofs.Plan.OrderLaws
import RecordRollup.Proofs.Plan.RoundTrip

namespace RecordRollup

/-- A comparator that orders payloads of a type as it orders the values they stand for. -/
def Comparator.AgreesOn (denotes : FieldType → Bytes → Value → Prop) (comparator : Comparator)
    (type : FieldType) : Prop :=
  ∀ (left right : Value) (leftPayload rightPayload : Bytes),
    denotes type leftPayload left → denotes type rightPayload right →
      comparator.compareBytes leftPayload rightPayload =
        .ok (comparator.compareValues left right)

def Wire.IsPayload (type : FieldType) (payload : Bytes) (value : Value) : Prop :=
  encodePayload type value = .ok payload

namespace Comparator

theorem content?_of_isPayload {type : FieldType} {payload : Bytes} {value : Value}
    (hbinary : type.isBinary = true) (hpayload : Wire.IsPayload type payload value) :
    value.content? = some payload := by
  cases type <;> cases value <;> cases hpayload <;> first | rfl | cases hbinary

theorem agreesOn_of_content {denotes : FieldType → Bytes → Value → Prop} {type : FieldType}
    (hcontent : ∀ payload value, denotes type payload value → value.content? = some payload)
    (compareContent : Bytes → Bytes → Ordering) :
    (ofContent compareContent).AgreesOn denotes type := by
  intro left right leftPayload rightPayload hleft hright
  simp [ofContent, hcontent _ _ hleft, hcontent _ _ hright]

theorem ofContent_agreesOn (compareContent : Bytes → Bytes → Ordering) {type : FieldType}
    (hsupports : (ofContent compareContent).supports type = true) :
    (ofContent compareContent).AgreesOn Wire.IsPayload type :=
  agreesOn_of_content (fun _ _ => content?_of_isPayload hsupports) compareContent

theorem builtIn_agreesOn {denotes : FieldType → Bytes → Value → Prop}
    (hcontent : ∀ {type : FieldType} {payload : Bytes} {value : Value}, type.isBinary = true →
      denotes type payload value → value.content? = some payload) :
    ∀ comparator ∈ [caseInsensitive, shortlex], ∀ type, comparator.supports type = true →
      comparator.AgreesOn denotes type := by
  intro comparator hcomparator type hsupports
  rcases List.mem_pair.mp hcomparator with rfl | rfl
  · exact agreesOn_of_content (fun _ _ => hcontent hsupports) _
  · exact agreesOn_of_content (fun _ _ => hcontent hsupports) _

end Comparator

/-- The lexicographic order of the values that two records have for sort keys. -/
def orderAlong : List SortKey → List Value → List Value → Ordering
  | key :: keys, left :: lefts, right :: rights =>
      (key.order left right).then (orderAlong keys lefts rights)
  | _, _, _ => .eq

theorem compareAlong_eq_orderAlong {keys : List SortKey} {left right : Record}
    {lefts rights : List Value}
    (hleft : List.Forall₂ (fun key value => left.getNamed key.name = .ok value) keys lefts)
    (hright : List.Forall₂ (fun key value => right.getNamed key.name = .ok value) keys rights) :
    compareAlong (keys.map SortKey.toSortElement) left right =
      .ok (orderAlong keys lefts rights) := by
  induction keys generalizing lefts rights with
  | nil =>
      cases hleft
      rfl
  | cons key keys ih =>
      cases hleft with
      | @cons _ leftValue _ lefts hleftFirst hleftRest =>
      cases hright with
      | @cons _ rightValue _ rights hrightFirst hrightRest =>
      rw [List.map_cons, compareAlong_cons hleftFirst hrightFirst, orderAlong,
        ih hleftRest hrightRest]
      cases key.order leftValue rightValue <;> rfl

section Buffers

variable (denotes : FieldType → Bytes → Value → Prop)

/-- A buffer has a value for a sort key at a position, in so many bytes. What a payload with a
comparator stands for is up to `denotes`. -/
def SortKey.Holds (key : SortKey) (buffer : Bytes) (position : Nat) (value : Value)
    (used : Nat) : Prop :=
  match key.comparator with
  | none => Wire.keyAt key.type buffer position = .ok (value.key, used)
  | some _ => ∃ payload, Span.readAt buffer position = .ok (payload, used) ∧
      denotes key.type payload value

/-- A buffer has values for sort keys one after the other, from a position up to another one. -/
inductive Laid (buffer : Bytes) : List SortKey → Nat → List Value → Nat → Prop
  | nil (position : Nat) : Laid buffer [] position [] position
  | cons {key : SortKey} {keys : List SortKey} {position used stop : Nat} {value : Value}
      {values : List Value} (first : key.Holds denotes buffer position value used)
      (rest : Laid buffer keys (position + used) values stop) :
      Laid buffer (key :: keys) position (value :: values) stop

/-- The source that the value of a sort key names, or else the one that was known before. -/
def SortKey.sourceAfter (key : SortKey) (value : Value) (source : Option Int32) : Option Int32 :=
  if key.comparator.isNone ∧ key.name = sourceFieldName then some (.ofInt value.key.number)
  else source

def sourceAlong (source : Option Int32) : List SortKey → List Value → Option Int32
  | key :: keys, value :: values => sourceAlong (key.sourceAfter value source) keys values
  | _, _ => source

variable {denotes}

theorem SortKey.compareNext_eq {key : SortKey} {left right : Bytes} {progress : Progress}
    {leftValue rightValue : Value} {leftUsed rightUsed : Nat}
    (hagrees : ∀ named ∈ key.comparator, named.comparator.AgreesOn denotes key.type)
    (hleft : key.Holds denotes left progress.left leftValue leftUsed)
    (hright : key.Holds denotes right progress.right rightValue rightUsed) :
    key.compareNext left right progress = .ok (key.compareValues leftValue rightValue,
      ⟨progress.left + leftUsed, progress.right + rightUsed,
        key.sourceAfter leftValue progress.source⟩) := by
  cases hcomparator : key.comparator with
  | none =>
      simp only [Holds, hcomparator] at hleft hright
      simp only [compareNext, hcomparator, hleft, hright, bind, Except.bind, pure, Except.pure,
        SortElement.compareValues, sourceAfter, Progress.advance, Option.isNone_none, true_and,
        Value.compare_eq]
      split <;> rfl
  | some named =>
      simp only [Holds, hcomparator] at hleft hright
      obtain ⟨leftPayload, hleftRead, hleftDenotes⟩ := hleft
      obtain ⟨rightPayload, hrightRead, hrightDenotes⟩ := hright
      have houtcome := hagrees named hcomparator leftValue rightValue _ _ hleftDenotes
        hrightDenotes
      simp only [compareNext, hcomparator, hleftRead, hrightRead, houtcome, bind, Except.bind,
        pure, Except.pure, SortElement.compareValues, sourceAfter, Progress.advance]
      rfl

/-- Comparing buffers along sort keys gives the order of the values they hold, and a tie leaves off
behind all of them. -/
theorem compareBytesAlong_eq {keys : List SortKey} {left right : Bytes}
    {lefts rights : List Value} {leftStart rightStart leftStop rightStop : Nat}
    (hagrees : ∀ key ∈ keys, ∀ named ∈ key.comparator,
      named.comparator.AgreesOn denotes key.type)
    (hleft : Laid denotes left keys leftStart lefts leftStop)
    (hright : Laid denotes right keys rightStart rights rightStop) (source : Option Int32) :
    ∃ progress, compareBytesAlong left right keys ⟨leftStart, rightStart, source⟩ =
        .ok (orderAlong keys lefts rights, progress) ∧
      (orderAlong keys lefts rights = .eq →
        progress = ⟨leftStop, rightStop, sourceAlong source keys lefts⟩) := by
  induction keys generalizing lefts rights leftStart rightStart source with
  | nil =>
      cases hleft
      cases hright
      exact ⟨_, rfl, fun _ => rfl⟩
  | cons key keys ih =>
      cases hleft with
      | @cons _ _ _ leftUsed _ leftValue lefts hleftFirst hleftRest =>
      cases hright with
      | @cons _ _ _ rightUsed _ rightValue rights hrightFirst hrightRest =>
      have hnext : key.compareNext left right ⟨leftStart, rightStart, source⟩ = _ :=
        SortKey.compareNext_eq (hagrees key (by simp)) hleftFirst hrightFirst
      obtain ⟨progress, halong, htie⟩ :=
        ih (fun other hother => hagrees other (by simp [hother])) hleftRest hrightRest
          (key.sourceAfter leftValue source)
      simp only [compareBytesAlong, orderAlong, SortElement.order, hnext, bind, Except.bind]
      cases houtcome : key.compareValues leftValue rightValue with
      | eq =>
          have hequal : key.direction.apply .eq = .eq := Direction.apply_eq_eq.mpr rfl
          rw [hequal]
          exact ⟨progress, halong, htie⟩
      | lt | gt => cases key.direction <;> simp [Direction.apply, pure, Except.pure]

end Buffers

theorem SortKey.holds_of_write {key : SortKey} {value : Value} {field : Bytes}
    (hfield : key.form.write value = .ok field) (hsize : field.length < 2 ^ 64)
    (before after : Bytes) :
    key.Holds Wire.IsPayload (before ++ (field ++ after)) before.length value field.length := by
  have hdrop : (before ++ (field ++ after)).drop before.length = field ++ after :=
    List.drop_left
  cases hcomparator : key.comparator with
  | none =>
      have hencode : Wire.encode key.type value = .ok field := by
        simpa [FieldForm.write, form, hcomparator] using hfield
      simp only [Holds, hcomparator]
      refine Wire.readAt_eq_ok_iff.mpr (Wire.readKey_of_read ?_)
      rw [hdrop, Wire.read_encode hencode hsize]
  | some named =>
      have hframed : Wire.encodeFramed key.type value = .ok field := by
        simpa [FieldForm.write, form, hcomparator] using hfield
      obtain ⟨payload, hpayload, rfl⟩ := map_eq_ok_iff.mp hframed
      have hcontent : payload.length < 2 ^ 64 :=
        (Span.length_le_encode payload).trans_lt hsize
      simp only [Holds, hcomparator]
      refine ⟨payload, Wire.readAt_eq_ok_iff.mpr ?_, hpayload⟩
      rw [hdrop, Span.read_encode hcontent]

theorem Written.laid {keys : List SortKey} {values : List Value} {bytes : Bytes}
    (written : Written (keys.map SortKey.form) values bytes) (hsize : bytes.length < 2 ^ 64)
    (before after : Bytes) :
    Laid Wire.IsPayload (before ++ (bytes ++ after)) keys before.length values
      (before.length + bytes.length) := by
  induction keys generalizing values bytes before with
  | nil =>
      cases written
      exact .nil _
  | cons key keys ih =>
      cases written with
      | @cons _ value field _ values bytes hfield hrest =>
      rw [List.length_append] at hsize
      have hlaid := ih hrest (by omega) (before ++ field)
      have hholds := SortKey.holds_of_write hfield (by omega) before (bytes ++ after)
      simp only [List.length_append, List.append_assoc, ← Nat.add_assoc] at hlaid ⊢
      exact .cons hholds hlaid

theorem sourceAlong_of_absent {keys : List SortKey}
    (habsent : ∀ key ∈ keys, key.name ≠ sourceFieldName) (values : List Value)
    (source : Option Int32) : sourceAlong source keys values = source := by
  induction keys generalizing values source with
  | nil => rfl
  | cons key keys ih =>
      rcases values with _ | ⟨value, values⟩
      · rfl
      · have hkeep : key.sourceAfter value source = source :=
          if_neg fun hsource => habsent key (by simp) hsource.2
        rw [sourceAlong, hkeep]
        exact ih (fun other hother => habsent other (by simp [hother])) values source

theorem sourceAlong_eq {keys : List SortKey} {values : List Value} {id : Int32}
    (distinct : (keys.map fun key => key.name).Nodup) {position : Nat} {key : SortKey}
    (hkey : keys[position]? = some key) (hname : key.name = sourceFieldName)
    (hplain : key.comparator = none) (hvalue : values[position]? = some (.int id))
    (source : Option Int32) : sourceAlong source keys values = some id := by
  induction keys generalizing values position source with
  | nil => simp at hkey
  | cons first keys ih =>
      rcases values with _ | ⟨value, values⟩
      · simp at hvalue
      rw [List.map_cons, List.nodup_cons] at distinct
      cases position with
      | zero =>
          obtain rfl : first = key := by simpa using hkey
          obtain rfl : value = .int id := by simpa using hvalue
          have hfound : first.sourceAfter (.int id) source = some id := by
            simp [SortKey.sourceAfter, hname, hplain, Value.key]
          have habsent : ∀ other ∈ keys, other.name ≠ sourceFieldName := by
            intro other hother heq
            exact distinct.1 (List.mem_map.mpr ⟨other, hother, heq.trans hname.symm⟩)
          rw [sourceAlong, hfound, sourceAlong_of_absent habsent]
      | succ position =>
          exact ih distinct.2 (by simpa using hkey) (by simpa using hvalue) _

theorem compareValues_of_tie {keys : List SortKey} {lefts rights : List Value}
    (htie : orderAlong keys lefts rights = .eq) {position : Nat} {key : SortKey}
    {left right : Value} (hkey : keys[position]? = some key)
    (hleft : lefts[position]? = some left) (hright : rights[position]? = some right) :
    key.compareValues left right = .eq := by
  induction keys generalizing lefts rights position with
  | nil => simp at hkey
  | cons first keys ih =>
      rcases lefts with _ | ⟨leftValue, lefts⟩
      · simp at hleft
      rcases rights with _ | ⟨rightValue, rights⟩
      · simp at hright
      rw [orderAlong, Ordering.then_eq_eq, SortElement.order, Direction.apply_eq_eq] at htie
      cases position with
      | zero => simp_all
      | succ position =>
          exact ih htie.2 (by simpa using hkey) (by simpa using hleft) (by simpa using hright)

theorem Value.int_eq_of_compare {left right : Int32}
    (htie : Ord.compare (Value.int left) (Value.int right) = .eq) : left = right := by
  have hparts : Ord.compare (2 : Nat) 2 = .eq ∧ Ord.compare left.toInt right.toInt = .eq ∧
      Ord.compare ([] : Bytes) [] = .eq := by
    change (Ord.compare (2 : Nat) 2).then
      ((Ord.compare left.toInt right.toInt).then (Ord.compare ([] : Bytes) [])) = .eq at htie
    rwa [Ordering.then_eq_eq, Ordering.then_eq_eq] at htie
  exact Int32.toInt_inj.mp (Std.LawfulEqOrd.eq_of_compare hparts.2.1)

theorem Record.getNamed_of_sourceId? {record : Record} {id : Int32}
    (hid : record.sourceId? = some id) : record.getNamed sourceFieldName = .ok (.int id) := by
  rw [sourceId?] at hid
  split at hid
  · next named =>
      rw [getNamed, named, Option.some.inj hid]
  · cases hid

namespace Plan

variable {plan : Plan} {source : Source} {record left right : Record}

theorem filterMap_forms {schema : Schema} {keys : List SortKey} {positions : List Nat}
    (hfields : List.Forall₂ (fun key position => schema.fields[position]? = some key.field) keys
      positions)
    (hplain : ∀ key ∈ keys, key.comparator = none) :
    positions.filterMap (fun position =>
      schema.fields[position]?.map fun field => (⟨field.type, false⟩ : FieldForm)) =
        keys.map SortKey.form := by
  induction hfields with
  | nil => rfl
  | @cons key position keys positions hfield _ ih =>
      have hform : (⟨key.type, false⟩ : FieldForm) = key.form := by
        simp [SortKey.form, hplain key (by simp)]
      have hrest := ih fun other hother => hplain other (by simp [hother])
      simp [hfield, SortKey.field, hform, hrest]

theorem exists_ownForms (hsource : source ∈ plan.sources) :
    ∃ others, plan.ownForms source = source.specificKeys.map SortKey.form ++ others := by
  have hspecific := plan.consistent.specific_mem source hsource
  have hfields := Schema.positionsOf_fields fun key hkey => (hspecific key hkey).1
  rw [ownForms, ownPositions_eq hsource, List.filterMap_append,
    filterMap_forms hfields fun key hkey => (hspecific key hkey).2.1]
  exact ⟨_, rfl⟩

theorem written_specificKeys {own : Bytes} (hsource : plan.sourceOf record = .ok source)
    (written : Written (plan.ownForms source) ((plan.ownPositions source).map record.valueAt)
      own) :
    ∃ specific other,
      Written (source.specificKeys.map SortKey.form) (record.valuesFor source.specificKeys)
        specific ∧
      specific ++ other = own := by
  obtain ⟨hmem, hschema, -⟩ := sourceOf_eq_ok_iff.mp hsource
  have hfields := Schema.positionsOf_fields fun key hkey =>
    (plan.consistent.specific_mem source hmem key hkey).1
  obtain ⟨others, hforms⟩ := exists_ownForms hmem
  rw [hforms, ownPositions_eq hmem, List.map_append,
    Written.append_iff (by simpa using hfields.length_eq), hschema] at written
  obtain ⟨specific, other, hspecific, -, heq⟩ := written
  exact ⟨specific, other, hspecific, heq⟩

theorem compare_of_differ {outcome : Ordering}
    (hcommon : compareAlong plan.common.elements left right = .ok outcome)
    (hdiffer : outcome ≠ .eq) : plan.compare left right = .ok outcome := by
  rw [compare, hcommon]
  cases outcome <;> first | rfl | exact absurd rfl hdiffer

theorem compare_of_tie (hcommon : compareAlong plan.common.elements left right = .ok .eq)
    (hmany : plan.isMultiSource = true)
    (hsource : left.sourceId?.bind plan.source? = some source) :
    plan.compare left right =
      compareAlong (source.specificKeys.map SortKey.toSortElement) left right := by
  simp only [compare, hcommon, bind, Except.bind, hmany, if_true, hsource]

theorem compareBytes_of_differ {leftBytes rightBytes : Bytes} {progress : Progress}
    {outcome : Ordering}
    (hcommon : compareBytesAlong leftBytes rightBytes plan.keys ⟨0, 0, none⟩ =
      .ok (outcome, progress))
    (hdiffer : outcome ≠ .eq) : plan.compareBytes leftBytes rightBytes = .ok outcome := by
  rw [compareBytes, hcommon]
  cases outcome <;> first | rfl | exact absurd rfl hdiffer

theorem compareBytes_of_tie {leftBytes rightBytes : Bytes} {progress : Progress}
    (hcommon : compareBytesAlong leftBytes rightBytes plan.keys ⟨0, 0, none⟩ =
      .ok (.eq, progress))
    (hmany : plan.isMultiSource = true)
    (hsource : progress.source.bind plan.source? = some source) :
    plan.compareBytes leftBytes rightBytes =
      (compareBytesAlong leftBytes rightBytes source.specificKeys progress).map Prod.fst := by
  simp only [compareBytes, hcommon, bind, Except.bind, hmany, if_true, hsource]
  rfl

section Keyed

variable {denotes : FieldType → Bytes → Value → Prop} {leftSource rightSource : Source}
  {leftBytes rightBytes : Bytes}

/-- A buffer begins with the keys of a record: first those that all sources share, and then those of
the source of the record, which the record names if there are several sources. -/
structure Keyed (plan : Plan) (denotes : FieldType → Bytes → Value → Prop) (source : Source)
    (record : Record) (buffer : Bytes) : Prop where
  source_mem : source ∈ plan.sources
  schema_eq : source.schema = record.schema
  sourceId_eq : plan.isMultiSource = true → record.sourceId? = some source.id
  laid : ∃ middle stop,
    Laid denotes buffer plan.keys 0 (record.valuesFor plan.keys) middle ∧
      Laid denotes buffer source.specificKeys middle (record.valuesFor source.specificKeys) stop

namespace Keyed

theorem named_keys {buffer : Bytes} (keyed : plan.Keyed denotes source record buffer) :
    List.Forall₂ (fun key value => record.getNamed key.name = .ok value) plan.keys
      (record.valuesFor plan.keys) :=
  Record.getNamed_valuesFor
    (keyed.schema_eq ▸ plan.consistent.common_mem source keyed.source_mem)

theorem named_specificKeys {buffer : Bytes} (keyed : plan.Keyed denotes source record buffer) :
    List.Forall₂ (fun key value => record.getNamed key.name = .ok value) source.specificKeys
      (record.valuesFor source.specificKeys) := by
  refine Record.getNamed_valuesFor fun key hkey => ?_
  exact keyed.schema_eq ▸ (plan.consistent.specific_mem source keyed.source_mem key hkey).1

theorem source_value {buffer : Bytes} (keyed : plan.Keyed denotes source record buffer)
    (hmany : plan.isMultiSource = true) {position : Nat} {key : SortKey}
    (hkey : plan.keys[position]? = some key) (hname : key.name = sourceFieldName) :
    (record.valuesFor plan.keys)[position]? = some (.int source.id) := by
  obtain ⟨hbound, rfl⟩ := List.getElem?_eq_some_iff.mp hkey
  have hlength := keyed.named_keys.length_eq
  have hvalue := keyed.named_keys.get hbound (hlength ▸ hbound)
  simp only [List.get_eq_getElem, hname] at hvalue
  have hint := Record.getNamed_of_sourceId? (keyed.sourceId_eq hmany)
  rw [List.getElem?_eq_getElem (hlength ▸ hbound)]
  exact congrArg some (Except.ok.inj (hvalue.symm.trans hint))

theorem source_eq_of_tie (hleft : plan.Keyed denotes leftSource left leftBytes)
    (hright : plan.Keyed denotes rightSource right rightBytes)
    (hmany : plan.isMultiSource = true)
    (htie : orderAlong plan.keys (left.valuesFor plan.keys) (right.valuesFor plan.keys) = .eq) :
    leftSource = rightSource ∧
      ∀ source, sourceAlong source plan.keys (left.valuesFor plan.keys) = some leftSource.id := by
  obtain ⟨position, key, -, hkey, hname⟩ := exists_sourceIndex? hmany
  have hplain := comparator_of_source (List.mem_of_getElem? hkey) hname
  have hleftValue := hleft.source_value hmany hkey hname
  have hrightValue := hright.source_value hmany hkey hname
  have hequal := compareValues_of_tie htie hkey hleftValue hrightValue
  simp only [SortElement.compareValues, hplain] at hequal
  have hsame : leftSource = rightSource :=
    eq_of_mem_of_nodup_map plan.ids_nodup hleft.source_mem hright.source_mem
      (Value.int_eq_of_compare hequal)
  exact ⟨hsame, sourceAlong_eq plan.consistent.keys_distinct hkey hname hplain hleftValue⟩

theorem exists_compareBytesAlong_specificKeys (hleft : plan.Keyed denotes source left leftBytes)
    (hright : plan.Keyed denotes source right rightBytes)
    {leftStart leftStop rightStart rightStop : Nat}
    (hleftLaid : Laid denotes leftBytes source.specificKeys leftStart
      (left.valuesFor source.specificKeys) leftStop)
    (hrightLaid : Laid denotes rightBytes source.specificKeys rightStart
      (right.valuesFor source.specificKeys) rightStop) (carried : Option Int32) :
    ∃ outcome progress,
      compareAlong (source.specificKeys.map SortKey.toSortElement) left right = .ok outcome ∧
      compareBytesAlong leftBytes rightBytes source.specificKeys
        ⟨leftStart, rightStart, carried⟩ = .ok (outcome, progress) := by
  have hplain : ∀ key ∈ source.specificKeys, ∀ named ∈ key.comparator,
      named.comparator.AgreesOn denotes key.type := by
    intro key hkey named hnamed
    have hnone := (plan.consistent.specific_mem source hleft.source_mem key hkey).2.1
    rw [hnone] at hnamed
    cases hnamed
  obtain ⟨progress, hbytes, -⟩ := compareBytesAlong_eq hplain hleftLaid hrightLaid carried
  exact ⟨_, progress,
    compareAlong_eq_orderAlong hleft.named_specificKeys hright.named_specificKeys, hbytes⟩

end Keyed

theorem exists_compareBytes_of_keyed
    (hagrees : ∀ key ∈ plan.keys, ∀ named ∈ key.comparator,
      named.comparator.AgreesOn denotes key.type)
    (hleft : plan.Keyed denotes leftSource left leftBytes)
    (hright : plan.Keyed denotes rightSource right rightBytes) :
    ∃ outcome, plan.compare left right = .ok outcome ∧
      plan.compareBytes leftBytes rightBytes = .ok outcome := by
  obtain ⟨leftMiddle, leftStop, hleftKeys, hleftRest⟩ := hleft.laid
  obtain ⟨rightMiddle, rightStop, hrightKeys, hrightRest⟩ := hright.laid
  have hrecords : compareAlong plan.common.elements left right = _ :=
    compareAlong_eq_orderAlong hleft.named_keys hright.named_keys
  obtain ⟨progress, hbytes, hprogress⟩ := compareBytesAlong_eq hagrees hleftKeys hrightKeys none
  cases horder : orderAlong plan.keys (left.valuesFor plan.keys) (right.valuesFor plan.keys) with
  | lt | gt =>
      rw [horder] at hrecords hbytes
      exact ⟨_, compare_of_differ hrecords (by simp), compareBytes_of_differ hbytes (by simp)⟩
  | eq =>
      rw [horder] at hrecords hbytes
      obtain rfl := hprogress horder
      cases hmany : plan.isMultiSource with
      | false =>
          refine ⟨.eq, ?_, ?_⟩
          · simp [compare, hrecords, hmany, bind, Except.bind, pure, Except.pure]
          · simp [compareBytes, hbytes, hmany, bind, Except.bind, pure, Except.pure]
      | true =>
          obtain ⟨rfl, hnamed⟩ := hleft.source_eq_of_tie hright hmany horder
          have hfound : plan.source? leftSource.id = some leftSource :=
            source?_eq_some_iff.mpr ⟨hleft.source_mem, rfl⟩
          obtain ⟨outcome, progress, hspecific, hspecificBytes⟩ :=
            hleft.exists_compareBytesAlong_specificKeys hright hleftRest hrightRest
              (some leftSource.id)
          rw [hnamed] at hbytes
          refine ⟨outcome, ?_, ?_⟩
          · rw [compare_of_tie hrecords hmany
              (by rw [hleft.sourceId_eq hmany, Option.bind_some, hfound]), hspecific]
          · rw [compareBytes_of_tie hbytes hmany (by rw [Option.bind_some, hfound]),
              hspecificBytes]
            rfl

end Keyed

/-- What is written of a record begins with what is written of its keys, and these bytes show the keys
whatever comes after them. -/
theorem exists_front_serialize {bytes : Bytes} (hsource : plan.sourceOf record = .ok source)
    (hbytes : plan.serialize record = .ok bytes) (hsize : bytes.length < 2 ^ 63) :
    ∃ front more, front ++ more = bytes ∧
      Written (plan.keys.map SortKey.form ++ source.specificKeys.map SortKey.form)
        (record.valuesFor plan.keys ++ record.valuesFor source.specificKeys) front ∧
      ∀ after, plan.Keyed Wire.IsPayload source record (front ++ after) := by
  obtain ⟨found, hfound, written⟩ := serialize_eq_ok_iff.mp hbytes
  cases hsource.symm.trans hfound
  obtain ⟨hmem, hschema, -⟩ := sourceOf_eq_ok_iff.mp hsource
  obtain ⟨common, own, hcommon, hown, rfl⟩ := (written_forms_iff hsource).mp written
  obtain ⟨specific, other, hspecific, rfl⟩ := written_specificKeys hsource hown
  rw [List.length_append, List.length_append] at hsize
  have hlength := (getNamed_keys hsource).length_eq
  refine ⟨common ++ specific, other, List.append_assoc _ _ _,
    (Written.append_iff (by simpa using hlength)).mpr ⟨_, _, hcommon, hspecific, rfl⟩, ?_⟩
  intro after
  refine ⟨hmem, hschema, ?_, common.length, common.length + specific.length, ?_, ?_⟩
  · intro hmany
    obtain ⟨position, key, -, hkey, hname⟩ := exists_sourceIndex? hmany
    exact (sourceId?_eq_id hsource (getNamed_keys hsource) hcommon.ne_null hkey hname).2
  · simpa using hcommon.laid (by omega) [] (specific ++ after)
  · simpa using hspecific.laid (by omega) common after

theorem exists_keyed_serialize {bytes : Bytes} (hbytes : plan.serialize record = .ok bytes)
    (hsize : bytes.length < 2 ^ 63) :
    ∃ source, plan.Keyed Wire.IsPayload source record bytes := by
  obtain ⟨source, hsource, -⟩ := serialize_eq_ok_iff.mp hbytes
  obtain ⟨front, more, rfl, -, hkeyed⟩ := exists_front_serialize hsource hbytes hsize
  exact ⟨source, hkeyed more⟩

theorem exists_compareBytes_serialize
    (hagrees : ∀ key ∈ plan.keys, ∀ named ∈ key.comparator,
      named.comparator.AgreesOn Wire.IsPayload key.type)
    {leftBytes rightBytes : Bytes} (hleft : plan.serialize left = .ok leftBytes)
    (hright : plan.serialize right = .ok rightBytes) (hleftSize : leftBytes.length < 2 ^ 63)
    (hrightSize : rightBytes.length < 2 ^ 63) :
    ∃ outcome, plan.compare left right = .ok outcome ∧
      plan.compareBytes leftBytes rightBytes = .ok outcome := by
  obtain ⟨leftSource, hleftKeyed⟩ := exists_keyed_serialize hleft hleftSize
  obtain ⟨rightSource, hrightKeyed⟩ := exists_keyed_serialize hright hrightSize
  exact exists_compareBytes_of_keyed hagrees hleftKeyed hrightKeyed

/-- Records, what is written of them, and the parts of larger buffers that hold it are ordered
alike, if comparators order payloads as the values they stand for. Those that are built in do. -/
theorem compareRaw_serialize :
    (∀ plan : Plan,
      (∀ key ∈ plan.keys, ∀ named ∈ key.comparator,
        named.comparator.AgreesOn Wire.IsPayload key.type) →
      ∀ left right leftBytes rightBytes, plan.serialize left = .ok leftBytes →
        plan.serialize right = .ok rightBytes → leftBytes.length < 2 ^ 63 →
        rightBytes.length < 2 ^ 63 →
          ∃ outcome, plan.compare left right = .ok outcome ∧
            plan.compareBytes leftBytes rightBytes = .ok outcome ∧
            ∀ leftBefore leftAfter rightBefore rightAfter : Bytes,
              plan.compareRaw (leftBefore ++ leftBytes ++ leftAfter) leftBefore.length
                leftBytes.length (rightBefore ++ rightBytes ++ rightAfter) rightBefore.length
                rightBytes.length = .ok outcome) ∧
    ∀ comparator ∈ [Comparator.caseInsensitive, Comparator.shortlex], ∀ type,
      comparator.supports type = true → comparator.AgreesOn Wire.IsPayload type := by
  refine ⟨?_, Comparator.builtIn_agreesOn Comparator.content?_of_isPayload⟩
  intro plan hagrees left right leftBytes rightBytes hleft hright hleftSize hrightSize
  obtain ⟨outcome, hrecords, hbytes⟩ :=
    exists_compareBytes_serialize hagrees hleft hright hleftSize hrightSize
  refine ⟨outcome, hrecords, hbytes, ?_⟩
  intro leftBefore leftAfter rightBefore rightAfter
  simpa only [compareRaw, recordBytes, Bytes.slice?_append, bind, Except.bind] using hbytes

end Plan

namespace Sample

theorem plan_agrees : ∀ key ∈ plan.keys, ∀ named ∈ key.comparator,
    named.comparator.AgreesOn Wire.IsPayload key.type :=
  forall_comparator (fun comparator type => comparator.AgreesOn Wire.IsPayload type)
    (Comparator.ofContent_agreesOn _ rfl)

end Sample

namespace Plan

theorem compareRaw_serialize_clicks :
    Sample.plan.compare (Sample.click "Ann" 5) (Sample.click "anN" 261) = .ok .gt ∧
      Sample.plan.compareRaw
        ([9, 9] ++ [3, 65, 110, 110, 5, 0, 0, 0, 0, 0, 0, 0, 5, 3, 97, 47, 98] ++ [9]) 2 17
        ([] ++ [3, 97, 110, 78, 5, 0, 0, 0, 0, 0, 0, 1, 5, 3, 97, 47, 98] ++ [9]) 0 17 =
          .ok .gt := by
  have hleft : Sample.plan.serialize (Sample.click "Ann" 5) =
      .ok [3, 65, 110, 110, 5, 0, 0, 0, 0, 0, 0, 0, 5, 3, 97, 47, 98] := by cbv
  have hright : Sample.plan.serialize (Sample.click "anN" 261) =
      .ok [3, 97, 110, 78, 5, 0, 0, 0, 0, 0, 0, 1, 5, 3, 97, 47, 98] := by cbv
  have hlater : Sample.plan.compare (Sample.click "Ann" 5) (Sample.click "anN" 261) =
      .ok .gt := by cbv
  obtain ⟨outcome, hrecords, -, hraw⟩ := compareRaw_serialize.1 Sample.plan Sample.plan_agrees
    _ _ _ _ hleft hright (by decide) (by decide)
  obtain rfl : .gt = outcome := by simpa [hlater] using hrecords
  exact ⟨hlater, hraw [9, 9] [9] [] [9]⟩

end Plan

end RecordRollup
