import Mathlib
import RecordRollup.Proofs.Plan.PathAgreement

/-!
Buffers that can be read are ordered as the records that are read from them, whether or not they were
ever written: a number may be spelled longer than need be, so that equal fields take different numbers
of bytes in the two buffers.
-/

namespace RecordRollup

def Wire.Decodes (type : FieldType) (payload : Bytes) (value : Value) : Prop :=
  decodePayload type payload = .ok value

theorem Wire.content?_of_decodes {type : FieldType} {payload : Bytes} {value : Value}
    (hbinary : type.isBinary = true) (hdecodes : Decodes type payload value) :
    value.content? = some payload := by
  rw [Decodes, decodePayload, if_pos hbinary, readAt_eq_ok_iff, List.drop_zero,
    contentValue] at hdecodes
  split at hdecodes
  · split at hdecodes
    · next text htext =>
        cases hdecodes
        exact congrArg some (Utf8.encode_of_decode htext)
    · cases hdecodes
  · cases hdecodes
    rfl

variable {buffer : Bytes} {values : List Value} {start stop : Nat}

theorem SortKey.holds_of_readAt {key : SortKey} {value : Value} {used : Nat}
    (hread : key.form.readAt buffer start = .ok (value, used)) :
    key.Holds Wire.Decodes buffer start value used := by
  cases hcomparator : key.comparator with
  | none =>
      have hdecoded : Wire.decodeAt key.type buffer start = .ok (value, used) := by
        simpa [FieldForm.readAt, form, hcomparator] using hread
      simp only [Holds, hcomparator]
      exact Wire.readAt_eq_ok_iff.mpr (Wire.readKey_of_read (Wire.readAt_eq_ok_iff.mp hdecoded))
  | some named =>
      have hspan : key.form.isSpan = true := by simp [FieldForm.isSpan, form, hcomparator]
      obtain ⟨payload, hpayload, hvalue⟩ :=
        (FieldForm.readAt_eq_ok_iff_of_isSpan hspan).mp hread
      simp only [Holds, hcomparator]
      exact ⟨payload, Wire.readAt_eq_ok_iff.mpr hpayload, hvalue⟩

theorem laid_of_readFields {keys : List SortKey}
    (hread : readFields buffer (keys.map SortKey.form) start = .ok (values, stop)) :
    Laid Wire.Decodes buffer keys start values stop := by
  induction keys generalizing values start with
  | nil =>
      cases hread
      exact .nil _
  | cons key keys ih =>
      obtain ⟨value, used, rest, hvalue, hrest, rfl⟩ := readFields_cons_eq_ok_iff.mp hread
      exact .cons (SortKey.holds_of_readAt hvalue) (ih hrest)

theorem Record.ofValues_eq_ok_iff {schema : Schema} {record : Record} :
    ofValues schema values = .ok record ↔ record.schema = schema ∧ record.values = values := by
  constructor
  · intro hrecord
    rw [ofValues] at hrecord
    split at hrecord
    · split at hrecord <;> cases hrecord
      exact ⟨rfl, rfl⟩
    · cases hrecord
  · rintro ⟨rfl, rfl⟩
    exact Plan.ofValues_values record

theorem map_lookup_zip {positions : List Nat} (distinct : positions.Nodup)
    (hlength : positions.length = values.length) :
    positions.map (fun position => ((positions.zip values).lookup position).getD .null) =
      values := by
  induction positions generalizing values with
  | nil => exact (List.eq_nil_of_length_eq_zero hlength.symm).symm
  | cons position positions ih =>
      rcases values with _ | ⟨value, values⟩
      · simp at hlength
      · rw [List.nodup_cons] at distinct
        have hrest : ∀ other ∈ positions,
            (((position :: positions).zip (value :: values)).lookup other).getD .null =
              ((positions.zip values).lookup other).getD .null := by
          intro other hother
          have hne : (other == position) = false :=
            beq_eq_false_iff_ne.mpr fun heq => distinct.1 (heq ▸ hother)
          rw [List.zip_cons_cons, List.lookup_cons, hne]
        rw [List.map_cons, List.map_congr_left hrest, ih distinct.2 (by simpa using hlength)]
        simp

namespace Plan

variable {plan : Plan} {source : Source} {record left right : Record}

theorem map_valueAt_order (hsource : source ∈ plan.sources)
    (hschema : source.schema = record.schema) :
    (plan.order source).map record.valueAt =
      record.valuesFor plan.keys ++ (plan.ownPositions source).map record.valueAt := by
  rw [order_eq_ownPositions hsource, List.map_append, Record.valuesFor, hschema]

theorem map_valueAt_of_arrange (hsource : source ∈ plan.sources)
    (hlength : (plan.order source).length = values.length)
    (hvalues : record.values = arrange source.schema.size (plan.order source) values) :
    (plan.order source).map record.valueAt = values := by
  conv_rhs => rw [← map_lookup_zip (nodup_order hsource) hlength]
  refine List.map_congr_left fun position hposition => ?_
  have hbound := mem_order.mp hposition
  simp [Record.valueAt, hvalues, arrange, List.getD_eq_getElem?_getD, List.getElem?_range hbound]

theorem length_valuesFor (hsource : source ∈ plan.sources)
    (hschema : source.schema = record.schema) :
    (plan.keys.map SortKey.form).length = (record.valuesFor plan.keys).length := by
  have hfields := Schema.positionsOf_fields (plan.consistent.common_mem source hsource)
  simpa [Record.valuesFor, ← hschema] using hfields.length_eq

theorem readFields_forms_iff (hsource : source ∈ plan.sources)
    (hschema : source.schema = record.schema) :
    readFields buffer (plan.forms source) 0 =
        .ok ((plan.order source).map record.valueAt, stop) ↔
      ∃ middle, readFields buffer (plan.keys.map SortKey.form) 0 =
          .ok (record.valuesFor plan.keys, middle) ∧
        readFields buffer (plan.ownForms source) middle =
          .ok ((plan.ownPositions source).map record.valueAt, stop) := by
  rw [map_valueAt_order hsource hschema, forms]
  exact readFields_append_eq_ok_iff (length_valuesFor hsource hschema)

theorem source_of_values (hsource : plan.sourceOfValues values = .ok source) :
    source ∈ plan.sources ∧ (plan.isMultiSource = true →
      ∃ (position : Nat) (key : SortKey), plan.keys[position]? = some key ∧
        key.name = sourceFieldName ∧
        values[position]? = some (.int source.id)) := by
  cases hmany : plan.isMultiSource with
  | false =>
      obtain ⟨only, honly⟩ := List.exists_mem_of_ne_nil _ plan.consistent.sources_ne_nil
      rw [sourceOfValues, soleSource?_eq_some honly hmany] at hsource
      cases hsource
      exact ⟨honly, by simp⟩
  | true =>
      obtain ⟨position, key, hposition, hkey, hname⟩ := exists_sourceIndex? hmany
      simp only [sourceOfValues, soleSource?_eq_none hmany, hposition] at hsource
      split at hsource
      · next hvalue =>
          split at hsource
          · next hfound =>
              cases hsource
              obtain ⟨hmem, rfl⟩ := source?_eq_some_iff.mp hfound
              exact ⟨hmem, fun _ => ⟨position, key, hkey, hname, hvalue⟩⟩
          · cases hsource
      · cases hsource

/-- A record is read as its values in the order of the source that its common keys name. -/
theorem deserialize_eq_ok_iff :
    plan.deserialize buffer = .ok record ↔ ∃ source,
      plan.sourceOfValues (record.valuesFor plan.keys) = .ok source ∧
        source.schema = record.schema ∧
        readFields buffer (plan.forms source) 0 =
          .ok ((plan.order source).map record.valueAt, buffer.length) := by
  simp only [deserialize, bind_eq_ok_iff, Prod.exists]
  constructor
  · rintro ⟨common, middle, hcommon, source, hsource, own, stop, hown, hrecord⟩
    split at hrecord
    · cases hrecord
    · next hstop =>
        obtain rfl : stop = buffer.length := not_not.mp hstop
        obtain ⟨hschema, hvalues⟩ := Record.ofValues_eq_ok_iff.mp hrecord
        have hmem := (source_of_values hsource).1
        have hread := (readFields_append_eq_ok_iff (length_of_readFields hcommon)).mpr
          ⟨middle, hcommon, hown⟩
        have horder := map_valueAt_of_arrange hmem
          ((length_forms hmem).trans (length_of_readFields hread)) hvalues
        have hkeys := length_valuesFor hmem hschema.symm
        have hcommonKeys : record.valuesFor plan.keys = common := by
          rw [map_valueAt_order hmem hschema.symm] at horder
          exact (List.append_inj horder (hkeys.symm.trans (length_of_readFields hcommon))).1
        refine ⟨source, ?_, hschema.symm, ?_⟩
        · rwa [hcommonKeys]
        · rw [horder]
          exact hread
  · rintro ⟨source, hsource, hschema, hread⟩
    have hmem := (source_of_values hsource).1
    obtain ⟨middle, hcommon, hown⟩ := (readFields_forms_iff hmem hschema).mp hread
    refine ⟨_, middle, hcommon, source, hsource, _, buffer.length, hown, ?_⟩
    rw [if_neg (by simp), ← map_valueAt_order hmem hschema, arrange_order hschema, hschema]
    exact ofValues_values record

theorem sourceId?_of_sourceOfValues
    (hsource : plan.sourceOfValues (record.valuesFor plan.keys) = .ok source)
    (hschema : source.schema = record.schema) (hmany : plan.isMultiSource = true) :
    record.sourceId? = some source.id := by
  obtain ⟨hmem, hnamed⟩ := source_of_values hsource
  obtain ⟨position, key, hkey, hname, hvalue⟩ := hnamed hmany
  have hcarried := Record.getNamed_of_getElem?
    (Record.getNamed_valuesFor (hschema ▸ plan.consistent.common_mem source hmem)) hkey hvalue
  rw [hname] at hcarried
  obtain ⟨id, hid, hfound⟩ := sourceId?_eq_some hcarried (by simp)
  rw [hfound, Value.int.inj hid]

theorem exists_keyed_deserialize (hrecord : plan.deserialize buffer = .ok record) :
    ∃ source, plan.Keyed Wire.Decodes source record buffer := by
  obtain ⟨source, hsource, hschema, hread⟩ := deserialize_eq_ok_iff.mp hrecord
  have hmem := (source_of_values hsource).1
  have hspecificFields := Schema.positionsOf_fields fun key hkey =>
    (plan.consistent.specific_mem source hmem key hkey).1
  obtain ⟨others, hforms⟩ := exists_ownForms hmem
  obtain ⟨middle, hcommon, hown⟩ := (readFields_forms_iff hmem hschema).mp hread
  rw [hforms, ownPositions_eq hmem, List.map_append,
    readFields_append_eq_ok_iff (by simpa using hspecificFields.length_eq), hschema] at hown
  obtain ⟨stop, hspecific, -⟩ := hown
  exact ⟨source, hmem, hschema, sourceId?_of_sourceOfValues hsource hschema, middle, stop,
    laid_of_readFields hcommon, laid_of_readFields hspecific⟩

/-- Two buffers that can be read are ordered as the records read from them, however these buffers
spell their fields, if comparators order payloads as the values read from them. Those that are built
in do. -/
theorem compareBytes_of_deserialize :
    (∀ plan : Plan,
      (∀ key ∈ plan.keys, ∀ named ∈ key.comparator,
        named.comparator.AgreesOn Wire.Decodes key.type) →
      ∀ left right leftBytes rightBytes, plan.deserialize leftBytes = .ok left →
        plan.deserialize rightBytes = .ok right →
          ∃ outcome, plan.compare left right = .ok outcome ∧
            plan.compareBytes leftBytes rightBytes = .ok outcome) ∧
    ∀ comparator ∈ [Comparator.caseInsensitive, Comparator.shortlex], ∀ type,
      comparator.supports type = true → comparator.AgreesOn Wire.Decodes type := by
  refine ⟨?_, Comparator.builtIn_agreesOn Wire.content?_of_decodes⟩
  intro plan hagrees left right leftBytes rightBytes hleft hright
  obtain ⟨leftSource, hleftKeyed⟩ := exists_keyed_deserialize hleft
  obtain ⟨rightSource, hrightKeyed⟩ := exists_keyed_deserialize hright
  exact exists_compareBytes_of_keyed hagrees hleftKeyed hrightKeyed

end Plan

namespace Sample

def clickSource : Source :=
  ⟨-3, clicks, some [⟨byTime, .int64⟩]⟩

def clickForms : List FieldForm :=
  [⟨.string, true⟩, ⟨.varInt32, false⟩, ⟨.int64, false⟩, ⟨.string, false⟩]

theorem deserialize_click {bytes : Bytes} {user : String} {time : Int64}
    (hread : readFields bytes clickForms 0 =
      .ok ([.string user, .int (-3), .long time, .string "a/b"], bytes.length)) :
    plan.deserialize bytes = .ok (click user time) := by
  have hforms : plan.forms clickSource = clickForms := by cbv
  have horder : plan.order clickSource = [0, 2, 3, 1] := by cbv
  refine Plan.deserialize_eq_ok_iff.mpr ⟨clickSource, by cbv, rfl, ?_⟩
  rw [hforms, horder, hread]
  rfl

end Sample

namespace Plan

/-- The first click spells the length of its user, and the second one its source and the length of
its last field, with more bytes than they need. -/
theorem compareBytes_of_deserialize_clicks :
    Sample.plan.deserialize
        [0x83, 0, 65, 110, 110, 5, 0, 0, 0, 0, 0, 0, 0, 5, 3, 97, 47, 98] =
      .ok (Sample.click "Ann" 5) ∧
    Sample.plan.deserialize
        [3, 97, 110, 110, 0x85, 0, 0, 0, 0, 0, 0, 0, 1, 5, 0x83, 0x80, 0, 97, 47, 98] =
      .ok (Sample.click "ann" 261) ∧
    Sample.plan.compare (Sample.click "Ann" 5) (Sample.click "ann" 261) = .ok .gt ∧
    Sample.plan.compareBytes
        [0x83, 0, 65, 110, 110, 5, 0, 0, 0, 0, 0, 0, 0, 5, 3, 97, 47, 98]
        [3, 97, 110, 110, 0x85, 0, 0, 0, 0, 0, 0, 0, 1, 5, 0x83, 0x80, 0, 97, 47, 98] =
      .ok .gt := by
  have hagrees : ∀ key ∈ Sample.plan.keys, ∀ named ∈ key.comparator,
      named.comparator.AgreesOn Wire.Decodes key.type :=
    Sample.forall_comparator (fun comparator type => comparator.AgreesOn Wire.Decodes type)
      (Comparator.agreesOn_of_content (fun _ _ => Wire.content?_of_decodes rfl) _)
  have hleft : Sample.plan.deserialize
      [0x83, 0, 65, 110, 110, 5, 0, 0, 0, 0, 0, 0, 0, 5, 3, 97, 47, 98] =
        .ok (Sample.click "Ann" 5) := Sample.deserialize_click (by decide)
  have hright : Sample.plan.deserialize
      [3, 97, 110, 110, 0x85, 0, 0, 0, 0, 0, 0, 0, 1, 5, 0x83, 0x80, 0, 97, 47, 98] =
        .ok (Sample.click "ann" 261) := Sample.deserialize_click (by decide)
  have hlater : Sample.plan.compare (Sample.click "Ann" 5) (Sample.click "ann" 261) =
      .ok .gt := by cbv
  obtain ⟨outcome, hrecords, hbytes⟩ :=
    compareBytes_of_deserialize.1 Sample.plan hagrees _ _ _ _ hleft hright
  obtain rfl : .gt = outcome := by simpa [hlater] using hrecords
  exact ⟨hleft, hright, hlater, hbytes⟩

end Plan

end RecordRollup
