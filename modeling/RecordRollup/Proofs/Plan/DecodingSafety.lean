import Mathlib
import RecordRollup.Proofs.Plan.DecodedAgreement
import RecordRollup.Proofs.Plan.KeyReading

namespace RecordRollup

def DecodesOrFails {α : Type} (outcome : Except Error α) : Prop :=
  (∃ result, outcome = .ok result) ∨ ∃ fault, outcome = .error (.decoding fault)

namespace DecodesOrFails

variable {α β : Type}

theorem ok (result : α) : DecodesOrFails (.ok result : Except Error α) :=
  .inl ⟨result, rfl⟩

theorem fault (fault : DecodeFault) : DecodesOrFails (.error (.decoding fault) : Except Error α) :=
  .inr ⟨fault, rfl⟩

theorem bind {outcome : Except Error α} {step : α → Except Error β}
    (houtcome : DecodesOrFails outcome)
    (hstep : ∀ result, outcome = .ok result → DecodesOrFails (step result)) :
    DecodesOrFails (outcome >>= step) := by
  rcases houtcome with ⟨result, rfl⟩ | ⟨fault, rfl⟩
  · exact hstep result rfl
  · exact .inr ⟨fault, rfl⟩

theorem of_isDecoding {outcome : Except Error α}
    (herror : ∀ error, outcome = .error error → error.isDecoding = true) :
    DecodesOrFails outcome := by
  cases outcome with
  | ok result => exact .ok result
  | error error =>
      have hdecoding := herror error rfl
      cases error <;> first | exact .fault _ | cases hdecoding

theorem readAt (read : Bytes → Except ReadFault α) (buffer : Bytes) (position : Nat) :
    DecodesOrFails (Wire.readAt read buffer position) := by
  rw [Wire.readAt]
  split
  · exact .ok _
  · exact .fault _

end DecodesOrFails

theorem Wire.decodePayload_decodesOrFails (type : FieldType) (payload : Bytes) :
    DecodesOrFails (decodePayload type payload) := by
  rw [decodePayload]
  split
  · exact .readAt _ _ _
  · rcases DecodesOrFails.readAt (read type) payload 0 with ⟨⟨value, used⟩, hread⟩ | ⟨fault, hread⟩
    · simp only [decodeAt, hread]
      split
      · exact .ok value
      · exact .fault _
    · simp only [decodeAt, hread]
      exact .fault fault

theorem FieldForm.readAt_decodesOrFails (form : FieldForm) (buffer : Bytes) (position : Nat) :
    DecodesOrFails (form.readAt buffer position) := by
  rw [readAt]
  split
  · apply DecodesOrFails.bind (.readAt _ _ _)
    intro result _
    apply DecodesOrFails.bind (Wire.decodePayload_decodesOrFails _ _)
    exact fun value _ => .ok _
  · exact .readAt _ _ _

theorem readFields_decodesOrFails (buffer : Bytes) (forms : List FieldForm) (start : Nat) :
    DecodesOrFails (readFields buffer forms start) := by
  induction forms generalizing start with
  | nil => exact .ok _
  | cons form forms ih =>
      rw [readFields]
      apply DecodesOrFails.bind (form.readAt_decodesOrFails buffer start)
      intro result _
      apply DecodesOrFails.bind (ih _)
      exact fun rest _ => .ok _

/-- A cursor that lies in its buffer. In a buffer of less than `2 ^ 63` bytes, a machine word then
holds the end of any field of fixed width that is looked for at the cursor. -/
def InRange (buffer : Bytes) (cursor : Nat) : Prop :=
  cursor ≤ buffer.length ∧ (buffer.length < 2 ^ 63 →
    ∀ type width, FieldType.fixedWidth type = some width → cursor + width < 2 ^ 64)

theorem inRange_iff {buffer : Bytes} {cursor : Nat} :
    InRange buffer cursor ↔ cursor ≤ buffer.length := by
  rw [InRange, and_iff_left_iff_imp]
  intro hcursor hsize type width hwidth
  have hbound : width ≤ 8 := by
    cases type <;> cases hwidth <;> decide
  omega

namespace Wire

variable {α : Type} {readAt : Bytes → Nat → Except Error (α × Nat)} {buffer : Bytes}
  {position used : Nat} {value : α}

theorem IsLocalAt.inRange (hlocal : IsLocalAt readAt)
    (hread : readAt buffer position = .ok (value, used)) : InRange buffer (position + used) :=
  inRange_iff.mpr (hlocal hread).2.1

end Wire

namespace SortKey

variable {key : SortKey} {left right : Bytes} {progress next : Progress} {outcome : Ordering}

/-- What is asked of the comparators of a plan: they fail on bytes that they cannot decode, and on
no others. -/
def FailsDecoding (key : SortKey) : Prop :=
  ∀ named ∈ key.comparator, ∀ left right error,
    named.comparator.compareBytes left right = .error error → error.isDecoding = true

theorem compareNext_decodesOrFails (hkey : key.FailsDecoding) (left right : Bytes)
    (progress : Progress) : DecodesOrFails (key.compareNext left right progress) := by
  rw [compareNext]
  cases hcomparator : key.comparator with
  | none =>
      apply DecodesOrFails.bind (.readAt _ _ _)
      intro leftResult _
      apply DecodesOrFails.bind (.readAt _ _ _)
      exact fun rightResult _ => .ok _
  | some named =>
      apply DecodesOrFails.bind (.readAt _ _ _)
      intro leftResult _
      apply DecodesOrFails.bind (.readAt _ _ _)
      intro rightResult _
      apply DecodesOrFails.bind (.of_isDecoding (hkey named hcomparator _ _))
      exact fun outcome _ => .ok _

theorem inRange_of_compareNext
    (hnext : key.compareNext left right progress = .ok (outcome, next)) :
    InRange left next.left ∧ InRange right next.right := by
  have hordered : key.orderNext left right progress = .ok (key.direction.apply outcome, next) :=
    map_eq_ok_iff.mpr ⟨_, hnext, rfl⟩
  obtain ⟨leftRead, leftUsed, rightRead, rightUsed, hleft, hright, -, rfl⟩ :=
    orderNext_eq_ok_iff.mp hordered
  exact ⟨key.isLocalAt_readAt.inRange hleft, key.isLocalAt_readAt.inRange hright⟩

end SortKey

section Along

variable {keys : List SortKey} {left right : Bytes}

theorem compareBytesAlong_decodesOrFails (hkeys : ∀ key ∈ keys, key.FailsDecoding)
    (progress : Progress) : DecodesOrFails (compareBytesAlong left right keys progress) := by
  induction keys generalizing progress with
  | nil => exact .ok _
  | cons key keys ih =>
      rw [compareBytesAlong]
      apply DecodesOrFails.bind
      · exact key.compareNext_decodesOrFails (hkeys key (by simp)) left right progress
      · rintro ⟨outcome, next⟩ -
        cases outcome with
        | eq => exact ih (fun other hother => hkeys other (by simp [hother])) next
        | lt | gt => exact .ok _

theorem inRange_of_compareBytesAlong {progress next : Progress} {outcome : Ordering}
    (hleft : InRange left progress.left) (hright : InRange right progress.right)
    (hnext : compareBytesAlong left right keys progress = .ok (outcome, next)) :
    InRange left next.left ∧ InRange right next.right := by
  induction keys generalizing progress with
  | nil =>
      cases hnext
      exact ⟨hleft, hright⟩
  | cons key keys ih =>
      rw [compareBytesAlong, bind_eq_ok_iff] at hnext
      obtain ⟨⟨first, middle⟩, hfirst, hrest⟩ := hnext
      obtain ⟨hmiddleLeft, hmiddleRight⟩ := SortKey.inRange_of_compareNext hfirst
      cases first with
      | eq => exact ih hmiddleLeft hmiddleRight hrest
      | lt | gt =>
          cases hrest
          exact ⟨hmiddleLeft, hmiddleRight⟩

end Along

namespace Plan

variable {plan : Plan} {source : Source} {values : List Value}

theorem forall₂_ownForms {schema : Schema} {positions : List Nat}
    (hpositions : ∀ position ∈ positions, position < schema.size) :
    List.Forall₂ (fun position form => ∃ field, schema.fields[position]? = some field ∧
      field.type = form.type) positions
      (positions.filterMap fun position =>
        schema.fields[position]?.map fun field => (⟨field.type, false⟩ : FieldForm)) := by
  induction positions with
  | nil => exact .nil
  | cons position positions ih =>
      have hbound : position < schema.fields.length := hpositions position (by simp)
      have hfield : schema.fields[position]? = some schema.fields[position] :=
        List.getElem?_eq_getElem hbound
      simp only [List.filterMap_cons, hfield, Option.map_some]
      exact .cons ⟨_, hfield, rfl⟩ (ih fun other hother => hpositions other (by simp [hother]))

theorem order_forms (hsource : source ∈ plan.sources) :
    List.Forall₂ (fun position form => ∃ field, source.schema.fields[position]? = some field ∧
      field.type = form.type) (plan.order source) (plan.forms source) := by
  have hcommon := Schema.positionsOf_fields (plan.consistent.common_mem source hsource)
  rw [order_eq_ownPositions hsource, forms]
  apply List.rel_append
  · rw [List.forall₂_map_right_iff]
    exact hcommon.flip.imp fun position key hfield => ⟨key.field, hfield, rfl⟩
  · apply forall₂_ownForms
    intro position hposition
    exact mem_order.mp (List.mem_of_mem_drop hposition)

theorem conformsTo_of_mem_zip (hsource : source ∈ plan.sources)
    (hvalues : List.Forall₂ (fun form value => value ≠ .null ∧ value.conformsTo form.type = true)
      (plan.forms source) values) {position : Nat} {value : Value} {field : Field}
    (hpair : (position, value) ∈ (plan.order source).zip values)
    (hfield : source.schema.fields[position]? = some field) :
    value.conformsTo field.type = true := by
  have hforms := order_forms hsource
  have hformsLength := hforms.length_eq
  have hvaluesLength := hvalues.length_eq
  obtain ⟨index, hindex, heq⟩ := List.mem_iff_getElem.mp hpair
  rw [List.length_zip] at hindex
  rw [List.getElem_zip, Prod.mk.injEq] at heq
  obtain ⟨rfl, rfl⟩ := heq
  have hposition : index < (plan.order source).length := by omega
  have hform : index < (plan.forms source).length := by omega
  have hvalue : index < values.length := by omega
  obtain ⟨other, hother, htype⟩ := hforms.get hposition hform
  obtain rfl := Option.some.inj (hother.symm.trans hfield)
  rw [htype]
  exact (hvalues.get hform hvalue).2

theorem exists_ofValues_arrange (hsource : source ∈ plan.sources)
    (hvalues : List.Forall₂ (fun form value => value ≠ .null ∧ value.conformsTo form.type = true)
      (plan.forms source) values) :
    ∃ record, Record.ofValues source.schema
      (arrange source.schema.size (plan.order source) values) = .ok record := by
  have hconforming : Conforming source.schema.fields
      (arrange source.schema.size (plan.order source) values) := by
    intro position field value hfield hvalue
    have hbound : position < source.schema.size := (List.getElem?_eq_some_iff.mp hfield).1
    rw [arrange, List.getElem?_map, List.getElem?_range hbound, Option.map_some,
      Option.some.injEq] at hvalue
    subst hvalue
    cases hlookup : ((plan.order source).zip values).lookup position with
    | none => exact Value.null_conformsTo field.type
    | some found =>
        obtain ⟨before, after, hpairs, -⟩ := List.lookup_eq_some_iff.mp hlookup
        exact conformsTo_of_mem_zip hsource hvalues (by simp [hpairs]) hfield
  have hsize : (arrange source.schema.size (plan.order source) values).length =
      source.schema.size := by simp [arrange]
  exact ⟨⟨source.schema, _, hsize, hconforming⟩, Record.ofValues_eq_ok_iff.mpr ⟨rfl, rfl⟩⟩

variable {bytes : Bytes} {stop : Nat}

theorem exists_id_of_readFields (hmany : plan.isMultiSource = true)
    (hread : readFields bytes (plan.keys.map SortKey.form) 0 = .ok (values, stop)) :
    ∃ position id, plan.sourceIndex? = some position ∧ values[position]? = some (.int id) := by
  obtain ⟨position, key, hposition, hkey, hname⟩ := exists_sourceIndex? hmany
  obtain ⟨source, hsource⟩ := List.exists_mem_of_ne_nil _ plan.consistent.sources_ne_nil
  have hfield := plan.consistent.common_mem source hsource key (List.mem_of_getElem? hkey)
  have htype : key.type = .varInt32 :=
    source.schema.wellNamed.source_type key.field hfield hname
  have hvalues := conforming_of_readFields hread
  rw [List.forall₂_map_left_iff] at hvalues
  obtain ⟨hbound, rfl⟩ := List.getElem?_eq_some_iff.mp hkey
  have hlength : position < values.length := hvalues.length_eq ▸ hbound
  obtain ⟨hnull, hconforms⟩ := hvalues.get hbound hlength
  rw [List.get_eq_getElem, List.get_eq_getElem, SortKey.form, htype] at hconforms
  rw [List.get_eq_getElem] at hnull
  refine ⟨position, ?_⟩
  rw [List.getElem?_eq_getElem hlength]
  cases hvalue : values[position] with
  | int id => exact ⟨id, hposition, rfl⟩
  | null => exact absurd hvalue hnull
  | _ =>
      rw [hvalue] at hconforms
      cases hconforms

theorem sourceOfValues_decodesOrFails
    (hread : readFields bytes (plan.keys.map SortKey.form) 0 = .ok (values, stop)) :
    DecodesOrFails (plan.sourceOfValues values) := by
  rw [sourceOfValues]
  cases hmany : plan.isMultiSource with
  | false =>
      obtain ⟨only, honly⟩ := List.exists_mem_of_ne_nil _ plan.consistent.sources_ne_nil
      rw [soleSource?_eq_some honly hmany]
      exact .ok only
  | true =>
      obtain ⟨position, id, hposition, hid⟩ := exists_id_of_readFields hmany hread
      simp only [soleSource?_eq_none hmany, hposition, hid]
      split
      · exact .ok _
      · exact .fault _

theorem deserialize_decodesOrFails (plan : Plan) (bytes : Bytes) :
    DecodesOrFails (plan.deserialize bytes) := by
  rw [deserialize]
  apply DecodesOrFails.bind (readFields_decodesOrFails _ _ _)
  rintro ⟨common, middle⟩ hcommon
  apply DecodesOrFails.bind (sourceOfValues_decodesOrFails hcommon)
  intro source hsource
  apply DecodesOrFails.bind (readFields_decodesOrFails _ _ _)
  rintro ⟨own, stop⟩ hown
  show DecodesOrFails (if stop ≠ bytes.length then _ else _)
  split
  · exact .fault _
  · have hread := (readFields_append_eq_ok_iff (length_of_readFields hcommon)).mpr
      ⟨middle, hcommon, hown⟩
    exact .inl (exists_ofValues_arrange (source_of_values hsource).1
      (conforming_of_readFields hread))

theorem null_not_mem_of_deserialize {record : Record}
    (hrecord : plan.deserialize bytes = .ok record) : Value.null ∉ record.values := by
  obtain ⟨source, hsource, hschema, hread⟩ := deserialize_eq_ok_iff.mp hrecord
  intro hnull
  obtain ⟨position, hposition, hat⟩ := Record.mem_values_iff.mp hnull
  have hinside : position ∈ plan.order source := mem_order.mpr (hschema ▸ hposition)
  have hvalues := conforming_of_readFields hread
  rw [List.forall₂_map_right_iff] at hvalues
  obtain ⟨index, hindex, rfl⟩ := List.mem_iff_getElem.mp hinside
  exact (hvalues.get (hvalues.length_eq ▸ hindex) hindex).1 hat

theorem compareBytes_decodesOrFails (hkeys : ∀ key ∈ plan.keys, key.FailsDecoding)
    (left right : Bytes) : DecodesOrFails (plan.compareBytes left right) := by
  rw [compareBytes]
  apply DecodesOrFails.bind (compareBytesAlong_decodesOrFails hkeys _)
  rintro ⟨outcome, progress⟩ -
  cases outcome with
  | lt | gt => exact .ok _
  | eq =>
      show DecodesOrFails (if plan.isMultiSource then _ else _)
      split
      · split
        · exact .fault _
        · next source hsource =>
            obtain ⟨id, -, hid⟩ := Option.bind_eq_some_iff.mp hsource
            have hmem := (source?_eq_some_iff.mp hid).1
            apply DecodesOrFails.bind
            · apply compareBytesAlong_decodesOrFails
              intro key hkey named hnamed
              rw [(plan.consistent.specific_mem source hmem key hkey).2.1] at hnamed
              cases hnamed
            · exact fun result _ => .ok _
      · exact .ok _

theorem recordBytes_decodesOrFails (buffer : Bytes) (start length : Nat) :
    DecodesOrFails (recordBytes buffer start length) := by
  rw [recordBytes]
  split
  · exact .ok _
  · exact .fault _

/-- What keeps every access of reading and comparing in range. Cursors go from inside of a buffer to
inside of it; the source is found where the common keys have it; and positions of fields are
positions of the schema. -/
structure AccessesInRange (plan : Plan) : Prop where
  fields : ∀ bytes forms start values stop, InRange bytes start →
    readFields bytes forms start = .ok (values, stop) → InRange bytes stop
  keys : ∀ left right keys progress outcome next, InRange left progress.left →
    InRange right progress.right →
      compareBytesAlong left right keys progress = .ok (outcome, next) →
        InRange left next.left ∧ InRange right next.right
  span : ∀ buffer position content used,
    Span.readAt buffer position = .ok (content, used) → InRange buffer (position + used)
  varint : ∀ bits buffer position number used,
    Varint.readAt bits buffer position = .ok (number, used) → InRange buffer (position + used)
  slice : ∀ buffer start length bytes,
    recordBytes buffer start length = .ok bytes → InRange buffer (start + length)
  source : plan.isMultiSource = true → ∀ bytes values stop,
    readFields bytes (plan.keys.map SortKey.form) 0 = .ok (values, stop) →
      ∃ position id, plan.sourceIndex? = some position ∧ values[position]? = some (.int id)
  common : ∀ source ∈ plan.sources, plan.keys.length ≤ (plan.order source).length
  order : ∀ source ∈ plan.sources, ∀ position ∈ plan.order source, position < source.schema.size

theorem accessesInRange (plan : Plan) : plan.AccessesInRange where
  fields _ _ _ _ _ hstart hread :=
    inRange_iff.mpr (le_length_of_readFields (inRange_iff.mp hstart) hread)
  keys _ _ _ _ _ _ hleft hright hnext := inRange_of_compareBytesAlong hleft hright hnext
  span _ _ _ _ hread := Span.isLocal.readAt.inRange hread
  varint bits _ _ _ _ hread := (Varint.isLocal bits).readAt.inRange hread
  slice buffer start length bytes hbytes := by
    rw [recordBytes] at hbytes
    split at hbytes
    · next hslice =>
        rw [Bytes.slice?] at hslice
        split at hslice
        · next hinside => exact inRange_iff.mpr hinside
        · cases hslice
    · cases hbytes
  source hmany _ _ _ hread := exists_id_of_readFields hmany hread
  common source hsource := by
    rw [length_forms hsource, forms, List.length_append, List.length_map]
    exact Nat.le_add_right _ _
  order _ _ _ hposition := mem_order.mp hposition

theorem compareRaw_decodesOrFails (hkeys : ∀ key ∈ plan.keys, key.FailsDecoding)
    (left : Bytes) (leftStart leftLength : Nat) (right : Bytes) (rightStart rightLength : Nat) :
    DecodesOrFails
      (plan.compareRaw left leftStart leftLength right rightStart rightLength) := by
  rw [compareRaw]
  apply DecodesOrFails.bind (recordBytes_decodesOrFails _ _ _)
  intro leftBytes _
  apply DecodesOrFails.bind (recordBytes_decodesOrFails _ _ _)
  intro rightBytes _
  exact compareBytes_decodesOrFails hkeys leftBytes rightBytes

/-- Under any plan, bytes of any kind are read as a record of the plan, with a value of the right type
in every field, or not decoded, and no access leaves its range. Bytes are compared in place or not
decoded, wherever in a buffer they are said to be, if this is true of the comparators. -/
theorem decoding_safe (plan : Plan) :
    (∀ bytes, (∃ record, plan.deserialize bytes = .ok record ∧
        (∃ source ∈ plan.sources, source.schema = record.schema) ∧
        Value.null ∉ record.values ∧ Conforming record.schema.fields record.values) ∨
      ∃ fault, plan.deserialize bytes = .error (.decoding fault)) ∧
    ((∀ key ∈ plan.keys, key.FailsDecoding) →
      ∀ left right, DecodesOrFails (plan.compareBytes left right)) ∧
    ((∀ key ∈ plan.keys, key.FailsDecoding) →
      ∀ left leftStart leftLength right rightStart rightLength,
        DecodesOrFails
          (plan.compareRaw left leftStart leftLength right rightStart rightLength)) ∧
    plan.AccessesInRange := by
  refine ⟨?_, compareBytes_decodesOrFails, compareRaw_decodesOrFails, plan.accessesInRange⟩
  intro bytes
  apply (plan.deserialize_decodesOrFails bytes).imp_left
  rintro ⟨record, hrecord⟩
  obtain ⟨source, hsource, hschema, -⟩ := deserialize_eq_ok_iff.mp hrecord
  exact ⟨record, hrecord, ⟨source, (source_of_values hsource).1, hschema⟩,
    null_not_mem_of_deserialize hrecord, record.conforming⟩

/-- A length of sixty-four set bits, and records that are said to begin far behind their buffers. -/
theorem decoding_safe_clicks :
    Sample.plan.deserialize [255, 255, 255, 255, 255, 255, 255, 255, 255, 1] =
      .error (.decoding (.unreadable (.spanOverruns (2 ^ 64 - 1) 10) 0 10)) ∧
    ∃ fault, Sample.plan.compareRaw [3] (2 ^ 64 - 1) 2 [3] (2 ^ 64 - 1) 2 =
      .error (.decoding fault) := by
  have hkeys : ∀ key ∈ Sample.plan.keys, key.FailsDecoding :=
    Sample.forall_comparator (fun comparator _ => ∀ left right error,
      comparator.compareBytes left right = .error error → error.isDecoding = true)
      (fun _ _ _ herror => by cases herror)
  obtain ⟨-, -, hcompare, -⟩ := decoding_safe Sample.plan
  constructor
  · rw [deserialize, Sample.keys_eq]
    rfl
  · apply (hcompare hkeys [3] (2 ^ 64 - 1) 2 [3] (2 ^ 64 - 1) 2).resolve_left
    rintro ⟨outcome, houtcome⟩
    cases houtcome

end Plan

end RecordRollup
