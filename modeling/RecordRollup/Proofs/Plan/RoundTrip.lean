import Mathlib
import RecordRollup.Plan.Build
import RecordRollup.Proofs.Plan.FieldLists
import RecordRollup.Proofs.Plan.Layout

namespace RecordRollup

namespace Plan

variable {plan : Plan} {source : Source} {record : Record}

theorem writeField_eq_ok_iff {position : Nat} {form : FieldForm} {field : Bytes}
    (hposition : position < record.schema.size) :
    writeField record position form = .ok field ↔
      form.write (record.valueAt position) = .ok field := by
  rw [writeField, Record.get_eq_valueAt hposition]
  simp only [bind, Except.bind]
  cases form.write (record.valueAt position) <;> simp [pure, Except.pure]

theorem mapM_writeField_eq_ok_iff {positions : List Nat} {forms : List FieldForm} {bytes : Bytes}
    (hpositions : ∀ position ∈ positions, position < record.schema.size)
    (hlength : positions.length = forms.length) :
    (∃ fields, (positions.zip forms).mapM (fun (position, form) =>
        writeField record position form) = .ok fields ∧ fields.flatten = bytes) ↔
      Written forms (positions.map record.valueAt) bytes := by
  induction positions generalizing forms bytes with
  | nil =>
      obtain rfl : forms = [] := List.eq_nil_of_length_eq_zero hlength.symm
      constructor
      · rintro ⟨fields, hfields, rfl⟩
        cases hfields
        exact .nil
      · rintro ⟨⟩
        exact ⟨[], rfl, rfl⟩
  | cons position positions ih =>
      rcases forms with _ | ⟨form, forms⟩
      · simp at hlength
      · have hfirst := hpositions position (by simp)
        have hrest := @ih forms
        have hothers : ∀ other ∈ positions, other < record.schema.size :=
          fun other hother => hpositions other (by simp [hother])
        simp only [List.zip_cons_cons, List.mapM_cons, bind_eq_ok_iff,
          writeField_eq_ok_iff hfirst, List.map_cons]
        constructor
        · rintro ⟨fields, ⟨field, hfield, others, hmap, hfields⟩, rfl⟩
          cases hfields
          exact .cons hfield ((hrest hothers (by simpa using hlength)).mp ⟨others, hmap, rfl⟩)
        · rintro (_ | ⟨hfield, hwritten⟩)
          obtain ⟨others, hmap, rfl⟩ :=
            (hrest hothers (by simpa using hlength)).mpr hwritten
          exact ⟨_ :: others, ⟨_, hfield, others, hmap, rfl⟩, rfl⟩

theorem take_order (hsource : source ∈ plan.sources) :
    (plan.order source).take plan.keys.length = source.schema.positionsOf plan.keys := by
  have hfields := Schema.positionsOf_fields (plan.consistent.common_mem source hsource)
  rw [order_eq_append, List.take_left' hfields.length_eq.symm]

theorem ownPositions_eq (hsource : source ∈ plan.sources) :
    plan.ownPositions source =
      source.schema.positionsOf source.specificKeys ++ plan.otherPositions source := by
  have hfields := Schema.positionsOf_fields (plan.consistent.common_mem source hsource)
  rw [ownPositions, order_eq_append, List.drop_left' hfields.length_eq.symm]

theorem order_eq_ownPositions (hsource : source ∈ plan.sources) :
    plan.order source = source.schema.positionsOf plan.keys ++ plan.ownPositions source := by
  rw [← take_order hsource, ownPositions, List.take_append_drop]

theorem length_ownForms (plan : Plan) (source : Source) :
    (plan.ownForms source).length = (plan.ownPositions source).length := by
  rw [ownForms, List.filterMap_length_eq_length]
  intro position hposition
  have hbound : position < source.schema.fields.length :=
    mem_order.mp (List.mem_of_mem_drop hposition)
  simp [hbound]

theorem length_forms (hsource : source ∈ plan.sources) :
    (plan.order source).length = (plan.forms source).length := by
  have hfields := Schema.positionsOf_fields (plan.consistent.common_mem source hsource)
  simp [order_eq_ownPositions hsource, forms, length_ownForms, hfields.length_eq]

theorem serialize_eq_ok_iff {bytes : Bytes} :
    plan.serialize record = .ok bytes ↔ ∃ source, plan.sourceOf record = .ok source ∧
      Written (plan.forms source) ((plan.order source).map record.valueAt) bytes := by
  simp only [serialize, bind_eq_ok_iff, pure, Except.pure, Except.ok.injEq]
  refine exists_congr fun source => and_congr_right fun hsource => ?_
  obtain ⟨hmem, hschema, -⟩ := sourceOf_eq_ok_iff.mp hsource
  refine mapM_writeField_eq_ok_iff ?_ (length_forms hmem)
  intro position hposition
  exact hschema ▸ mem_order.mp hposition

theorem lookup_zip_map {positions : List Nat} {value : Nat → Value} {position : Nat}
    (hposition : position ∈ positions) :
    (positions.zip (positions.map value)).lookup position = some (value position) := by
  induction positions with
  | nil => simp at hposition
  | cons first positions ih =>
      rw [List.map_cons, List.zip_cons_cons, List.lookup_cons]
      cases hfirst : position == first with
      | true => simp [eq_of_beq hfirst]
      | false =>
          have hrest : position ∈ positions := by
            simpa [beq_eq_false_iff_ne.mp hfirst] using hposition
          exact ih hrest

theorem arrange_order (hschema : source.schema = record.schema) :
    arrange source.schema.size (plan.order source) ((plan.order source).map record.valueAt) =
      record.values := by
  apply List.ext_getElem?
  intro position
  rcases Nat.lt_or_ge position source.schema.size with hinside | houtside
  · have hmem : position ∈ plan.order source := mem_order.mpr hinside
    rw [Record.getElem?_values (hschema ▸ hinside), arrange, List.getElem?_map,
      List.getElem?_range hinside, Option.map_some, lookup_zip_map hmem, Option.getD_some]
  · have hsize : record.values.length = source.schema.size := hschema ▸ record.size_eq
    rw [List.getElem?_eq_none (by simpa [arrange]), List.getElem?_eq_none (by omega)]

theorem sourceId?_eq_some {value : Value} (hvalue : record.getNamed sourceFieldName = .ok value)
    (hnull : value ≠ .null) : ∃ id, value = .int id ∧ record.sourceId? = some id := by
  obtain ⟨position, hindex, hposition⟩ :
      ∃ position, record.schema.indexOf? sourceFieldName = some position ∧
        record.values[position]? = some value := by
    simp only [Record.getNamed, Record.getNamed?] at hvalue
    cases hindex : record.schema.indexOf? sourceFieldName with
    | none => simp [hindex] at hvalue
    | some position =>
        refine ⟨position, rfl, ?_⟩
        cases hfound : record.values[position]? <;> simp_all
  obtain ⟨field, hfield, hname⟩ := Schema.indexOf?_eq_some_iff.mp hindex
  have htype : field.type = .varInt32 :=
    record.schema.wellNamed.source_type field (List.mem_of_getElem? hfield) hname
  have hconforms := record.conforming position field value hfield hposition
  rw [htype] at hconforms
  cases value <;> cases hconforms
  case null => exact absurd rfl hnull
  case int id =>
    exact ⟨id, rfl, by simp [Record.sourceId?, Record.getNamed?, hindex, hposition]⟩

theorem written_forms_iff {bytes : Bytes} (hsource : plan.sourceOf record = .ok source) :
    Written (plan.forms source) ((plan.order source).map record.valueAt) bytes ↔
      ∃ common own,
        Written (plan.keys.map SortKey.form) (record.valuesFor plan.keys) common ∧
        Written (plan.ownForms source) ((plan.ownPositions source).map record.valueAt) own ∧
        common ++ own = bytes := by
  obtain ⟨hmem, hschema, -⟩ := sourceOf_eq_ok_iff.mp hsource
  have hfields := Schema.positionsOf_fields (plan.consistent.common_mem source hmem)
  rw [forms, order_eq_ownPositions hmem, List.map_append, hschema, Record.valuesFor]
  exact Written.append_iff (by simpa [hschema] using hfields.length_eq)

theorem getNamed_keys (hsource : plan.sourceOf record = .ok source) :
    List.Forall₂ (fun key value => record.getNamed key.name = .ok value) plan.keys
      (record.valuesFor plan.keys) := by
  obtain ⟨hmem, hschema, -⟩ := sourceOf_eq_ok_iff.mp hsource
  exact Record.getNamed_valuesFor (hschema ▸ plan.consistent.common_mem source hmem)

theorem sourceId?_eq_id {values : List Value} (hsource : plan.sourceOf record = .ok source)
    (hvalues : List.Forall₂ (fun key value => record.getNamed key.name = .ok value) plan.keys
      values)
    (hnull : ∀ value ∈ values, value ≠ .null) {position : Nat} {key : SortKey}
    (hkey : plan.keys[position]? = some key) (hname : key.name = sourceFieldName) :
    values[position]? = some (.int source.id) ∧ record.sourceId? = some source.id := by
  obtain ⟨hbound, rfl⟩ := List.getElem?_eq_some_iff.mp hkey
  have hlength := hvalues.length_eq
  have hvalue : record.getNamed plan.keys[position].name = .ok values[position] :=
    hvalues.get hbound (hlength ▸ hbound)
  rw [hname] at hvalue
  obtain ⟨id, hint, hcarried⟩ := sourceId?_eq_some hvalue (hnull _ (List.getElem_mem _))
  obtain rfl : id = source.id := (sourceOf_eq_ok_iff.mp hsource).2.2 id hcarried
  exact ⟨by rw [List.getElem?_eq_getElem (hlength ▸ hbound), hint], hcarried⟩

theorem exists_sourceIndex? (hmany : plan.isMultiSource = true) :
    ∃ position key, plan.sourceIndex? = some position ∧ plan.keys[position]? = some key ∧
      key.name = sourceFieldName := by
  obtain ⟨key, hkey, hname⟩ := exists_source_key hmany
  have hany : plan.keys.any (fun other => decide (other.name = sourceFieldName)) = true :=
    List.any_eq_true.mpr ⟨key, hkey, decide_eq_true hname⟩
  obtain ⟨position, hposition⟩ :=
    Option.isSome_iff_exists.mp (List.findIdx?_isSome.trans hany)
  obtain ⟨hbound, hfound, -⟩ := List.findIdx?_eq_some_iff_getElem.mp hposition
  exact ⟨position, _, hposition, List.getElem?_eq_getElem hbound, of_decide_eq_true hfound⟩

theorem sourceOfValues_eq_ok {values : List Value} (hsource : plan.sourceOf record = .ok source)
    (hvalues : List.Forall₂ (fun key value => record.getNamed key.name = .ok value) plan.keys
      values)
    (hnull : ∀ value ∈ values, value ≠ .null) :
    plan.sourceOfValues values = .ok source := by
  obtain ⟨hmem, -, -⟩ := sourceOf_eq_ok_iff.mp hsource
  rw [sourceOfValues]
  cases hmany : plan.isMultiSource with
  | false => rw [soleSource?_eq_some hmem hmany]
  | true =>
      obtain ⟨position, key, hposition, hkey, hname⟩ := exists_sourceIndex? hmany
      obtain ⟨hvalue, -⟩ := sourceId?_eq_id hsource hvalues hnull hkey hname
      have hfound : plan.source? source.id = some source := source?_eq_some_iff.mpr ⟨hmem, rfl⟩
      simp only [soleSource?_eq_none hmany, hposition, hvalue, hfound]

theorem ofValues_values (record : Record) :
    Record.ofValues record.schema record.values = .ok record := by
  rw [Record.ofValues, dif_pos record.size_eq]
  split
  · next fault hfault =>
      rw [Record.mismatch?_eq_none_iff.mpr record.conforming] at hfault
      cases hfault
  · rfl

theorem deserialize_of_written {bytes : Bytes} (hsource : plan.sourceOf record = .ok source)
    (written : Written (plan.forms source) ((plan.order source).map record.valueAt) bytes)
    (hsize : bytes.length < 2 ^ 64) : plan.deserialize bytes = .ok record := by
  obtain ⟨hmem, hschema, -⟩ := sourceOf_eq_ok_iff.mp hsource
  obtain ⟨common, own, hcommon, hown, rfl⟩ := (written_forms_iff hsource).mp written
  rw [List.length_append] at hsize
  have hreadCommon := hcommon.readFields (by omega) [] own
  have hreadOwn := hown.readFields (by omega) common []
  have hfound := sourceOfValues_eq_ok hsource (getNamed_keys hsource) hcommon.ne_null
  have hvalues : record.valuesFor plan.keys ++ (plan.ownPositions source).map record.valueAt =
      (plan.order source).map record.valueAt := by
    rw [Record.valuesFor, ← List.map_append, ← hschema, ← order_eq_ownPositions hmem]
  rw [List.nil_append, List.length_nil, Nat.zero_add] at hreadCommon
  rw [List.append_nil] at hreadOwn
  simp only [deserialize, hreadCommon, bind, Except.bind, hfound, hreadOwn]
  rw [if_neg (by simp), hvalues, arrange_order hschema, hschema, ofValues_values]

/-- Reading a serialized record gives the record again, with every value bit for bit; a plan of
several sources finds its source by the id that it carries. -/
theorem deserialize_serialize {bytes : Bytes} (hbytes : plan.serialize record = .ok bytes) :
    (bytes.length < 2 ^ 63 → plan.deserialize bytes = .ok record) ∧
      ∃ source ∈ plan.sources, plan.sourceOf record = .ok source ∧
        source.schema = record.schema ∧
        (plan.isMultiSource = true → record.sourceId?.bind plan.source? = some source) := by
  obtain ⟨source, hsource, written⟩ := serialize_eq_ok_iff.mp hbytes
  obtain ⟨hmem, hschema, -⟩ := sourceOf_eq_ok_iff.mp hsource
  refine ⟨fun hsize => deserialize_of_written hsource written (by omega), source, hmem, hsource,
    hschema, ?_⟩
  intro hmany
  obtain ⟨common, -, hcommon, -, -⟩ := (written_forms_iff hsource).mp written
  obtain ⟨position, key, -, hkey, hname⟩ := exists_sourceIndex? hmany
  obtain ⟨-, hcarried⟩ :=
    sourceId?_eq_id hsource (getNamed_keys hsource) hcommon.ne_null hkey hname
  rw [hcarried, Option.bind_some]
  exact source?_eq_some_iff.mpr ⟨hmem, rfl⟩

end Plan

namespace Sample

def clicks : Schema where
  name := "clicks"
  fields := [⟨"user", .string⟩, ⟨"url", .string⟩, ⟨sourceFieldName, .varInt32⟩,
    ⟨"time", .int64⟩]
  fields_ne_nil := by decide
  wellNamed := ⟨by decide, by decide, by decide⟩

def orders : Schema where
  name := "orders"
  fields := [⟨sourceFieldName, .varInt32⟩, ⟨"amount", .float64⟩, ⟨"user", .string⟩]
  fields_ne_nil := by decide
  wellNamed := ⟨by decide, by decide, by decide⟩

def byUser : SortElement :=
  ⟨"user", by decide, .ascending, some ⟨"ignoring_case", by decide, .caseInsensitive⟩⟩

def bySource : SortElement :=
  ⟨sourceFieldName, by decide, .descending, none⟩

def byTime : SortElement :=
  ⟨"time", by decide, .descending, none⟩

/-- Clicks and orders by user, where letters of either case are alike, and then by source; clicks
further by time, the latest first. -/
def draft : Plan.Draft where
  sources := [(7, orders), (-3, clicks)]
  common := some ⟨[byUser, bySource], by decide⟩
  specific := [(-3, ⟨[byTime], by decide⟩)]

def plan : Plan :=
  ⟨draft.keys, draft.planned, Plan.Draft.consistent_of_fault?_eq_none (by cbv)⟩

theorem keys_eq : plan.keys = [⟨byUser, .string⟩, ⟨bySource, .varInt32⟩] := by cbv

theorem forall_comparator (suits : Comparator → FieldType → Prop)
    (hsuits : suits .caseInsensitive .string) :
    ∀ key ∈ plan.keys, ∀ named ∈ key.comparator, suits named.comparator key.type := by
  rw [keys_eq]
  intro key hkey named hnamed
  rcases List.mem_pair.mp hkey with rfl | rfl
  · obtain rfl := Option.mem_some_iff.mp hnamed
    exact hsuits
  · cases hnamed

def click (user : String) (time : Int64) : Record where
  schema := clicks
  values := [.string user, .string "a/b", .int (-3), .long time]
  size_eq := rfl
  conforming := Record.mismatch?_eq_none_iff.mp rfl

end Sample

namespace Plan

theorem deserialize_serialize_click :
    Sample.plan.serialize (Sample.click "Ann" 5) =
        .ok [3, 65, 110, 110, 5, 0, 0, 0, 0, 0, 0, 0, 5, 3, 97, 47, 98] ∧
      Sample.plan.deserialize [3, 65, 110, 110, 5, 0, 0, 0, 0, 0, 0, 0, 5, 3, 97, 47, 98] =
        .ok (Sample.click "Ann" 5) := by
  have hbytes : Sample.plan.serialize (Sample.click "Ann" 5) =
      .ok [3, 65, 110, 110, 5, 0, 0, 0, 0, 0, 0, 0, 5, 3, 97, 47, 98] := by cbv
  exact ⟨hbytes, (deserialize_serialize hbytes).1 (by decide)⟩

end Plan

end RecordRollup
