import Mathlib
import RecordRollup.Proofs.Plan.DecodedAgreement

/-!
Records that were read, written again. What is written is the shortest spelling of the record, and it
is the only one that is ever written. A plan of a single source reads records that name another
source, and does not write them.
-/

namespace RecordRollup

namespace Plan

variable {plan : Plan} {source : Source} {record written : Record} {bytes : Bytes}

theorem serialize_of_otherSource (hsource : source ∈ plan.sources)
    (hschema : source.schema = record.schema) {id : Int32} (hid : record.sourceId? = some id)
    (hother : id ≠ source.id) :
    plan.serialize record = .error (.field (.otherSource record.schema.name id source.id)) := by
  have hfound : plan.sources.find? (·.schema = record.schema) = some source :=
    (find?_part_eq_some_iff plan.schemas_nodup).mpr ⟨hsource, hschema⟩
  have hrefused : plan.sourceOf record =
      .error (.field (.otherSource record.schema.name id source.id)) := by
    simp only [sourceOf, hfound, hid]
    rw [if_neg hother]
  rw [serialize, hrefused]
  rfl

theorem exists_serialize_of_readFields
    (hsource : plan.sourceOfValues (record.valuesFor plan.keys) = .ok source)
    (hschema : source.schema = record.schema) (hids : ∀ id ∈ record.sourceId?, id = source.id)
    (hread : readFields bytes (plan.forms source) 0 =
      .ok ((plan.order source).map record.valueAt, bytes.length)) :
    ∃ canonical, plan.serialize record = .ok canonical ∧ canonical.length ≤ bytes.length ∧
      plan.deserialize canonical = .ok record := by
  have hmem := (source_of_values hsource).1
  obtain ⟨canonical, hwritten, hle, hagain⟩ := Written.exists_of_readFields hread
  have hcanonical := hagain [] []
  rw [List.nil_append, List.append_nil, List.length_nil, Nat.zero_add] at hcanonical
  refine ⟨canonical, ?_, by omega, ?_⟩
  · apply serialize_eq_ok_iff.mpr
    exact ⟨source, sourceOf_eq_ok_iff.mpr ⟨hmem, hschema, hids⟩, hwritten⟩
  · exact deserialize_eq_ok_iff.mpr ⟨source, hsource, hschema, hcanonical⟩

theorem eq_of_deserialize_serialize (hwritten : plan.serialize written = .ok bytes)
    (hrecord : plan.deserialize bytes = .ok record) : written = record := by
  obtain ⟨other, hother, hfields⟩ := serialize_eq_ok_iff.mp hwritten
  obtain ⟨common, own, hcommon, hown, rfl⟩ := (written_forms_iff hother).mp hfields
  obtain ⟨source, hsource, hschema, hread⟩ := deserialize_eq_ok_iff.mp hrecord
  have hmem := (source_of_values hsource).1
  obtain ⟨middle, hreadCommon, hreadOwn⟩ := (readFields_forms_iff hmem hschema).mp hread
  have hfront : readFields ([] ++ (common ++ own)) (plan.keys.map SortKey.form) ([] : Bytes).length =
      .ok (record.valuesFor plan.keys, middle) := hreadCommon
  obtain ⟨hkeys, rfl⟩ := hcommon.eq_of_readFields hfront
  rw [List.length_nil, Nat.zero_add] at hreadOwn
  have hfound := sourceOfValues_eq_ok hother (getNamed_keys hother) hcommon.ne_null
  rw [← hkeys, hsource] at hfound
  obtain rfl := Except.ok.inj hfound
  rw [← List.append_nil own] at hreadOwn
  obtain ⟨hothers, -⟩ := hown.eq_of_readFields hreadOwn
  have hwrittenSchema : source.schema = written.schema := (sourceOf_eq_ok_iff.mp hother).2.1
  have horder : (plan.order source).map record.valueAt =
      (plan.order source).map written.valueAt := by
    rw [map_valueAt_order hmem hschema, map_valueAt_order hmem hwrittenSchema, hkeys, hothers]
  have hvalues : written.values = record.values := by
    rw [← arrange_order hschema, ← arrange_order hwrittenSchema, horder]
  have hsame : Record.ofValues record.schema record.values = .ok written :=
    Record.ofValues_eq_ok_iff.mpr ⟨hwrittenSchema.symm.trans hschema, hvalues⟩
  exact Except.ok.inj (hsame.symm.trans (ofValues_values record))

/-- A record that was read is refused by the writer only if it names another source than the single
one that a plan has. Otherwise it is written in no more bytes than it was read from, and in the same
ones if they were written, and it is read again from what is written. In a plan of several sources its
schema is that of the source that it names. -/
theorem serialize_deserialize (hrecord : plan.deserialize bytes = .ok record) :
    (∀ error, plan.serialize record = .error error ↔
      ∃ source id, plan.soleSource? = some source ∧ record.sourceId? = some id ∧
        id ≠ source.id ∧ error = .field (.otherSource record.schema.name id source.id)) ∧
    ((∀ source id, plan.soleSource? = some source → record.sourceId? = some id →
        id = source.id) →
      ∃ canonical, plan.serialize record = .ok canonical ∧ canonical.length ≤ bytes.length ∧
        plan.deserialize canonical = .ok record ∧
        ∀ written, plan.serialize written = .ok bytes → canonical = bytes) ∧
    (plan.isMultiSource = true → ∃ source,
      record.sourceId?.bind plan.source? = some source ∧ source.schema = record.schema) := by
  obtain ⟨source, hsource, hschema, hread⟩ := deserialize_eq_ok_iff.mp hrecord
  have hmem := (source_of_values hsource).1
  have hnamed := sourceId?_of_sourceOfValues hsource hschema
  have hrefused : ∀ only id, plan.soleSource? = some only → record.sourceId? = some id →
      id ≠ only.id →
        plan.serialize record = .error (.field (.otherSource record.schema.name id only.id)) := by
    intro only id honly hid hother
    have hfew : plan.isMultiSource = false := by
      by_contra hmany
      rw [soleSource?_eq_none (by simpa using hmany)] at honly
      cases honly
    rw [soleSource?_eq_some hmem hfew] at honly
    obtain rfl := Option.some.inj honly
    exact serialize_of_otherSource hmem hschema hid hother
  have haccepted : (∀ only id, plan.soleSource? = some only → record.sourceId? = some id →
      id = only.id) → ∃ canonical, plan.serialize record = .ok canonical ∧
        canonical.length ≤ bytes.length ∧ plan.deserialize canonical = .ok record := by
    intro hone
    refine exists_serialize_of_readFields hsource hschema ?_ hread
    intro id hid
    cases hmany : plan.isMultiSource with
    | false => exact hone source id (soleSource?_eq_some hmem hmany) hid
    | true => exact Option.some.inj (hid.symm.trans (hnamed hmany))
  refine ⟨?_, ?_, ?_⟩
  · intro error
    constructor
    · intro herror
      by_contra hnone
      obtain ⟨canonical, hcanonical, -⟩ := haccepted fun only id honly hid => by
        by_contra hother
        rw [hrefused only id honly hid hother] at herror
        exact hnone ⟨only, id, honly, hid, hother, (Except.error.inj herror).symm⟩
      rw [hcanonical] at herror
      cases herror
    · rintro ⟨only, id, honly, hid, hother, rfl⟩
      exact hrefused only id honly hid hother
  · intro hone
    obtain ⟨canonical, hcanonical, hle, hagain⟩ := haccepted hone
    refine ⟨canonical, hcanonical, hle, hagain, ?_⟩
    intro written hwritten
    rw [← eq_of_deserialize_serialize hwritten hrecord, hwritten] at hcanonical
    exact (Except.ok.inj hcanonical).symm
  · intro hmany
    refine ⟨source, ?_, hschema⟩
    rw [hnamed hmany, Option.bind_some]
    exact source?_eq_some_iff.mpr ⟨hmem, rfl⟩

end Plan

namespace Sample

/-- Clicks alone, by time and source, under another id than the clicks themselves carry. -/
def clickDraft : Plan.Draft where
  sources := [(4, clicks)]
  common := some ⟨[byTime, bySource], by decide⟩
  specific := []

def clickPlan : Plan :=
  ⟨clickDraft.keys, clickDraft.planned, Plan.Draft.consistent_of_fault?_eq_none (by cbv)⟩

def soleClickSource : Source :=
  ⟨4, clicks, none⟩

end Sample

namespace Plan

theorem serialize_deserialize_click :
    Sample.clickPlan.deserialize [0, 0, 0, 0, 0, 0, 0, 5, 5, 3, 65, 110, 110, 3, 97, 47, 98] =
      .ok (Sample.click "Ann" 5) ∧
    Sample.clickPlan.serialize (Sample.click "Ann" 5) =
      .error (.field (.otherSource "clicks" (-3) 4)) ∧
    Sample.plan.deserialize
        [0x83, 0, 65, 110, 110, 0x85, 0, 0, 0, 0, 0, 0, 0, 0, 5, 0x83, 0, 97, 47, 98] =
      .ok (Sample.click "Ann" 5) ∧
    ∃ canonical, Sample.plan.serialize (Sample.click "Ann" 5) = .ok canonical ∧
      canonical.length ≤ 20 ∧ Sample.plan.deserialize canonical = .ok (Sample.click "Ann" 5) := by
  have halone : Sample.clickPlan.deserialize
      [0, 0, 0, 0, 0, 0, 0, 5, 5, 3, 65, 110, 110, 3, 97, 47, 98] =
        .ok (Sample.click "Ann" 5) := by
    have hforms : Sample.clickPlan.forms Sample.soleClickSource =
        [⟨.int64, false⟩, ⟨.varInt32, false⟩, ⟨.string, false⟩, ⟨.string, false⟩] := by cbv
    have horder : Sample.clickPlan.order Sample.soleClickSource = [3, 2, 0, 1] := by cbv
    refine deserialize_eq_ok_iff.mpr ⟨Sample.soleClickSource, by cbv, rfl, ?_⟩
    rw [hforms, horder]
    decide
  have hlonger : Sample.plan.deserialize
      [0x83, 0, 65, 110, 110, 0x85, 0, 0, 0, 0, 0, 0, 0, 0, 5, 0x83, 0, 97, 47, 98] =
        .ok (Sample.click "Ann" 5) := Sample.deserialize_click (by decide)
  have hmany : Sample.plan.isMultiSource = true := by cbv
  obtain ⟨hrefused, -, -⟩ := serialize_deserialize halone
  obtain ⟨-, hwritten, -⟩ := serialize_deserialize hlonger
  obtain ⟨canonical, hcanonical, hle, hagain, -⟩ := hwritten fun source id hsole => by
    rw [soleSource?_eq_none hmany] at hsole
    cases hsole
  refine ⟨halone, ?_, hlonger, canonical, hcanonical, hle, hagain⟩
  apply (hrefused _).mpr
  exact ⟨Sample.soleClickSource, -3, by cbv, by cbv, by decide, rfl⟩

end Plan

end RecordRollup
