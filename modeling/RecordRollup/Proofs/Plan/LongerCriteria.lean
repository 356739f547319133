import Mathlib
import RecordRollup.Proofs.Plan.Atomicity
import RecordRollup.Proofs.Plan.BuiltPlan
import RecordRollup.Proofs.Plan.Comparability
import RecordRollup.Proofs.Plan.PathAgreement

namespace RecordRollup

/-- A record of a schema with a value in every field. If it names a source, it is the one that a plan of
this schema alone gives it. -/
structure Record.FitsAlone (schema : Schema) (record : Record) : Prop where
  schema_eq : record.schema = schema
  ne_null : .null ∉ record.values
  source_eq : ∀ value, record.getNamed? sourceFieldName = some value → value = .int 0

namespace Plan

variable {plan coarse fine : Plan} {schema : Schema} {criteria longer : Criteria}
  {record left right : Record} {refined : Ordering}

theorem compare_of_sole (hsole : plan.isMultiSource = false) :
    plan.compare left right = compareAlong plan.common.elements left right := by
  rw [compare]
  cases compareAlong plan.common.elements left right with
  | error error => rfl
  | ok outcome =>
      cases outcome with
      | lt | gt => rfl
      | eq => exact if_neg (ne_true_of_eq_false hsole)

namespace Draft

theorem ordered_single (schema : Schema) (criteria : Criteria) :
    (single schema criteria).ordered = [(0, schema)] :=
  List.mergeSort_singleton _

theorem build_single (hbuild : (single schema criteria).build = .ok plan) :
    plan.common.elements = criteria.elements ∧ plan.keys = schema.sortKeys criteria.elements ∧
      plan.sources = [⟨0, schema, none⟩] := by
  obtain ⟨common, hcommon, -, helements, hsources⟩ := exists_acceptable_of_build hbuild
  obtain rfl : criteria = common := Option.some.inj hcommon
  refine ⟨helements, ?_, ?_⟩
  · rw [(build_eq_ok_iff.mp hbuild).2.1]
    exact keys_eq rfl (ordered_single schema criteria)
  · rw [hsources, planned, ordered_single]
    rfl

theorem isMultiSource_single (hbuild : (single schema criteria).build = .ok plan) :
    plan.isMultiSource = false := by
  rw [isMultiSource, (build_single hbuild).2.2]
  rfl

theorem accepts_single (hbuild : (single schema criteria).build = .ok plan)
    (hfits : record.FitsAlone schema) : plan.Accepts record := by
  refine ⟨⟨⟨0, schema, none⟩, ?_, hfits.schema_eq.symm, hfits.source_eq⟩, hfits.ne_null⟩
  rw [(build_single hbuild).2.2]
  exact List.mem_singleton_self _

theorem hasKeys_single (hbuild : (single schema criteria).build = .ok plan)
    (hfits : record.FitsAlone schema) : plan.HasKeys record := by
  obtain ⟨bytes, hbytes⟩ := (accepts_single hbuild hfits).exists_serialize
  obtain ⟨source, hsource, -⟩ := serialize_eq_ok_iff.mp hbytes
  exact hasKeys_of_sourceOf hsource

theorem compare_of_longer (hcoarse : (single schema criteria).build = .ok coarse)
    (hfine : (single schema longer).build = .ok fine)
    (hlonger : criteria.elements <+: longer.elements)
    (hrefined : fine.compare left right = .ok refined) :
    coarse.compare left right = .ok refined ∨ coarse.compare left right = .ok .eq := by
  rw [compare_of_sole (isMultiSource_single hfine), (build_single hfine).1] at hrefined
  rw [compare_of_sole (isMultiSource_single hcoarse), (build_single hcoarse).1,
    List.prefix_iff_eq_take.mp hlonger]
  exact compareAlong_take hrefined criteria.elements.length

theorem keys_subset_of_longer (hcoarse : (single schema criteria).build = .ok coarse)
    (hfine : (single schema longer).build = .ok fine)
    (hlonger : criteria.elements <+: longer.elements) : coarse.keys ⊆ fine.keys := by
  intro key hkey
  rw [(build_single hcoarse).2.1, Schema.mem_sortKeys] at hkey
  rw [(build_single hfine).2.1, Schema.mem_sortKeys]
  exact ⟨hlonger.subset hkey.1, hkey.2⟩

theorem exists_compareBytes_single (hbuild : (single schema criteria).build = .ok plan)
    (hleft : left.FitsAlone schema) (hright : right.FitsAlone schema) {outcome : Ordering}
    (houtcome : plan.compare left right = .ok outcome) :
    ∃ leftBytes rightBytes, plan.serialize left = .ok leftBytes ∧
      plan.serialize right = .ok rightBytes ∧
      ((∀ key ∈ plan.keys, ∀ named ∈ key.comparator,
          named.comparator.AgreesOn Wire.IsPayload key.type) →
        leftBytes.length < 2 ^ 63 → rightBytes.length < 2 ^ 63 →
          plan.compareBytes leftBytes rightBytes = .ok outcome) := by
  obtain ⟨leftBytes, hleftBytes⟩ := (accepts_single hbuild hleft).exists_serialize
  obtain ⟨rightBytes, hrightBytes⟩ := (accepts_single hbuild hright).exists_serialize
  refine ⟨leftBytes, rightBytes, hleftBytes, hrightBytes, ?_⟩
  intro hagrees hleftSize hrightSize
  obtain ⟨same, hrecords, hbytes⟩ :=
    exists_compareBytes_serialize hagrees hleftBytes hrightBytes hleftSize hrightSize
  rwa [houtcome.symm.trans hrecords]

/-- Records that differ under criteria differ in the same way under longer ones, and records that tie
under the longer ones tie under the shorter ones. The same holds of their bytes, though each plan writes
the records in a layout of its own. -/
theorem compare_refines (hcoarse : (single schema criteria).build = .ok coarse)
    (hfine : (single schema longer).build = .ok fine)
    (hlonger : criteria.elements <+: longer.elements)
    (hleft : left.FitsAlone schema) (hright : right.FitsAlone schema) :
    coarse.keys ⊆ fine.keys ∧
    ∃ outcome refined, coarse.compare left right = .ok outcome ∧
      fine.compare left right = .ok refined ∧ (outcome ≠ .eq → refined = outcome) ∧
      (refined = .eq → outcome = .eq) ∧
      (∃ leftBytes rightBytes, coarse.serialize left = .ok leftBytes ∧
        coarse.serialize right = .ok rightBytes ∧
        ((∀ key ∈ coarse.keys, ∀ named ∈ key.comparator,
            named.comparator.AgreesOn Wire.IsPayload key.type) →
          leftBytes.length < 2 ^ 63 → rightBytes.length < 2 ^ 63 →
            coarse.compareBytes leftBytes rightBytes = .ok outcome)) ∧
      ∃ leftBytes rightBytes, fine.serialize left = .ok leftBytes ∧
        fine.serialize right = .ok rightBytes ∧
        ((∀ key ∈ fine.keys, ∀ named ∈ key.comparator,
            named.comparator.AgreesOn Wire.IsPayload key.type) →
          leftBytes.length < 2 ^ 63 → rightBytes.length < 2 ^ 63 →
            fine.compareBytes leftBytes rightBytes = .ok refined) := by
  refine ⟨keys_subset_of_longer hcoarse hfine hlonger, ?_⟩
  obtain ⟨refined, hrefined⟩ :=
    exists_compareAlong_common (hasKeys_single hfine hleft) (hasKeys_single hfine hright)
  rw [← compare_of_sole (isMultiSource_single hfine)] at hrefined
  have hfineBytes := exists_compareBytes_single hfine hleft hright hrefined
  rcases compare_of_longer hcoarse hfine hlonger hrefined with hsame | htie
  · exact ⟨refined, refined, hsame, hrefined, fun _ => rfl, id,
      exists_compareBytes_single hcoarse hleft hright hsame, hfineBytes⟩
  · exact ⟨.eq, refined, htie, hrefined, fun hdiffer => absurd rfl hdiffer, fun _ => rfl,
      exists_compareBytes_single hcoarse hleft hright htie, hfineBytes⟩

end Draft

end Plan

namespace Sample

def tallies : Schema where
  name := "tallies"
  fields := [⟨"word", .string⟩, ⟨"page", .string⟩, ⟨"count", .int32⟩]
  fields_ne_nil := by decide
  wellNamed := ⟨by decide, by decide, by decide⟩

def byCount : SortElement :=
  ⟨"count", by decide, .ascending, none⟩

def byPage : SortElement :=
  ⟨"page", by decide, .descending, some ⟨"shorter_first", by decide, .shortlex⟩⟩

/-- Tallies by count alone, and so with the words before the pages. -/
def countDraft : Plan.Draft :=
  .single tallies ⟨[byCount], by decide⟩

def countPlan : Plan :=
  ⟨countDraft.keys, countDraft.planned, Plan.Draft.consistent_of_fault?_eq_none (by cbv)⟩

/-- Tallies by count and then by page, and so with the pages before the words. -/
def pageDraft : Plan.Draft :=
  .single tallies ⟨[byCount, byPage], by decide⟩

def pagePlan : Plan :=
  ⟨pageDraft.keys, pageDraft.planned, Plan.Draft.consistent_of_fault?_eq_none (by cbv)⟩

def tally (page : String) (count : Int32) : Record where
  schema := tallies
  values := [.string "the", .string page, .int count]
  size_eq := rfl
  conforming := Record.mismatch?_eq_none_iff.mp rfl

theorem fitsAlone_tally (page : String) (count : Int32) :
    (tally page count).FitsAlone tallies where
  schema_eq := rfl
  ne_null := by simp [tally]
  source_eq := by rintro value ⟨⟩

theorem pagePlan_keys : pagePlan.keys = [⟨byCount, .int32⟩, ⟨byPage, .string⟩] := by cbv

theorem forall_pageComparator (suits : Comparator → FieldType → Prop)
    (hsuits : suits .shortlex .string) :
    ∀ key ∈ pagePlan.keys, ∀ named ∈ key.comparator, suits named.comparator key.type := by
  rw [pagePlan_keys]
  intro key hkey named hnamed
  rcases List.mem_pair.mp hkey with rfl | rfl
  · cases hnamed
  · obtain rfl := Option.mem_some_iff.mp hnamed
    exact hsuits

theorem pagePlan_agrees : ∀ key ∈ pagePlan.keys, ∀ named ∈ key.comparator,
    named.comparator.AgreesOn Wire.IsPayload key.type :=
  forall_pageComparator (fun comparator type => comparator.AgreesOn Wire.IsPayload type)
    (Comparator.ofContent_agreesOn _ rfl)

end Sample

namespace Plan.Draft

theorem compare_refines_tallies :
    Sample.countPlan.compare (Sample.tally "a" 5) (Sample.tally "b" 5) = .ok .eq ∧
      Sample.pagePlan.compare (Sample.tally "a" 5) (Sample.tally "b" 5) = .ok .gt ∧
      Sample.countPlan.compare (Sample.tally "a" 5) (Sample.tally "b" 6) = .ok .lt ∧
      Sample.pagePlan.compare (Sample.tally "a" 5) (Sample.tally "b" 6) = .ok .lt ∧
      Sample.pagePlan.compareBytes [0, 0, 0, 5, 1, 97, 3, 116, 104, 101]
        [0, 0, 0, 6, 1, 98, 3, 116, 104, 101] = .ok .lt := by
  have hcoarse : Sample.countDraft.build = .ok Sample.countPlan :=
    build_eq_ok_iff.mpr ⟨by cbv, rfl, rfl⟩
  have hfine : Sample.pageDraft.build = .ok Sample.pagePlan :=
    build_eq_ok_iff.mpr ⟨by cbv, rfl, rfl⟩
  have hcount : Sample.countPlan.compare (Sample.tally "a" 5) (Sample.tally "b" 6) = .ok .lt := by
    cbv
  have hleft : Sample.pagePlan.serialize (Sample.tally "a" 5) =
      .ok [0, 0, 0, 5, 1, 97, 3, 116, 104, 101] := by cbv
  have hright : Sample.pagePlan.serialize (Sample.tally "b" 6) =
      .ok [0, 0, 0, 6, 1, 98, 3, 116, 104, 101] := by cbv
  obtain ⟨-, outcome, refined, houtcome, hrefined, hkeeps, -, -, leftBytes, rightBytes, hleftBytes,
    hrightBytes, hbytes⟩ := compare_refines hcoarse hfine (List.prefix_append [_] [_])
      (Sample.fitsAlone_tally "a" 5) (Sample.fitsAlone_tally "b" 6)
  obtain rfl := Except.ok.inj (hcount.symm.trans houtcome)
  obtain rfl := hkeeps (by decide)
  obtain rfl := Except.ok.inj (hleft.symm.trans hleftBytes)
  obtain rfl := Except.ok.inj (hright.symm.trans hrightBytes)
  exact ⟨by cbv, by cbv, hcount, hrefined,
    hbytes Sample.pagePlan_agrees (by decide) (by decide)⟩

end Plan.Draft

end RecordRollup
