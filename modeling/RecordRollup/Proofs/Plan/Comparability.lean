import Mathlib
import RecordRollup.Proofs.Plan.Preorder

namespace RecordRollup

variable {elements : List SortElement} {left right record : Record} {error : Error}

namespace Record

theorem exists_getNamed {field : Field} (hfield : field ∈ record.schema.fields) :
    ∃ value, record.getNamed field.name = .ok value := by
  obtain ⟨position, hposition⟩ := List.getElem?_of_mem hfield
  exact ⟨_, getNamed_eq_valueAt hposition⟩

theorem getNamed_error {name : String} (herror : record.getNamed name = .error error) :
    ∃ fault, error = .field fault := by
  rw [getNamed] at herror
  split at herror
  · cases herror
  · cases herror
    exact ⟨_, rfl⟩

end Record

theorem exists_compareAlong
    (hleft : ∀ element ∈ elements, ∃ value, left.getNamed element.name = .ok value)
    (hright : ∀ element ∈ elements, ∃ value, right.getNamed element.name = .ok value) :
    ∃ outcome, compareAlong elements left right = .ok outcome := by
  induction elements with
  | nil => exact ⟨.eq, rfl⟩
  | cons element elements ih =>
      rw [List.forall_mem_cons] at hleft hright
      obtain ⟨leftValue, hleftValue⟩ := hleft.1
      obtain ⟨rightValue, hrightValue⟩ := hright.1
      rw [compareAlong_cons hleftValue hrightValue]
      split
      · exact ih hleft.2 hright.2
      · exact ⟨_, rfl⟩

theorem compareAlong_error (herror : compareAlong elements left right = .error error) :
    ∃ fault, error = .field fault := by
  induction elements with
  | nil => cases herror
  | cons element elements ih =>
      rw [compareAlong, bind_eq_error_iff] at herror
      rcases herror with herror | ⟨leftValue, -, herror⟩
      · exact Record.getNamed_error herror
      rw [bind_eq_error_iff] at herror
      rcases herror with herror | ⟨rightValue, -, herror⟩
      · exact Record.getNamed_error herror
      split at herror
      · exact ih herror
      · cases herror

theorem sharedAlong_error (herror : sharedAlong elements left right = .error error) :
    ∃ fault, error = .field fault := by
  induction elements with
  | nil => cases herror
  | cons element elements ih =>
      rw [sharedAlong, bind_eq_error_iff] at herror
      rcases herror with herror | ⟨leftValue, -, herror⟩
      · exact Record.getNamed_error herror
      rw [bind_eq_error_iff] at herror
      rcases herror with herror | ⟨rightValue, -, herror⟩
      · exact Record.getNamed_error herror
      split at herror
      · rcases bind_eq_error_iff.mp herror with herror | ⟨shared, -, herror⟩
        · exact ih herror
        · cases herror
      · cases herror

namespace Plan

variable {plan : Plan} {leftSource rightSource source : Source} {count : Nat}

/-- A record has all common fields of a plan, set or not. -/
def HasKeys (plan : Plan) (record : Record) : Prop :=
  ∀ key ∈ plan.keys, ∃ value, record.getNamed key.name = .ok value

theorem hasKeys_of_sourceOf (hsource : plan.sourceOf record = .ok source) :
    plan.HasKeys record := by
  obtain ⟨hmem, hschema, -⟩ := sourceOf_eq_ok_iff.mp hsource
  intro key hkey
  have hfield := plan.consistent.common_mem source hmem key hkey
  rw [hschema] at hfield
  exact Record.exists_getNamed hfield

theorem exists_compareAlong_common (hleft : plan.HasKeys left) (hright : plan.HasKeys right) :
    ∃ outcome, compareAlong plan.common.elements left right = .ok outcome := by
  apply exists_compareAlong
  · intro element helement
    obtain ⟨key, hkey, rfl⟩ := List.mem_map.mp helement
    exact hleft key hkey
  · intro element helement
    obtain ⟨key, hkey, rfl⟩ := List.mem_map.mp helement
    exact hright key hkey

theorem exists_sharedKeys (hleft : plan.HasKeys left) (hright : plan.HasKeys right)
    (hcount : count ≤ plan.keys.length) :
    ∃ shared, plan.sharedKeys left right count = .ok shared := by
  obtain ⟨outcome, houtcome⟩ := exists_compareAlong_common hleft hright
  rw [sharedKeys, if_pos hcount]
  rcases compareAlong_take houtcome count with hsame | htie
  · exact exists_sharedAlong hsame
  · exact exists_sharedAlong htie

theorem sourceId?_eq_of_ne_null (hsource : plan.sourceOf record = .ok source)
    (hmany : plan.isMultiSource = true) (hset : record.getNamed sourceFieldName ≠ .ok .null) :
    record.sourceId? = some source.id := by
  obtain ⟨key, hkey, hname⟩ := exists_source_key hmany
  obtain ⟨value, hvalue⟩ := hasKeys_of_sourceOf hsource key hkey
  rw [hname] at hvalue
  have hnull : value ≠ .null := by
    rintro rfl
    exact hset hvalue
  obtain ⟨id, -, hid⟩ := sourceId?_eq_some hvalue hnull
  rw [hid, (sourceOf_eq_ok_iff.mp hsource).2.2 id hid]

theorem tieBreakers?_eq_some (hsource : plan.sourceOf record = .ok source)
    (hmany : plan.isMultiSource = true) (hset : record.getNamed sourceFieldName ≠ .ok .null) :
    plan.tieBreakers? record = some (source.specificKeys.map SortKey.toSortElement) := by
  have hfound : plan.source? source.id = some source :=
    source?_eq_some_iff.mpr ⟨(sourceOf_eq_ok_iff.mp hsource).1, rfl⟩
  rw [tieBreakers?, if_pos hmany, sourceId?_eq_of_ne_null hsource hmany hset, Option.bind_some,
    hfound, Option.map_some]

theorem exists_specific_value (hsource : plan.sourceOf record = .ok source) :
    ∀ element ∈ source.specificKeys.map SortKey.toSortElement,
      ∃ value, record.getNamed element.name = .ok value := by
  obtain ⟨hmem, hschema, -⟩ := sourceOf_eq_ok_iff.mp hsource
  intro element helement
  obtain ⟨key, hkey, rfl⟩ := List.mem_map.mp helement
  have hfield := (plan.consistent.specific_mem source hmem key hkey).1
  rw [hschema] at hfield
  exact Record.exists_getNamed hfield

theorem source_eq_of_tie (hleft : plan.sourceOf left = .ok leftSource)
    (hright : plan.sourceOf right = .ok rightSource) (hmany : plan.isMultiSource = true)
    (hleftSet : left.getNamed sourceFieldName ≠ .ok .null)
    (hrightSet : right.getNamed sourceFieldName ≠ .ok .null)
    (htie : compareAlong plan.common.elements left right = .ok .eq) :
    leftSource = rightSource := by
  obtain ⟨key, hkey, hname⟩ := exists_source_key hmany
  obtain ⟨leftValue, rightValue, hleftValue, hrightValue, hequal⟩ :=
    compareValues_of_compareAlong htie (List.mem_map_of_mem hkey)
  rw [hname] at hleftValue hrightValue
  simp only [SortElement.compareValues, comparator_of_source hkey hname] at hequal
  have hids := Record.sourceId?_eq_of_compare hleftValue hrightValue hequal
  rw [sourceId?_eq_of_ne_null hleft hmany hleftSet,
    sourceId?_eq_of_ne_null hright hmany hrightSet] at hids
  exact eq_of_mem_of_nodup_map plan.ids_nodup (sourceOf_eq_ok_iff.mp hleft).1
    (sourceOf_eq_ok_iff.mp hright).1 (Option.some.inj hids)

theorem exists_compare (hleft : plan.sourceOf left = .ok leftSource)
    (hright : plan.sourceOf right = .ok rightSource)
    (hset : plan.isMultiSource = false ∨ left.getNamed sourceFieldName ≠ .ok .null ∧
      right.getNamed sourceFieldName ≠ .ok .null) :
    ∃ outcome, plan.compare left right = .ok outcome := by
  obtain ⟨outcome, houtcome⟩ :=
    exists_compareAlong_common (hasKeys_of_sourceOf hleft) (hasKeys_of_sourceOf hright)
  rcases eq_or_ne outcome .eq with rfl | hdiffer
  · rcases hset with hsole | ⟨hleftSet, hrightSet⟩
    · refine ⟨.eq, compare_eq_ok_iff.mpr (.inr ⟨houtcome, [], ?_, rfl⟩)⟩
      simp [tieBreakers?, hsole]
    · cases hmany : plan.isMultiSource with
      | false =>
          refine ⟨.eq, compare_eq_ok_iff.mpr (.inr ⟨houtcome, [], ?_, rfl⟩)⟩
          simp [tieBreakers?, hmany]
      | true =>
          obtain rfl := source_eq_of_tie hleft hright hmany hleftSet hrightSet houtcome
          obtain ⟨specific, hspecific⟩ :=
            exists_compareAlong (exists_specific_value hleft) (exists_specific_value hright)
          exact ⟨specific, compare_eq_ok_iff.mpr (.inr ⟨houtcome, _,
            tieBreakers?_eq_some hleft hmany hleftSet, hspecific⟩)⟩
  · exact ⟨outcome, compare_eq_ok_iff.mpr (.inl ⟨houtcome, hdiffer⟩)⟩

theorem compare_error (herror : plan.compare left right = .error error) :
    ∃ fault, error = .field fault := by
  rw [compare, bind_eq_error_iff] at herror
  rcases herror with herror | ⟨outcome, -, herror⟩
  · exact compareAlong_error herror
  cases outcome with
  | lt | gt => cases herror
  | eq =>
      dsimp only at herror
      split at herror
      · split at herror
        · cases herror
          exact ⟨_, rfl⟩
        · exact compareAlong_error herror
      · cases herror

theorem sharedKeys_error (hcount : count ≤ plan.keys.length)
    (herror : plan.sharedKeys left right count = .error error) : ∃ fault, error = .field fault := by
  rw [sharedKeys, if_pos hcount] at herror
  exact sharedAlong_error herror

end Plan

end RecordRollup
