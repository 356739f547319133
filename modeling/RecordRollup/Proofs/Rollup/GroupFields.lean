import Mathlib
import RecordRollup.Rollup.Grouper

namespace RecordRollup

namespace Grouper

variable {plan : Plan} {grouper : Grouper} {fields : List String} {rollupFrom : Option String}
  {base : Nat} {error : Error}

theorem mismatch?_eq_none_iff {criteria : String} {index : Nat} {keys : List SortKey}
    (hsize : fields.length ≤ keys.length) :
    mismatch? criteria index fields keys = none ↔ fields <+: keys.map fun key => key.name := by
  induction fields generalizing index keys with
  | nil => simp [mismatch?]
  | cons field fields ih =>
      cases keys with
      | nil => simp at hsize
      | cons key keys =>
          rw [mismatch?, List.map_cons, List.cons_prefix_cons]
          split
          · next hname => rw [ih (Nat.le_of_succ_le_succ hsize), and_iff_right hname]
          · next hname => simp [hname]

theorem baseOf?_eq_some_iff :
    baseOf? fields rollupFrom = some base ↔
      (rollupFrom = none → base = 0) ∧
        ∀ name ∈ rollupFrom, fields.idxOf? name = some base := by
  cases rollupFrom with
  | none => simp [baseOf?, eq_comm]
  | some name => simp [baseOf?, List.idxOf?, beq_eq_decide]

theorem exists_baseOf?_iff :
    (∃ base, baseOf? fields rollupFrom = some base) ↔ ∀ name ∈ rollupFrom, name ∈ fields := by
  cases rollupFrom with
  | none => simp [baseOf?]
  | some name => simp [baseOf?, ← Option.isSome_iff_exists]

theorem names_common (plan : Plan) : plan.common.names = plan.keys.map fun key => key.name := by
  rw [Criteria.names, Plan.common, List.map_map]
  rfl

theorem fields_first (grouper : Grouper) : grouper.fields <+: grouper.plan.common.names := by
  rw [names_common, fields, List.map_take]
  exact List.take_prefix _ _

theorem length_fields (grouper : Grouper) : grouper.fields.length = grouper.size := by
  rw [fields, List.length_map, List.length_take, Nat.min_eq_left grouper.size_le]

theorem fields_ne_nil (grouper : Grouper) : grouper.fields ≠ [] := by
  rw [← List.length_pos_iff, length_fields]
  exact Nat.zero_lt_of_lt grouper.base_lt

theorem eq_of_fields {left right : Grouper} (hplan : left.plan = right.plan)
    (hfields : left.fields = right.fields) (hbase : left.base = right.base) : left = right := by
  have hsize : left.size = right.size := by rw [← length_fields, hfields, length_fields]
  cases left
  cases right
  congr

theorem parts_of_ofFields (hmade : ofFields plan fields rollupFrom = .ok grouper) :
    grouper.plan = plan ∧ grouper.fields = fields ∧
      baseOf? fields rollupFrom = some grouper.base := by
  rw [ofFields] at hmade
  split at hmade
  · cases hmade
  · split at hmade
    · cases hmade
    · next hsize =>
        split at hmade
        · cases hmade
        · next hmatch =>
            split at hmade
            · next base hbase =>
                cases hmade
                have hfront := (mismatch?_eq_none_iff (Nat.le_of_not_lt hsize)).mp hmatch
                refine ⟨rfl, ?_, hbase⟩
                rw [Grouper.fields, List.map_take]
                exact (List.prefix_iff_eq_take.mp hfront).symm
            · cases hmade

theorem exists_ofFields (hfields : fields ≠ []) (hfront : fields <+: plan.common.names)
    (hbase : baseOf? fields rollupFrom = some base) :
    ∃ grouper, ofFields plan fields rollupFrom = .ok grouper := by
  rw [names_common] at hfront
  have hsize : fields.length ≤ plan.keys.length := by simpa using hfront.length_le
  rw [ofFields, dif_neg hfields, dif_neg (Nat.not_lt_of_le hsize)]
  split
  · next fault hfault =>
      rw [(mismatch?_eq_none_iff hsize).mpr hfront] at hfault
      cases hfault
  · split
    · exact ⟨_, rfl⟩
    · next hnone =>
        rw [hbase] at hnone
        cases hnone

theorem ofFields_eq_ok_iff :
    ofFields plan fields rollupFrom = .ok grouper ↔
      grouper.plan = plan ∧ grouper.fields = fields ∧
        baseOf? fields rollupFrom = some grouper.base := by
  constructor
  · exact parts_of_ofFields
  · rintro ⟨rfl, rfl, hbase⟩
    obtain ⟨other, hother⟩ := exists_ofFields grouper.fields_ne_nil grouper.fields_first hbase
    obtain ⟨hplan, hfields, hotherBase⟩ := parts_of_ofFields hother
    rw [hother, eq_of_fields hplan hfields (Option.some.inj (hotherBase.symm.trans hbase))]

theorem exists_ofFields_iff :
    (∃ grouper, ofFields plan fields rollupFrom = .ok grouper) ↔
      fields ≠ [] ∧ fields <+: plan.common.names ∧ ∀ name ∈ rollupFrom, name ∈ fields := by
  rw [← exists_baseOf?_iff]
  constructor
  · rintro ⟨grouper, hmade⟩
    obtain ⟨rfl, rfl, hbase⟩ := parts_of_ofFields hmade
    exact ⟨grouper.fields_ne_nil, grouper.fields_first, _, hbase⟩
  · rintro ⟨hfields, hfront, base, hbase⟩
    exact exists_ofFields hfields hfront hbase

theorem exists_groupBy_of_ofFields (herror : ofFields plan fields rollupFrom = .error error) :
    ∃ fault, error = .groupBy fault := by
  rw [ofFields] at herror
  split at herror
  · cases herror
    exact ⟨_, rfl⟩
  · split at herror
    · cases herror
      exact ⟨_, rfl⟩
    · split at herror
      · cases herror
        exact ⟨_, rfl⟩
      · split at herror
        · cases herror
        · cases herror
          exact ⟨_, rfl⟩

end Grouper

end RecordRollup
