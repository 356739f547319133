namespace RecordRollup

theorem eq_of_mem_of_nodup_map {α β : Type} {part : α → β} {items : List α}
    (distinct : (items.map part).Nodup) {left right : α} (hleft : left ∈ items)
    (hright : right ∈ items) (heq : part left = part right) : left = right := by
  induction items with
  | nil => cases hleft
  | cons item items ih =>
      simp only [List.map_cons, List.nodup_cons, List.mem_map, not_exists, not_and] at distinct
      rw [List.mem_cons] at hleft hright
      rcases hleft with rfl | hleft <;> rcases hright with rfl | hright
      · rfl
      · exact absurd heq.symm (distinct.1 right hright)
      · exact absurd heq (distinct.1 left hleft)
      · exact ih distinct.2 hleft hright

/-- The first item with a given part is the only one. -/
theorem find?_part_eq_some_iff {α β : Type} [DecidableEq β] {part : α → β} {items : List α}
    (distinct : (items.map part).Nodup) {value : β} {item : α} :
    items.find? (fun other => decide (part other = value)) = some item ↔
      item ∈ items ∧ part item = value := by
  constructor
  · intro hfound
    exact ⟨List.mem_of_find?_eq_some hfound, by simpa using List.find?_some hfound⟩
  · rintro ⟨hitem, hpart⟩
    cases hfound : items.find? fun other => decide (part other = value) with
    | none => simpa [hpart] using List.find?_eq_none.mp hfound item hitem
    | some other =>
        have hother : part other = value := by simpa using List.find?_some hfound
        rw [eq_of_mem_of_nodup_map distinct (List.mem_of_find?_eq_some hfound) hitem
          (hother.trans hpart.symm)]

end RecordRollup
