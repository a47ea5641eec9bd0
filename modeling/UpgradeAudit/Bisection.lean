/-!
# Searching by halving

A table is divided where a test holds for all items up to some position and for none behind it. That
position is found by looking at the middle item and going on with one half. Main statement: it is
the number of items for which the test holds (`bisect_eq_countP`).
-/

namespace UpgradeAudit

universe u

variable {α : Type u}

/-- The position from `low` up to `high` where a test stops holding. -/
def bisectBetween (holds : α → Bool) (items : Array α) (low high : Nat) : Nat :=
  if low < high then
    let middle := low + (high - low) / 2
    if items[middle]?.any holds then bisectBetween holds items (middle + 1) high
    else bisectBetween holds items low middle
  else low
termination_by high - low

/-- The position where a test stops holding. -/
def bisect (holds : α → Bool) (items : Array α) : Nat :=
  bisectBetween holds items 0 items.size

theorem bisectBetween_eq {holds : α → Bool} {items : Array α} {boundary low high : Nat}
    (h : ∀ i item, items[i]? = some item → (holds item ↔ i < boundary)) (hlow : low ≤ boundary)
    (hhigh : boundary ≤ high) (hsize : high ≤ items.size) :
    bisectBetween holds items low high = boundary := by
  -- the boundary stays between the two positions while they approach each other
  fun_induction bisectBetween holds items low high with
  | case1 low high hlt middle hmiddle ih =>
    have hbetween : low ≤ middle ∧ middle < high := by omega
    have hitem := Array.getElem?_eq_getElem (Nat.lt_of_lt_of_le hbetween.2 hsize)
    rw [hitem, Option.any_some, h middle _ hitem] at hmiddle
    exact ih (by omega) hhigh hsize
  | case2 low high hlt middle hmiddle ih =>
    have hbetween : low ≤ middle ∧ middle < high := by omega
    have hitem := Array.getElem?_eq_getElem (Nat.lt_of_lt_of_le hbetween.2 hsize)
    rw [hitem, Option.any_some, h middle _ hitem] at hmiddle
    exact ih hlow (by omega) (by omega)
  | case3 low high hge => omega

/-- Where a test that fails for an item fails for all later ones, it holds for as many items as
stand at the start. -/
theorem holds_iff_lt_countP {holds : α → Bool} {items : List α}
    (h : items.Pairwise fun a b => holds b → holds a) {i : Nat} {item : α}
    (hitem : items[i]? = some item) : holds item ↔ i < items.countP holds := by
  induction items generalizing i with
  | nil => simp at hitem
  | cons first rest ih =>
    obtain ⟨hfirst, hrest⟩ := List.pairwise_cons.mp h
    by_cases hholds : holds first
    · rw [List.countP_cons_of_pos hholds]
      cases i with
      | zero =>
        obtain rfl : first = item := by simpa using hitem
        simp [hholds]
      | succ i =>
        rw [ih hrest (by simpa using hitem)]
        omega
    · have hnone : ∀ other ∈ first :: rest, ¬holds other := by
        intro other hother
        rcases List.mem_cons.mp hother with rfl | hother
        · exact hholds
        · exact fun hlater => hholds (hfirst other hother hlater)
      rw [List.countP_eq_zero.mpr hnone]
      simp [hnone item (List.mem_of_getElem? hitem)]

theorem bisect_eq_countP {holds : α → Bool} {items : Array α}
    (h : items.toList.Pairwise fun a b => holds b → holds a) :
    bisect holds items = items.toList.countP holds := by
  apply bisectBetween_eq
  · intro i item hitem
    exact holds_iff_lt_countP h (by simpa using hitem)
  · omega
  · exact List.countP_le_length
  · exact Nat.le_refl _

end UpgradeAudit
