import UpgradeAudit.Table

/-!
# Tables through their lookups

What each operation does to `Table.get?`. A table is determined by its lookups, and an entry is
exactly a successful lookup.
-/

namespace UpgradeAudit

universe u

variable {α : Type u}

/-- The value of the first entry with a key. -/
def lookupEntry (entries : List (String × α)) (key : String) : Option α :=
  (entries.find? fun entry => entry.1 = key).map Prod.snd

@[simp]
theorem lookupEntry_nil (key : String) : lookupEntry ([] : List (String × α)) key = none := rfl

theorem lookupEntry_cons (entry : String × α) (entries : List (String × α)) (key : String) :
    lookupEntry (entry :: entries) key =
      if entry.1 = key then some entry.2 else lookupEntry entries key := by
  by_cases h : entry.1 = key <;> simp [lookupEntry, h]

theorem lookupEntry_insertEntry (entries : List (String × α)) (key other : String) (value : α) :
    lookupEntry (insertEntry key value entries) other =
      if other = key then some value else lookupEntry entries other := by
  induction entries with
  | nil =>
    by_cases h : other = key
    · simp [insertEntry, lookupEntry_cons, h]
    · simp [insertEntry, lookupEntry_cons, h, Ne.symm h]
  | cons entry rest ih =>
    rw [insertEntry]
    split
    · by_cases h : other = key
      · simp [lookupEntry_cons, h]
      · simp [lookupEntry_cons, h, Ne.symm h]
    · split
      · next hkey =>
        by_cases h : other = key
        · simp [lookupEntry_cons, h]
        · simp [lookupEntry_cons, ← hkey, h, Ne.symm h]
      · next hkey =>
        by_cases h : entry.1 = other
        · simp [lookupEntry_cons, ← h, Ne.symm hkey]
        · simp [lookupEntry_cons, h, ih]

/-- Keys below all keys of a list have no entry in it. -/
theorem lookupEntry_eq_none {entries : List (String × α)} {key : String}
    (h : ∀ entry ∈ entries, key < entry.1) : lookupEntry entries key = none := by
  induction entries with
  | nil => rfl
  | cons entry rest ih =>
    have hne : entry.1 ≠ key := fun heq =>
      String.lt_irrefl key (heq ▸ h entry List.mem_cons_self)
    simp [lookupEntry_cons, hne, ih fun e he => h e (List.mem_cons_of_mem _ he)]

theorem SortedByKey.lookupEntry_eq_some_iff {entries : List (String × α)}
    (h : SortedByKey entries) {key : String} {value : α} :
    lookupEntry entries key = some value ↔ (key, value) ∈ entries := by
  induction entries with
  | nil => simp
  | cons entry rest ih =>
    obtain ⟨hfirst, hrest⟩ := List.pairwise_cons.mp h
    by_cases hkey : entry.1 = key
    · have hnone : ∀ v, (key, v) ∉ rest := by
        intro v hv
        have hlt : entry.1 < key := hfirst (key, v) hv
        exact String.lt_irrefl key (hkey ▸ hlt)
      simp only [lookupEntry_cons, hkey, if_true, Option.some.injEq, List.mem_cons, hnone,
        or_false]
      constructor
      · rintro rfl
        rw [← hkey]
      · intro heq
        rw [← heq]
    · have hne : (key, value) ≠ entry := fun heq => hkey (heq ▸ rfl)
      simp [lookupEntry_cons, hkey, hne, ih hrest]

/-- Sorted lists of entries with the same lookups are equal. -/
theorem SortedByKey.eq_of_lookupEntry {s t : List (String × α)} (hs : SortedByKey s)
    (ht : SortedByKey t) (h : ∀ key, lookupEntry s key = lookupEntry t key) : s = t := by
  induction s generalizing t with
  | nil =>
    cases t with
    | nil => rfl
    | cons entry rest => simpa [lookupEntry_cons] using h entry.1
  | cons first rest ih =>
    cases t with
    | nil => simpa [lookupEntry_cons] using h first.1
    | cons second others =>
      obtain ⟨hfirst, hrest⟩ := List.pairwise_cons.mp hs
      obtain ⟨hsecond, hothers⟩ := List.pairwise_cons.mp ht
      have hkey : first.1 = second.1 := by
        apply String.le_antisymm
        · refine String.not_lt.mp fun hlt => ?_
          have hnone : lookupEntry (first :: rest) second.1 = none :=
            lookupEntry_eq_none fun entry he => by
              rcases List.mem_cons.mp he with rfl | he
              · exact hlt
              · exact String.lt_trans hlt (hfirst entry he)
          simpa [lookupEntry_cons, hnone] using h second.1
        · refine String.not_lt.mp fun hlt => ?_
          have hnone : lookupEntry (second :: others) first.1 = none :=
            lookupEntry_eq_none fun entry he => by
              rcases List.mem_cons.mp he with rfl | he
              · exact hlt
              · exact String.lt_trans hlt (hsecond entry he)
          simpa [lookupEntry_cons, hnone] using h first.1
      have hvalue : first.2 = second.2 := by
        simpa [lookupEntry_cons, hkey] using h first.1
      have hentry : first = second := Prod.ext hkey hvalue
      subst hentry
      congr 1
      refine ih hrest hothers fun key => ?_
      by_cases hk : first.1 = key
      · subst hk
        rw [lookupEntry_eq_none hfirst, lookupEntry_eq_none hsecond]
      · simpa [lookupEntry_cons, hk] using h key

namespace Table

theorem get?_eq_lookupEntry (t : Table α) (key : String) :
    t.get? key = lookupEntry t.entries key := rfl

@[simp]
theorem get?_empty (key : String) : (∅ : Table α).get? key = none := rfl

theorem get?_insert (t : Table α) (key other : String) (value : α) :
    (t.insert key value).get? other = if other = key then some value else t.get? other :=
  lookupEntry_insertEntry t.entries key other value

@[simp]
theorem get?_insert_self (t : Table α) (key : String) (value : α) :
    (t.insert key value).get? key = some value := by
  simp [get?_insert]

theorem get?_insert_of_ne (t : Table α) {key other : String} (value : α) (h : other ≠ key) :
    (t.insert key value).get? other = t.get? other := by
  simp [get?_insert, h]

theorem get?_modify (t : Table α) (key other : String) (change : α → α) :
    (t.modify key change).get? other =
      if other = key then (t.get? key).map change else t.get? other := by
  unfold modify
  cases hget : t.get? key with
  | none => by_cases h : other = key <;> simp [h, hget]
  | some value => simp [get?_insert]

theorem get?_foldl_insert (t : Table α) {entries : List (String × α)} (h : SortedByKey entries)
    (key : String) :
    (entries.foldl (fun t pair => t.insert pair.1 pair.2) t).get? key =
      (lookupEntry entries key).or (t.get? key) := by
  induction entries generalizing t with
  | nil => rfl
  | cons entry rest ih =>
    obtain ⟨hfirst, hrest⟩ := List.pairwise_cons.mp h
    rw [List.foldl_cons, ih _ hrest, get?_insert, lookupEntry_cons]
    by_cases hkey : entry.1 = key
    · subst hkey
      simp [lookupEntry_eq_none hfirst]
    · simp [hkey, Ne.symm hkey]

/-- In an extended table the values of the extension win. -/
theorem get?_extend (t other : Table α) (key : String) :
    (t.extend other).get? key = (other.get? key).or (t.get? key) :=
  get?_foldl_insert t other.sorted key

theorem mem_entries_iff (t : Table α) {key : String} {value : α} :
    (key, value) ∈ t.entries ↔ t.get? key = some value :=
  t.sorted.lookupEntry_eq_some_iff.symm

/-- A table is determined by its lookups. -/
theorem ext_get? {s t : Table α} (h : ∀ key, s.get? key = t.get? key) : s = t :=
  ext (s.sorted.eq_of_lookupEntry t.sorted h)

theorem mem_keys_iff (t : Table α) {key : String} : key ∈ t.keys ↔ (t.get? key).isSome := by
  rw [Option.isSome_iff_exists]
  simp [keys, mem_entries_iff]

theorem mem_keys_insert (t : Table α) {key other : String} {value : α} :
    other ∈ (t.insert key value).keys ↔ other = key ∨ other ∈ t.keys := by
  rw [mem_keys_iff, mem_keys_iff, get?_insert]
  by_cases h : other = key <;> simp [h]

theorem mem_keys_extend (t other : Table α) {key : String} :
    key ∈ (t.extend other).keys ↔ key ∈ other.keys ∨ key ∈ t.keys := by
  simp only [mem_keys_iff, get?_extend, Option.isSome_or, Bool.or_eq_true]

theorem keys_nodup (t : Table α) : t.keys.Nodup := by
  have h : t.entries.Pairwise fun a b => a.1 ≠ b.1 := by
    refine List.Pairwise.imp ?_ t.sorted
    intro a b hlt heq
    exact String.lt_irrefl b.1 (heq ▸ hlt)
  exact List.pairwise_map.mpr h

end Table

end UpgradeAudit
