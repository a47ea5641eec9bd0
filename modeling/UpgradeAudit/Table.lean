/-!
# Tables sorted by key

A `Table α` holds one value for each of finitely many text keys. Its entries are strictly increasing
in the order of code points, which is also the byte order of the keys in UTF-8, so a table has
exactly one representation: two tables with the same entries are equal.
-/

namespace UpgradeAudit

universe u v

/-- Puts a value under a key of a list sorted by key, in place of an earlier value of that key. -/
def insertEntry {α : Type u} (key : String) (value : α) :
    List (String × α) → List (String × α)
  | [] => [(key, value)]
  | entry :: rest =>
    if key < entry.1 then (key, value) :: entry :: rest
    else if key = entry.1 then (key, value) :: rest
    else entry :: insertEntry key value rest

/-- The entries are strictly increasing by key. -/
def SortedByKey {α : Type u} (entries : List (String × α)) : Prop :=
  entries.Pairwise fun a b => a.1 < b.1

theorem mem_insertEntry {α : Type u} {key : String} {value : α} {entries : List (String × α)}
    {entry : String × α} (h : entry ∈ insertEntry key value entries) :
    entry = (key, value) ∨ entry ∈ entries := by
  induction entries with
  | nil => simpa [insertEntry] using h
  | cons first rest ih =>
    rw [insertEntry] at h
    split at h
    · simpa using h
    · split at h
      · rcases List.mem_cons.mp h with h | h
        · exact .inl h
        · exact .inr (List.mem_cons_of_mem _ h)
      · rcases List.mem_cons.mp h with h | h
        · exact .inr (h ▸ List.mem_cons_self)
        · exact (ih h).imp_right (List.mem_cons_of_mem _)

theorem SortedByKey.insertEntry {α : Type u} {entries : List (String × α)}
    (h : SortedByKey entries) (key : String) (value : α) :
    SortedByKey (insertEntry key value entries) := by
  unfold SortedByKey at *
  induction entries with
  | nil => simp [UpgradeAudit.insertEntry]
  | cons first rest ih =>
    obtain ⟨hfirst, hrest⟩ := List.pairwise_cons.mp h
    rw [UpgradeAudit.insertEntry]
    split
    · next hlt =>
      refine List.pairwise_cons.mpr ⟨fun entry he => ?_, h⟩
      rcases List.mem_cons.mp he with rfl | he
      · exact hlt
      · exact String.lt_trans hlt (hfirst entry he)
    · next hge =>
      split
      · next heq =>
        exact List.pairwise_cons.mpr ⟨fun entry he => heq ▸ hfirst entry he, hrest⟩
      · next hne =>
        refine List.pairwise_cons.mpr ⟨fun entry he => ?_, ih hrest⟩
        rcases mem_insertEntry he with rfl | he
        · exact Std.lt_of_le_of_ne (String.not_lt.mp hge) (Ne.symm hne)
        · exact hfirst entry he

/-- A finite map from text keys, kept sorted. -/
structure Table (α : Type u) where
  entries : List (String × α)
  sorted : SortedByKey entries

namespace Table

variable {α : Type u} {β : Type v}

@[ext]
theorem ext {s t : Table α} (h : s.entries = t.entries) : s = t := by
  cases s; cases t; cases h; rfl

instance [DecidableEq α] : DecidableEq (Table α) := fun s t =>
  decidable_of_iff (s.entries = t.entries) ⟨ext, congrArg entries⟩

def empty : Table α := ⟨[], List.Pairwise.nil⟩

instance : EmptyCollection (Table α) := ⟨empty⟩

instance : Inhabited (Table α) := ⟨empty⟩

def get? (t : Table α) (key : String) : Option α :=
  (t.entries.find? fun entry => entry.1 = key).map Prod.snd

def contains (t : Table α) (key : String) : Bool :=
  (t.get? key).isSome

/-- Puts a value under a key; the last value put under a key is the one it keeps. -/
def insert (t : Table α) (key : String) (value : α) : Table α :=
  ⟨insertEntry key value t.entries, t.sorted.insertEntry key value⟩

/-- Collects pairs in order, so that the last pair of a key wins. -/
def ofList (pairs : List (String × α)) : Table α :=
  pairs.foldl (fun t pair => t.insert pair.1 pair.2) empty

/-- Adds every entry of `other`, whose values win over those of `t`. -/
def extend (t other : Table α) : Table α :=
  other.entries.foldl (fun t pair => t.insert pair.1 pair.2) t

/-- Replaces the value under a key; a key without a value stays without. -/
def modify (t : Table α) (key : String) (change : α → α) : Table α :=
  match t.get? key with
  | some value => t.insert key (change value)
  | none => t

/-- The keys, in increasing order. -/
def keys (t : Table α) : List String :=
  t.entries.map Prod.fst

/-- The values, in the order of their keys. -/
def values (t : Table α) : List α :=
  t.entries.map Prod.snd

def size (t : Table α) : Nat :=
  t.entries.length

def isEmpty (t : Table α) : Bool :=
  t.entries.isEmpty

end Table

end UpgradeAudit
