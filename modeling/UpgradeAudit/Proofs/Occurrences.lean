import UpgradeAudit.Node.Search
import UpgradeAudit.Proofs.Traversal

/-!
# Where a value stands in a tree

A path leads from the root of a tree to a value by the positions of children, in arrays and objects
alike. Each path leads to one value, and one value may stand at several paths. In the order of
paths a value comes before what is inside it, and siblings come in their order, which for the fields
of an object that was read is the order of their keys. This is the order of a walk through the tree:
`Json.Value.occurrences` has every value of a tree with its path, strictly increasing.
-/

namespace UpgradeAudit

/-- Positions of children, from the root on. -/
abbrev Path := List Nat

/-- A path leads to a value around that of another, or parts from it towards an earlier child. -/
abbrev Path.Before (a b : Path) : Prop :=
  List.Lex (· < ·) a b

namespace Json.Value

/-- The value at the end of a path. -/
def valueAt? (value : Value) : Path → Option Value
  | [] => some value
  | i :: path => value.children[i]?.bind fun child => child.valueAt? path

def belowChild (i : Nat) (occurrence : Path × Value) : Path × Value :=
  (i :: occurrence.1, occurrence.2)

mutual

/-- The values in a tree, each with its path, each before its children. -/
def occurrences : Value → List (Path × Value)
  | .array items => ([], .array items) :: itemsOccurrences 0 items
  | .object fields => ([], .object fields) :: fieldsOccurrences 0 fields
  | value => [([], value)]

/-- The values in the items of an array, of which the first one is at a position. -/
def itemsOccurrences (i : Nat) : List Value → List (Path × Value)
  | [] => []
  | item :: rest => item.occurrences.map (belowChild i) ++ itemsOccurrences (i + 1) rest

/-- The values in the fields of an object, of which the first one is at a position. -/
def fieldsOccurrences (i : Nat) : List (String × Value) → List (Path × Value)
  | [] => []
  | (_, value) :: rest => value.occurrences.map (belowChild i) ++ fieldsOccurrences (i + 1) rest

end

theorem weight_le_itemsWeight {value : Value} {values : List Value} (h : value ∈ values) :
    value.weight ≤ itemsWeight values := by
  obtain ⟨before, after, rfl⟩ := List.append_of_mem h
  rw [itemsWeight_append, itemsWeight]
  omega

/-- What holds of a value whenever it holds of its children holds of every value. -/
theorem induction_children {motive : Value → Prop}
    (h : ∀ value, (∀ child ∈ value.children, motive child) → motive value) (value : Value) :
    motive value := by
  induction hweight : value.weight using Nat.strongRecOn generalizing value with
  | ind n ih =>
    apply h
    intro child hchild
    have hpart := weight_le_itemsWeight hchild
    have hwhole := itemsWeight_children_lt value
    exact ih child.weight (by omega) child rfl

end Json.Value

namespace Proofs

open Json (Tree Value)
open Json.Value (belowChild itemsOccurrences fieldsOccurrences itemsPreorder)

variable {value found : Value} {path : Path}

lemma fieldsOccurrences_eq (i : Nat) (fields : List (String × Value)) :
    fieldsOccurrences i fields = itemsOccurrences i (fields.map Prod.snd) := by
  induction fields generalizing i with
  | nil => rfl
  | cons field rest ih =>
    rw [fieldsOccurrences, List.map_cons, itemsOccurrences, ih]

lemma occurrences_eq (value : Value) :
    value.occurrences = ([], value) :: itemsOccurrences 0 value.children := by
  cases value <;>
    simp [Value.occurrences, Value.children, itemsOccurrences, fieldsOccurrences_eq]

lemma mem_itemsOccurrences_iff {i : Nat} {items : List Value} :
    (path, found) ∈ itemsOccurrences i items ↔
      ∃ j rest item, path = (i + j) :: rest ∧ items[j]? = some item ∧
        (rest, found) ∈ item.occurrences := by
  induction items generalizing i with
  | nil => simp [itemsOccurrences]
  | cons first others ih =>
    rw [itemsOccurrences, List.mem_append, List.mem_map, ih]
    constructor
    · rintro (⟨⟨rest, _⟩, hmem, heq⟩ | ⟨j, rest, item, rfl, hitem, hmem⟩)
      · obtain ⟨rfl, rfl⟩ := Prod.mk.inj heq
        exact ⟨0, rest, first, rfl, rfl, hmem⟩
      · exact ⟨j + 1, rest, item, by rw [Nat.add_assoc, Nat.add_comm 1], hitem, hmem⟩
    · rintro ⟨j, rest, item, rfl, hitem, hmem⟩
      cases j with
      | zero =>
        obtain rfl := Option.some.inj hitem
        exact .inl ⟨(rest, found), hmem, rfl⟩
      | succ j => exact .inr ⟨j, rest, item, by rw [Nat.add_assoc, Nat.add_comm 1], hitem, hmem⟩

/-- A walk through a tree comes by a value at a path exactly if the path leads to the value. -/
theorem mem_occurrences_iff :
    (path, found) ∈ value.occurrences ↔ value.valueAt? path = some found := by
  induction path generalizing value with
  | nil =>
    rw [occurrences_eq, List.mem_cons, mem_itemsOccurrences_iff]
    simp [Value.valueAt?, eq_comm]
  | cons i path ih =>
    rw [occurrences_eq, List.mem_cons, mem_itemsOccurrences_iff, Value.valueAt?,
      Option.bind_eq_some_iff]
    simp only [← ih]
    constructor
    · rintro (heq | ⟨j, rest, item, heq, hitem, hmem⟩)
      · cases heq
      · obtain ⟨hi, rfl⟩ := List.cons.inj heq
        rw [Nat.zero_add] at hi
        exact ⟨item, by rw [hi]; exact hitem, hmem⟩
    · rintro ⟨item, hitem, hmem⟩
      exact .inr ⟨i, path, item, by rw [Nat.zero_add], hitem, hmem⟩

lemma map_snd_itemsOccurrences {items : List Value}
    (h : ∀ item ∈ items, item.occurrences.map Prod.snd = item.preorder) (i : Nat) :
    (itemsOccurrences i items).map Prod.snd = itemsPreorder items := by
  induction items generalizing i with
  | nil => rfl
  | cons first others ih =>
    have hfirst : (first.occurrences.map (belowChild i)).map Prod.snd = first.preorder := by
      rw [List.map_map]
      exact h first List.mem_cons_self
    rw [itemsOccurrences, List.map_append, hfirst,
      ih (fun item hitem => h item (List.mem_cons_of_mem _ hitem)), itemsPreorder]

theorem map_snd_occurrences (value : Value) :
    value.occurrences.map Prod.snd = value.preorder := by
  induction value using Value.induction_children with
  | h value ih =>
    rw [occurrences_eq, List.map_cons, map_snd_itemsOccurrences ih, Value.preorder_eq]

lemma itemsOccurrences_pairwise {items : List Value}
    (h : ∀ item ∈ items, item.occurrences.Pairwise fun a b => Path.Before a.1 b.1) (i : Nat) :
    (itemsOccurrences i items).Pairwise fun a b => Path.Before a.1 b.1 := by
  induction items generalizing i with
  | nil => exact List.Pairwise.nil
  | cons first others ih =>
    rw [itemsOccurrences, List.pairwise_append, List.pairwise_map]
    refine ⟨?_, ih (fun item hitem => h item (List.mem_cons_of_mem _ hitem)) (i + 1), ?_⟩
    · refine (h first List.mem_cons_self).imp fun {a b} hlt => ?_
      exact .cons hlt
    · rintro a ha ⟨path, found⟩ hb
      obtain ⟨below, -, rfl⟩ := List.mem_map.mp ha
      obtain ⟨j, rest, -, rfl, -, -⟩ := mem_itemsOccurrences_iff.mp hb
      exact .rel (by omega)

/-- A walk through a tree comes by its values in the order of their paths. -/
theorem occurrences_pairwise (value : Value) :
    value.occurrences.Pairwise fun a b => Path.Before a.1 b.1 := by
  induction value using Value.induction_children with
  | h value ih =>
    rw [occurrences_eq, List.pairwise_cons]
    refine ⟨?_, itemsOccurrences_pairwise ih 0⟩
    rintro ⟨path, found⟩ hmem
    obtain ⟨j, rest, -, rfl, -, -⟩ := mem_itemsOccurrences_iff.mp hmem
    exact .nil

/-- Every object in a tree has its fields in the order of their keys. -/
def KeysSorted (value : Value) : Prop :=
  ∀ path fields, value.valueAt? path = some (.object fields) → SortedByKey fields

lemma keysSorted_iff : KeysSorted value ↔
    (∀ fields, value = .object fields → SortedByKey fields) ∧
      ∀ child ∈ value.children, KeysSorted child := by
  constructor
  · intro h
    refine ⟨fun fields heq => h [] fields (by rw [heq]; rfl), ?_⟩
    intro child hchild path fields hpath
    obtain ⟨i, hi⟩ := List.mem_iff_getElem?.mp hchild
    exact h (i :: path) fields (by rw [Value.valueAt?, hi]; exact hpath)
  · rintro ⟨hroot, hchildren⟩ path fields hpath
    cases path with
    | nil => exact hroot fields (Option.some.inj hpath)
    | cons i path =>
      obtain ⟨child, hchild, hpath⟩ := Option.bind_eq_some_iff.mp hpath
      exact hchildren child (List.mem_of_getElem? hchild) path fields hpath

lemma keysSorted_of_leaf (hobject : ∀ fields, value ≠ .object fields)
    (hchildren : value.children = []) : KeysSorted value :=
  keysSorted_iff.mpr ⟨fun fields heq => absurd heq (hobject fields), by simp [hchildren]⟩

mutual

/-- A value that was read has the fields of its objects in the order of their keys. -/
theorem keysSorted_of_toValue? {nesting : Nat} {tree : Tree} {value : Value}
    (h : tree.toValue? nesting = some value) : KeysSorted value := by
  cases tree with
  | null =>
    obtain rfl := Option.some.inj h
    exact keysSorted_of_leaf nofun rfl
  | bool b =>
    obtain rfl := Option.some.inj h
    exact keysSorted_of_leaf nofun rfl
  | number n =>
    rw [Tree.toValue?] at h
    split at h
    · obtain rfl := Option.some.inj h
      exact keysSorted_of_leaf nofun rfl
    · obtain ⟨-, h⟩ := Option.ite_none_left_eq_some.mp h
      obtain rfl := Option.some.inj h
      exact keysSorted_of_leaf nofun rfl
  | string pieces =>
    obtain ⟨text, -, rfl⟩ := Option.map_eq_some_iff.mp h
    exact keysSorted_of_leaf nofun rfl
  | array items =>
    cases nesting with
    | zero => cases h
    | succ nesting =>
      obtain ⟨values, hvalues, rfl⟩ := Option.map_eq_some_iff.mp h
      exact keysSorted_iff.mpr ⟨nofun, keysSorted_of_itemValues? hvalues⟩
  | object members =>
    cases nesting with
    | zero => cases h
    | succ nesting =>
      obtain ⟨fields, hfields, rfl⟩ := Option.map_eq_some_iff.mp h
      obtain ⟨hsorted, hvalues⟩ := keysSorted_of_memberValues? hfields List.Pairwise.nil (by simp)
      refine keysSorted_iff.mpr ⟨fun others heq => Value.object.inj heq ▸ hsorted, ?_⟩
      intro child hchild
      obtain ⟨field, hfield, rfl⟩ := List.mem_map.mp hchild
      exact hvalues field hfield

theorem keysSorted_of_itemValues? {nesting : Nat} {items : List Tree} {values : List Value}
    (h : Json.itemValues? nesting items = some values) : ∀ value ∈ values, KeysSorted value := by
  cases items with
  | nil =>
    obtain rfl := Option.some.inj h
    simp
  | cons item rest =>
    obtain ⟨first, hfirst, h⟩ := Option.bind_eq_some_iff.mp h
    obtain ⟨others, hothers, h⟩ := Option.bind_eq_some_iff.mp h
    obtain rfl := Option.some.inj h
    exact List.forall_mem_cons.mpr
      ⟨keysSorted_of_toValue? hfirst, keysSorted_of_itemValues? hothers⟩

theorem keysSorted_of_memberValues? {nesting : Nat} {read fields : List (String × Value)}
    {members : List (List Json.Piece × Tree)}
    (h : Json.memberValues? nesting read members = some fields) (hread : SortedByKey read)
    (hvalues : ∀ field ∈ read, KeysSorted field.2) :
    SortedByKey fields ∧ ∀ field ∈ fields, KeysSorted field.2 := by
  cases members with
  | nil =>
    obtain rfl := Option.some.inj h
    exact ⟨hread, hvalues⟩
  | cons member rest =>
    obtain ⟨name, item⟩ := member
    obtain ⟨key, -, h⟩ := Option.bind_eq_some_iff.mp h
    obtain ⟨value, hvalue, h⟩ := Option.bind_eq_some_iff.mp h
    refine keysSorted_of_memberValues? h (hread.insertEntry key value) fun field hfield => ?_
    rcases mem_insertEntry hfield with rfl | hfield
    · exact keysSorted_of_toValue? hvalue
    · exact hvalues field hfield

end

end Proofs

end UpgradeAudit
