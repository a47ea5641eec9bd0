import Mathlib.Logic.Function.Iterate
import UpgradeAudit.Proofs.Occurrences

/-!
# Nodes in the order of the source

A search keeps the values still to be visited on a stack, and sorts the nodes that it has found by
where they start. Each turn visits one value, so the search ends after as many turns as the tree has
values. What it gives is told here without the stack: all occurrences of nodes of a kind, each once,
by their places, and in the order of their paths where places are equal.
-/

namespace UpgradeAudit.Proofs

open Json (Tree Value)
open Json.Value (itemsWeight itemsPreorder)
open Node (findAll isNode place start? walk)

section StableSort

variable {α : Type} {key : α → Nat} {input output : List α}

/-- A list is sorted by a key and has the items of each key in the order of another list. -/
structure StablySorted (key : α → Nat) (input output : List α) : Prop where
  sorted : output.Pairwise fun a b => key a ≤ key b
  stable : ∀ k, (output.filter fun a => key a = k) = input.filter fun a => key a = k

lemma stablySorted_mergeSort (key : α → Nat) (input : List α) :
    StablySorted key input (input.mergeSort fun a b => key a ≤ key b) := by
  have htrans : ∀ a b c : α, decide (key a ≤ key b) → decide (key b ≤ key c) →
      decide (key a ≤ key c) := by
    simp only [decide_eq_true_eq]
    intro a b c
    exact Nat.le_trans
  have htotal : ∀ a b : α, decide (key a ≤ key b) || decide (key b ≤ key a) := by
    simp only [Bool.or_eq_true, decide_eq_true_eq]
    intro a b
    exact Nat.le_total _ _
  refine ⟨(List.pairwise_mergeSort htrans htotal input).imp (by simp), fun k => ?_⟩
  -- the items of one key are sorted as they stand, so all of them stay in their order
  have hclass : (input.filter fun a => key a = k).Pairwise fun a b => decide (key a ≤ key b) := by
    refine List.pairwise_of_forall_mem_list fun a ha b hb => ?_
    have hkey : key a = key b := by simp_all
    simp [hkey]
  have hsublist := (List.sublist_mergeSort htrans htotal hclass List.filter_sublist).filter
    fun a => key a = k
  simp only [List.filter_filter, Bool.and_self] at hsublist
  have hlength := ((List.mergeSort_perm input fun a b => key a ≤ key b).filter
    fun a => key a = k).length_eq
  exact (hsublist.eq_of_length hlength.symm).symm

lemma eq_nil_of_filter {xs : List α} (h : ∀ k, (xs.filter fun a => key a = k) = []) : xs = [] := by
  refine List.eq_nil_iff_forall_not_mem.mpr fun a ha => ?_
  have hmem : a ∈ xs.filter fun b => key b = key a := List.mem_filter.mpr ⟨ha, by simp⟩
  rw [h] at hmem
  cases hmem

/-- A sorted list is a part of another if its items of each key are. -/
lemma sublist_of_sorted_of_filter {xs ys : List α} (hxs : xs.Pairwise fun a b => key a ≤ key b)
    (hys : ys.Pairwise fun a b => key a ≤ key b)
    (h : ∀ k, (xs.filter fun a => key a = k).Sublist (ys.filter fun a => key a = k)) :
    xs.Sublist ys := by
  induction ys generalizing xs with
  | nil =>
    rw [eq_nil_of_filter fun k => List.sublist_nil.mp (h k)]
  | cons y ys ih =>
    cases xs with
    | nil => exact List.nil_sublist _
    | cons x xs =>
      obtain ⟨hx, hxrest⟩ := List.pairwise_cons.mp hxs
      obtain ⟨hy, hyrest⟩ := List.pairwise_cons.mp hys
      have hclass := h (key y)
      rw [List.filter_cons_of_pos (l := ys) (by simp)] at hclass
      rcases List.sublist_cons_iff.mp hclass with hskip | ⟨rest, heq, hrest⟩
      · apply List.Sublist.cons
        apply ih hxs hyrest
        intro k
        by_cases hk : key y = k
        · exact hk ▸ hskip
        · simpa [hk] using h k
      · have hyx : key x ≤ key y := by
          have hin : y ∈ (x :: xs).filter fun a => key a = key y := heq ▸ List.mem_cons_self
          rcases List.mem_cons.mp (List.mem_filter.mp hin).1 with rfl | hin
          · exact Nat.le_refl _
          · exact hx y hin
        have hxy : key y ≤ key x := by
          have hin := (h (key x)).subset (List.mem_filter.mpr ⟨List.mem_cons_self, by simp⟩)
          rcases List.mem_cons.mp (List.mem_filter.mp hin).1 with rfl | hin
          · exact Nat.le_refl _
          · exact hy x hin
        have hkey : key x = key y := Nat.le_antisymm hyx hxy
        rw [List.filter_cons_of_pos (by simp [hkey])] at heq
        obtain ⟨rfl, rfl⟩ := List.cons.inj heq
        apply List.Sublist.cons_cons
        apply ih hxrest hyrest
        intro k
        by_cases hk : key x = k
        · exact hk ▸ hrest
        · simpa [hk] using h k

lemma eq_of_sorted_of_filter {xs ys : List α} (hxs : xs.Pairwise fun a b => key a ≤ key b)
    (hys : ys.Pairwise fun a b => key a ≤ key b)
    (h : ∀ k, (xs.filter fun a => key a = k) = ys.filter fun a => key a = k) : xs = ys :=
  (sublist_of_sorted_of_filter hxs hys fun k => h k ▸ List.Sublist.refl _).antisymm
    (sublist_of_sorted_of_filter hys hxs fun k => h k ▸ List.Sublist.refl _)

lemma stablySorted_iff : StablySorted key input output ↔
    (input.mergeSort fun a b => key a ≤ key b) = output := by
  constructor
  · intro h
    have hsort := stablySorted_mergeSort key input
    exact eq_of_sorted_of_filter hsort.sorted h.sorted fun k =>
      (hsort.stable k).trans (h.stable k).symm
  · rintro rfl
    exact stablySorted_mergeSort key input

/-- Items keep their order in a sorted list, whatever other items are sorted with them. -/
lemma StablySorted.sublist {input' output' : List α} (h : StablySorted key input output)
    (h' : StablySorted key input' output') (hinput : input.Sublist input') :
    output.Sublist output' := by
  apply sublist_of_sorted_of_filter h.sorted h'.sorted
  intro k
  rw [h.stable k, h'.stable k]
  exact hinput.filter _

/-- Items that stand in some order in a list stand in it among those of one key. -/
lemma StablySorted.pairwise (h : StablySorted key input output) {R : α → α → Prop}
    (hR : input.Pairwise R) : output.Pairwise fun a b => key a < key b ∨ key a = key b ∧ R a b := by
  have hclasses : ∀ k, (output.filter fun a => key a = k).Pairwise R := fun k =>
    h.stable k ▸ hR.filter _
  have hsorted := h.sorted
  clear h hR
  induction output with
  | nil => exact List.Pairwise.nil
  | cons first rest ih =>
    obtain ⟨hfirst, hrest⟩ := List.pairwise_cons.mp hsorted
    refine List.pairwise_cons.mpr ⟨fun a ha => ?_, ih (fun k => ?_) hrest⟩
    · rcases Nat.lt_or_eq_of_le (hfirst a ha) with hlt | heq
      · exact .inl hlt
      · have hclass := hclasses (key first)
        rw [List.filter_cons_of_pos (by simp)] at hclass
        exact .inr ⟨heq, (List.pairwise_cons.mp hclass).1 a
          (List.mem_filter.mpr ⟨ha, by simp [heq]⟩)⟩
    · exact (hclasses k).sublist ((List.sublist_cons_self first rest).filter _)

end StableSort

section Turns

variable {nodeType : String}

/-- One turn of a search: the value on top of the stack is visited, and its children take its
place. -/
def turn (nodeType : String) : List Node × List Value → List Node × List Value
  | (found, []) => (found, [])
  | (found, value :: rest) =>
    (if isNode nodeType value then value :: found else found, value.children ++ rest)

lemma walk_turn (state : List Node × List Value) :
    walk nodeType (turn nodeType state).1 (turn nodeType state).2 =
      walk nodeType state.1 state.2 := by
  obtain ⟨found, pending⟩ := state
  cases pending with
  | nil => rfl
  | cons value rest =>
    rw [walk]
    rfl

lemma weight_eq (value : Value) : value.weight = itemsWeight value.children + 1 := by
  cases value <;> simp [Value.weight, Value.children, itemsWeight, Value.itemsWeight_map_snd]

lemma itemsWeight_turn (state : List Node × List Value) :
    itemsWeight (turn nodeType state).2 = itemsWeight state.2 - 1 := by
  obtain ⟨found, pending⟩ := state
  cases pending with
  | nil => rfl
  | cons value rest =>
    rw [turn, Value.itemsWeight_append, itemsWeight, weight_eq]
    omega

lemma itemsWeight_eq_zero_iff {values : List Value} : itemsWeight values = 0 ↔ values = [] := by
  cases values with
  | nil => simp [itemsWeight]
  | cons value rest => simp [itemsWeight, weight_eq]

lemma walk_iterate_turn (nodeType : String) (n : Nat) (state : List Node × List Value) :
    walk nodeType ((turn nodeType)^[n] state).1 ((turn nodeType)^[n] state).2 =
      walk nodeType state.1 state.2 := by
  induction n generalizing state with
  | zero => rfl
  | succ n ih => rw [Function.iterate_succ_apply, ih, walk_turn]

lemma itemsWeight_iterate_turn (n : Nat) (state : List Node × List Value) :
    itemsWeight ((turn nodeType)^[n] state).2 = itemsWeight state.2 - n := by
  induction n generalizing state with
  | zero => rfl
  | succ n ih =>
    rw [Function.iterate_succ_apply, ih, itemsWeight_turn]
    omega

/-- The stack of a search is empty once there were as many turns as the tree has values. -/
lemma iterate_turn_done_iff {node : Node} {n : Nat} :
    ((turn nodeType)^[n] ([], [node])).2 = [] ↔ Value.weight node ≤ n := by
  rw [← itemsWeight_eq_zero_iff, itemsWeight_iterate_turn, itemsWeight, itemsWeight]
  omega

/-- By then it has found the nodes of a kind, the last first. -/
lemma found_of_done {node : Node} {n : Nat} (h : ((turn nodeType)^[n] ([], [node])).2 = []) :
    ((turn nodeType)^[n] ([], [node])).1.reverse =
      (Value.preorder node).filter (isNode nodeType) := by
  have hwalk := walk_iterate_turn nodeType n ([], [node])
  rw [h, walk, Node.walk_eq] at hwalk
  simpa [itemsPreorder] using hwalk

end Turns

lemma isNode_iff {nodeType : String} {value : Value} :
    isNode nodeType value ↔ value.get? "nodeType" = some (.text nodeType) := by
  have hobject : isNode nodeType value = Node.hasType value nodeType := by
    cases value <;> rfl
  rw [hobject, Node.hasType_iff]

/-- The nodes of a kind in a tree, each occurrence once with its path, by their places, and by their
paths where places are equal. -/
structure InSourceOrder (node : Node) (nodeType : String) (occurrences : List (Path × Node)) :
    Prop where
  mem_iff : ∀ path found, (path, found) ∈ occurrences ↔
    Value.valueAt? node path = some found ∧
      Value.get? found "nodeType" = some (.text nodeType)
  ordered : occurrences.Pairwise fun a b =>
    place a.2 < place b.2 ∨ place a.2 = place b.2 ∧ Path.Before a.1 b.1

lemma exists_inSourceOrder (node : Node) (nodeType : String) :
    ∃ occurrences, InSourceOrder node nodeType occurrences ∧
      findAll node nodeType = occurrences.map Prod.snd := by
  let nodes := (Value.occurrences node).filter fun occurrence => isNode nodeType occurrence.2
  have hnodes : nodes.map Prod.snd = (Value.preorder node).filter (isNode nodeType) := by
    rw [← map_snd_occurrences, List.filter_map]
    rfl
  have hsorted := stablySorted_mergeSort (fun occurrence : Path × Node => place occurrence.2) nodes
  refine ⟨_, ⟨fun path found => ?_, hsorted.pairwise ((occurrences_pairwise node).filter _)⟩, ?_⟩
  · rw [List.mem_mergeSort, List.mem_filter, mem_occurrences_iff, isNode_iff]
  · rw [Node.findAll_eq, ← hnodes]
    symm
    apply List.map_mergeSort
    intro a _ b _
    rfl

lemma located_pairwise {found : List Node} (h : found.Pairwise fun a b => place a ≤ place b) :
    (found.filterMap start?).Pairwise (· ≤ ·) := by
  refine List.pairwise_filterMap.mpr (h.imp fun {a b} hle => ?_)
  intro first hfirst second hsecond
  rw [place, place, hfirst, hsecond] at hle
  exact hle

/-- Nodes without a place have the largest place, so they are among those that stay in order. -/
lemma filter_unlocated (nodes : List Node) :
    (nodes.filter fun node => (start? node).isNone) =
      (nodes.filter fun node => place node = Text.maxWord).filter fun node =>
        (start? node).isNone := by
  rw [List.filter_filter]
  apply List.filter_congr
  intro node _
  cases hstart : start? node with
  | none => simp [place, hstart]
  | some start => simp

/-- A search for the nodes of a kind visits every value of a tree once and finds the nodes as they
come in pre-order; its answer has all their occurrences, each once, stably sorted by their places.
In a tree that was read, fields are visited in the order of their keys. -/
theorem findAll_in_source_order (node : Node) (nodeType : String) :
    (∀ n, ((turn nodeType)^[n] ([], [node])).2 = [] ↔ Value.weight node ≤ n) ∧
      (∀ n, Value.weight node ≤ n →
        ((turn nodeType)^[n] ([], [node])).1.reverse = walk nodeType [] [node]) ∧
      walk nodeType [] [node] = (Value.preorder node).filter (isNode nodeType) ∧
      (∀ found, findAll node nodeType = found ↔
        StablySorted place ((Value.preorder node).filter (isNode nodeType)) found) ∧
      (∃ occurrences, InSourceOrder node nodeType occurrences ∧
        findAll node nodeType = occurrences.map Prod.snd) ∧
      ((findAll node nodeType).filterMap start?).Pairwise (· ≤ ·) ∧
      ((findAll node nodeType).filter fun found => (start? found).isNone) =
        ((Value.preorder node).filter (isNode nodeType)).filter
          (fun found => (start? found).isNone) ∧
      ∀ nesting tree, Tree.toValue? nesting tree = some node → KeysSorted node := by
  have hwalk : walk nodeType [] [node] = (Value.preorder node).filter (isNode nodeType) := by
    simp [Node.walk_eq, itemsPreorder]
  have hsorted : StablySorted place ((Value.preorder node).filter (isNode nodeType))
      (findAll node nodeType) := stablySorted_iff.mpr (Node.findAll_eq node nodeType).symm
  refine ⟨fun n => iterate_turn_done_iff, fun n hn => ?_, hwalk, fun found => ?_,
    exists_inSourceOrder node nodeType, located_pairwise hsorted.sorted, ?_,
    fun nesting tree => keysSorted_of_toValue?⟩
  · rw [hwalk]
    exact found_of_done (iterate_turn_done_iff.mpr hn)
  · rw [stablySorted_iff, Node.findAll_eq]
  · rw [filter_unlocated, hsorted.stable, ← filter_unlocated]

def callTree (src : List (List Json.Piece × Tree)) : Tree :=
  .object (src ++ [(Json.piecesOf "nodeType", .string (Json.piecesOf "FunctionCall"))])

def callNode (src : List (String × Value)) : Node :=
  .object (("nodeType", .text "FunctionCall") :: src)

/-- Three calls, the first without a place and the others under keys that are written out of
order. -/
def scatteredCalls : Tree :=
  .array [callTree [], .object
    [(Json.piecesOf "b",
        .array [callTree [(Json.piecesOf "src", .string (Json.piecesOf "10:4:0"))]]),
      (Json.piecesOf "a", callTree [(Json.piecesOf "src", .string (Json.piecesOf "30:5:0"))])]]

/-- The calls as they are read. -/
def scatteredCallNodes : Node :=
  .array [callNode [], .object
    [("a", callNode [("src", .text "30:5:0")]),
      ("b", .array [callNode [("src", .text "10:4:0")]])]]

theorem scatteredCalls_found :
    scatteredCalls.toValue? 127 = some scatteredCallNodes ∧ KeysSorted scatteredCallNodes ∧
      findAll scatteredCallNodes "FunctionCall" = [callNode [("src", .text "10:4:0")],
        callNode [("src", .text "30:5:0")], callNode []] := by
  have hread : scatteredCalls.toValue? 127 = some scatteredCallNodes := rfl
  obtain ⟨-, -, -, hfound, -, -, -, hkeys⟩ :=
    findAll_in_source_order scatteredCallNodes "FunctionCall"
  refine ⟨hread, hkeys 127 scatteredCalls hread, (hfound _).mpr ?_⟩
  have hfirst : place (callNode [("src", .text "10:4:0")]) = 10 := by decide +kernel
  have hsecond : place (callNode [("src", .text "30:5:0")]) = 30 := by decide +kernel
  have hlast : place (callNode []) = Text.maxWord := by decide +kernel
  refine ⟨by simp [hfirst, hsecond, hlast, Text.maxWord], fun k => ?_⟩
  change _ = List.filter _ [callNode [], callNode [("src", .text "30:5:0")],
    callNode [("src", .text "10:4:0")]]
  by_cases hten : 10 = k
  · subst hten
    simp [hfirst, hsecond, hlast, Text.maxWord]
  · by_cases hthirty : 30 = k
    · subst hthirty
      simp [hfirst, hsecond, hlast, Text.maxWord]
    · simp [List.filter_cons, hfirst, hsecond, hten, hthirty]

end UpgradeAudit.Proofs
