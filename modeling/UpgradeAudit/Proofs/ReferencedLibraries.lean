import UpgradeAudit.Library
import UpgradeAudit.Proofs.UnsafeConstructs

/-!
# The libraries that a contract refers to

A contract refers to a library by a directive or by an identifier, at whatever depth these stand.
The two searches are put together and each number is kept where it comes first. What is listed is
told here by the values of the tree: all numbers of directives and identifiers, those of directives
first, and each in the order in which the searches come by it.
-/

namespace UpgradeAudit

open Json (Value)

namespace Library

/-- A node refers to the declaration with a number, which fits a signed word. -/
def RefersTo (node : Node) (id : Int) : Prop :=
  Value.get? node "referencedDeclaration" = some (.int id) ∧
    -(Text.maxSigned + 1) ≤ id ∧ id ≤ Text.maxSigned

/-- A directive attaches the library with a number. -/
def Attaches (directive : Node) (id : Int) : Prop :=
  ∃ library, Value.get? directive "libraryName" = some library ∧ library ≠ .null ∧
    RefersTo library id

/-- An identifier stands for the library with a number. -/
def StandsFor (identifier : Node) (id : Int) : Prop :=
  (∃ types rest, Value.get? identifier "typeDescriptions" = some types ∧
    Value.get? types "typeString" = some (.text ("type(library " ++ rest))) ∧
    RefersTo identifier id

/-- A directive at some path of a contract attaches the library with a number. -/
def IsAttached (contract : Node) (id : Int) : Prop :=
  ∃ path directive, Node.StandsAt contract "UsingForDirective" path directive ∧
    Attaches directive id

/-- An identifier at some path of a contract stands for the library with a number. -/
def IsNamed (contract : Node) (id : Int) : Prop :=
  ∃ path identifier, Node.StandsAt contract "Identifier" path identifier ∧
    StandsFor identifier id

end Library

namespace Proofs

section FirstComes

variable {α β : Type} {xs : List α} {P Q : α → Prop}

/-- Some item with one property stands before all items with another. -/
def ComesFirst (xs : List α) (P Q : α → Prop) : Prop :=
  ∃ before x after, xs = before ++ x :: after ∧ P x ∧ ∀ earlier ∈ before ++ [x], ¬Q earlier

lemma mem_of_cons_eq_append {x y : α} {after between after' : List α}
    (h : x :: after = between ++ y :: after') : x ∈ between ++ [y] := by
  cases between with
  | nil =>
    obtain ⟨rfl, -⟩ := List.cons.inj h
    simp
  | cons z rest =>
    obtain ⟨rfl, -⟩ := List.cons.inj h
    simp

lemma ComesFirst.asymm (h : ComesFirst xs P Q) : ¬ComesFirst xs Q P := by
  rintro ⟨before', y, after', hsplit', hy, hnone'⟩
  obtain ⟨before, x, after, hsplit, hx, hnone⟩ := h
  rw [hsplit, List.append_eq_append_iff] at hsplit'
  rcases hsplit' with ⟨between, rfl, htail⟩ | ⟨between, rfl, htail⟩
  · apply hnone' x _ hx
    rw [List.append_assoc]
    exact List.mem_append_right _ (mem_of_cons_eq_append htail)
  · apply hnone y _ hy
    rw [List.append_assoc]
    exact List.mem_append_right _ (mem_of_cons_eq_append htail)

/-- What comes first among the results of a pass comes first among the items that gave them. -/
lemma ComesFirst.of_filterMap {f : α → Option β} {R S : β → Prop}
    (h : ComesFirst (xs.filterMap f) R S) (hP : ∀ x y, f x = some y → R y → P x)
    (hQ : ∀ x, Q x → ∃ y, f x = some y ∧ S y) : ComesFirst xs P Q := by
  obtain ⟨before, y, after, hsplit, hy, hnone⟩ := h
  obtain ⟨front, back, rfl, rfl, hback⟩ := List.filterMap_eq_append_iff.mp hsplit
  obtain ⟨skipped, x, rest, rfl, hskipped, hx, rfl⟩ := List.filterMap_eq_cons_iff.mp hback
  refine ⟨front ++ skipped, x, rest, by simp, hP x y hx hy, ?_⟩
  intro earlier hearlier hQearlier
  obtain ⟨z, hz, hS⟩ := hQ earlier hQearlier
  simp only [List.mem_append, List.mem_singleton] at hearlier
  rcases hearlier with (hfront | hskip) | rfl
  · exact hnone z (List.mem_append_left _ (List.mem_filterMap.mpr ⟨earlier, hfront, hz⟩)) hS
  · rw [hskipped earlier hskip] at hz
    cases hz
  · obtain rfl := Option.some.inj (hx.symm.trans hz)
    exact hnone y (by simp) hS

lemma ComesFirst.of_filter {p : α → Bool} (h : ComesFirst (xs.filter p) P Q)
    (hQ : ∀ x, Q x → p x) : ComesFirst xs P Q := by
  rw [← List.filterMap_eq_filter] at h
  refine h.of_filterMap (fun x y hxy hy => ?_) fun x hx => ⟨x, by simp [hQ x hx], hx⟩
  obtain ⟨rfl, -⟩ := Option.guard_eq_some_iff.mp hxy
  exact hy

lemma ComesFirst.cons {x : α} (h : ComesFirst xs P Q) (hx : ¬Q x) : ComesFirst (x :: xs) P Q := by
  obtain ⟨before, y, after, rfl, hy, hnone⟩ := h
  exact ⟨x :: before, y, after, rfl, hy, List.forall_mem_cons.mpr ⟨hx, hnone⟩⟩

/-- Removing repetitions keeps items in the order in which they first occur. -/
lemma pairwise_eraseDups [BEq α] [LawfulBEq α] (xs : List α) :
    xs.eraseDups.Pairwise fun a b => ComesFirst xs (· = a) (· = b) := by
  -- each step goes on with a part of the rest, so the induction is on the length
  induction hlength : xs.length using Nat.strongRecOn generalizing xs with
  | ind n ih =>
    cases xs with
    | nil => simp
    | cons x rest =>
      have hshorter : (rest.filter fun y => !y == x).length < n := by
        have hle := List.length_filter_le (fun y => !y == x) rest
        rw [List.length_cons] at hlength
        omega
      have hne : ∀ y ∈ (rest.filter fun y => !y == x).eraseDups, y ≠ x := by
        intro y hy
        simpa using (List.mem_filter.mp (List.mem_eraseDups.mp hy)).2
      rw [List.eraseDups_cons, List.pairwise_cons]
      constructor
      · intro y hy
        exact ⟨[], x, rest, rfl, rfl, by simpa using (hne y hy).symm⟩
      · refine (ih _ hshorter _ rfl).imp_of_mem fun {a b} _ hb hfirst => ?_
        have hother : ∀ y, y = b → y ≠ x := fun y hy => hy ▸ hne b hb
        refine ComesFirst.cons (hfirst.of_filter fun y hy => ?_) fun hx => hother x hx rfl
        simpa using hother y hy

lemma nodup_eraseDups [BEq α] [LawfulBEq α] (xs : List α) : xs.eraseDups.Nodup := by
  refine (pairwise_eraseDups xs).imp ?_
  rintro a b hfirst rfl
  exact hfirst.asymm hfirst

end FirstComes

section Attributes

variable {node contract : Node} {id : Int}

lemma reference?_eq_some_iff : Node.reference? node = some id ↔ Library.RefersTo node id :=
  Node.int?_eq_some_iff

/-- The number of the library that a directive attaches. -/
def attachedBy? (directive : Node) : Option Int :=
  (Node.attribute? directive "libraryName").bind Node.reference?

lemma attachedBy?_eq_some_iff : attachedBy? node = some id ↔ Library.Attaches node id := by
  unfold attachedBy? Library.Attaches
  simp only [Option.bind_eq_some_iff, Node.attribute?_eq_some_iff, reference?_eq_some_iff,
    and_assoc]

lemma isNamed_iff : Library.isNamed node ↔ ∃ types rest,
    Value.get? node "typeDescriptions" = some types ∧
      Value.get? types "typeString" = some (.text ("type(library " ++ rest)) := by
  have hnamed : Library.isNamed node ↔
      ∃ rest, Node.typeString? node = some ("type(library " ++ rest) := by
    unfold Library.isNamed
    cases Node.typeString? node with
    | none => simp
    | some type =>
      simp only [Option.some.injEq]
      exact Text.startsWith_toList_iff
  simp only [hnamed, Node.typeString?_eq_some_iff]
  exact exists_comm

/-- The number of the library that an identifier stands for. -/
def namedBy? (identifier : Node) : Option Int :=
  if Library.isNamed identifier then Node.reference? identifier else none

lemma namedBy?_eq_some_iff : namedBy? node = some id ↔ Library.StandsFor node id := by
  unfold namedBy? Library.StandsFor
  rw [Option.ite_none_right_eq_some, isNamed_iff, reference?_eq_some_iff]

lemma attached_eq (contract : Node) : Library.attached contract =
    (Node.findAll contract "UsingForDirective").filterMap attachedBy? := by
  unfold Library.attached
  rw [List.filterMap_filterMap]
  rfl

lemma named_eq (contract : Node) : Library.named contract =
    (Node.findAll contract "Identifier").filterMap namedBy? := by
  unfold Library.named
  rw [List.filterMap_filter]
  rfl

end Attributes

section Order

variable {contract : Node}

lemma mem_findAll_iff {nodeType : String} {found : Node} :
    found ∈ Node.findAll contract nodeType ↔
      ∃ path, Node.StandsAt contract nodeType path found := by
  obtain ⟨occurrences, hall, hfound⟩ := exists_listsAll_findAll contract nodeType
  rw [hfound, List.mem_map]
  constructor
  · rintro ⟨occurrence, hmem, rfl⟩
    exact ⟨occurrence.1, (hall.mem_iff occurrence).mp hmem⟩
  · rintro ⟨path, hstands⟩
    exact ⟨(path, found), (hall.mem_iff (path, found)).mpr hstands, rfl⟩

lemma mem_filterMap_findAll_iff {nodeType : String} {number? : Node → Option Int}
    {Gives : Node → Int → Prop} (h : ∀ node id, number? node = some id ↔ Gives node id) {id : Int} :
    id ∈ (Node.findAll contract nodeType).filterMap number? ↔
      ∃ path found, Node.StandsAt contract nodeType path found ∧ Gives found id := by
  simp only [List.mem_filterMap, mem_findAll_iff, h]
  constructor
  · rintro ⟨found, ⟨path, hstands⟩, hgives⟩
    exact ⟨path, found, hstands, hgives⟩
  · rintro ⟨path, found, hstands, hgives⟩
    exact ⟨found, ⟨path, hstands⟩, hgives⟩

lemma mem_attached_iff {id : Int} :
    id ∈ Library.attached contract ↔ Library.IsAttached contract id := by
  rw [attached_eq]
  exact mem_filterMap_findAll_iff fun _ _ => attachedBy?_eq_some_iff

lemma mem_named_iff {id : Int} : id ∈ Library.named contract ↔ Library.IsNamed contract id := by
  rw [named_eq]
  exact mem_filterMap_findAll_iff fun _ _ => namedBy?_eq_some_iff

/-- The numbers of the libraries that a contract refers to, each once: those of directives before
all others, in the order of the first directives for them, and the others in the order of the first
identifiers. -/
structure ListsReferenced (contract : Node) (ids : List Int) : Prop where
  nodup : ids.Nodup
  mem_iff : ∀ id, id ∈ ids ↔ Library.IsAttached contract id ∨ Library.IsNamed contract id
  attached_first : ids.Pairwise fun a b =>
    Library.IsAttached contract b → Library.IsAttached contract a
  attached_in_order : ids.Pairwise fun a b =>
    Library.IsAttached contract a → Library.IsAttached contract b →
      ComesFirst (Node.findAll contract "UsingForDirective") (Library.Attaches · a)
        (Library.Attaches · b)
  named_in_order : ids.Pairwise fun a b =>
    ¬Library.IsAttached contract a → ¬Library.IsAttached contract b →
      ComesFirst (Node.findAll contract "Identifier") (Library.StandsFor · a)
        (Library.StandsFor · b)

lemma comesFirst_of_numbers {found : List Node} {number? : Node → Option Int}
    {Gives : Node → Int → Prop} (h : ∀ node id, number? node = some id ↔ Gives node id) {a b : Int}
    (hfirst : ComesFirst (found.filterMap number?) (· = a) (· = b)) :
    ComesFirst found (Gives · a) (Gives · b) := by
  refine hfirst.of_filterMap (fun node id hid ha => ?_) fun node hb => ⟨b, (h node b).mpr hb, rfl⟩
  exact (h node a).mp (ha ▸ hid)

lemma attached_pairwise (contract : Node) :
    (Library.attached contract).eraseDups.Pairwise fun a b =>
      ComesFirst (Node.findAll contract "UsingForDirective") (Library.Attaches · a)
        (Library.Attaches · b) := by
  rw [attached_eq]
  exact (pairwise_eraseDups _).imp fun hfirst =>
    comesFirst_of_numbers (fun _ _ => attachedBy?_eq_some_iff) hfirst

/-- The numbers that only identifiers give. -/
def onlyNamed (contract : Node) : List Int :=
  ((Library.named contract).removeAll (Library.attached contract)).eraseDups

lemma referenced_eq (contract : Node) :
    Library.referenced contract = (Library.attached contract).eraseDups ++ onlyNamed contract :=
  List.eraseDups_append

lemma mem_onlyNamed_iff {id : Int} : id ∈ onlyNamed contract ↔
    Library.IsNamed contract id ∧ ¬Library.IsAttached contract id := by
  rw [onlyNamed, List.mem_eraseDups, ← mem_named_iff, ← mem_attached_iff]
  simp [List.removeAll]

lemma onlyNamed_pairwise (contract : Node) :
    (onlyNamed contract).Pairwise fun a b =>
      ComesFirst (Node.findAll contract "Identifier") (Library.StandsFor · a)
        (Library.StandsFor · b) := by
  refine (pairwise_eraseDups _).imp_of_mem fun {a b} _ hb hfirst => ?_
  have hnew : b ∉ Library.attached contract := fun hmem =>
    (mem_onlyNamed_iff.mp hb).2 (mem_attached_iff.mp hmem)
  have hnamed : ComesFirst (Library.named contract) (· = a) (· = b) := by
    apply hfirst.of_filter
    rintro id rfl
    simpa using hnew
  rw [named_eq] at hnamed
  exact comesFirst_of_numbers (fun _ _ => namedBy?_eq_some_iff) hnamed

lemma listsReferenced_referenced (contract : Node) :
    ListsReferenced contract (Library.referenced contract) := by
  have hattached : ∀ id ∈ (Library.attached contract).eraseDups,
      Library.IsAttached contract id := fun id hid =>
    mem_attached_iff.mp (List.mem_eraseDups.mp hid)
  have hothers : ∀ id ∈ onlyNamed contract, ¬Library.IsAttached contract id := fun id hid =>
    (mem_onlyNamed_iff.mp hid).2
  refine ⟨nodup_eraseDups _, fun id => ?_, ?_, ?_, ?_⟩
  · rw [Library.referenced, List.mem_eraseDups, List.mem_append, mem_attached_iff, mem_named_iff]
  · rw [referenced_eq, List.pairwise_append]
    refine ⟨List.pairwise_of_forall_mem_list fun a ha b _ _ => hattached a ha,
      List.pairwise_of_forall_mem_list fun a _ b hb hattachedb => absurd hattachedb (hothers b hb),
      fun a ha b _ _ => hattached a ha⟩
  · rw [referenced_eq, List.pairwise_append]
    refine ⟨(attached_pairwise contract).imp fun hfirst _ _ => hfirst,
      List.pairwise_of_forall_mem_list fun a ha b _ hattacheda => absurd hattacheda (hothers a ha),
      fun a _ b hb _ hattachedb => absurd hattachedb (hothers b hb)⟩
  · rw [referenced_eq, List.pairwise_append]
    refine ⟨List.pairwise_of_forall_mem_list fun a ha b _ hnew => absurd (hattached a ha) hnew,
      (onlyNamed_pairwise contract).imp fun hfirst _ _ => hfirst,
      fun a ha b _ hnew => absurd (hattached a ha) hnew⟩

lemma ListsReferenced.unique {ids ids' : List Int} (h : ListsReferenced contract ids)
    (h' : ListsReferenced contract ids') : ids = ids' := by
  have hperm : ids.Perm ids' := (List.perm_ext_iff_of_nodup h.nodup h'.nodup).mpr fun id => by
    rw [h.mem_iff, h'.mem_iff]
  have hordered := h.attached_first.and (h.attached_in_order.and h.named_in_order)
  have hordered' := h'.attached_first.and (h'.attached_in_order.and h'.named_in_order)
  refine hperm.eq_of_pairwise ?_ hordered hordered'
  rintro a b - - ⟨hab, hattached, hnamed⟩ ⟨hba, hattached', hnamed'⟩
  by_cases ha : Library.IsAttached contract a
  · exact absurd (hattached' (hba ha) ha) (hattached ha (hba ha)).asymm
  · have hb : ¬Library.IsAttached contract b := fun hb => ha (hab hb)
    exact absurd (hnamed' hb ha) (hnamed ha hb).asymm

end Order

/-- The libraries of a contract are exactly those that directives attach and that identifiers stand
for, at any depth, each once, those of directives first, in the order in which they are found. -/
theorem referenced_lists_all (contract : Node) (ids : List Int) :
    Library.referenced contract = ids ↔ ListsReferenced contract ids := by
  constructor
  · rintro rfl
    exact listsReferenced_referenced contract
  · exact (listsReferenced_referenced contract).unique

end Proofs

end UpgradeAudit
