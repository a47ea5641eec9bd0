import UpgradeAudit.Proofs.Diagnosis
import UpgradeAudit.Proofs.UnsafeConstructs

/-!
# Findings about links cover the references

The table of a bytecode is gone over twice: once library by library, for the findings, and once
place by place, for the references that undo linking. The libraries that have a place are the same
in both, in the same order. So a record that can be unlinked never goes without a finding, while a
finding may be about a library that is listed without any place.
-/

namespace UpgradeAudit

/-- The path that declares the library of a reference, and its name. -/
def LinkReference.library (r : LinkReference) : String × String :=
  (r.src, r.name)

namespace Bytecode

/-- The libraries that are listed, each with the path that declares it. -/
def libraries (bytecode : Bytecode) : List (String × String) :=
  bytecode.linkReferences.entries.flatMap fun source =>
    source.2.keys.map fun library => (source.1, library)

/-- The places that are listed for a library. -/
def placesOf (bytecode : Bytecode) (library : String × String) : List LinkOffset :=
  ((bytecode.linkReferences.get? library.1).bind fun libraries => libraries.get? library.2).getD []

end Bytecode

namespace Proofs

open Validation (registered)

variable {contract : String} {bytecode : Bytecode} {references : List LinkReference}
  {target : Target}

/-- Removing repetitions from blocks of equal items leaves one item of each block that has any. -/
lemma eraseDups_flatMap_replicate {α : Type} [BEq α] [LawfulBEq α] {xs : List α} (h : xs.Nodup)
    (size : α → Nat) :
    (xs.flatMap fun x => List.replicate (size x) x).eraseDups = xs.filter fun x => 0 < size x := by
  induction xs with
  | nil => rfl
  | cons x rest ih =>
    obtain ⟨hx, hrest⟩ := List.nodup_cons.mp h
    rw [List.flatMap_cons]
    cases hsize : size x with
    | zero => simp [hsize, ih hrest]
    | succ n =>
      have hblock : (List.replicate n x ++ rest.flatMap fun y => List.replicate (size y) y).filter
          (fun y => !y == x) = rest.flatMap fun y => List.replicate (size y) y := by
        have hothers : ∀ y ∈ rest.flatMap fun y => List.replicate (size y) y, (!y == x) = true := by
          intro y hy
          obtain ⟨z, hz, hy⟩ := List.mem_flatMap.mp hy
          obtain rfl := List.eq_of_mem_replicate hy
          simpa using fun heq : y = x => hx (heq ▸ hz)
        rw [List.filter_append, List.filter_eq_self.mpr hothers, List.filter_eq_nil_iff.mpr,
          List.nil_append]
        intro y hy
        simp [List.eq_of_mem_replicate hy]
      rw [List.replicate_succ, List.cons_append, List.eraseDups_cons, hblock, ih hrest]
      simp [hsize]

lemma libraries_nodup (bytecode : Bytecode) : bytecode.libraries.Nodup := by
  obtain ⟨_, hall, rfl⟩ := exists_listsAll_links bytecode.linkReferences
  exact hall.nodup

lemma detect_linking (target : Target) : Detector.linking.detect target =
    target.bytecode.libraries.map fun library => .externalLibraryLinking library.2 library.1 := by
  rw [Detector.detect, Target.linkedLibraries, Bytecode.libraries, List.map_flatMap]
  simp only [List.map_map]
  rfl

/-- Each library is gone over once for each of its places. -/
lemma map_places (bytecode : Bytecode) :
    ((Link.places bytecode).map fun place => (place.1, place.2.1)) =
      bytecode.libraries.flatMap fun library =>
        List.replicate (bytecode.placesOf library).length library := by
  unfold Link.places Bytecode.libraries Table.keys
  simp only [List.map_flatMap, List.map_map, List.flatMap_assoc, List.flatMap_map,
    Function.comp_def]
  refine List.flatMap_congr fun source hsource => List.flatMap_congr fun library hlibrary => ?_
  have hplaces : bytecode.placesOf (source.1, library.1) = library.2 := by
    have hget := (Table.mem_entries_iff _).mp hsource
    rw [Bytecode.placesOf, hget, Option.bind_some, (Table.mem_entries_iff _).mp hlibrary,
      Option.getD_some]
  rw [hplaces]
  exact List.map_const' ..

lemma libraries_of_extract (h : Link.extract contract bytecode = .ok references) :
    references.map LinkReference.library =
      (Link.places bytecode).map fun place => (place.1, place.2.1) := by
  have hall := List.Forall₂.flip (mapM_eq_ok_iff.mp h)
  rw [← List.forall₂_eq_eq_eq, List.forall₂_map_left_iff, List.forall₂_map_right_iff]
  refine hall.imp fun r place hr => ?_
  obtain ⟨hsrc, hname, -⟩ := reference_eq_ok_iff.mp hr
  rw [LinkReference.library, hsrc, hname]

lemma filter_libraries (h : Link.extract contract bytecode = .ok references) :
    (bytecode.libraries.filter fun library => 0 < (bytecode.placesOf library).length) =
      (references.map LinkReference.library).eraseDups := by
  rw [libraries_of_extract h, map_places, eraseDups_flatMap_replicate (libraries_nodup bytecode)]

lemma library_mem_of_extract (h : Link.extract contract bytecode = .ok references)
    {r : LinkReference} (hr : r ∈ references) : r.library ∈ bytecode.libraries := by
  have hmem : r.library ∈ (references.map LinkReference.library).eraseDups :=
    List.mem_eraseDups.mpr (List.mem_map_of_mem hr)
  rw [← filter_libraries h] at hmem
  exact List.mem_of_mem_filter hmem

lemma count_finding (h : Link.extract contract target.bytecode = .ok references)
    {r : LinkReference} (hr : r ∈ references) :
    (Detector.linking.detect target).count (.externalLibraryLinking r.name r.src) = 1 := by
  have hinjective : Function.Injective fun library : String × String =>
      Finding.externalLibraryLinking library.2 library.1 := by
    rintro ⟨src, name⟩ ⟨src', name'⟩ heq
    cases heq
    rfl
  rw [detect_linking]
  refine List.count_eq_one_of_mem ((libraries_nodup _).map hinjective) ?_
  exact List.mem_map_of_mem (f := fun library : String × String =>
    Finding.externalLibraryLinking library.2 library.1) (library_mem_of_extract h hr)

lemma isLinkable_of_registered (h : Link.extract contract bytecode = .ok references)
    {record : ContractRecord} (hrecord : registered contract bytecode = .ok record) :
    record.isLinkable ↔ references ≠ [] := by
  obtain ⟨found, hfound, rfl⟩ := registered_eq_ok_iff.mp hrecord
  obtain rfl := Except.ok.inj (h.symm.trans hfound)
  simp [ContractRecord.isLinkable]

/-- The findings about links are one for each library that is listed. Those for which a place is
listed are the libraries of the references, in the order in which these first mention them. So a
bytecode that has references, whose record is linkable, has findings, and each reference is covered
by exactly one of them. -/
theorem linking_findings_cover_references (contract : String) (target : Target)
    (references : List LinkReference)
    (h : Link.extract contract target.bytecode = .ok references) :
    (∃ libraries : List (String × String), libraries.Nodup ∧
      Detector.linking.detect target =
        libraries.map (fun library => .externalLibraryLinking library.2 library.1) ∧
      (libraries.filter fun library => 0 < (target.bytecode.placesOf library).length) =
        (references.map LinkReference.library).eraseDups) ∧
    (∀ record, registered contract target.bytecode = .ok record →
      (record.isLinkable ↔ references ≠ [])) ∧
    (references ≠ [] → ∃ name src,
      Finding.externalLibraryLinking name src ∈ Detector.linking.detect target) ∧
    ∀ r ∈ references,
      (Detector.linking.detect target).count (.externalLibraryLinking r.name r.src) = 1 := by
  refine ⟨⟨target.bytecode.libraries, libraries_nodup _, detect_linking target,
    filter_libraries h⟩, fun record hrecord => isLinkable_of_registered h hrecord, ?_,
    fun r hr => count_finding h hr⟩
  intro hne
  obtain ⟨r, rest, rfl⟩ := List.exists_cons_of_ne_nil hne
  have hcount := count_finding h List.mem_cons_self
  exact ⟨r.name, r.src, List.count_pos_iff.mp (hcount ▸ Nat.one_pos)⟩

/-- Two sources have a library of one name, and one of them lists another without a place. -/
def namesakeLibraries : Bytecode :=
  ⟨"60016001", Table.ofList [
    ("a.sol", Table.ofList [("Math", [⟨0, 1⟩, ⟨2, 1⟩]), ("Unused", [])]),
    ("b.sol", Table.ofList [("Math", [⟨1, 1⟩])])]⟩

theorem namesakeLibraries_covered :
    ∃ references, Link.extract "Token" namesakeLibraries = .ok references ∧
      references.map LinkReference.library =
        [("a.sol", "Math"), ("a.sol", "Math"), ("b.sol", "Math")] ∧
      Detector.linking.detect ⟨.null, namesakeLibraries, rawLocator⟩ =
        [.externalLibraryLinking "Math" "a.sol", .externalLibraryLinking "Unused" "a.sol",
          .externalLibraryLinking "Math" "b.sol"] ∧
      ∀ r ∈ references, (Detector.linking.detect ⟨.null, namesakeLibraries, rawLocator⟩).count
        (.externalLibraryLinking r.name r.src) = 1 := by
  have hvalue : ((Link.extract "Token" namesakeLibraries).toOption.bind fun references =>
      some (references.map LinkReference.library)) =
        some [("a.sol", "Math"), ("a.sol", "Math"), ("b.sol", "Math")] := by decide +kernel
  obtain ⟨references, hextract, hlibraries⟩ := exists_ok_of_toOption hvalue
  obtain ⟨-, -, -, hcovered⟩ := linking_findings_cover_references "Token"
    ⟨.null, namesakeLibraries, rawLocator⟩ references hextract
  exact ⟨references, hextract, Option.some.inj hlibraries, by decide +kernel, hcovered⟩

end Proofs

end UpgradeAudit
