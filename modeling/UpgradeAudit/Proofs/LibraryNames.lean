import UpgradeAudit.Proofs.ReferencedLibraries
import UpgradeAudit.Proofs.SelfInheritance

/-!
# Libraries that are listed twice

The libraries of a contract are told apart by their numbers, but a record lists their names. A name
stands twice in a record exactly when the definition that it was made from refers to two libraries
of that name, as when sources of one output define libraries of their own under one name.
-/

namespace UpgradeAudit.Proofs

open Compiler (Output)
open Validation

variable {config : Config} {locate : Locator} {output : Output} {run : ValidationRun}
  {name : String} {record : ContractRecord}

/-- The definition from which the record of a name is made refers to two libraries with different
numbers that stand for one name. -/
def RefersToNamesakes (output : Output) (name : String) : Prop :=
  ∃ path node a b library, lastDefinition? output name = some (path, node) ∧
    a ∈ Library.referenced node ∧ b ∈ Library.referenced node ∧ a ≠ b ∧
    nameOfNumber? output a = some library ∧ nameOfNumber? output b = some library

lemma Resolves.nodup_iff {ids : List Int} {names : List String} (h : Resolves output ids names)
    (hids : ids.Nodup) :
    names.Nodup ↔ ∀ a ∈ ids, ∀ b ∈ ids, ∀ name, nameOfNumber? output a = some name →
      nameOfNumber? output b = some name → a = b := by
  unfold Resolves at h
  induction h with
  | nil => simp
  | @cons id first ids names hfirst hrest ih =>
    obtain ⟨hnew, hids⟩ := List.nodup_cons.mp hids
    rw [List.nodup_cons, ih hids, mem_of_resolves hrest]
    constructor
    · rintro ⟨hother, hpairs⟩ a ha b hb name hna hnb
      rcases List.mem_cons.mp ha with rfl | hina
      · rcases List.mem_cons.mp hb with rfl | hinb
        · rfl
        · rw [hfirst] at hna
          exact absurd ⟨b, hinb, hna ▸ hnb⟩ hother
      · rcases List.mem_cons.mp hb with rfl | hinb
        · rw [hfirst] at hnb
          exact absurd ⟨a, hina, hnb ▸ hna⟩ hother
        · exact hpairs a hina b hinb name hna hnb
    · intro hpairs
      constructor
      · rintro ⟨other, hmem, hname⟩
        have hsame : other = id := hpairs other (List.mem_cons_of_mem _ hmem) id
          List.mem_cons_self first hname hfirst
        exact hnew (hsame ▸ hmem)
      · intro a ha b hb
        exact hpairs a (List.mem_cons_of_mem _ ha) b (List.mem_cons_of_mem _ hb)

lemma libraries_nodup_iff (h : validate config locate output = .ok run)
    (hrecord : run.get? name = some record) :
    record.libraries.Nodup ↔ ¬RefersToNamesakes output name := by
  cases hlast : lastDefinition? output name with
  | none =>
    obtain ⟨-, -, -, hlibraries⟩ := unanalysed_of_validate h hrecord hlast
    have hno : ¬RefersToNamesakes output name := by
      rintro ⟨path, node, _, _, _, hsome, -⟩
      rw [hlast] at hsome
      cases hsome
    simp [hlibraries, hno]
  | some place =>
    obtain ⟨path, node⟩ := place
    obtain ⟨_, _, _, -, -, -, -, -, -, hresolves⟩ := analysed_of_validate h hrecord hlast
    rw [hresolves.nodup_iff (listsReferenced_referenced node).nodup]
    constructor
    · rintro hpairs ⟨_, _, a, b, library, hplace, ha, hb, hne, hna, hnb⟩
      obtain ⟨rfl, rfl⟩ := Prod.mk.inj (Option.some.inj (hlast.symm.trans hplace))
      exact hne (hpairs a ha b hb library hna hnb)
    · intro hno a ha b hb library hna hnb
      by_contra hne
      exact hno ⟨path, node, a, b, library, hlast, ha, hb, hne, hna, hnb⟩

lemma not_refersToNamesakes (h : NamesIdentify output) : ¬RefersToNamesakes output name := by
  rintro ⟨_, _, a, b, library, -, -, -, hne, hna, hnb⟩
  obtain ⟨path, node, hmem, hid, hname⟩ := mem_of_nameOfNumber? hna
  obtain ⟨path', node', hmem', hid', hname'⟩ := mem_of_nameOfNumber? hnb
  have hsame : Node.id? node = Node.id? node' :=
    h (path, node) hmem (path', node') hmem' library hname hname'
  rw [hid, hid'] at hsame
  exact hne (Option.some.inj hsame)

/-- No record of a run lists a library twice exactly when no name refers to two libraries of one
name, for which it is enough that definitions of one name have one number. -/
theorem libraries_distinct_iff (h : validate config locate output = .ok run) :
    ((∀ name record, run.get? name = some record → record.libraries.Nodup) ↔
      ∀ name, ¬RefersToNamesakes output name) ∧
    (NamesIdentify output →
      ∀ name record, run.get? name = some record → record.libraries.Nodup) := by
  constructor
  · constructor
    · intro hall name hnamesakes
      have ⟨path, node, _, _, _, hlast, _⟩ := hnamesakes
      obtain ⟨-, -, hcompiled⟩ := mem_of_lastDefinition? hlast
      obtain ⟨record, hrecord⟩ := Option.isSome_iff_exists.mp
        ((get?_validate_isSome_iff h name).mpr ⟨path, hcompiled⟩)
      exact (libraries_nodup_iff h hrecord).mp (hall name record hrecord) hnamesakes
    · intro hnone name record hrecord
      exact (libraries_nodup_iff h hrecord).mpr (hnone name)
  · intro hnames name record hrecord
    exact (libraries_nodup_iff h hrecord).mpr (not_refersToNamesakes hnames)

/-- A token that attaches a library from one source and names a library from another. -/
def tokenWithLibraries (attached named : String) : Output :=
  outputOf [("a.sol", [], [contractNode 1 attached [1] []]),
    ("b.sol", [], [contractNode 2 named [2] []]),
    ("c.sol", [("Token", "6001")], [contractNode 3 "Token" [3] [.object
        [("libraryName", .object [("referencedDeclaration", .int 1)]),
          ("nodeType", .text "UsingForDirective")],
      .object [("nodeType", .text "Identifier"), ("referencedDeclaration", .int 2),
        ("typeDescriptions", .object [("typeString", .text ("type(library " ++ named ++ ")"))])]]])]

theorem tokenWithLibraries_distinct :
    ∃ run, validate {} rawLocator (tokenWithLibraries "Lib" "Math") = .ok run ∧
      (run.get? "Token").map ContractRecord.libraries = some ["Lib", "Math"] ∧
      ∀ name, ¬RefersToNamesakes (tokenWithLibraries "Lib" "Math") name := by
  have hvalue : ((validate {} rawLocator (tokenWithLibraries "Lib" "Math")).toOption.bind
      fun run => some ((run.get? "Token").map ContractRecord.libraries,
        run.records.entries.all fun entry => entry.2.libraries.Nodup)) =
      some (some ["Lib", "Math"], true) := by decide +kernel
  obtain ⟨run, hrun, hresult⟩ := exists_ok_of_toOption hvalue
  obtain ⟨hlibraries, hall⟩ := Prod.mk.inj (Option.some.inj hresult)
  refine ⟨run, hrun, hlibraries,
    (libraries_distinct_iff hrun).1.mp fun name record hrecord => ?_⟩
  have hentry := List.all_eq_true.mp hall _ (mem_entries_iff_get?.mpr hrecord)
  simpa using hentry

/-- Two libraries of one name are listed as one name twice. -/
theorem tokenWithLibraries_repeats :
    ∃ run record, validate {} rawLocator (tokenWithLibraries "Lib" "Lib") = .ok run ∧
      run.get? "Token" = some record ∧ ¬record.libraries.Nodup := by
  have hvalue : ((validate {} rawLocator (tokenWithLibraries "Lib" "Lib")).toOption.bind fun run =>
      (run.get? "Token").map ContractRecord.libraries) = some ["Lib", "Lib"] := by decide +kernel
  obtain ⟨run, hrun, hget⟩ := exists_ok_of_toOption hvalue
  obtain ⟨record, hrecord, hlibraries⟩ := Option.map_eq_some_iff.mp hget
  exact ⟨run, record, hrun, hrecord, by simp [hlibraries]⟩

end UpgradeAudit.Proofs
