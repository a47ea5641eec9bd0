import UpgradeAudit.Proofs.Passes

/-!
# Where a record comes from

Two nested passes write into the records of a run, and a name may be compiled and defined more than
once. Each part of a record has one last writer: the last source that compiles the name for the
fingerprint and the places for libraries, and the last definition of the name among the sources that
compile it for all else.
-/

namespace UpgradeAudit.Proofs

open Compiler (Output)
open Validation

variable {config : Config} {locate : Locator} {output : Output} {run : ValidationRun}
  {name : String} {record : ContractRecord}

/-- The findings, the layout and the relations in a record are those of a definition, taken with the
bytecode that was compiled from its own source. -/
def AnalysedAs (config : Config) (locate : Locator) (output : Output) (name path : String)
    (node : Node) (record : ContractRecord) : Prop :=
  ∃ contract id bases, output.contract? path name = some contract ∧ Node.id? node = some id ∧
    Node.bases? node = some bases ∧
    record.errors = config.detectors ⟨node, contract.bytecode, locate⟩ ∧
    record.layout = config.layout node locate ∧
    Resolves output (bases.filter fun base => base ≠ id) record.inherit ∧
    Resolves output (Library.referenced node) record.libraries

lemma get?_validate (h : validate config locate output = .ok run) (name : String) :
    ∃ registered definitions found, register output = .ok registered ∧
      DefinedFrom config locate output definitions ∧ completions definitions = .ok found ∧
      run.get? name = match found.findRev? fun completion => completion.name = name with
        | none => registered.get? name
        | some completion => (registered.get? name).map (completed completion) := by
  obtain ⟨registered, definitions, found, hregister, hdefinitions, hfound, rfl⟩ :=
    validate_eq_ok_iff.mp h
  exact ⟨registered, definitions, found, hregister, hdefinitions, hfound,
    get?_foldl_complete found registered name⟩

lemma get?_validate_isSome_iff (h : validate config locate output = .ok run) (name : String) :
    (run.get? name).isSome ↔ ∃ path, (output.contract? path name).isSome := by
  obtain ⟨registered, definitions, found, hregister, -, -, hget⟩ := get?_validate h name
  have hsome : (run.get? name).isSome = (registered.get? name).isSome := by
    rw [hget]
    split
    · rfl
    · exact Option.isSome_map
  rw [hsome]
  rcases get?_register hregister name with ⟨hnone, hget⟩ | ⟨path, contract, record, hlast, hget, -⟩
  · simp [hnone, hget]
  · simp only [hget, Option.isSome_some, true_iff]
    exact ⟨path, by rw [hlast.compiled]; rfl⟩

/-- The fingerprint and the places for libraries come from the last source that compiles a name. -/
lemma compiled_of_validate (h : validate config locate output = .ok run)
    (hrecord : run.get? name = some record) :
    ∃ path contract, LastCompiled output name path contract ∧
      record.version = versionOf? contract.bytecode ∧
      Link.extract name contract.bytecode = .ok record.linkReferences := by
  obtain ⟨registered, definitions, found, hregister, -, -, hget⟩ := get?_validate h name
  rw [hrecord] at hget
  rcases get?_register hregister name with ⟨-, hnone⟩ | ⟨path, contract, first, hlast, hfirst, hrow⟩
  · rw [hnone] at hget
    split at hget <;> cases hget
  · obtain ⟨references, hreferences, rfl⟩ := registered_eq_ok_iff.mp hrow
    refine ⟨path, contract, hlast, ?_⟩
    rw [hfirst] at hget
    split at hget
    · obtain rfl := Option.some.inj hget
      exact ⟨rfl, hreferences⟩
    · obtain rfl := Option.some.inj hget
      exact ⟨rfl, hreferences⟩

/-- A record that no definition completes stays as it was registered. -/
lemma unanalysed_of_validate (h : validate config locate output = .ok run)
    (hrecord : run.get? name = some record) (hlast : lastDefinition? output name = none) :
    record.errors = [] ∧ record.layout = StorageLayout.empty ∧ record.inherit = [] ∧
      record.libraries = [] := by
  obtain ⟨registered, definitions, found, hregister, hdefinitions, hfound, hget⟩ :=
    get?_validate h name
  rcases lastCompletion hdefinitions hfound name with
    ⟨-, hnone⟩ | ⟨path, node, _, _, _, _, hsome, -⟩
  · rw [hnone, hrecord] at hget
    rcases get?_register hregister name with ⟨-, hget'⟩ | ⟨_, _, first, -, hfirst, hrow⟩
    · rw [hget'] at hget
      cases hget
    · rw [hfirst] at hget
      obtain rfl := Option.some.inj hget
      obtain ⟨references, -, rfl⟩ := registered_eq_ok_iff.mp hrow
      exact ⟨rfl, rfl, rfl, rfl⟩
  · rw [hlast] at hsome
    cases hsome

/-- All else in a record comes from the last definition among the sources that compile its name. -/
lemma analysed_of_validate (h : validate config locate output = .ok run)
    (hrecord : run.get? name = some record) {path : String} {node : Node}
    (hlast : lastDefinition? output name = some (path, node)) :
    AnalysedAs config locate output name path node record := by
  obtain ⟨registered, definitions, found, hregister, hdefinitions, hfound, hget⟩ :=
    get?_validate h name
  rcases lastCompletion hdefinitions hfound name with
    ⟨hnone, -⟩ | ⟨path', node', contract, id, bases, completion, hsome, hcontract, hid, hbases,
      hcompletion, hcompletes⟩
  · rw [hlast] at hnone
    cases hnone
  · obtain ⟨rfl, rfl⟩ := Prod.mk.inj (Option.some.inj (hlast.symm.trans hsome))
    rw [hcompletion, hrecord] at hget
    obtain ⟨first, -, rfl⟩ := Option.map_eq_some_iff.mp hget.symm
    exact ⟨contract, id, bases, hcontract, hid, hbases, hcompletes.errors, hcompletes.layout,
      hcompletes.inherit, hcompletes.libraries⟩

/-- Every record of a run, part by part. The names are those that some source compiles. Fingerprint
and places for libraries are those of the last source that compiles the name. All else is that of
the last definition of the name among the sources that compile it, and empty if there is none. -/
theorem validate_record_provenance (h : validate config locate output = .ok run) :
    (∀ name, name ∈ run.names ↔ ∃ path, (output.contract? path name).isSome) ∧
    ∀ name record, run.get? name = some record →
      (∃ path contract, LastCompiled output name path contract ∧
        record.version = (if contract.bytecode.object = "" then none
          else some (Fingerprint.of contract.bytecode.object)) ∧
        Link.extract name contract.bytecode = .ok record.linkReferences) ∧
      (∀ path node, lastDefinition? output name = some (path, node) →
        AnalysedAs config locate output name path node record) ∧
      (lastDefinition? output name = none →
        record.errors = [] ∧ record.layout = StorageLayout.empty ∧ record.inherit = [] ∧
          record.libraries = []) := by
  constructor
  · intro name
    exact (Table.mem_keys_iff run.records).trans (get?_validate_isSome_iff h name)
  · intro name record hrecord
    exact ⟨compiled_of_validate h hrecord,
      fun path node hlast => analysed_of_validate h hrecord hlast,
      fun hlast => unanalysed_of_validate h hrecord hlast⟩

/-- Two sources compile `Token`, and only the later one has bases for it. -/
def redefinedToken : Output :=
  outputOf [("a.sol", [("Token", "6001")], [contractNode 1 "Token" [1] []]),
    ("b.sol", [("Base", "")], [contractNode 2 "Base" [2] []]),
    ("c.sol", [("Token", "6002")], [contractNode 3 "Token" [3, 2] []])]

theorem redefinedToken_provenance :
    ∃ run record path contract, validate {} rawLocator redefinedToken = .ok run ∧
      "Token" ∈ run.names ∧ run.get? "Token" = some record ∧
      LastCompiled redefinedToken "Token" path contract ∧
      record.version = (if contract.bytecode.object = "" then none
        else some (Fingerprint.of contract.bytecode.object)) ∧
      record.inherit = ["Base"] := by
  have hvalue : ((validate {} rawLocator redefinedToken).toOption.bind fun run =>
      (run.get? "Token").map ContractRecord.inherit) = some ["Base"] := by decide +kernel
  obtain ⟨run, hrun, hget⟩ := exists_ok_of_toOption hvalue
  obtain ⟨record, hrecord, hinherit⟩ := Option.map_eq_some_iff.mp hget
  obtain ⟨hnames, hrecords⟩ := validate_record_provenance hrun
  obtain ⟨⟨path, contract, hlast, hversion, -⟩, -, -⟩ := hrecords "Token" record hrecord
  have hname : "Token" ∈ run.names :=
    (hnames "Token").mpr ⟨path, by rw [hlast.compiled]; rfl⟩
  exact ⟨run, record, path, contract, hrun, hname, hrecord, hlast, hversion, hinherit⟩

end UpgradeAudit.Proofs
