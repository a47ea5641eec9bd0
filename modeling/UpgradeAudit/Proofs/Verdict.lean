import UpgradeAudit.Proofs.Lookup
import UpgradeAudit.Proofs.Unambiguous

/-!
# What a verdict of safety rests on

A log answers for a fingerprint with the findings in the records of a contract, its ancestors and
its libraries. Where names and numbers identify definitions, these are exactly the findings of the
rules in their definitions. In any output, a contract that is called safe has no findings in the
definition that was analysed for it; but a contract without a definition is called safe as well.
-/

namespace UpgradeAudit.Proofs

open Compiler (Output)
open Validation

variable {config : Config} {locate : Locator} {output : Output} {run : ValidationRun}
  {name : String} {record : ContractRecord} {version : Fingerprint}

/-- The answer for the fingerprint of a definition: its findings, then those of the definitions of
its bases without itself, then those of the definitions of its libraries. -/
lemma errors_of_definition (h : Unambiguous output)
    (hvalid : validate config locate output = .ok run) (own : CompiledDefinition output)
    (hcode : own.contract.bytecode.object ≠ "")
    (hunshared : Unshared run own.name (Fingerprint.of own.contract.bytecode.object)) :
    run.contractVersion own.name = .ok (Fingerprint.of own.contract.bytecode.object) ∧
    ∃ ancestors libraries : List (CompiledDefinition output),
      ancestors.map CompiledDefinition.id = own.bases.filter (fun base => base ≠ own.id) ∧
      libraries.map CompiledDefinition.id = Library.referenced own.node ∧
      (ValidationLog.ofRun run).errors (Fingerprint.of own.contract.bytecode.object) =
        .ok ((own :: (ancestors ++ libraries)).flatMap
          (CompiledDefinition.findings config.detectors locate)) := by
  obtain ⟨record, hrecord, hversion, herrors, -, hinherit, hlibraries⟩ :=
    h.record_of_definition hvalid own
  have hsome : record.version = some (Fingerprint.of own.contract.bytecode.object) := by
    rw [hversion, versionOf?, if_neg hcode]
  refine ⟨contractVersion_eq_ok_iff.mpr ⟨record, hrecord, hsome⟩, ?_⟩
  obtain ⟨ancestors, hancestors, hnames⟩ := h.definitions_of_resolves hvalid hinherit
  obtain ⟨libraries, hids, hnames'⟩ := h.definitions_of_resolves hvalid hlibraries
  obtain ⟨related, hrelated, hfindings, -⟩ :=
    h.records_of_definitions hvalid (ancestors ++ libraries)
  refine ⟨ancestors, libraries, hancestors, hids, ?_⟩
  rw [errors_ofRun hrecord hsome hunshared, matchErrors_eq_ok_iff]
  refine ⟨related, ?_, ?_⟩
  · rw [← hnames, ← hnames', ← List.map_append]
    exact hrelated
  · rw [List.flatMap_cons, herrors, List.flatMap_def, List.flatMap_def, hfindings]

/-- The verdict on a contract is exact: the findings that a log gives for its fingerprint are those
of the rules in its own definition, in the definitions of the other numbers of its linearized bases
and in those of its libraries, in this order; it is safe exactly when there are none at all. -/
theorem errors_eq_findings_of_definitions (h : Unambiguous output)
    (hvalid : validate config locate output = .ok run) {path : String}
    {contract : Compiler.Contract} (hcontract : output.contract? path name = some contract)
    (hcode : contract.bytecode.object ≠ "")
    (hunshared : Unshared run name (Fingerprint.of contract.bytecode.object)) :
    run.contractVersion name = .ok (Fingerprint.of contract.bytecode.object) ∧
    ∃ (own : CompiledDefinition output) (ancestors libraries : List (CompiledDefinition output)),
      own.path = path ∧ own.name = name ∧ own.contract = contract ∧
      ancestors.map CompiledDefinition.id = own.bases.filter (fun base => base ≠ own.id) ∧
      libraries.map CompiledDefinition.id = Library.referenced own.node ∧
      (ValidationLog.ofRun run).errors (Fingerprint.of contract.bytecode.object) =
        .ok (own.findings config.detectors locate ++
          ancestors.flatMap (CompiledDefinition.findings config.detectors locate) ++
          libraries.flatMap (CompiledDefinition.findings config.detectors locate)) ∧
      ((ValidationLog.ofRun run).isSafe (Fingerprint.of contract.bytecode.object) = .ok true ↔
        ∀ definition ∈ own :: (ancestors ++ libraries),
          definition.findings config.detectors locate = []) := by
  obtain ⟨node, hmem, hname⟩ := h.defined path name (by rw [hcontract]; rfl)
  obtain ⟨own, rfl, rfl⟩ := h.exists_compiledDefinition hvalid hmem
  obtain rfl : own.name = name := Option.some.inj (own.name_eq.symm.trans hname)
  obtain rfl : own.contract = contract := Option.some.inj (own.contract_eq.symm.trans hcontract)
  obtain ⟨hversion, ancestors, libraries, hancestors, hlibraries, herrors⟩ :=
    errors_of_definition h hvalid own hcode hunshared
  refine ⟨hversion, own, ancestors, libraries, rfl, rfl, rfl, hancestors, hlibraries, ?_, ?_⟩
  · rw [herrors, List.flatMap_cons, List.flatMap_append, List.append_assoc]
  · rw [isSafe_eq_ok_true_iff, herrors, Except.ok.injEq, List.flatMap_eq_nil_iff]

/-- A token with an ancestor and a library in other sources, one before and one behind its own. -/
def dependentToken : Output :=
  outputOf [("a.sol", [("Base", "")], [contractNode 1 "Base" [1] [.object
      [("name", .text "total"), ("nodeType", .text "VariableDeclaration"), ("value", .int 1)]]]),
    ("b.sol", [("Token", "6001")], [contractNode 2 "Token" [2, 1] [.object
      [("libraryName", .object [("referencedDeclaration", .int 3)]),
        ("nodeType", .text "UsingForDirective")]]]),
    ("c.sol", [("Lib", "")], [contractNode 3 "Lib" [3] [.object
      [("name", .text "Kind"), ("nodeType", .text "EnumDefinition")]]])]

theorem dependentToken_errors :
    ∃ (run : ValidationRun) (own : CompiledDefinition dependentToken)
      (ancestors libraries : List (CompiledDefinition dependentToken)),
      validate {} rawLocator dependentToken = .ok run ∧ own.name = "Token" ∧
      ancestors.map CompiledDefinition.id = own.bases.filter (fun base => base ≠ own.id) ∧
      libraries.map CompiledDefinition.id = Library.referenced own.node ∧
      own.findings DetectorSuite.standard rawLocator ++
        ancestors.flatMap (CompiledDefinition.findings DetectorSuite.standard rawLocator) ++
        libraries.flatMap (CompiledDefinition.findings DetectorSuite.standard rawLocator) =
      [.stateVariableAssignment "total" "", .enumDefinition "Kind" ""] := by
  have hvalue : ((validate {} rawLocator dependentToken).toOption.bind fun run =>
      soleFindings? run "Token") =
      some [.stateVariableAssignment "total" "", .enumDefinition "Kind" ""] := by decide +kernel
  obtain ⟨run, hrun, hsole⟩ := exists_ok_of_toOption hvalue
  obtain ⟨record, version, hrecord, hversion, hunshared, hfindings⟩ := errors_of_soleFindings? hsole
  have hunambiguous : Unambiguous dependentToken := by decide +kernel
  have hcontract : dependentToken.contract? "b.sol" "Token" = some ⟨⟨"6001", ∅⟩⟩ := by
    decide +kernel
  have hof : record.version = some (Fingerprint.of "6001") := by
    obtain ⟨path, contract, hlast, hof, -⟩ := compiled_of_validate hrun hrecord
    obtain rfl := hunambiguous.path_eq (by rw [hcontract]; rfl) (by rw [hlast.compiled]; rfl)
    obtain rfl := Option.some.inj (hlast.compiled.symm.trans hcontract)
    exact hof
  obtain rfl := Option.some.inj (hversion.symm.trans hof)
  obtain ⟨-, own, ancestors, libraries, -, hname, -, hancestors, hlibraries, herrors, -⟩ :=
    errors_eq_findings_of_definitions hunambiguous hrun hcontract (by decide) hunshared
  exact ⟨run, own, ancestors, libraries, hrun, hname, hancestors, hlibraries,
    Except.ok.inj (herrors.symm.trans hfindings)⟩

lemma errors_eq_nil_of_isSafe (hrecord : run.get? name = some record)
    (hversion : record.version = some version) (hunshared : Unshared run name version)
    (hsafe : (ValidationLog.ofRun run).isSafe version = .ok true) : record.errors = [] := by
  rw [isSafe_eq_ok_true_iff, errors_ofRun hrecord hversion hunshared,
    matchErrors_eq_ok_iff] at hsafe
  obtain ⟨related, -, hnil⟩ := hsafe
  exact (List.append_eq_nil_iff.mp hnil.symm).1

/-- A contract that is called safe has no findings in the definition that was analysed for it, the
last one among the sources that compile it; and where the last source that compiles it defines it,
that definition stands there and was taken with the bytecode of the record. -/
theorem isSafe_imp_analysed_definition_has_no_findings
    (hvalid : validate config locate output = .ok run) (hrecord : run.get? name = some record)
    (hversion : record.version = some version) (hunshared : Unshared run name version)
    (hsafe : (ValidationLog.ofRun run).isSafe version = .ok true) :
    (∀ source node, lastDefinition? output name = some (source, node) →
      ∃ compiled, output.contract? source name = some compiled ∧
        config.detectors ⟨node, compiled.bytecode, locate⟩ = []) ∧
    ∃ path contract, LastCompiled output name path contract ∧
      ∀ source node, output.sources.get? path = some source →
        node ∈ Node.findAll source.ast "ContractDefinition" → Node.name? node = some name →
        ∃ last ∈ Node.findAll source.ast "ContractDefinition", Node.name? last = some name ∧
          lastDefinition? output name = some (path, last) ∧
          config.detectors ⟨last, contract.bytecode, locate⟩ = [] := by
  have hnil : record.errors = [] := errors_eq_nil_of_isSafe hrecord hversion hunshared hsafe
  have hanalysed : ∀ source node, lastDefinition? output name = some (source, node) →
      ∃ compiled, output.contract? source name = some compiled ∧
        config.detectors ⟨node, compiled.bytecode, locate⟩ = [] := by
    intro source node hlast
    obtain ⟨compiled, _, _, hcompiled, -, -, herrors, -⟩ :=
      analysed_of_validate hvalid hrecord hlast
    exact ⟨compiled, hcompiled, herrors.symm.trans hnil⟩
  refine ⟨hanalysed, ?_⟩
  obtain ⟨path, contract, hcompiled, -⟩ := compiled_of_validate hvalid hrecord
  refine ⟨path, contract, hcompiled, fun source node hsource hnode hname => ?_⟩
  obtain ⟨last, hmem, hlastName, hlast⟩ :=
    lastDefinition?_of_lastCompiled hcompiled hsource hnode hname
  obtain ⟨compiled, hcontract, hfindings⟩ := hanalysed path last hlast
  obtain rfl := Option.some.inj (hcontract.symm.trans hcompiled.compiled)
  exact ⟨last, hmem, hlastName, hlast, hfindings⟩

theorem redefinedToken_isSafe :
    ∃ run record version, validate {} rawLocator redefinedToken = .ok run ∧
      run.get? "Token" = some record ∧ record.version = some version ∧
      (ValidationLog.ofRun run).isSafe version = .ok true ∧
      ∃ path contract, LastCompiled redefinedToken "Token" path contract ∧
        ∀ source node, redefinedToken.sources.get? path = some source →
          node ∈ Node.findAll source.ast "ContractDefinition" → Node.name? node = some "Token" →
          ∃ last ∈ Node.findAll source.ast "ContractDefinition", Node.name? last = some "Token" ∧
            lastDefinition? redefinedToken "Token" = some (path, last) ∧
            DetectorSuite.standard.detect ⟨last, contract.bytecode, rawLocator⟩ = [] := by
  have hvalue : ((validate {} rawLocator redefinedToken).toOption.bind fun run =>
      soleFindings? run "Token") = some [] := by decide +kernel
  obtain ⟨run, hrun, hsole⟩ := exists_ok_of_toOption hvalue
  obtain ⟨record, version, hrecord, hversion, hunshared, hnil⟩ := errors_of_soleFindings? hsole
  have hsafe := isSafe_eq_ok_true_iff.mpr hnil
  exact ⟨run, record, version, hrun, hrecord, hversion, hsafe,
    (isSafe_imp_analysed_definition_has_no_findings hrun hrecord hversion hunshared hsafe).2⟩

/-- A compiled token of which no source has a definition. -/
def undefinedToken : Output :=
  outputOf [("a.sol", [("Token", "6001")], [])]

/-- A contract is called safe although nothing in the output defines it. -/
theorem undefinedToken_isSafe :
    ∃ run record version, validate {} rawLocator undefinedToken = .ok run ∧
      run.get? "Token" = some record ∧ record.version = some version ∧
      Unshared run "Token" version ∧ (ValidationLog.ofRun run).isSafe version = .ok true ∧
      definitionNodes undefinedToken = [] := by
  have hvalue : ((validate {} rawLocator undefinedToken).toOption.bind fun run =>
      soleFindings? run "Token") = some [] := by decide +kernel
  have hempty : (definitionNodes undefinedToken).length = 0 := by decide +kernel
  obtain ⟨run, hrun, hsole⟩ := exists_ok_of_toOption hvalue
  obtain ⟨record, version, hrecord, hversion, hunshared, hnil⟩ := errors_of_soleFindings? hsole
  have hsafe := isSafe_eq_ok_true_iff.mpr hnil
  exact ⟨run, record, version, hrun, hrecord, hversion, hunshared, hsafe,
    List.eq_nil_of_length_eq_zero hempty⟩

end UpgradeAudit.Proofs
