import Mathlib.Data.List.Pairwise
import UpgradeAudit.Proofs.Provenance

/-!
# Outputs in which names and numbers identify definitions

Where no name and no number is defined twice and definitions and compiled contracts go together, a
record can be told from the definition of its contract alone, and the names in it lead to the
definitions of the numbers that they stand for.
-/

namespace UpgradeAudit.Proofs

open Compiler (Output)
open Validation

variable {config : Config} {locate : Locator} {output : Output} {run : ValidationRun}

/-- No name and no number is defined twice, and each definition stands in the source from which the
contract of its name was compiled. -/
structure Unambiguous (output : Output) : Prop where
  names : ((definitionNodes output).filterMap fun place => Node.name? place.2).Nodup
  ids : ((definitionNodes output).filterMap fun place => Node.id? place.2).Nodup
  compiled : ∀ path node, (path, node) ∈ definitionNodes output →
    ∃ name, Node.name? node = some name ∧ (output.contract? path name).isSome
  defined : ∀ path name, (output.contract? path name).isSome →
    ∃ node, (path, node) ∈ definitionNodes output ∧ Node.name? node = some name

lemma unambiguous_iff (output : Output) :
    Unambiguous output ↔
      ((definitionNodes output).filterMap fun place => Node.name? place.2).Nodup ∧
      ((definitionNodes output).filterMap fun place => Node.id? place.2).Nodup ∧
      (∀ place ∈ definitionNodes output,
        (Node.name? place.2).any fun name => (output.contract? place.1 name).isSome) ∧
      ∀ item ∈ output.compiled, (definitionNodes output).any fun place =>
        place.1 = item.1 && Node.name? place.2 = some item.2.1 := by
  simp only [Option.any_eq_true, List.any_eq_true, Bool.and_eq_true, decide_eq_true_eq]
  constructor
  · intro h
    refine ⟨h.names, h.ids, fun place hplace => h.compiled place.1 place.2 hplace, ?_⟩
    rintro ⟨path, name, contract⟩ hitem
    obtain ⟨node, hmem, hname⟩ := h.defined path name (by rw [mem_compiled_iff.mp hitem]; rfl)
    exact ⟨(path, node), hmem, rfl, hname⟩
  · rintro ⟨hnames, hids, hcompiled, hdefined⟩
    refine ⟨hnames, hids, fun path node hmem => hcompiled (path, node) hmem, ?_⟩
    intro path name hsome
    obtain ⟨contract, hcontract⟩ := Option.isSome_iff_exists.mp hsome
    obtain ⟨⟨_, node⟩, hmem, rfl, hname⟩ := hdefined _ (mem_compiled_iff.mpr hcontract)
    exact ⟨node, hmem, hname⟩

instance (output : Output) : Decidable (Unambiguous output) :=
  decidable_of_iff _ (unambiguous_iff output).symm

/-- A contract definition, with the contract that was compiled from it. -/
structure CompiledDefinition (output : Output) where
  path : String
  node : Node
  id : Int
  name : String
  bases : List Int
  contract : Compiler.Contract
  mem : (path, node) ∈ definitionNodes output
  id_eq : Node.id? node = some id
  name_eq : Node.name? node = some name
  bases_eq : Node.bases? node = some bases
  contract_eq : output.contract? path name = some contract

/-- What rules find in a definition and its bytecode. -/
def CompiledDefinition.findings (rules : Rules) (locate : Locator)
    (definition : CompiledDefinition output) : List Finding :=
  rules ⟨definition.node, definition.contract.bytecode, locate⟩

lemma eq_of_nodup_filterMap {α β : Type} {f : α → Option β} {xs : List α}
    (h : (xs.filterMap f).Nodup) {x y : α} {b : β} (hx : x ∈ xs) (hy : y ∈ xs)
    (hfx : f x = some b) (hfy : f y = some b) : x = y := by
  by_contra hne
  have hpair := List.pairwise_filterMap.mp h
  have : Std.Symm fun a a' => ∀ b, f a = some b → ∀ b', f a' = some b' → b ≠ b' :=
    ⟨fun a a' hab b hb b' hb' heq => hab b' hb' b hb heq.symm⟩
  exact hpair.forall hx hy hne b hfx b hfy rfl

namespace Unambiguous

lemma lastDefinition?_eq (h : Unambiguous output) (definition : CompiledDefinition output) :
    lastDefinition? output definition.name = some (definition.path, definition.node) := by
  refine findRev?_eq_some_of_unique definition.mem ?_ fun place hplace hdefines => ?_
  · exact definesCompiled_iff.mpr ⟨definition.name_eq, by rw [definition.contract_eq]; rfl⟩
  · obtain ⟨hname, -⟩ := definesCompiled_iff.mp hdefines
    exact eq_of_nodup_filterMap h.names hplace definition.mem hname definition.name_eq

lemma path_eq (h : Unambiguous output) {path path' name : String}
    (hpath : (output.contract? path name).isSome) (hpath' : (output.contract? path' name).isSome) :
    path' = path := by
  obtain ⟨node, hnode, hname⟩ := h.defined path name hpath
  obtain ⟨node', hnode', hname'⟩ := h.defined path' name hpath'
  exact congrArg Prod.fst (eq_of_nodup_filterMap h.names hnode' hnode hname' hname)

/-- On a validated output, every definition has all that its analysis asks for. -/
lemma exists_compiledDefinition (h : Unambiguous output)
    (hvalid : validate config locate output = .ok run) {path : String} {node : Node}
    (hmem : (path, node) ∈ definitionNodes output) :
    ∃ definition : CompiledDefinition output, definition.path = path ∧ definition.node = node := by
  obtain ⟨_, definitions, _, -, hdefinitions, -, -⟩ := validate_eq_ok_iff.mp hvalid
  obtain ⟨read, -, hread⟩ := exists_of_forall₂_left hdefinitions hmem
  obtain ⟨hid, hname, hanalysis⟩ := define_eq_ok_iff.mp hread
  obtain ⟨name, hname', hcompiled⟩ := h.compiled path node hmem
  obtain rfl : name = read.name := Option.some.inj (hname'.symm.trans hname)
  obtain ⟨contract, hcontract⟩ := Option.isSome_iff_exists.mp hcompiled
  rw [hcontract] at hanalysis
  obtain ⟨bases, hbases, -⟩ := hanalysis
  exact ⟨⟨path, node, read.id, read.name, bases, contract, hmem, hid, hname, hbases, hcontract⟩,
    rfl, rfl⟩

lemma exists_definition_of_contract (h : Unambiguous output)
    (hvalid : validate config locate output = .ok run) {path name : String}
    {contract : Compiler.Contract} (hcontract : output.contract? path name = some contract) :
    ∃ definition : CompiledDefinition output,
      definition.path = path ∧ definition.name = name ∧ definition.contract = contract := by
  obtain ⟨node, hmem, hname⟩ := h.defined path name (by rw [hcontract]; rfl)
  obtain ⟨definition, rfl, rfl⟩ := h.exists_compiledDefinition hvalid hmem
  obtain rfl := Option.some.inj (definition.name_eq.symm.trans hname)
  exact ⟨definition, rfl, rfl, Option.some.inj (definition.contract_eq.symm.trans hcontract)⟩

lemma nodup_names (h : Unambiguous output) {definitions : List (CompiledDefinition output)}
    (hids : (definitions.map CompiledDefinition.id).Nodup) :
    (definitions.map CompiledDefinition.name).Nodup := by
  refine List.pairwise_map.mpr ((List.pairwise_map.mp hids).imp ?_)
  intro definition other hid hname
  have hplace : (definition.path, definition.node) = (other.path, other.node) :=
    eq_of_nodup_filterMap h.names definition.mem other.mem definition.name_eq
      (hname ▸ other.name_eq)
  have hnode : definition.node = other.node := congrArg Prod.snd hplace
  refine hid (Option.some.inj ?_)
  rw [← definition.id_eq, ← other.id_eq, hnode]

lemma record_of_definition (h : Unambiguous output)
    (hvalid : validate config locate output = .ok run) (definition : CompiledDefinition output) :
    ∃ record, run.get? definition.name = some record ∧
      record.version = versionOf? definition.contract.bytecode ∧
      record.errors = definition.findings config.detectors locate ∧
      record.layout = config.layout definition.node locate ∧
      Resolves output (definition.bases.filter fun base => base ≠ definition.id) record.inherit ∧
      Resolves output (Library.referenced definition.node) record.libraries := by
  have hsome : (output.contract? definition.path definition.name).isSome := by
    rw [definition.contract_eq]
    rfl
  obtain ⟨record, hrecord⟩ := Option.isSome_iff_exists.mp
    ((get?_validate_isSome_iff hvalid definition.name).mpr ⟨definition.path, hsome⟩)
  obtain ⟨path, contract, hlast, hversion, -⟩ := compiled_of_validate hvalid hrecord
  obtain rfl := h.path_eq hsome (by rw [hlast.compiled]; rfl)
  have hcontract : contract = definition.contract :=
    Option.some.inj (hlast.compiled.symm.trans definition.contract_eq)
  obtain ⟨contract', id, bases, hcontract', hid, hbases, herrors, hlayout, hinherit, hlibraries⟩ :=
    analysed_of_validate hvalid hrecord (h.lastDefinition?_eq definition)
  obtain rfl := Option.some.inj (hcontract'.symm.trans definition.contract_eq)
  obtain rfl := Option.some.inj (hid.symm.trans definition.id_eq)
  obtain rfl := Option.some.inj (hbases.symm.trans definition.bases_eq)
  exact ⟨record, hrecord, by rw [hversion, hcontract], herrors, hlayout, hinherit, hlibraries⟩

/-- Names that numbers stand for are those of the definitions of the numbers. -/
lemma definitions_of_resolves (h : Unambiguous output)
    (hvalid : validate config locate output = .ok run) {ids : List Int} {names : List String}
    (hnames : Resolves output ids names) :
    ∃ definitions : List (CompiledDefinition output),
      definitions.map CompiledDefinition.id = ids ∧
        definitions.map CompiledDefinition.name = names := by
  unfold Resolves at hnames
  induction hnames with
  | nil => exact ⟨[], rfl, rfl⟩
  | @cons id name _ _ hname _ ih =>
    obtain ⟨definitions, rfl, rfl⟩ := ih
    obtain ⟨path, node, hmem, hid, hname⟩ := mem_of_nameOfNumber? hname
    obtain ⟨definition, rfl, rfl⟩ := h.exists_compiledDefinition hvalid hmem
    refine ⟨definition :: definitions, ?_, ?_⟩
    · rw [List.map_cons, Option.some.inj (definition.id_eq.symm.trans hid)]
    · rw [List.map_cons, Option.some.inj (definition.name_eq.symm.trans hname)]

lemma records_of_definitions (h : Unambiguous output)
    (hvalid : validate config locate output = .ok run)
    (definitions : List (CompiledDefinition output)) :
    ∃ records, List.Forall₂ (fun name record => run.get? name = some record)
        (definitions.map CompiledDefinition.name) records ∧
      records.map ContractRecord.errors =
        definitions.map (CompiledDefinition.findings config.detectors locate) ∧
      records.map ContractRecord.layout =
        definitions.map (fun definition => config.layout definition.node locate) := by
  induction definitions with
  | nil => exact ⟨[], .nil, rfl, rfl⟩
  | cons definition rest ih =>
    obtain ⟨records, hrecords, herrors, hlayouts⟩ := ih
    obtain ⟨record, hrecord, -, herror, hlayout, -, -⟩ := h.record_of_definition hvalid definition
    refine ⟨record :: records, .cons hrecord hrecords, ?_, ?_⟩
    · rw [List.map_cons, List.map_cons, herror, herrors]
    · rw [List.map_cons, List.map_cons, hlayout, hlayouts]

end Unambiguous

end UpgradeAudit.Proofs
