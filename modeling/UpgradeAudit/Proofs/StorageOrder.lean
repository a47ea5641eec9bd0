import Mathlib.Data.List.Nodup
import UpgradeAudit.Proofs.MergedLayout
import UpgradeAudit.Proofs.Unambiguous

/-!
# The order of storage

Each variable of a layout is put behind those declared before it, and each ancestor of a contract in
front of what is nearer to the contract. Where names and numbers identify definitions, the layout
for a fingerprint is therefore that of the linearized bases read backwards, with the variables of
each definition in the order of their declarations and under its own name.
-/

namespace UpgradeAudit.Proofs

open Compiler (Output)
open Validation

variable {locate : Locator} {output : Output} {run : ValidationRun} {name : String}

lemma storage_foldl_add {α : Type} (item : α → StorageItem) (type : α → TypeItem) (xs : List α)
    (layout : StorageLayout) :
    (xs.foldl (fun layout x => layout.add (item x) (type x)) layout).storage =
      layout.storage ++ xs.map item := by
  induction xs generalizing layout with
  | nil => simp
  | cons x xs ih =>
    rw [List.foldl_cons, ih, StorageLayout.add, List.append_assoc]
    rfl

lemma storage_extract (contract : Node) (locate : Locator) :
    (Storage.extract contract locate).storage =
      ((Node.declaredVariables contract).filter Storage.isStored).map
        (Storage.itemOf locate contract) := by
  unfold Storage.extract
  rw [storage_foldl_add]
  rfl

namespace CompiledDefinition

/-- The members of a definition that declare variables, neither constant nor immutable, as variables
of its contract. -/
def stored (locate : Locator) (definition : CompiledDefinition output) : List StorageItem :=
  let kept := (Node.members definition.node).filter fun member =>
    Node.isVariable member && !Node.isConstant member && !Node.isImmutable member
  kept.map fun member => {
    contract := definition.name
    label := Node.nameOrEmpty member
    type := Storage.normalizeType ((Node.typeIdentifier? member).getD "")
    src := locate member }

lemma storage_extract (definition : CompiledDefinition output) :
    (Storage.extract definition.node locate).storage = definition.stored locate := by
  have hname : Node.nameOrEmpty definition.node = definition.name := by
    rw [Node.nameOrEmpty, definition.name_eq, Option.getD_some]
  have hitem : Storage.itemOf locate definition.node = fun member => {
      contract := definition.name
      label := Node.nameOrEmpty member
      type := Storage.normalizeType ((Node.typeIdentifier? member).getD "")
      src := locate member } := by
    funext member
    rw [Storage.itemOf, hname]
  rw [Proofs.storage_extract, hitem, Node.declaredVariables, List.filter_filter, stored]
  congr 1
  refine List.filter_congr fun member _ => ?_
  rw [Storage.isStored, Bool.not_or, Bool.and_comm, Bool.and_assoc]

lemma filter_stored (definition other : CompiledDefinition output) :
    ((definition.stored locate).filter fun item => item.contract = other.name) =
      if definition.name = other.name then definition.stored locate else [] := by
  have hcontract : ∀ item ∈ definition.stored locate, item.contract = definition.name := by
    intro item hitem
    obtain ⟨member, -, rfl⟩ := List.mem_map.mp hitem
    rfl
  split_ifs with hname
  · refine List.filter_eq_self.mpr fun item hitem => ?_
    rw [hcontract item hitem, hname, decide_eq_true rfl]
  · refine List.filter_eq_nil_iff.mpr fun item hitem heq => hname ?_
    rw [← hcontract item hitem, of_decide_eq_true heq]

lemma filter_flatMap_stored {definitions : List (CompiledDefinition output)}
    (hnames : (definitions.map CompiledDefinition.name).Nodup)
    {definition : CompiledDefinition output} (hmem : definition ∈ definitions) :
    ((definitions.flatMap (stored locate)).filter fun item =>
      item.contract = definition.name) = definition.stored locate := by
  induction definitions with
  | nil => cases hmem
  | cons first rest ih =>
    rw [List.map_cons, List.nodup_cons] at hnames
    rw [List.flatMap_cons, List.filter_append, filter_stored]
    obtain rfl | hmem := List.mem_cons.mp hmem
    · have hrest : ((rest.flatMap (stored locate)).filter fun item =>
          item.contract = definition.name) = [] := by
        rw [List.filter_flatMap, List.flatMap_eq_nil_iff]
        intro other hother
        rw [filter_stored, if_neg]
        intro heq
        exact hnames.1 (heq ▸ List.mem_map_of_mem hother)
      rw [if_pos rfl, hrest, List.append_nil]
    · have hne : first.name ≠ definition.name := by
        intro heq
        exact hnames.1 (heq ▸ List.mem_map_of_mem hmem)
      rw [if_neg hne, List.nil_append, ih hnames.2 hmem]

end CompiledDefinition

lemma mergedLayout_of_definition {rules : Rules} (h : Unambiguous output)
    (hvalid : validate ⟨rules, Storage.extract⟩ locate output = .ok run)
    (own : CompiledDefinition output) (hcode : own.contract.bytecode.object ≠ "")
    (hunshared : Unshared run own.name (Fingerprint.of own.contract.bytecode.object)) :
    run.contractVersion own.name = .ok (Fingerprint.of own.contract.bytecode.object) ∧
    ∃ (ancestors : List (CompiledDefinition output)) (layout : StorageLayout),
      ancestors.map CompiledDefinition.id = own.bases.filter (fun base => base ≠ own.id) ∧
      (ValidationLog.ofRun run).mergedLayout (Fingerprint.of own.contract.bytecode.object) =
        .ok layout ∧
      layout.storage =
        (ancestors.reverse ++ [own]).flatMap (CompiledDefinition.stored locate) := by
  obtain ⟨record, hrecord, hversion, -, -, hinherit, -⟩ := h.record_of_definition hvalid own
  have hsome : record.version = some (Fingerprint.of own.contract.bytecode.object) := by
    rw [hversion, versionOf?, if_neg hcode]
  refine ⟨contractVersion_eq_ok_iff.mpr ⟨record, hrecord, hsome⟩, ?_⟩
  obtain ⟨ancestors, hancestors, hnames⟩ := h.definitions_of_resolves hvalid hinherit
  obtain ⟨records, hrecords, -, hlayouts⟩ := h.records_of_definitions hvalid (own :: ancestors)
  refine ⟨ancestors, (records.map ContractRecord.layout).foldl StorageLayout.addBase .empty,
    hancestors, ?_, ?_⟩
  · rw [mergedLayout_ofRun hrecord hsome hunshared, matchLayout_eq_ok_iff]
    refine ⟨records, ?_, rfl⟩
    rw [List.map_cons, hnames] at hrecords
    exact hrecords
  · rw [storage_foldl_addBase, hlayouts, ← List.map_reverse, List.reverse_cons, List.flatMap_map]
    simp only [CompiledDefinition.storage_extract]
    exact List.append_nil _

/-- Storage stands in the order of the slots: the layout that a log gives for the fingerprint of a
contract holds the variables of the definitions of its linearized bases, from the last to the first,
and then those of its own definition. Where no base is listed twice, the variables under the name of
each of these definitions are exactly those that it declares. -/
theorem mergedLayout_follows_linearization {rules : Rules} (h : Unambiguous output)
    (hvalid : validate ⟨rules, Storage.extract⟩ locate output = .ok run) {path : String}
    {contract : Compiler.Contract} (hcontract : output.contract? path name = some contract)
    (hcode : contract.bytecode.object ≠ "")
    (hunshared : Unshared run name (Fingerprint.of contract.bytecode.object)) :
    run.contractVersion name = .ok (Fingerprint.of contract.bytecode.object) ∧
    ∃ (own : CompiledDefinition output) (ancestors : List (CompiledDefinition output))
      (layout : StorageLayout),
      own.path = path ∧ own.name = name ∧ own.contract = contract ∧
      ancestors.map CompiledDefinition.id = own.bases.filter (fun base => base ≠ own.id) ∧
      (ValidationLog.ofRun run).mergedLayout (Fingerprint.of contract.bytecode.object) =
        .ok layout ∧
      layout.storage =
        (ancestors.reverse ++ [own]).flatMap (CompiledDefinition.stored locate) ∧
      (own.bases.Nodup → ∀ definition ∈ ancestors.reverse ++ [own],
        (layout.storage.filter fun item => item.contract = definition.name) =
          definition.stored locate) := by
  obtain ⟨own, rfl, rfl, rfl⟩ := h.exists_definition_of_contract hvalid hcontract
  obtain ⟨hversion, ancestors, layout, hancestors, hlayout, hstorage⟩ :=
    mergedLayout_of_definition h hvalid own hcode hunshared
  refine ⟨hversion, own, ancestors, layout, rfl, rfl, rfl, hancestors, hlayout, hstorage, ?_⟩
  intro hbases definition hmem
  rw [hstorage]
  refine CompiledDefinition.filter_flatMap_stored (h.nodup_names ?_) hmem
  rw [← List.reverse_cons, List.map_reverse, List.nodup_reverse, List.map_cons, List.nodup_cons,
    hancestors]
  exact ⟨by simp, hbases.filter _⟩

def variableNode (name : String) (particulars : List (String × Json.Value)) : Node :=
  .object (particulars ++ [("name", .text name), ("nodeType", .text "VariableDeclaration")])

/-- A token with two ancestors, the nearer one in a later source, among whose members are a constant
and an immutable variable. -/
def layeredToken : Output :=
  outputOf [("a.sol", [("Token", "6001")], [contractNode 3 "Token" [3, 2, 1]
      [variableNode "c" []]]),
    ("b.sol", [("Base", "")], [contractNode 1 "Base" [1]
      [variableNode "a" [], variableNode "k" [("constant", .bool true)], variableNode "b" []]]),
    ("c.sol", [("Middle", "")], [contractNode 2 "Middle" [2, 1]
      [variableNode "i" [("mutability", .text "immutable")], variableNode "m" []]])]

theorem layeredToken_mergedLayout :
    ∃ (run : ValidationRun) (own : CompiledDefinition layeredToken)
      (ancestors : List (CompiledDefinition layeredToken)) (layout : StorageLayout),
      validate {} rawLocator layeredToken = .ok run ∧ own.name = "Token" ∧
      ancestors.map CompiledDefinition.id = own.bases.filter (fun base => base ≠ own.id) ∧
      (ValidationLog.ofRun run).mergedLayout (Fingerprint.of "6001") = .ok layout ∧
      layout.storage =
        (ancestors.reverse ++ [own]).flatMap (CompiledDefinition.stored rawLocator) ∧
      layout.labels = ["a", "b", "m", "c"] := by
  have hvalue : ((validate {} rawLocator layeredToken).toOption.bind fun run =>
      (run.get? "Token").bind fun record =>
        if isSoleVersion run "Token" then
          (Match.mergedLayout ⟨0, run, "Token", record⟩).toOption.map StorageLayout.labels
        else none) = some ["a", "b", "m", "c"] := by decide +kernel
  obtain ⟨run, hrun, hvalue⟩ := exists_ok_of_toOption hvalue
  obtain ⟨record, hrecord, hvalue⟩ := Option.bind_eq_some_iff.mp hvalue
  obtain ⟨hsole, hlabels⟩ := Option.ite_none_right_eq_some.mp hvalue
  have hunambiguous : Unambiguous layeredToken := by decide +kernel
  have hcontract : layeredToken.contract? "a.sol" "Token" = some ⟨⟨"6001", ∅⟩⟩ := by
    decide +kernel
  have hunshared : Unshared run "Token" (Fingerprint.of "6001") := unshared_of_isSoleVersion hsole
  obtain ⟨hversion, own, ancestors, layout, -, hname, -, hancestors, hlayout, hstorage, -⟩ :=
    mergedLayout_follows_linearization hunambiguous hrun hcontract (by decide) hunshared
  refine ⟨run, own, ancestors, layout, hrun, hname, hancestors, hlayout, hstorage, ?_⟩
  obtain ⟨found, hfound, hsome⟩ := contractVersion_eq_ok_iff.mp hversion
  obtain rfl := Option.some.inj (hfound.symm.trans hrecord)
  rw [mergedLayout_ofRun hrecord hsome hunshared] at hlayout
  rw [hlayout] at hlabels
  exact Option.some.inj hlabels

end UpgradeAudit.Proofs
