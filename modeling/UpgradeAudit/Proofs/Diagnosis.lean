import Mathlib.Tactic.MkIffOfInductiveProp
import UpgradeAudit.Proofs.Linking
import UpgradeAudit.Proofs.Passes

/-!
# What is wrong with an output

An output can be validated exactly when it is well formed, and the error of any other one is the
first of its faults. The faults are listed here by going through the tables of the output alone: all
places outside their bytecode, then all missing attributes, then all references to nothing. Although
references are named by a table that grows from definition to definition, whether one leads anywhere
does not depend on the order of the definitions.
-/

namespace UpgradeAudit

open Json (Value)

namespace Node

/-- A definition has a number that fits a signed word. -/
def HasId (node : Node) (id : Int) : Prop :=
  Value.get? node "id" = some (.int id) ∧ -(Text.maxSigned + 1) ≤ id ∧ id ≤ Text.maxSigned

def HasName (node : Node) (name : String) : Prop :=
  Value.get? node "name" = some (.text name)

/-- A definition lists the numbers of itself and its ancestors, which fit signed words. -/
def HasBases (node : Node) (bases : List Int) : Prop :=
  Value.get? node "linearizedBaseContracts" = some (.array (bases.map .int)) ∧
    ∀ base ∈ bases, -(Text.maxSigned + 1) ≤ base ∧ base ≤ Text.maxSigned

end Node

namespace Proofs

open Compiler (Output)
open Validation

variable {config : Config} {locate : Locator} {output : Output}

/-- A place is part of a bytecode: the bytecode can be divided before and behind its characters, and
the position behind them is a word. -/
def Encloses (object : String) (offset : LinkOffset) : Prop :=
  2 * (offset.start.toNat + offset.length.toNat) ≤ Text.maxWord ∧
    ∃ before inside after, object.toList = before ++ inside ++ after ∧
      Text.byteLength before = 2 * offset.start.toNat ∧
      Text.byteLength inside = 2 * offset.length.toNat

def IsNumbered (output : Output) (id : Int) : Prop :=
  ∃ place ∈ definitionNodes output, place.2.HasId id

/-- Places are part of their bytecode, definitions have the attributes that are read, and the
numbers of bases and libraries are those of definitions. Bases are read, and references followed,
only where the contract was compiled from the source of its definition. -/
@[mk_iff]
structure WellFormed (output : Output) : Prop where
  places : ∀ path name contract, output.contract? path name = some contract →
    ∀ src library offset, (src, library, offset) ∈ Link.places contract.bytecode →
      Encloses contract.bytecode.object offset
  attributes : ∀ path node, (path, node) ∈ definitionNodes output →
    ∃ id name, node.HasId id ∧ node.HasName name ∧
      ((output.contract? path name).isSome → ∃ bases, node.HasBases bases)
  references : ∀ path node, (path, node) ∈ definitionNodes output →
    ∀ id name bases, node.HasId id → node.HasName name → node.HasBases bases →
      (output.contract? path name).isSome →
      (∀ base ∈ bases, base ≠ id → IsNumbered output base) ∧
      ∀ library ∈ Library.referenced node, IsNumbered output library

lemma placeholder?_isSome_iff {object : String} {offset : LinkOffset} :
    (Link.placeholder? object offset.start offset.length).isSome ↔ Encloses object offset := by
  rw [Option.isSome_iff_exists]
  simp only [placeholder?_eq_some_iff]
  constructor
  · rintro ⟨text, hword, before, after, hobject, hbefore, hinside⟩
    exact ⟨hword, before, text.toList, after, hobject, hbefore, hinside⟩
  · rintro ⟨hword, before, inside, after, hobject, hbefore, hinside⟩
    refine ⟨String.ofList inside, hword, before, after, ?_, hbefore, ?_⟩ <;>
      rwa [String.toList_ofList]

instance (object : String) (offset : LinkOffset) : Decidable (Encloses object offset) :=
  decidable_of_iff _ placeholder?_isSome_iff

section Attributes

variable {node : Node}

lemma id?_eq_some_iff {id : Int} : Node.id? node = some id ↔ node.HasId id :=
  Node.int?_eq_some_iff

lemma name?_eq_some_iff {name : String} : Node.name? node = some name ↔ node.HasName name :=
  Node.text?_eq_some_iff

lemma mapM_int?_eq_some_iff {items : List Value} {numbers : List Int} :
    items.mapM Value.int? = some numbers ↔ items = numbers.map .int ∧
      ∀ n ∈ numbers, -(Text.maxSigned + 1) ≤ n ∧ n ≤ Text.maxSigned := by
  induction items generalizing numbers with
  | nil => cases numbers <;> simp
  | cons item items ih =>
    cases numbers with
    | nil => simp [List.mapM_cons, Option.bind_eq_some_iff]
    | cons n numbers =>
      simp only [List.mapM_cons, Option.bind_eq_bind, Option.bind_eq_some_iff, Option.pure_def,
        Option.some.injEq, Value.int?_eq_some_iff, ih, List.cons.injEq, List.map_cons,
        List.forall_mem_cons]
      constructor
      · rintro ⟨_, ⟨rfl, hfits⟩, _, ⟨rfl, hall⟩, rfl, rfl⟩
        exact ⟨⟨rfl, rfl⟩, hfits, hall⟩
      · rintro ⟨⟨rfl, rfl⟩, hfits, hall⟩
        exact ⟨n, ⟨rfl, hfits⟩, numbers, ⟨rfl, hall⟩, rfl, rfl⟩

lemma bases?_eq_some_iff {bases : List Int} :
    Node.bases? node = some bases ↔ node.HasBases bases := by
  unfold Node.bases? Node.HasBases
  cases Value.get? node "linearizedBaseContracts" with
  | none => simp
  | some value =>
    cases value with
    | array items =>
      rw [Option.bind_some, Value.items?, Option.bind_some, mapM_int?_eq_some_iff,
        Option.some.injEq, Value.array.injEq]
    | _ => simp [Value.items?]

lemma id?_isSome_iff : (Node.id? node).isSome ↔ ∃ id, node.HasId id := by
  simp only [Option.isSome_iff_exists, id?_eq_some_iff]

lemma name?_isSome_iff : (Node.name? node).isSome ↔ ∃ name, node.HasName name := by
  simp only [Option.isSome_iff_exists, name?_eq_some_iff]

lemma bases?_isSome_iff : (Node.bases? node).isSome ↔ ∃ bases, node.HasBases bases := by
  simp only [Option.isSome_iff_exists, bases?_eq_some_iff]

end Attributes

instance (node : Node) (id : Int) : Decidable (node.HasId id) :=
  decidable_of_iff _ id?_eq_some_iff

instance (node : Node) : Decidable (∃ id, node.HasId id) :=
  decidable_of_iff _ id?_isSome_iff

instance (node : Node) : Decidable (∃ name, node.HasName name) :=
  decidable_of_iff _ name?_isSome_iff

instance (node : Node) : Decidable (∃ bases, node.HasBases bases) :=
  decidable_of_iff _ bases?_isSome_iff

instance (output : Output) (id : Int) : Decidable (IsNumbered output id) :=
  inferInstanceAs (Decidable (∃ place ∈ definitionNodes output, place.2.HasId id))

/-! ### The faults of an output -/

def placeFaults (output : Output) : List InputError :=
  output.contracts.entries.flatMap fun source =>
    source.2.entries.flatMap fun contract =>
      contract.2.bytecode.linkReferences.entries.flatMap fun libraries =>
        libraries.2.entries.flatMap fun library =>
          library.2.flatMap fun offset =>
            if Encloses contract.2.bytecode.object offset then []
            else [.linkOutOfBounds contract.1 library.1 offset.start offset.length]

/-- A definition has a name that its own source compiles. -/
def IsCompiled (output : Output) (path : String) (node : Node) : Prop :=
  ∃ name, node.HasName name ∧ (output.contract? path name).isSome

lemma isCompiled_iff {path name : String} {node : Node} (h : node.HasName name) :
    IsCompiled output path node ↔ (output.contract? path name).isSome := by
  constructor
  · rintro ⟨other, hother, hcompiled⟩
    obtain rfl : name = other := Value.text.inj (Option.some.inj (h.symm.trans hother))
    exact hcompiled
  · exact fun hcompiled => ⟨name, h, hcompiled⟩

instance (output : Output) (path : String) (node : Node) :
    Decidable (IsCompiled output path node) :=
  decidable_of_iff ((Node.name? node).any fun name => (output.contract? path name).isSome) <| by
    simp only [Option.any_eq_true, name?_eq_some_iff, IsCompiled]

/-- The attributes that a definition lacks, in the order in which they are read. -/
def attributeFaultsOf (output : Output) (path : String) (node : Node) : List InputError :=
  (if ∃ id, node.HasId id then [] else [Node.missing node "id"]) ++
    ((if ∃ name, node.HasName name then [] else [Node.missing node "name"]) ++
      if IsCompiled output path node → ∃ bases, node.HasBases bases then []
      else [Node.missing node "linearizedBaseContracts"])

def unknownNumbers (output : Output) (contract : String) (ids : List Int) : List InputError :=
  ids.flatMap fun id =>
    if IsNumbered output id then [] else [.unresolvedReference contract id]

/-- The integers among some values. -/
def integersIn (values : List Value) : List Int :=
  values.filterMap fun
    | .int n => some n
    | _ => none

/-- The references of a definition that lead nowhere, those to bases first. -/
def referenceFaultsOf (output : Output) (path : String) (node : Node) : List InputError :=
  match Value.get? node "id", Value.get? node "name",
      Value.get? node "linearizedBaseContracts" with
  | some (.int id), some (.text name), some (.array bases) =>
    if (output.contract? path name).isSome then
      unknownNumbers output name ((integersIn bases).filter fun base => base ≠ id) ++
        unknownNumbers output name (Library.referenced node)
    else []
  | _, _, _ => []

def definitionFaults (output : Output) (faultsOf : String → Node → List InputError) :
    List InputError :=
  output.sources.entries.flatMap fun source =>
    (Node.findAll source.2.ast "ContractDefinition").flatMap (faultsOf source.1)

/-- All faults of an output, in the order in which they are met. -/
def faults (output : Output) : List InputError :=
  placeFaults output ++ (definitionFaults output (attributeFaultsOf output) ++
    definitionFaults output (referenceFaultsOf output))

lemma definitionFaults_eq (faultsOf : String → Node → List InputError) :
    definitionFaults output faultsOf =
      (definitionNodes output).flatMap fun place => faultsOf place.1 place.2 := by
  unfold definitionFaults definitionNodes
  simp only [List.flatMap_assoc, List.flatMap_map]

lemma placeFaults_eq (output : Output) :
    placeFaults output = output.compiled.flatMap fun item =>
      (Link.places item.2.2.bytecode).flatMap fun place =>
        if Encloses item.2.2.bytecode.object place.2.2 then []
        else [.linkOutOfBounds item.2.1 place.2.1 place.2.2.start place.2.2.length] := by
  unfold placeFaults Output.compiled Link.places
  simp only [List.flatMap_assoc, List.flatMap_map]

/-! ### Each pass fails with the first of its faults -/

lemma failsWith_reference (contract object : String) (place : String × String × LinkOffset) :
    FailsWith (if Encloses object place.2.2 then []
      else [.linkOutOfBounds contract place.2.1 place.2.2.start place.2.2.length])
      (Link.reference contract object place) := by
  obtain ⟨src, name, offset⟩ := place
  unfold Link.reference
  dsimp only
  by_cases h : Encloses object offset
  · obtain ⟨text, htext⟩ := Option.isSome_iff_exists.mp (placeholder?_isSome_iff.mpr h)
    rw [if_pos h, htext]
    rfl
  · have hnone : Link.placeholder? object offset.start offset.length = none := by
      rw [← Option.not_isSome_iff_eq_none, placeholder?_isSome_iff]
      exact h
    rw [if_neg h, hnone]
    rfl

lemma failsWith_register (output : Output) : FailsWith (placeFaults output) (register output) := by
  rw [placeFaults_eq]
  refine failsWith_return (failsWith_mapM _ fun item _ => ?_)
  refine failsWith_return (failsWith_return ?_)
  exact failsWith_mapM _ fun place _ => failsWith_reference _ _ place

lemma failsWith_orMissing {α : Type} {P : Prop} [Decidable P] (node : Node) (key : String)
    {found : Option α} (h : found.isSome ↔ P) :
    FailsWith (if P then [] else [Node.missing node key]) (Node.orMissing node key found) := by
  cases found with
  | none =>
    rw [if_neg (mt h.mpr Bool.false_ne_true)]
    rfl
  | some value =>
    rw [if_pos (h.mp rfl)]
    rfl

lemma failsWith_analyse (id : Int) (node : Node) (bytecode : Bytecode) :
    FailsWith (if ∃ bases, node.HasBases bases then []
      else [Node.missing node "linearizedBaseContracts"])
      (analyse config locate id node bytecode) :=
  failsWith_return (failsWith_orMissing node _ bases?_isSome_iff)

lemma failsWith_define (place : String × Node) :
    FailsWith (attributeFaultsOf output place.1 place.2) (define config locate output place) := by
  obtain ⟨path, node⟩ := place
  refine failsWith_bind (failsWith_orMissing node "id" id?_isSome_iff) fun id _ => ?_
  refine failsWith_bind (failsWith_orMissing node "name" name?_isSome_iff) fun name hname => ?_
  simp only [isCompiled_iff (name?_eq_some_iff.mp (orMissing_eq_ok_iff.mp hname))]
  cases output.contract? path name with
  | none => rfl
  | some contract =>
    simp only [Option.isSome_some, forall_const]
    exact failsWith_return (failsWith_analyse id node contract.bytecode)

/-! ### References lead to definitions in any order -/

lemma nameOf?_isSome_iff {definitions : List Definition}
    (h : DefinedFrom config locate output definitions) (id : Int) :
    (nameOf? definitions id).isSome ↔ IsNumbered output id := by
  unfold nameOf? IsNumbered
  -- a number is looked up when all definitions have been read, so their order is of no account
  simp only [Option.isSome_map, List.find?_isSome, List.mem_reverse, decide_eq_true_eq]
  constructor
  · rintro ⟨definition, hdefinition, rfl⟩
    obtain ⟨place, hplace, hdefine⟩ := exists_of_forall₂_left (List.Forall₂.flip h) hdefinition
    exact ⟨place, hplace, id?_eq_some_iff.mp (define_eq_ok_iff.mp hdefine).1⟩
  · rintro ⟨place, hplace, hid⟩
    obtain ⟨definition, hdefinition, hdefine⟩ := exists_of_forall₂_left h hplace
    have hid' : Node.id? place.2 = some definition.id := (define_eq_ok_iff.mp hdefine).1
    exact ⟨definition, hdefinition, Option.some.inj (hid'.symm.trans (id?_eq_some_iff.mpr hid))⟩

lemma failsWith_resolve {definitions : List Definition}
    (h : DefinedFrom config locate output definitions) (contract : String) (ids : List Int) :
    FailsWith (unknownNumbers output contract ids) (resolve definitions contract ids) := by
  refine failsWith_mapM ids fun id _ => ?_
  have hsome := nameOf?_isSome_iff h id
  cases hname : nameOf? definitions id with
  | none =>
    rw [hname] at hsome
    rw [if_neg fun hnumbered => by simpa using hsome.mpr hnumbered]
    rfl
  | some name =>
    rw [if_pos (hsome.mp (by rw [hname]; rfl))]
    rfl

section References

variable {path name : String} {node : Node} {id : Int}

lemma integersIn_map_int (numbers : List Int) : integersIn (numbers.map .int) = numbers := by
  rw [integersIn, List.filterMap_map]
  exact List.filterMap_some

lemma referenceFaultsOf_of_compiled {bases : List Int} (hid : node.HasId id)
    (hname : node.HasName name) (hbases : node.HasBases bases)
    (hcompiled : (output.contract? path name).isSome) :
    referenceFaultsOf output path node =
      unknownNumbers output name (bases.filter fun base => base ≠ id) ++
        unknownNumbers output name (Library.referenced node) := by
  unfold referenceFaultsOf
  rw [hid.1, hname, hbases.1]
  dsimp only
  rw [if_pos hcompiled, integersIn_map_int]

/-- Where nothing was analysed, bases that the node may have are not followed. -/
lemma referenceFaultsOf_of_not_compiled (hname : node.HasName name)
    (hnot : ¬(output.contract? path name).isSome) : referenceFaultsOf output path node = [] := by
  unfold referenceFaultsOf
  rw [hname]
  split
  · next heq _ =>
    cases heq
    exact if_neg hnot
  · rfl

end References

lemma referenceFaultsOf_eq {place : String × Node} {definition : Definition}
    (h : define config locate output place = .ok definition) :
    referenceFaultsOf output place.1 place.2 =
      (definition.analysis.map fun analysis => (definition.name, analysis)).toList.flatMap
        fun entry => unknownNumbers output entry.1 entry.2.inherit ++
          unknownNumbers output entry.1 entry.2.libraries := by
  obtain ⟨hid, hname, hanalysis⟩ := define_eq_ok_iff.mp h
  rw [name?_eq_some_iff] at hname
  cases hcontract : output.contract? place.1 definition.name with
  | none =>
    rw [hcontract] at hanalysis
    rw [referenceFaultsOf_of_not_compiled hname (by simp [hcontract]),
      show definition.analysis = none from hanalysis]
    rfl
  | some contract =>
    rw [hcontract] at hanalysis
    obtain ⟨bases, hbases, hanalysis⟩ := hanalysis
    rw [referenceFaultsOf_of_compiled (id?_eq_some_iff.mp hid) hname (bases?_eq_some_iff.mp hbases)
      (by simp [hcontract]), hanalysis]
    simp [analysisOf]

lemma failsWith_completions {definitions : List Definition}
    (h : DefinedFrom config locate output definitions) :
    FailsWith (definitionFaults output (referenceFaultsOf output)) (completions definitions) := by
  have hfaults : definitionFaults output (referenceFaultsOf output) =
      (analyses definitions).flatMap fun entry =>
        unknownNumbers output entry.1 entry.2.inherit ++
          unknownNumbers output entry.1 entry.2.libraries := by
    unfold analyses
    rw [definitionFaults_eq, List.filterMap_eq_flatMap_toList, List.flatMap_assoc]
    exact flatMap_forall₂ h fun place definition hdefine => referenceFaultsOf_eq hdefine
  rw [hfaults]
  refine failsWith_mapM (analyses definitions) fun entry _ => ?_
  refine failsWith_bind (failsWith_resolve h entry.1 entry.2.inherit) fun inherit _ => ?_
  exact failsWith_return (failsWith_resolve h entry.1 entry.2.libraries)

lemma failsWith_validate (config : Config) (locate : Locator) (output : Output) :
    FailsWith (faults output) (validate config locate output) := by
  refine failsWith_bind (failsWith_register output) fun run _ => ?_
  refine failsWith_bind ?_ fun definitions hdefinitions => ?_
  · rw [definitionFaults_eq]
    exact failsWith_mapM _ fun place _ => failsWith_define place
  · exact failsWith_return (failsWith_completions (mapM_eq_ok_iff.mp hdefinitions))

/-! ### An output without faults is well formed -/

lemma placeFaults_eq_nil_iff :
    placeFaults output = [] ↔ ∀ path name contract, output.contract? path name = some contract →
      ∀ src library offset, (src, library, offset) ∈ Link.places contract.bytecode →
        Encloses contract.bytecode.object offset := by
  rw [placeFaults_eq]
  simp only [List.flatMap_eq_nil_iff, Prod.forall, mem_compiled_iff, ite_eq_left_iff,
    reduceCtorEq, imp_false, not_not]

lemma attributeFaultsOf_eq_nil_iff {path : String} {node : Node} :
    attributeFaultsOf output path node = [] ↔
      ∃ id name, node.HasId id ∧ node.HasName name ∧
        ((output.contract? path name).isSome → ∃ bases, node.HasBases bases) := by
  unfold attributeFaultsOf
  simp only [List.append_eq_nil_iff, ite_eq_left_iff, reduceCtorEq, imp_false, not_not]
  constructor
  · rintro ⟨⟨id, hid⟩, ⟨name, hname⟩, hbases⟩
    rw [isCompiled_iff hname] at hbases
    exact ⟨id, name, hid, hname, hbases⟩
  · rintro ⟨id, name, hid, hname, hbases⟩
    rw [isCompiled_iff hname]
    exact ⟨⟨id, hid⟩, ⟨name, hname⟩, hbases⟩

lemma unknownNumbers_eq_nil_iff {contract : String} {ids : List Int} :
    unknownNumbers output contract ids = [] ↔ ∀ id ∈ ids, IsNumbered output id := by
  unfold unknownNumbers
  simp only [List.flatMap_eq_nil_iff, ite_eq_left_iff, reduceCtorEq, imp_false, not_not]

lemma referenceFaultsOf_eq_nil_iff {path : String} {node : Node}
    (h : attributeFaultsOf output path node = []) :
    referenceFaultsOf output path node = [] ↔
      ∀ id name bases, node.HasId id → node.HasName name → node.HasBases bases →
        (output.contract? path name).isSome →
        (∀ base ∈ bases, base ≠ id → IsNumbered output base) ∧
        ∀ library ∈ Library.referenced node, IsNumbered output library := by
  have hnil : ∀ {id name bases}, node.HasId id → node.HasName name → node.HasBases bases →
      (output.contract? path name).isSome → (referenceFaultsOf output path node = [] ↔
        (∀ base ∈ bases, base ≠ id → IsNumbered output base) ∧
        ∀ library ∈ Library.referenced node, IsNumbered output library) := by
    intro id name bases hid hname hbases hcompiled
    rw [referenceFaultsOf_of_compiled hid hname hbases hcompiled]
    simp only [List.append_eq_nil_iff, unknownNumbers_eq_nil_iff, List.mem_filter,
      decide_eq_true_eq, and_imp]
  constructor
  · intro hnone id name bases hid hname hbases hcompiled
    exact (hnil hid hname hbases hcompiled).mp hnone
  · intro hknown
    obtain ⟨id, name, hid, hname, hattributes⟩ := attributeFaultsOf_eq_nil_iff.mp h
    by_cases hcompiled : (output.contract? path name).isSome
    · obtain ⟨bases, hbases⟩ := hattributes hcompiled
      exact (hnil hid hname hbases hcompiled).mpr (hknown id name bases hid hname hbases hcompiled)
    · exact referenceFaultsOf_of_not_compiled hname hcompiled

lemma faults_eq_nil_iff (output : Output) : faults output = [] ↔ WellFormed output := by
  unfold faults
  rw [wellFormed_iff]
  simp only [List.append_eq_nil_iff, definitionFaults_eq, List.flatMap_eq_nil_iff, Prod.forall,
    placeFaults_eq_nil_iff, ← attributeFaultsOf_eq_nil_iff]
  refine and_congr_right fun _ => and_congr_right fun hattributes => ?_
  exact forall₃_congr fun path node hmem =>
    referenceFaultsOf_eq_nil_iff (hattributes path node hmem)

lemma exists_validate_iff_wellFormed (config : Config) (locate : Locator) (output : Output) :
    (∃ run, validate config locate output = .ok run) ↔ WellFormed output := by
  rw [(failsWith_validate config locate output).exists_ok_iff, faults_eq_nil_iff]

/-- A validation succeeds exactly on well-formed outputs, whatever the rules, the layouts and the
places, and on any other output it fails with the first of its faults. -/
theorem validate_fails_with_first_fault (config : Config) (locate : Locator) (output : Output) :
    ((∃ run, validate config locate output = .ok run) ↔ WellFormed output) ∧
      ∀ error, validate config locate output = .error error ↔
        (faults output).head? = some error := by
  constructor
  · exact exists_validate_iff_wellFormed config locate output
  · exact (failsWith_validate config locate output).eq_error_iff

/-- A token that does not list its bases, in a source that compiles some contracts, and a vault with
some bases. -/
def tokenAndVault (compiled : List (String × String)) (bases : List Int) : Output :=
  outputOf [("token.sol", compiled, [.object [("id", .int 1), ("name", .text "Token"),
      ("nodeType", .text "ContractDefinition"), ("src", .text "0:9:0")]]),
    ("vault.sol", [("Vault", "")], [contractNode 2 "Vault" bases []])]

theorem tokenAndVault_diagnosed :
    validate {} rawLocator (tokenAndVault [("Token", "")] [2, 7]) =
        .error (.missingAttribute "ContractDefinition" "0:9:0" "linearizedBaseContracts") ∧
      validate {} rawLocator (tokenAndVault [] [2, 7]) = .error (.unresolvedReference "Vault" 7) ∧
      WellFormed (tokenAndVault [] [2, 1]) := by
  obtain ⟨-, htoken⟩ :=
    validate_fails_with_first_fault {} rawLocator (tokenAndVault [("Token", "")] [2, 7])
  obtain ⟨-, hvault⟩ := validate_fails_with_first_fault {} rawLocator (tokenAndVault [] [2, 7])
  obtain ⟨hok, -⟩ := validate_fails_with_first_fault {} rawLocator (tokenAndVault [] [2, 1])
  have hinherit : ((validate {} rawLocator (tokenAndVault [] [2, 1])).toOption.bind fun run =>
      (run.get? "Vault").map ContractRecord.inherit) = some ["Token"] := by decide +kernel
  obtain ⟨run, hrun, -⟩ := exists_ok_of_toOption hinherit
  exact ⟨(htoken _).mpr (by decide +kernel), (hvault _).mpr (by decide +kernel), hok.mp ⟨run, hrun⟩⟩

end Proofs

end UpgradeAudit
