import Mathlib.Data.List.Nodup
import Mathlib.Data.Prod.Basic
import UpgradeAudit.Detector
import UpgradeAudit.Proofs.SourceOrder
import UpgradeAudit.Table.Lemmas

/-!
# The findings are the unsafe constructs

What is unsafe in a contract is described here by the values of its definition and the tables of its
bytecode, without any search: constructors and calls by the paths at which they stand, at whatever
depth, variables, structs and enums by their positions among the members, and libraries by the keys
under which they are linked. The detectors report each of these once and nothing else, rule by rule.
-/

namespace UpgradeAudit

open Json (Value)

/-- A construct that is unsafe behind a proxy, and where it stands: at a path in the definition of
the contract, at a position among the members, or in the table of links. -/
inductive UnsafeConstruct where
  | constructor (path : Path) (function : Node)
  | delegatecall (path : Path) (call : Node)
  | selfdestruct (path : Path) (call : Node)
  | assignedVariable (index : Nat) (declaration : Node)
  | immutableVariable (index : Nat) (declaration : Node)
  | structDefinition (index : Nat) (definition : Node)
  | enumDefinition (index : Nat) (definition : Node)
  | linkedLibrary (source library : String)

namespace Node

/-- A node of a kind stands at a path. -/
def StandsAt (contract : Node) (nodeType : String) (path : Path) (found : Node) : Prop :=
  Value.valueAt? contract path = some found ∧ Value.get? found "nodeType" = some (.text nodeType)

/-- A node of a kind is the member at a position. -/
def IsMember (contract : Node) (nodeType : String) (index : Nat) (found : Node) : Prop :=
  (∃ items, Value.get? contract "nodes" = some (.array items) ∧ items[index]? = some found) ∧
    Value.get? found "nodeType" = some (.text nodeType)

/-- An attribute is an array that is not empty. -/
def HasItems (node : Node) (key : String) : Prop :=
  ∃ item rest, Value.get? node key = some (.array (item :: rest))

/-- The type identifier of what a call calls starts in some way. -/
def CalleeStarts (call : Node) (lead : String) : Prop :=
  ∃ callee types rest, Value.get? call "expression" = some callee ∧
    Value.get? callee "typeDescriptions" = some types ∧
    Value.get? types "typeIdentifier" = some (.text (lead ++ rest))

end Node

namespace UnsafeConstruct

open Node (CalleeStarts HasItems IsMember StandsAt)

/-- A construct is in a contract. -/
def OccursIn (target : Target) : UnsafeConstruct → Prop
  | constructor path function =>
    StandsAt target.contract "FunctionDefinition" path function ∧
      Value.get? function "kind" = some (.text "constructor") ∧
      ((∃ body, Value.get? function "body" = some body ∧ HasItems body "statements") ∨
        HasItems function "modifiers")
  | delegatecall path call =>
    StandsAt target.contract "FunctionCall" path call ∧
      CalleeStarts call "t_function_baredelegatecall_"
  | selfdestruct path call =>
    StandsAt target.contract "FunctionCall" path call ∧
      CalleeStarts call "t_function_selfdestruct_"
  | assignedVariable index declaration =>
    IsMember target.contract "VariableDeclaration" index declaration ∧
      Value.get? declaration "constant" ≠ some (.bool true) ∧
      ∃ value, Value.get? declaration "value" = some value ∧ value ≠ .null
  | immutableVariable index declaration =>
    IsMember target.contract "VariableDeclaration" index declaration ∧
      Value.get? declaration "mutability" = some (.text "immutable")
  | structDefinition index definition =>
    IsMember target.contract "StructDefinition" index definition
  | enumDefinition index definition =>
    IsMember target.contract "EnumDefinition" index definition
  | linkedLibrary source library =>
    ∃ libraries places, target.bytecode.linkReferences.get? source = some libraries ∧
      libraries.get? library = some places

/-- The rule that a construct is up to. -/
def detector : UnsafeConstruct → Detector
  | constructor .. => .constructor
  | delegatecall .. => .opcode
  | selfdestruct .. => .opcode
  | assignedVariable .. => .stateVariable
  | immutableVariable .. => .stateVariable
  | structDefinition .. => .structDefinition
  | enumDefinition .. => .enumDefinition
  | linkedLibrary .. => .linking

/-- The place of a construct in the order of the report. -/
def rank : UnsafeConstruct → Nat
  | constructor .. => 0
  | delegatecall .. => 1
  | selfdestruct .. => 1
  | assignedVariable .. => 2
  | immutableVariable .. => 2
  | structDefinition .. => 3
  | enumDefinition .. => 4
  | linkedLibrary .. => 5

/-- What is reported of a construct. -/
def finding (target : Target) : UnsafeConstruct → Finding
  | constructor _ function => .constructor target.contractName (target.locate function)
  | delegatecall _ call => .delegatecall (target.locate call)
  | selfdestruct _ call => .selfdestruct (target.locate call)
  | assignedVariable _ declaration =>
    .stateVariableAssignment (Node.nameOrEmpty declaration) (target.locate declaration)
  | immutableVariable _ declaration =>
    .stateVariableImmutable (Node.nameOrEmpty declaration) (target.locate declaration)
  | structDefinition _ definition =>
    .structDefinition (Node.nameOrEmpty definition) (target.locate definition)
  | enumDefinition _ definition =>
    .enumDefinition (Node.nameOrEmpty definition) (target.locate definition)
  | linkedLibrary source library => .externalLibraryLinking library source

end UnsafeConstruct

namespace Proofs

open Node (CalleeStarts HasItems IsMember StandsAt)

/-! ### What the attributes of a node say of its values -/

section Attributes

lemma list_isEmpty_eq_false_iff {node : Node} {key : String} :
    (Node.list node key).isEmpty = false ↔ HasItems node key := by
  unfold HasItems
  simp only [← Node.list_eq_cons_iff]
  cases Node.list node key with
  | nil => simp
  | cons item rest => simp

lemma isConstructor_iff {function : Node} :
    Node.isConstructor function ↔ Value.get? function "kind" = some (.text "constructor") := by
  rw [Node.isConstructor, beq_iff_eq, Node.text?_eq_some_iff]

lemma statements_isEmpty_eq_false_iff {function : Node} :
    (Node.statements function).isEmpty = false ↔
      ∃ body, Value.get? function "body" = some body ∧ HasItems body "statements" := by
  unfold Node.statements
  constructor
  · intro h
    cases hbody : Node.attribute? function "body" with
    | none => simp [hbody] at h
    | some body =>
      rw [hbody] at h
      exact ⟨body, (Node.attribute?_eq_some_iff.mp hbody).1, list_isEmpty_eq_false_iff.mp h⟩
  · rintro ⟨body, hbody, hitems⟩
    have hnull : body ≠ .null := by
      rintro rfl
      obtain ⟨item, rest, hget⟩ := hitems
      cases hget
    rw [Node.attribute?_eq_some_iff.mpr ⟨hbody, hnull⟩]
    exact list_isEmpty_eq_false_iff.mpr hitems

lemma doesSomething_iff {function : Node} : Node.doesSomething function ↔
    (∃ body, Value.get? function "body" = some body ∧ HasItems body "statements") ∨
      HasItems function "modifiers" := by
  rw [Node.doesSomething, Bool.or_eq_true, Bool.not_eq_true', Bool.not_eq_true',
    statements_isEmpty_eq_false_iff, list_isEmpty_eq_false_iff]

lemma callsType_iff {call : Node} {lead : String} :
    Node.callsType lead call ↔ CalleeStarts call lead := by
  have hcalls : Node.callsType lead call ↔
      ∃ rest, Node.calleeType? call = some (lead ++ rest) := by
    unfold Node.callsType
    cases Node.calleeType? call with
    | none => simp
    | some type => simp [Text.startsWith_toList_iff]
  rw [hcalls]
  unfold Node.calleeType? CalleeStarts
  simp only [Option.bind_eq_some_iff, Node.attribute?_eq_some_iff,
    Node.typeIdentifier?_eq_some_iff]
  constructor
  · rintro ⟨rest, callee, ⟨hcallee, -⟩, types, htypes, htype⟩
    exact ⟨callee, types, rest, hcallee, htypes, htype⟩
  · rintro ⟨callee, types, rest, hcallee, htypes, htype⟩
    refine ⟨rest, callee, ⟨hcallee, ?_⟩, types, htypes, htype⟩
    rintro rfl
    cases htypes

lemma isDelegatecall_iff {call : Node} :
    Node.isDelegatecall call ↔ CalleeStarts call "t_function_baredelegatecall_" :=
  callsType_iff

lemma isSelfdestruct_iff {call : Node} :
    Node.isSelfdestruct call ↔ CalleeStarts call "t_function_selfdestruct_" :=
  callsType_iff

lemma isConstant_eq_false_iff {declaration : Node} : Node.isConstant declaration = false ↔
    Value.get? declaration "constant" ≠ some (.bool true) := by
  rw [ne_eq, ← Node.bool?_eq_some_iff, Node.isConstant]
  cases Node.bool? declaration "constant" with
  | none => simp
  | some constant => simp

lemma hasValue_iff {declaration : Node} : Node.hasValue declaration ↔
    ∃ value, Value.get? declaration "value" = some value ∧ value ≠ .null := by
  rw [Node.hasValue, Option.isSome_iff_exists]
  simp only [Node.attribute?_eq_some_iff]

lemma isImmutable_iff {declaration : Node} : Node.isImmutable declaration ↔
    Value.get? declaration "mutability" = some (.text "immutable") := by
  rw [Node.isImmutable, beq_iff_eq, Node.text?_eq_some_iff]

end Attributes

/-! ### Lists of all that has a property -/

/-- A list has all that has a property, each once, and nothing else. -/
structure ListsAll {α : Type} (p : α → Prop) (list : List α) : Prop where
  nodup : list.Nodup
  mem_iff : ∀ a, a ∈ list ↔ p a

lemma ListsAll.filter {α : Type} {p : α → Prop} {list : List α} (h : ListsAll p list)
    (q : α → Bool) : ListsAll (fun a => p a ∧ q a) (list.filter q) :=
  ⟨h.nodup.filter q, fun a => by rw [List.mem_filter, h.mem_iff]⟩

/-- If what each item gives has no repetitions, and no two items give the same, then neither do all
items together. -/
lemma ListsAll.flatMap {α β : Type} {p : α → Prop} {list : List α} (h : ListsAll p list)
    {f : α → List β} (hnodup : ∀ a, (f a).Nodup)
    (hsource : ∀ a a', p a → p a' → ∀ b ∈ f a, b ∈ f a' → a = a') :
    ListsAll (fun b => ∃ a, p a ∧ b ∈ f a) (list.flatMap f) := by
  constructor
  · refine List.nodup_flatMap.mpr ⟨fun a _ => hnodup a, ?_⟩
    refine List.Pairwise.imp_of_mem ?_ h.nodup
    intro a a' ha ha' hne b hb hb'
    exact hne (hsource a a' ((h.mem_iff a).mp ha) ((h.mem_iff a').mp ha') b hb hb')
  · intro b
    simp only [List.mem_flatMap, h.mem_iff]

/-- The nodes of a kind that are found in a contract are those that stand at any path. -/
lemma exists_listsAll_findAll (contract : Node) (nodeType : String) :
    ∃ found : List (Path × Node),
      ListsAll (fun occurrence => StandsAt contract nodeType occurrence.1 occurrence.2) found ∧
        Node.findAll contract nodeType = found.map Prod.snd := by
  obtain ⟨found, hfound, heq⟩ := exists_inSourceOrder contract nodeType
  refine ⟨found, ⟨?_, fun occurrence => hfound.mem_iff occurrence.1 occurrence.2⟩, heq⟩
  refine hfound.ordered.imp ?_
  rintro a b hbefore rfl
  rcases hbefore with hplace | ⟨-, hpath⟩
  · exact Nat.lt_irrefl _ hplace
  · exact List.lex_irrefl Nat.lt_irrefl _ hpath

lemma members_getElem?_iff {contract found : Node} {index : Nat} :
    (Node.members contract)[index]? = some found ↔
      ∃ items, Value.get? contract "nodes" = some (.array items) ∧ items[index]? = some found := by
  unfold Node.members Node.list
  cases Value.get? contract "nodes" with
  | none => simp
  | some value => cases value <;> simp [Value.items?]

lemma exists_listsAll_members (contract : Node) (nodeType : String) :
    ∃ found : List (Nat × Node),
      ListsAll (fun occurrence => IsMember contract nodeType occurrence.1 occurrence.2) found ∧
        ((Node.members contract).filter fun node => Node.hasType node nodeType) =
          found.map Prod.snd := by
  let indexed := (Node.members contract).zipIdx.map Prod.swap
  have hnodup : indexed.Nodup := by
    have hindices : ((Node.members contract).zipIdx.map Prod.snd).Nodup := by
      rw [List.zipIdx_map_snd]
      exact List.nodup_range'
    exact (List.Nodup.of_map _ hindices).map Prod.swap_leftInverse.injective
  refine ⟨indexed.filter fun occurrence => Node.hasType occurrence.2 nodeType,
    ⟨hnodup.filter _, ?_⟩, ?_⟩
  · rintro ⟨index, found⟩
    have hindex : (index, found) ∈ indexed ↔ (Node.members contract)[index]? = some found := by
      rw [← List.mk_mem_zipIdx_iff_getElem?]
      exact List.mem_map_of_injective Prod.swap_leftInverse.injective (a := (found, index))
    rw [List.mem_filter, hindex, members_getElem?_iff, Node.hasType_iff]
    rfl
  · have hmembers : indexed.map Prod.snd = Node.members contract := by
      rw [List.map_map]
      exact List.zipIdx_map_fst 0 (Node.members contract)
    rw [← hmembers, List.filter_map]
    rfl

/-- The libraries that are linked, under the paths that declare them. -/
lemma exists_listsAll_links (references : Table (Table (List LinkOffset))) :
    ∃ found : List (String × String),
      ListsAll (fun link => ∃ libraries places, references.get? link.1 = some libraries ∧
        libraries.get? link.2 = some places) found ∧
      found = references.entries.flatMap fun entry => entry.2.keys.map fun library =>
        (entry.1, library) := by
  have hentries : ListsAll (fun entry => references.get? entry.1 = some entry.2)
      references.entries :=
    ⟨List.Nodup.of_map Prod.fst references.keys_nodup, fun _ => references.mem_entries_iff⟩
  have hlinks := hentries.flatMap
    (f := fun entry => entry.2.keys.map fun library => (entry.1, library)) ?_ ?_
  · refine ⟨_, ⟨hlinks.nodup, ?_⟩, rfl⟩
    rintro ⟨source, library⟩
    simp [hlinks.mem_iff, Table.mem_keys_iff, Option.isSome_iff_exists]
  · intro entry
    exact entry.2.keys_nodup.map fun _ _ h => (Prod.mk.inj h).2
  · rintro ⟨source, libraries⟩ ⟨source', libraries'⟩ hget hget' link hlink hlink'
    obtain ⟨library, -, rfl⟩ := List.mem_map.mp hlink
    obtain ⟨library', -, heq⟩ := List.mem_map.mp hlink'
    obtain rfl : source' = source := (Prod.mk.inj heq).1
    exact Prod.ext rfl (Option.some.inj (hget.symm.trans hget'))

/-! ### Each rule reports its constructs -/

open UnsafeConstruct (detector finding OccursIn)

/-- A rule reports all constructs that it is about, each once, and nothing else. -/
def ReportsAll (target : Target) (rule : Detector) : Prop :=
  ∃ constructs, ListsAll (fun construct => construct.detector = rule ∧ construct.OccursIn target)
    constructs ∧ rule.detect target = constructs.map (finding target)

variable {target : Target}

lemma reportsAll_of_map {α : Type} {p : α → Prop} {rule : Detector} {found : List α}
    (hfound : ListsAll p found) (construct : α → UnsafeConstruct)
    (hinjective : Function.Injective construct)
    (hiff : ∀ c : UnsafeConstruct,
      (∃ a, p a ∧ construct a = c) ↔ c.detector = rule ∧ c.OccursIn target)
    (hdetect : rule.detect target = found.map fun a => finding target (construct a)) :
    ReportsAll target rule := by
  refine ⟨found.map construct, ⟨hfound.nodup.map hinjective, fun c => ?_⟩, ?_⟩
  · rw [← hiff, List.mem_map]
    simp only [hfound.mem_iff]
  · rw [hdetect, List.map_map]
    rfl

/-- A rule may report more than one construct of an occurrence. -/
lemma reportsAll_of_flatMap {α : Type} {p : α → Prop} {rule : Detector} {found : List α}
    (hfound : ListsAll p found) (constructs : α → List UnsafeConstruct)
    (hnodup : ∀ a, (constructs a).Nodup)
    (hsource : ∀ a a', ∀ c ∈ constructs a, c ∈ constructs a' → a = a')
    (hiff : ∀ c : UnsafeConstruct,
      (∃ a, p a ∧ c ∈ constructs a) ↔ c.detector = rule ∧ c.OccursIn target)
    (hdetect : rule.detect target = found.flatMap fun a => (constructs a).map (finding target)) :
    ReportsAll target rule := by
  have hlist := hfound.flatMap hnodup fun a a' _ _ => hsource a a'
  refine ⟨found.flatMap constructs, ⟨hlist.nodup, fun c => ?_⟩, ?_⟩
  · rw [hlist.mem_iff, hiff]
  · rw [hdetect, List.map_flatMap]

lemma reportsAll_constructor (target : Target) : ReportsAll target .constructor := by
  obtain ⟨found, hfound, heq⟩ := exists_listsAll_findAll target.contract "FunctionDefinition"
  apply reportsAll_of_map (hfound.filter fun occurrence =>
    Node.isConstructor occurrence.2 && Node.doesSomething occurrence.2)
    fun occurrence => .constructor occurrence.1 occurrence.2
  · rintro ⟨path, function⟩ ⟨path', function'⟩ h
    cases h
    rfl
  · intro c
    simp only [Bool.and_eq_true, isConstructor_iff, doesSomething_iff]
    cases c <;> simp [detector, OccursIn]
  · rw [Detector.detect, Target.constructors, heq, List.filter_map, List.map_map]
    rfl

lemma reportsAll_opcode (target : Target) : ReportsAll target .opcode := by
  obtain ⟨found, hfound, heq⟩ := exists_listsAll_findAll target.contract "FunctionCall"
  apply reportsAll_of_flatMap hfound fun occurrence =>
    (if Node.isDelegatecall occurrence.2 then [.delegatecall occurrence.1 occurrence.2] else []) ++
      (if Node.isSelfdestruct occurrence.2 then [.selfdestruct occurrence.1 occurrence.2] else [])
  · intro occurrence
    split <;> split <;> simp
  · grind
  · intro c
    simp only [List.mem_append, List.mem_ite_nil_right, List.mem_singleton, isDelegatecall_iff,
      isSelfdestruct_iff]
    cases c <;> simp [detector, OccursIn]
  · rw [Detector.detect, Target.opcodes, heq, List.flatMap_map]
    congr 1
    funext occurrence
    split <;> split <;> rfl

lemma reportsAll_stateVariable (target : Target) : ReportsAll target .stateVariable := by
  obtain ⟨found, hfound, heq⟩ := exists_listsAll_members target.contract "VariableDeclaration"
  apply reportsAll_of_flatMap hfound fun occurrence =>
    (if !Node.isConstant occurrence.2 && Node.hasValue occurrence.2 then
        [.assignedVariable occurrence.1 occurrence.2] else []) ++
      (if Node.isImmutable occurrence.2 then
        [.immutableVariable occurrence.1 occurrence.2] else [])
  · intro occurrence
    split <;> split <;> simp
  · grind
  · intro c
    simp only [List.mem_append, List.mem_ite_nil_right, List.mem_singleton, Bool.and_eq_true,
      Bool.not_eq_true', isConstant_eq_false_iff, hasValue_iff, isImmutable_iff]
    cases c <;> simp [detector, OccursIn]
  · have hdeclared : Node.declaredVariables target.contract = found.map Prod.snd := heq
    rw [Detector.detect, Target.stateVariables, hdeclared, List.flatMap_map]
    congr 1
    funext occurrence
    dsimp only
    split <;> split <;> rfl

lemma reportsAll_of_definitions {rule : Detector} {report : String → String → Finding}
    (nodeType : String) (construct : Nat → Node → UnsafeConstruct)
    (hinjective : Function.Injective2 construct)
    (hiff : ∀ c : UnsafeConstruct, (∃ index definition,
      IsMember target.contract nodeType index definition ∧ construct index definition = c) ↔
        c.detector = rule ∧ c.OccursIn target)
    (hfinding : ∀ index definition, finding target (construct index definition) =
      report (Node.nameOrEmpty definition) (target.locate definition))
    (hdetect : rule.detect target = target.definitions nodeType report) :
    ReportsAll target rule := by
  obtain ⟨found, hfound, heq⟩ := exists_listsAll_members target.contract nodeType
  apply reportsAll_of_map hfound fun occurrence => construct occurrence.1 occurrence.2
  · exact hinjective.uncurry
  · intro c
    rw [← hiff, Prod.exists]
  · simp only [hfinding]
    rw [hdetect, Target.definitions, heq, List.map_map]
    rfl

lemma reportsAll_structDefinition (target : Target) : ReportsAll target .structDefinition := by
  apply reportsAll_of_definitions "StructDefinition" UnsafeConstruct.structDefinition
  · exact fun _ _ _ _ h => UnsafeConstruct.structDefinition.inj h
  · intro c
    cases c <;> simp [detector, OccursIn]
  · exact fun _ _ => rfl
  · rfl

lemma reportsAll_enumDefinition (target : Target) : ReportsAll target .enumDefinition := by
  apply reportsAll_of_definitions "EnumDefinition" UnsafeConstruct.enumDefinition
  · exact fun _ _ _ _ h => UnsafeConstruct.enumDefinition.inj h
  · intro c
    cases c <;> simp [detector, OccursIn]
  · exact fun _ _ => rfl
  · rfl

lemma reportsAll_linking (target : Target) : ReportsAll target .linking := by
  obtain ⟨found, hfound, heq⟩ := exists_listsAll_links target.bytecode.linkReferences
  apply reportsAll_of_map hfound fun link => .linkedLibrary link.1 link.2
  · rintro ⟨source, library⟩ ⟨source', library'⟩ h
    cases h
    rfl
  · intro c
    cases c <;> simp [detector, OccursIn]
  · rw [Detector.detect, Target.linkedLibraries, heq, List.map_flatMap]
    simp only [List.map_map]
    rfl

lemma reportsAll (target : Target) (rule : Detector) : ReportsAll target rule := by
  cases rule with
  | constructor => exact reportsAll_constructor target
  | opcode => exact reportsAll_opcode target
  | stateVariable => exact reportsAll_stateVariable target
  | structDefinition => exact reportsAll_structDefinition target
  | enumDefinition => exact reportsAll_enumDefinition target
  | linking => exact reportsAll_linking target

lemma listsAll_rules : ListsAll (fun _ => True) Detector.all :=
  ⟨DetectorSuite.standard.nodup, fun rule => by cases rule <;> decide⟩

lemma rank_eq (construct : UnsafeConstruct) :
    construct.rank = Detector.all.idxOf construct.detector := by
  cases construct <;> rfl

/-- Constructs that are put together rule by rule are in the order of the rules. -/
lemma pairwise_rank {constructs : Detector → List UnsafeConstruct}
    (h : ∀ rule, ∀ c ∈ constructs rule, c.detector = rule) :
    (Detector.all.flatMap constructs).Pairwise fun a b => a.rank ≤ b.rank := by
  have hrank : ∀ rule, ∀ c ∈ constructs rule, c.rank = Detector.all.idxOf rule := by
    intro rule c hc
    rw [rank_eq, h rule c hc]
  have hordered : Detector.all.Pairwise fun a b =>
      Detector.all.idxOf a ≤ Detector.all.idxOf b := by decide
  refine List.pairwise_flatMap.mpr ⟨fun rule _ => ?_, hordered.imp ?_⟩
  · apply List.pairwise_of_forall_mem_list
    intro c hc c' hc'
    exact Nat.le_of_eq ((hrank rule c hc).trans (hrank rule c' hc').symm)
  · intro a b hle c hc c' hc'
    rw [hrank a c hc, hrank b c' hc']
    exact hle

/-- The rules together report all unsafe constructs of a contract, each once, and nothing else, in
the order of the rules. So nothing is reported of a contract exactly when it has none. -/
theorem findings_are_unsafe_constructs (target : Target) :
    (∃ constructs : List UnsafeConstruct, constructs.Nodup ∧
      (∀ construct, construct ∈ constructs ↔ construct.OccursIn target) ∧
      DetectorSuite.standard.detect target = constructs.map (finding target) ∧
      constructs.Pairwise fun a b => a.rank ≤ b.rank) ∧
      (DetectorSuite.standard.detect target = [] ↔
        ∀ construct : UnsafeConstruct, ¬construct.OccursIn target) := by
  choose constructs hlists hdetect using reportsAll target
  have hdetector : ∀ rule, ∀ c ∈ constructs rule, c.detector = rule :=
    fun rule c hc => (((hlists rule).mem_iff c).mp hc).1
  -- a construct is up to one rule, so no two rules report the same one
  have hall := listsAll_rules.flatMap (fun rule => (hlists rule).nodup)
    fun rule rule' _ _ c hc hc' => (hdetector rule c hc).symm.trans (hdetector rule' c hc')
  have hmem : ∀ construct,
      construct ∈ Detector.all.flatMap constructs ↔ construct.OccursIn target := by
    intro construct
    simp [hall.mem_iff, (hlists _).mem_iff]
  have hreport : DetectorSuite.standard.detect target =
      (Detector.all.flatMap constructs).map (finding target) := by
    rw [List.map_flatMap]
    exact List.flatMap_congr fun rule _ => hdetect rule
  refine ⟨⟨_, hall.nodup, hmem, hreport, pairwise_rank hdetector⟩, ?_⟩
  rw [hreport, List.map_eq_nil_iff, List.eq_nil_iff_forall_not_mem]
  simp only [hmem]

/-- A contract that breaks all rules, with its members in the opposite order. -/
def unsafeToken : Target where
  contract := .object [("name", .text "Token"), ("nodeType", .text "ContractDefinition"),
    ("nodes", .array [
      .object [("name", .text "Kind"), ("nodeType", .text "EnumDefinition"),
        ("src", .text "10:5:0")],
      .object [("name", .text "Item"), ("nodeType", .text "StructDefinition"),
        ("src", .text "20:5:0")],
      .object [("mutability", .text "immutable"), ("name", .text "owner"),
        ("nodeType", .text "VariableDeclaration"), ("src", .text "30:5:0"), ("value", .bool true)],
      .object [("body", .object [("statements", .array [
          .object [("expression", .object [("typeDescriptions",
              .object [("typeIdentifier", .text "t_function_baredelegatecall_nonpayable$")])]),
            ("nodeType", .text "FunctionCall"), ("src", .text "45:2:0")]])]),
        ("kind", .text "constructor"), ("nodeType", .text "FunctionDefinition"),
        ("src", .text "40:9:0")]])]
  bytecode := ⟨"", Table.ofList [("lib.sol", Table.ofList [("Lib", [])])]⟩
  locate := rawLocator

example : DetectorSuite.standard.detect unsafeToken =
    [.constructor "Token" "40:9:0", .delegatecall "45:2:0",
      .stateVariableAssignment "owner" "30:5:0", .stateVariableImmutable "owner" "30:5:0",
      .structDefinition "Item" "20:5:0", .enumDefinition "Kind" "10:5:0",
      .externalLibraryLinking "Lib" "lib.sol"] := by
  decide +kernel

end Proofs

end UpgradeAudit
