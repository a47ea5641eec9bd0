import UpgradeAudit.Proofs.Traversal
import UpgradeAudit.Validation.Validate

/-!
# What a compiler output says about a name

Contracts of one name may be compiled from several sources and defined several times. The two
tables of an output are read here by name and by number: the last source that compiles a name, the
last definition of a name among the sources that compile it, and the last definition of a number.
-/

namespace UpgradeAudit.Proofs

open Compiler (Output)
open Validation (definitionNodes)

variable {output : Output} {path name : String}

lemma mem_compiled_iff {contract : Compiler.Contract} :
    (path, name, contract) ∈ output.compiled ↔ output.contract? path name = some contract := by
  unfold Output.compiled Output.contract?
  simp only [List.mem_flatMap, List.mem_map, Option.bind_eq_some_iff, Prod.exists, Prod.mk.injEq]
  constructor
  · rintro ⟨_, contracts, hpath, _, _, hname, rfl, rfl, rfl⟩
    exact ⟨contracts, (Table.mem_entries_iff _).mp hpath, (Table.mem_entries_iff _).mp hname⟩
  · rintro ⟨contracts, hpath, hname⟩
    exact ⟨path, contracts, (Table.mem_entries_iff _).mpr hpath, name, contract,
      (Table.mem_entries_iff _).mpr hname, rfl, rfl, rfl⟩

lemma pairwise_flatMap_entries {α β : Type} (t : Table α) (f : String × α → List (String × β))
    (hf : ∀ entry, ∀ item ∈ f entry, item.1 = entry.1) :
    (t.entries.flatMap f).Pairwise fun a b => a.1 ≤ b.1 := by
  rw [List.pairwise_flatMap]
  constructor
  · intro entry _
    refine List.pairwise_of_forall_mem_list fun a ha b hb => ?_
    have hkey : a.1 = b.1 := (hf entry a ha).trans (hf entry b hb).symm
    exact hkey ▸ String.le_refl a.1
  · refine t.sorted.imp fun {first second} hlt a ha b hb => ?_
    rw [hf first a ha, hf second b hb]
    exact Std.le_of_lt hlt

lemma compiled_pairwise (output : Output) : output.compiled.Pairwise fun a b => a.1 ≤ b.1 := by
  refine pairwise_flatMap_entries _ _ fun source item hitem => ?_
  obtain ⟨contract, _, rfl⟩ := List.mem_map.mp hitem
  rfl

lemma definitionNodes_pairwise (output : Output) :
    (definitionNodes output).Pairwise fun a b => a.1 ≤ b.1 := by
  refine pairwise_flatMap_entries _ _ fun source item hitem => ?_
  obtain ⟨node, _, rfl⟩ := List.mem_map.mp hitem
  rfl

lemma mem_definitionNodes_iff {node : Node} :
    (path, node) ∈ definitionNodes output ↔
      ∃ source, output.sources.get? path = some source ∧
        node ∈ Node.findAll source.ast "ContractDefinition" := by
  unfold definitionNodes
  simp only [List.mem_flatMap, List.mem_map, Prod.exists, Prod.mk.injEq]
  constructor
  · rintro ⟨_, source, hpath, _, hnode, rfl, rfl⟩
    exact ⟨source, (Table.mem_entries_iff _).mp hpath, hnode⟩
  · rintro ⟨source, hpath, hnode⟩
    exact ⟨path, source, (Table.mem_entries_iff _).mpr hpath, node, hnode, rfl, rfl⟩

/-- Where all matches lie in one source, the last of all is the last in that source. -/
lemma findRev?_definitionNodes {p : String × Node → Bool} {source : Compiler.Source}
    (hsource : output.sources.get? path = some source)
    (honly : ∀ place ∈ definitionNodes output, p place → place.1 = path) :
    (definitionNodes output).findRev? p =
      ((Node.findAll source.ast "ContractDefinition").findRev? fun node => p (path, node)).map
        fun node => (path, node) := by
  have hsorted : SortedByKey output.sources.entries := output.sources.sorted
  obtain ⟨before, after, hentries⟩ :=
    List.append_of_mem ((Table.mem_entries_iff output.sources).mpr hsource)
  have hother : ∀ entry ∈ output.sources.entries, entry.1 ≠ path →
      ∀ place ∈ (Node.findAll entry.2.ast "ContractDefinition").map fun node => (entry.1, node),
        ¬p place := by
    intro entry hentry hne place hplace hp
    have hpath : place.1 = path := honly place (List.mem_flatMap.mpr ⟨entry, hentry, hplace⟩) hp
    obtain ⟨node, -, rfl⟩ := List.mem_map.mp hplace
    exact hne hpath
  unfold definitionNodes
  rw [hentries] at hsorted hother ⊢
  obtain ⟨-, hafter, hbefore⟩ := List.pairwise_append.mp hsorted
  have hfirst := findRev?_flatMap_eq_none fun entry (hentry : entry ∈ before) =>
    hother entry (List.mem_append_left _ hentry) fun heq =>
      String.lt_irrefl path (heq ▸ hbefore entry hentry (path, source) List.mem_cons_self)
  have hlast := findRev?_flatMap_eq_none fun entry (hentry : entry ∈ after) =>
    hother entry (List.mem_append_right _ (List.mem_cons_of_mem _ hentry)) fun heq =>
      String.lt_irrefl path (heq ▸ (List.pairwise_cons.mp hafter).1 entry hentry)
  rw [List.flatMap_append, List.flatMap_cons, findRev?_append, findRev?_append, hfirst, hlast,
    Option.none_or, Option.or_none, findRev?_map]

/-- The last path from which a contract of a name was compiled, with that contract. -/
structure LastCompiled (output : Output) (name path : String) (contract : Compiler.Contract) :
    Prop where
  compiled : output.contract? path name = some contract
  last : ∀ other, (output.contract? other name).isSome → other ≤ path

lemma LastCompiled.unique {path' : String} {contract contract' : Compiler.Contract}
    (h : LastCompiled output name path contract) (h' : LastCompiled output name path' contract') :
    contract = contract' := by
  have hle : path ≤ path' := h'.last path (by rw [h.compiled]; rfl)
  have hge : path' ≤ path := h.last path' (by rw [h'.compiled]; rfl)
  have hpath : path = path' := String.le_antisymm hle hge
  have hcontract := h.compiled
  rw [hpath, h'.compiled] at hcontract
  exact (Option.some.inj hcontract).symm

lemma lastCompiled_of_findRev? {item : String × String × Compiler.Contract}
    (h : (output.compiled.findRev? fun item => item.2.1 = name) = some item) :
    LastCompiled output name item.1 item.2.2 := by
  have hname : item.2.1 = name := by simpa using findRev?_holds h
  constructor
  · rw [← hname]
    exact mem_compiled_iff.mp (mem_of_findRev? h)
  · intro other hother
    obtain ⟨contract, hcontract⟩ := Option.isSome_iff_exists.mp hother
    exact findRev?_greatest (compiled_pairwise output) h (mem_compiled_iff.mpr hcontract) (by simp)

/-- Whether a definition has a name that was compiled from its own source. -/
def definesCompiled (output : Output) (name : String) (place : String × Node) : Bool :=
  Node.name? place.2 = some name && (output.contract? place.1 name).isSome

/-- The last definition of a name among the sources that compile it. -/
def lastDefinition? (output : Output) (name : String) : Option (String × Node) :=
  (definitionNodes output).findRev? (definesCompiled output name)

/-- The last definition of a number. -/
def lastNumbered? (output : Output) (id : Int) : Option (String × Node) :=
  (definitionNodes output).findRev? fun place => Node.id? place.2 = some id

/-- What a number stands for: the name of its last definition. -/
def nameOfNumber? (output : Output) (id : Int) : Option String :=
  (lastNumbered? output id).bind fun place => Node.name? place.2

lemma definesCompiled_iff {place : String × Node} :
    definesCompiled output name place ↔
      Node.name? place.2 = some name ∧ (output.contract? place.1 name).isSome := by
  simp [definesCompiled]

lemma mem_of_lastDefinition? {node : Node} (h : lastDefinition? output name = some (path, node)) :
    (path, node) ∈ definitionNodes output ∧ Node.name? node = some name ∧
      (output.contract? path name).isSome :=
  ⟨mem_of_findRev? h, definesCompiled_iff.mp (findRev?_holds h)⟩

lemma mem_of_nameOfNumber? {id : Int} (h : nameOfNumber? output id = some name) :
    ∃ path node, (path, node) ∈ definitionNodes output ∧ Node.id? node = some id ∧
      Node.name? node = some name := by
  obtain ⟨⟨path, node⟩, hplace, hname⟩ := Option.bind_eq_some_iff.mp h
  have hid : Node.id? node = some id := by simpa using findRev?_holds hplace
  exact ⟨path, node, mem_of_findRev? hplace, hid, hname⟩

/-- Where the last source that compiles a name defines it, its last definition is one of those
there. -/
lemma lastDefinition?_of_lastCompiled {contract : Compiler.Contract} {source : Compiler.Source}
    {node : Node} (h : LastCompiled output name path contract)
    (hsource : output.sources.get? path = some source)
    (hnode : node ∈ Node.findAll source.ast "ContractDefinition")
    (hname : Node.name? node = some name) :
    ∃ last ∈ Node.findAll source.ast "ContractDefinition", Node.name? last = some name ∧
      lastDefinition? output name = some (path, last) := by
  have hmem : (path, node) ∈ definitionNodes output :=
    mem_definitionNodes_iff.mpr ⟨source, hsource, hnode⟩
  have hdefines : definesCompiled output name (path, node) :=
    definesCompiled_iff.mpr ⟨hname, by rw [h.compiled]; rfl⟩
  cases hlast : lastDefinition? output name with
  | none => exact absurd hdefines (findRev?_eq_none_iff.mp hlast _ hmem)
  | some place =>
    obtain ⟨path', last⟩ := place
    obtain ⟨hmem', hname', hcompiled⟩ := mem_of_lastDefinition? hlast
    have hle : path ≤ path' :=
      findRev?_greatest (definitionNodes_pairwise output) hlast hmem hdefines
    obtain rfl : path' = path := String.le_antisymm (h.last path' hcompiled) hle
    obtain ⟨source', hsource', hlast'⟩ := mem_definitionNodes_iff.mp hmem'
    obtain rfl := Option.some.inj (hsource'.symm.trans hsource)
    exact ⟨last, hlast', hname', rfl⟩

/-! ### Outputs written out -/

/-- A contract definition in a syntax tree. -/
def contractNode (id : Int) (name : String) (bases : List Int) (members : List Node) : Node :=
  .object [("id", .int id), ("linearizedBaseContracts", .array (bases.map .int)),
    ("name", .text name), ("nodeType", .text "ContractDefinition"), ("nodes", .array members)]

/-- The output of sources, each with its path, its compiled contracts and its definitions. -/
def outputOf (sources : List (String × List (String × String) × List Node)) : Output where
  contracts := Table.ofList (sources.map fun source =>
    (source.1, Table.ofList (source.2.1.map fun contract => (contract.1, ⟨⟨contract.2, ∅⟩⟩))))
  sources := Table.ofList (sources.map fun source =>
    (source.1, ⟨0, .object [("nodeType", .text "SourceUnit"), ("nodes", .array source.2.2)]⟩))

end UpgradeAudit.Proofs
