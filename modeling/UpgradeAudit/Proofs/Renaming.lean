import Mathlib.Data.Set.Function
import Mathlib.Logic.Equiv.Basic
import UpgradeAudit.Proofs.Agreement
import UpgradeAudit.Proofs.Diagnosis

/-!
# Sources under other paths

The passes of a validation go through the sources in the order of their paths, so that giving the
sources other paths may reorder them in any way. Where no name is compiled and no number defined in
two sources, this makes no difference: all that is looked up by a name or a number lies in one
source, and the order within a source does not change.
-/

namespace UpgradeAudit

def Table.mapKeys {α : Type} (rename : String → String) (t : Table α) : Table α :=
  Table.ofList (t.entries.map fun entry => (rename entry.1, entry.2))

/-- The output with its sources under other paths. -/
def Compiler.Output.rename (rename : String → String) (output : Compiler.Output) :
    Compiler.Output where
  contracts := output.contracts.mapKeys rename
  sources := output.sources.mapKeys rename

def Compiler.Output.paths (output : Compiler.Output) : Set String :=
  {path | (output.contracts.get? path).isSome ∨ (output.sources.get? path).isSome}

namespace Proofs

open Compiler (Output)
open Validation

section Keys

variable {α : Type} {rename : String → String} {t : Table α} {keys : Set String} {key : String}

lemma get?_mapKeys_eq_some_iff (h : Set.InjOn rename keys)
    (ht : ∀ key, (t.get? key).isSome → key ∈ keys) {value : α} :
    (t.mapKeys rename).get? key = some value ↔
      ∃ old, rename old = key ∧ t.get? old = some value := by
  unfold Table.mapKeys
  rw [get?_ofList, findRev?_map, Option.map_map, Option.map_eq_some_iff]
  constructor
  · rintro ⟨⟨old, found⟩, hfound, rfl⟩
    have hkey : rename old = key := by simpa using findRev?_holds hfound
    exact ⟨old, hkey, (Table.mem_entries_iff t).mp (mem_of_findRev? hfound)⟩
  · rintro ⟨old, rfl, hold⟩
    have hmem : (old, value) ∈ t.entries := (Table.mem_entries_iff t).mpr hold
    refine ⟨(old, value), findRev?_eq_some_of_unique hmem ?_ ?_, rfl⟩
    · simp
    · rintro ⟨other, found⟩ hmem' hother
      have hget : t.get? other = some found := (Table.mem_entries_iff t).mp hmem'
      have hkey : other = old := h (ht other (by rw [hget]; rfl)) (ht old (by rw [hold]; rfl))
        (by simpa using hother)
      subst hkey
      rw [Option.some.inj (hget.symm.trans hold)]

lemma get?_mapKeys (h : Set.InjOn rename keys) (ht : ∀ key, (t.get? key).isSome → key ∈ keys)
    (hkey : key ∈ keys) : (t.mapKeys rename).get? (rename key) = t.get? key := by
  ext value
  rw [get?_mapKeys_eq_some_iff h ht]
  constructor
  · rintro ⟨old, hold, hvalue⟩
    have heq : old = key := h (ht old (by rw [hvalue]; rfl)) hkey hold
    rwa [heq] at hvalue
  · intro hvalue
    exact ⟨key, rfl, hvalue⟩

end Keys

variable {config : Config} {locate : Locator} {output : Output} {rename : String → String}
  {path name : String}

lemma mem_paths_of_definitionNodes {node : Node} (h : (path, node) ∈ definitionNodes output) :
    path ∈ output.paths := by
  obtain ⟨source, hsource, -⟩ := mem_definitionNodes_iff.mp h
  exact Or.inr (by rw [hsource]; rfl)

lemma mem_paths_of_contract? {contract : Compiler.Contract}
    (h : output.contract? path name = some contract) : path ∈ output.paths := by
  obtain ⟨contracts, hcontracts, -⟩ := Option.bind_eq_some_iff.mp h
  exact Or.inl (by rw [hcontracts]; rfl)

section Renamed

variable (hrename : Set.InjOn rename output.paths)

include hrename

lemma contract?_rename_eq_some_iff {contract : Compiler.Contract} :
    (output.rename rename).contract? path name = some contract ↔
      ∃ old, rename old = path ∧ output.contract? old name = some contract := by
  unfold Output.contract? Output.rename
  simp only [Option.bind_eq_some_iff, get?_mapKeys_eq_some_iff hrename fun key hkey => Or.inl hkey]
  constructor
  · rintro ⟨contracts, ⟨old, hold, hcontracts⟩, hcontract⟩
    exact ⟨old, hold, contracts, hcontracts, hcontract⟩
  · rintro ⟨old, hold, contracts, hcontracts, hcontract⟩
    exact ⟨contracts, ⟨old, hold, hcontracts⟩, hcontract⟩

lemma contract?_rename (hpath : path ∈ output.paths) :
    (output.rename rename).contract? (rename path) name = output.contract? path name := by
  unfold Output.contract?
  rw [Output.rename, get?_mapKeys hrename (fun key hkey => Or.inl hkey) hpath]

lemma mem_definitionNodes_rename_iff {node : Node} :
    (path, node) ∈ definitionNodes (output.rename rename) ↔
      ∃ old, rename old = path ∧ (old, node) ∈ definitionNodes output := by
  simp only [mem_definitionNodes_iff, Output.rename,
    get?_mapKeys_eq_some_iff hrename fun key hkey => Or.inr hkey]
  constructor
  · rintro ⟨source, ⟨old, hold, hsource⟩, hnode⟩
    exact ⟨old, hold, source, hsource, hnode⟩
  · rintro ⟨old, hold, source, hsource, hnode⟩
    exact ⟨source, ⟨old, hold, hsource⟩, hnode⟩

lemma forall_definitionNodes_rename_iff {p : String → Node → Prop} :
    (∀ path node, (path, node) ∈ definitionNodes (output.rename rename) → p path node) ↔
      ∀ path node, (path, node) ∈ definitionNodes output → p (rename path) node := by
  simp only [mem_definitionNodes_rename_iff hrename]
  constructor
  · intro h path node hmem
    exact h (rename path) node ⟨path, rfl, hmem⟩
  · rintro h _ node ⟨old, rfl, hmem⟩
    exact h old node hmem

lemma isNumbered_rename_iff {id : Int} :
    IsNumbered (output.rename rename) id ↔ IsNumbered output id := by
  unfold IsNumbered
  simp only [Prod.exists, mem_definitionNodes_rename_iff hrename]
  constructor
  · rintro ⟨_, node, ⟨old, -, hmem⟩, hid⟩
    exact ⟨old, node, hmem, hid⟩
  · rintro ⟨old, node, hmem, hid⟩
    exact ⟨rename old, node, ⟨old, rfl, hmem⟩, hid⟩

/-- Whether an output is well formed is a matter of what its sources hold, not of their paths. -/
lemma wellFormed_rename_iff : WellFormed (output.rename rename) ↔ WellFormed output := by
  rw [wellFormed_iff, wellFormed_iff, forall_definitionNodes_rename_iff hrename,
    forall_definitionNodes_rename_iff hrename]
  refine and_congr ?_ (and_congr ?_ ?_)
  · simp only [contract?_rename_eq_some_iff hrename]
    constructor
    · intro h path name contract hcontract
      exact h (rename path) name contract ⟨path, rfl, hcontract⟩
    · rintro h _ name contract ⟨path, rfl, hcontract⟩
      exact h path name contract hcontract
  · refine forall₃_congr fun path node hmem => ?_
    simp only [contract?_rename hrename (mem_paths_of_definitionNodes hmem)]
  · refine forall₃_congr fun path node hmem => ?_
    simp only [contract?_rename hrename (mem_paths_of_definitionNodes hmem),
      isNumbered_rename_iff hrename]

lemma lastMatch_rename {p p' : String × Node → Bool}
    (hsame : ∀ path ∈ output.paths, ∀ node, p' (rename path, node) = p (path, node))
    (hone : ∀ a ∈ definitionNodes output, ∀ b ∈ definitionNodes output, p a → p b → a.1 = b.1) :
    (definitionNodes (output.rename rename)).findRev? p' =
      ((definitionNodes output).findRev? p).map fun place => (rename place.1, place.2) := by
  have hold : ∀ place ∈ definitionNodes (output.rename rename), p' place →
      ∃ path, place.1 = rename path ∧ (path, place.2) ∈ definitionNodes output ∧
        p (path, place.2) := by
    rintro ⟨_, node⟩ hmem hp
    obtain ⟨path, rfl, hold⟩ := (mem_definitionNodes_rename_iff hrename).mp hmem
    rw [hsame path (mem_paths_of_definitionNodes hold)] at hp
    exact ⟨path, rfl, hold, hp⟩
  -- where there is a match, all of them lie in its source, which keeps its order under the new path
  by_cases hmatch : ∃ place ∈ definitionNodes output, p place
  · obtain ⟨⟨path, node⟩, hmem, hp⟩ := hmatch
    obtain ⟨source, hsource, -⟩ := mem_definitionNodes_iff.mp hmem
    have hpath : path ∈ output.paths := mem_paths_of_definitionNodes hmem
    have hsource' : (output.rename rename).sources.get? (rename path) = some source := by
      rw [Output.rename, get?_mapKeys hrename (fun key hkey => Or.inr hkey) hpath, hsource]
    have honly : ∀ place ∈ definitionNodes output, p place → place.1 = path :=
      fun place hplace hplace' => hone place hplace (path, node) hmem hplace' hp
    have honly' : ∀ place ∈ definitionNodes (output.rename rename), p' place →
        place.1 = rename path := by
      intro place hplace hplace'
      obtain ⟨old, hpath, hmem, hp⟩ := hold place hplace hplace'
      rw [hpath]
      exact congrArg rename (honly (old, place.2) hmem hp)
    rw [findRev?_definitionNodes hsource' honly', findRev?_definitionNodes hsource honly,
      Option.map_map]
    simp only [hsame path hpath]
    rfl
  · have hnone : (definitionNodes output).findRev? p = none :=
      findRev?_eq_none_iff.mpr fun place hmem hp => hmatch ⟨place, hmem, hp⟩
    rw [hnone, Option.map_none]
    refine findRev?_eq_none_iff.mpr fun place hmem hp => ?_
    obtain ⟨path, -, hmem, hp⟩ := hold place hmem hp
    exact hmatch ⟨(path, place.2), hmem, hp⟩

end Renamed

/-- No name is compiled in two sources, and no number defined in two. -/
structure Separate (output : Output) : Prop where
  names : ∀ a ∈ output.compiled, ∀ b ∈ output.compiled, a.2.1 = b.2.1 → a.1 = b.1
  ids : ∀ a ∈ definitionNodes output, ∀ b ∈ definitionNodes output,
    (Node.id? a.2).isSome → Node.id? a.2 = Node.id? b.2 → a.1 = b.1

instance (output : Output) : Decidable (Separate output) :=
  decidable_of_iff (_ ∧ _) ⟨fun h => ⟨h.1, h.2⟩, fun h => ⟨h.names, h.ids⟩⟩

lemma Separate.path_eq (h : Separate output) {path path' : String}
    (hpath : (output.contract? path name).isSome) (hpath' : (output.contract? path' name).isSome) :
    path = path' := by
  obtain ⟨contract, hcontract⟩ := Option.isSome_iff_exists.mp hpath
  obtain ⟨contract', hcontract'⟩ := Option.isSome_iff_exists.mp hpath'
  exact h.names _ (mem_compiled_iff.mpr hcontract) _ (mem_compiled_iff.mpr hcontract') rfl

lemma lastDefinition?_rename (hrename : Set.InjOn rename output.paths) (h : Separate output)
    (name : String) :
    lastDefinition? (output.rename rename) name =
      (lastDefinition? output name).map fun place => (rename place.1, place.2) := by
  refine lastMatch_rename hrename (fun path hpath node => ?_) fun a _ b _ ha hb => ?_
  · unfold definesCompiled
    rw [contract?_rename hrename hpath]
  · exact h.path_eq (definesCompiled_iff.mp ha).2 (definesCompiled_iff.mp hb).2

lemma nameOfNumber?_rename (hrename : Set.InjOn rename output.paths) (h : Separate output)
    (id : Int) : nameOfNumber? (output.rename rename) id = nameOfNumber? output id := by
  have hlast : lastNumbered? (output.rename rename) id =
      (lastNumbered? output id).map fun place => (rename place.1, place.2) := by
    refine lastMatch_rename hrename (fun path hpath node => rfl) fun a ha b hb hida hidb => ?_
    rw [decide_eq_true_eq] at hida hidb
    exact h.ids a ha b hb (by rw [hida]; rfl) (hida.trans hidb.symm)
  unfold nameOfNumber?
  rw [hlast, Option.bind_map]
  rfl

lemma carriesOver_rename (hrename : Set.InjOn rename output.paths) (h : Separate output)
    (name : String) : CarriesOver output (output.rename rename) name where
  compiled := by
    intro path contract hlast
    have hpath : path ∈ output.paths := mem_paths_of_contract? hlast.compiled
    refine ⟨rename path, by rw [contract?_rename hrename hpath, hlast.compiled], ?_⟩
    intro other hother
    obtain ⟨contract', hcontract'⟩ := Option.isSome_iff_exists.mp hother
    obtain ⟨old, rfl, hold⟩ := (contract?_rename_eq_some_iff hrename).mp hcontract'
    obtain rfl : old = path := h.path_eq (by rw [hold]; rfl) (by rw [hlast.compiled]; rfl)
    exact String.le_refl _
  defined := by
    intro path node hdefinition
    have hpath := mem_paths_of_definitionNodes (mem_of_lastDefinition? hdefinition).1
    refine ⟨rename path, ?_, contract?_rename hrename hpath⟩
    rw [lastDefinition?_rename hrename h, hdefinition]
    rfl
  undefined := by
    intro hdefinition
    rw [lastDefinition?_rename hrename h, hdefinition]
    rfl
  numbers := by
    intro id found hfound
    rw [nameOfNumber?_rename hrename h, hfound]

lemma run_eq_of_rename (hrename : Set.InjOn rename output.paths) (h : Separate output)
    {run run' : ValidationRun} (hvalid : validate config locate output = .ok run)
    (hvalid' : validate config locate (output.rename rename) = .ok run') : run' = run := by
  refine congrArg ValidationRun.mk (Table.ext_get? fun name => ?_)
  change run'.get? name = run.get? name
  cases hrecord : run.get? name with
  | some record =>
    exact record_carries_over (carriesOver_rename hrename h name) hvalid hvalid' hrecord
  | none =>
    rw [← Option.not_isSome_iff_eq_none, get?_validate_isSome_iff hvalid']
    rintro ⟨path, hpath⟩
    obtain ⟨contract, hcontract⟩ := Option.isSome_iff_exists.mp hpath
    obtain ⟨old, -, hold⟩ := (contract?_rename_eq_some_iff hrename).mp hcontract
    have hsome := (get?_validate_isSome_iff hvalid name).mpr ⟨old, by rw [hold]; rfl⟩
    rw [hrecord] at hsome
    cases hsome

/-- Giving the sources other paths, and so any other order, changes neither whether an output can be
validated nor what comes of it. -/
theorem validate_rename_iff (hrename : Set.InjOn rename output.paths) (h : Separate output)
    (config : Config) (locate : Locator) (run : ValidationRun) :
    validate config locate (output.rename rename) = .ok run ↔
      validate config locate output = .ok run := by
  have hexists : (∃ run, validate config locate (output.rename rename) = .ok run) ↔
      ∃ run, validate config locate output = .ok run := by
    rw [exists_validate_iff_wellFormed, exists_validate_iff_wellFormed,
      wellFormed_rename_iff hrename]
  constructor
  · intro hrenamed
    obtain ⟨before, hbefore⟩ := hexists.mp ⟨run, hrenamed⟩
    rw [run_eq_of_rename hrename h hbefore hrenamed, hbefore]
  · intro hvalid
    obtain ⟨after, hafter⟩ := hexists.mpr ⟨run, hvalid⟩
    rw [← run_eq_of_rename hrename h hvalid hafter, hafter]

/-- A token whose base stands in the first source, with an uncompiled namesake of the base in the
last. -/
def scatteredToken : Output :=
  outputOf [("a.sol", [("Base", "")], [contractNode 1 "Base" [1] []]),
    ("b.sol", [("Token", "6001")], [contractNode 2 "Token" [2, 1] []]),
    ("c.sol", [], [contractNode 3 "Base" [] []])]

theorem scatteredToken_reversed :
    Separate scatteredToken ∧ ∃ run record,
      validate {} rawLocator (scatteredToken.rename (Equiv.swap "a.sol" "c.sol")) = .ok run ∧
        validate {} rawLocator scatteredToken = .ok run ∧
        run.get? "Token" = some record ∧ record.inherit = ["Base"] := by
  have hvalue : ((validate {} rawLocator scatteredToken).toOption.bind fun run =>
      (run.get? "Token").map ContractRecord.inherit) = some ["Base"] := by decide +kernel
  have hseparate : Separate scatteredToken := by decide +kernel
  obtain ⟨run, hrun, hget⟩ := exists_ok_of_toOption hvalue
  obtain ⟨record, hrecord, hinherit⟩ := Option.map_eq_some_iff.mp hget
  have hswap : Set.InjOn (Equiv.swap "a.sol" "c.sol") scatteredToken.paths :=
    (Equiv.swap "a.sol" "c.sol").injective.injOn
  exact ⟨hseparate, run, record,
    (validate_rename_iff hswap hseparate {} rawLocator run).mpr hrun, hrun, hrecord, hinherit⟩

end Proofs

end UpgradeAudit
