import Mathlib.Data.List.Find
import UpgradeAudit.Proofs.Agreement

/-!
# One more source

A source is added to an output under a path that was free. Its path may fall anywhere in the order
of the sources, and its syntax tree may define contracts that share their names with compiled ones.
As long as it compiles no name and defines no number a second time, every record stays as it was.
-/

namespace UpgradeAudit.Proofs

open Compiler (Output)
open Validation

/-- An output has one source more than another, under a path of its own: no name that is compiled
there was compiled before, and no number that is defined there was defined before. -/
structure AddsSource (output output' : Output) (path : String) : Prop where
  freeContracts : output.contracts.get? path = none
  freeSource : output.sources.get? path = none
  contracts : ∀ other, other ≠ path → output'.contracts.get? other = output.contracts.get? other
  sources : ∀ other, other ≠ path → output'.sources.get? other = output.sources.get? other
  names : ∀ item ∈ output'.compiled, item.1 = path → ∀ old ∈ output.compiled, old.2.1 ≠ item.2.1
  ids : ∀ place ∈ definitionNodes output', place.1 = path → ∀ old ∈ definitionNodes output,
    (Node.id? place.2).isSome → Node.id? old.2 ≠ Node.id? place.2

lemma lookupEntry_filter_ne {α : Type} (entries : List (String × α)) (key other : String) :
    lookupEntry (entries.filter fun entry => entry.1 ≠ key) other =
      if other = key then none else lookupEntry entries other := by
  induction entries with
  | nil => simp
  | cons entry rest ih =>
    rw [List.filter_cons, lookupEntry_cons]
    by_cases hentry : entry.1 = key
    · rw [if_neg (by simp [hentry]), ih, hentry]
      by_cases hother : other = key
      · rw [if_pos hother, if_pos hother]
      · rw [if_neg hother, if_neg hother, if_neg (Ne.symm hother)]
    · rw [if_pos (by simp [hentry]), lookupEntry_cons, ih]
      by_cases hother : other = key
      · rw [if_pos hother, if_pos hother, if_neg (hother ▸ hentry)]
      · rw [if_neg hother, if_neg hother]

lemma filter_entries_ne {α : Type} {t t' : Table α} {key : String} (hfree : t.get? key = none)
    (hsame : ∀ other, other ≠ key → t'.get? other = t.get? other) :
    t'.entries.filter (fun entry => entry.1 ≠ key) = t.entries := by
  apply SortedByKey.eq_of_lookupEntry (List.Pairwise.filter _ t'.sorted) t.sorted
  intro other
  rw [lookupEntry_filter_ne]
  by_cases hother : other = key
  · rw [if_pos hother, hother]
    exact hfree.symm
  · rw [if_neg hother]
    exact hsame other hother

variable {config : Config} {locate : Locator} {output output' : Output} {run run' : ValidationRun}
  {path name : String}

section Added

variable (h : AddsSource output output' path)

include h

lemma filter_definitionNodes_ne :
    (definitionNodes output').filter (fun place => place.1 ≠ path) = definitionNodes output := by
  unfold definitionNodes
  rw [← filter_entries_ne h.freeSource h.sources, List.filter_flatMap]
  induction output'.sources.entries with
  | nil => rfl
  | cons entry rest ih =>
    rw [List.flatMap_cons, ih, List.filter_map, List.filter_cons]
    by_cases hpath : entry.1 = path
    · simp [hpath, Function.comp_def]
    · simp [hpath, Function.comp_def]

/-- What the added source has no match for has its last match where it was. -/
lemma lastMatch_added {p : String × Node → Bool}
    (hp : ∀ place ∈ definitionNodes output', place.1 = path → ¬p place) :
    (definitionNodes output').findRev? p = (definitionNodes output).findRev? p := by
  rw [← filter_definitionNodes_ne h, List.findRev?_eq_find?_reverse,
    List.findRev?_eq_find?_reverse, ← List.filter_reverse, List.find?_filter]
  apply List.find?_congr
  intro place hplace
  by_cases hpath : place.1 = path
  · have hno : p place = false := by
      simpa using hp place (List.mem_reverse.mp hplace) hpath
    simp [hno]
  · simp [hpath]

lemma contract?_free : output.contract? path name = none := by
  unfold Output.contract?
  rw [h.freeContracts]
  rfl

lemma contract?_added_of_ne {other : String} (hother : other ≠ path) :
    output'.contract? other name = output.contract? other name := by
  unfold Output.contract?
  rw [h.contracts other hother]

/-- A name that was compiled before is compiled from the same sources as before. -/
lemma contract?_added {old : String} (hold : (output.contract? old name).isSome) (other : String) :
    output'.contract? other name = output.contract? other name := by
  by_cases hother : other = path
  · subst hother
    rw [contract?_free h]
    cases hadded : output'.contract? other name with
    | none => rfl
    | some contract =>
      obtain ⟨before, hbefore⟩ := Option.isSome_iff_exists.mp hold
      have hne := h.names _ (mem_compiled_iff.mpr hadded) rfl _ (mem_compiled_iff.mpr hbefore)
      exact absurd rfl hne
  · exact contract?_added_of_ne h hother

lemma lastDefinition?_added {old : String} (hold : (output.contract? old name).isSome) :
    lastDefinition? output' name = lastDefinition? output name := by
  have hdefines : definesCompiled output' name = definesCompiled output name := by
    funext place
    unfold definesCompiled
    rw [contract?_added h hold]
  unfold lastDefinition?
  rw [hdefines]
  apply lastMatch_added h
  intro place _ hpath hdefined
  have hcompiled := (definesCompiled_iff.mp hdefined).2
  rw [hpath, contract?_free h] at hcompiled
  cases hcompiled

lemma nameOfNumber?_added {id : Int} {found : String} (hid : nameOfNumber? output id = some found) :
    nameOfNumber? output' id = some found := by
  obtain ⟨old, node, hnode, hnumber, -⟩ := mem_of_nameOfNumber? hid
  have hlast : lastNumbered? output' id = lastNumbered? output id := by
    apply lastMatch_added h
    intro place hplace hpath hsame
    rw [decide_eq_true_eq] at hsame
    have hne := h.ids place hplace hpath (old, node) hnode (by rw [hsame]; rfl)
    exact hne (hnumber.trans hsame.symm)
  unfold nameOfNumber? at hid ⊢
  rw [hlast, hid]

lemma carriesOver_added {old : String} (hold : (output.contract? old name).isSome) :
    CarriesOver output output' name where
  compiled := by
    intro last contract hlast
    refine ⟨last, by rw [contract?_added h hold, hlast.compiled], ?_⟩
    intro other hother
    rw [contract?_added h hold] at hother
    exact hlast.last other hother
  defined := by
    intro place node hdefinition
    refine ⟨place, ?_, contract?_added h hold place⟩
    rw [lastDefinition?_added h hold, hdefinition]
  undefined := by
    intro hdefinition
    rw [lastDefinition?_added h hold, hdefinition]
  numbers := by
    intro id found hfound
    exact nameOfNumber?_added h hfound

lemma isSome_contract?_added_iff : (∃ other, (output'.contract? other name).isSome) ↔
    (∃ other, (output.contract? other name).isSome) ∨ (output'.contract? path name).isSome := by
  constructor
  · rintro ⟨other, hother⟩
    by_cases hpath : other = path
    · exact .inr (hpath ▸ hother)
    · exact .inl ⟨other, contract?_added_of_ne h hpath ▸ hother⟩
  · rintro (⟨old, hold⟩ | hadded)
    · exact ⟨old, by rwa [contract?_added h hold]⟩
    · exact ⟨path, hadded⟩

end Added

/-- Adding a source leaves every record as it was, and brings records of exactly the names that are
compiled from it. -/
theorem validate_added_source (h : AddsSource output output' path)
    (hvalid : validate config locate output = .ok run)
    (hvalid' : validate config locate output' = .ok run') :
    (∀ name record, run.get? name = some record → run'.get? name = some record) ∧
      ∀ name, name ∈ run'.names ↔ name ∈ run.names ∨ (output'.contract? path name).isSome := by
  constructor
  · intro name record hrecord
    have hcompiled : ∃ old, (output.contract? old name).isSome :=
      (get?_validate_isSome_iff hvalid name).mp (by rw [hrecord]; rfl)
    obtain ⟨old, hold⟩ := hcompiled
    exact record_carries_over (carriesOver_added h hold) hvalid hvalid' hrecord
  · intro name
    have hnames : name ∈ run.names ↔ ∃ other, (output.contract? other name).isSome :=
      (Table.mem_keys_iff run.records).trans (get?_validate_isSome_iff hvalid name)
    have hnames' : name ∈ run'.names ↔ ∃ other, (output'.contract? other name).isSome :=
      (Table.mem_keys_iff run'.records).trans (get?_validate_isSome_iff hvalid' name)
    rw [hnames, hnames', isSome_contract?_added_iff h]

/-- A token with a base in an earlier source. -/
def derivedToken : Output :=
  outputOf [("a.sol", [("Base", "")], [contractNode 1 "Base" [1] []]),
    ("c.sol", [("Token", "6001")], [contractNode 2 "Token" [2, 1] []])]

/-- The token with a source between its own and that of its base, which compiles another contract
and defines a namesake of the token without compiling it. -/
def derivedTokenAndVault : Output where
  contracts := derivedToken.contracts.insert "b.sol" (Table.ofList [("Vault", ⟨⟨"6002", ∅⟩⟩)])
  sources := derivedToken.sources.insert "b.sol" ⟨0, contractNode 3 "Token" [] []⟩

theorem derivedToken_beside_vault :
    AddsSource derivedToken derivedTokenAndVault "b.sol" ∧ ∃ run run' record,
      validate {} rawLocator derivedToken = .ok run ∧
      validate {} rawLocator derivedTokenAndVault = .ok run' ∧
      run.get? "Token" = some record ∧ record.inherit = ["Base"] ∧
      run'.get? "Token" = some record ∧ "Vault" ∈ run'.names := by
  have hadds : AddsSource derivedToken derivedTokenAndVault "b.sol" :=
    { freeContracts := by decide +kernel
      freeSource := Option.isNone_iff_eq_none.mp (by decide +kernel)
      contracts := fun other hother => Table.get?_insert_of_ne _ _ hother
      sources := fun other hother => Table.get?_insert_of_ne _ _ hother
      names := by decide +kernel
      ids := by decide +kernel }
  have hvalue : ((validate {} rawLocator derivedToken).toOption.bind fun run =>
      (run.get? "Token").map ContractRecord.inherit) = some ["Base"] := by decide +kernel
  have hvalue' : ((validate {} rawLocator derivedTokenAndVault).toOption.bind fun run =>
      some (run.contains "Base")) = some true := by decide +kernel
  obtain ⟨run, hrun, hget⟩ := exists_ok_of_toOption hvalue
  obtain ⟨run', hrun', -⟩ := exists_ok_of_toOption hvalue'
  obtain ⟨record, hrecord, hinherit⟩ := Option.map_eq_some_iff.mp hget
  obtain ⟨hkept, hnames⟩ := validate_added_source hadds hrun hrun'
  have hvault : (derivedTokenAndVault.contract? "b.sol" "Vault").isSome := by decide +kernel
  exact ⟨hadds, run, run', record, hrun, hrun', hrecord, hinherit, hkept "Token" record hrecord,
    (hnames "Vault").mpr (.inr hvault)⟩

end UpgradeAudit.Proofs
