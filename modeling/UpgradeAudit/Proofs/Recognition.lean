import UpgradeAudit.Proofs.FirstMatch
import UpgradeAudit.Proofs.Linking
import UpgradeAudit.Proofs.Provenance
import UpgradeAudit.Proofs.Spelling

/-!
# Linked deployments are recognised

What is deployed differs from what was compiled: addresses stand where placeholders were, letters
may have another case, and a marker may stand in front. Normalizing a deployed bytecode tries the
places of one record after another. Those of its own contract always lead back to the compiled text,
and if those of an earlier record lead to a fingerprint of theirs, a contract is found as well.
-/

namespace UpgradeAudit.Proofs

open Compiler (Output)
open Fingerprint (marker canonical)
open Text (isAscii startsWith)
open Validation

/-- A text that a bytecode may be deployed as: outside the places for libraries it differs at most
in the case of its letters. -/
structure LinkedForm (bytecode : Bytecode) (linked : String) : Prop where
  ascii : isAscii linked.toList
  unmarked : ¬startsWith marker linked.toList
  length : linked.toList.length = bytecode.object.toList.length
  agrees : ∀ i < linked.toList.length,
    (∀ place ∈ Link.places bytecode, ¬place.2.2.Covers i) →
      linked.toList[i]?.map Char.toLower = bytecode.object.toList[i]?.map Char.toLower

instance (bytecode : Bytecode) (linked : String) : Decidable (LinkedForm bytecode linked) :=
  decidable_of_iff (_ ∧ _ ∧ _ ∧ _)
    ⟨fun h => ⟨h.1, h.2.1, h.2.2.1, h.2.2.2⟩, fun h => ⟨h.ascii, h.unmarked, h.length, h.agrees⟩⟩

section Marker

variable {text : List Char}

lemma unlink_of_unmarked {references : List LinkReference} (h : ¬startsWith marker text) :
    Link.unlink (String.ofList text) references =
      String.ofList (references.foldl (fun body r => r.restore body) text) := by
  unfold startsWith at h
  rw [Option.not_isSome_iff_eq_none] at h
  unfold Link.unlink
  rw [String.toList_ofList, h]

lemma unlink_marked (text : List Char) (references : List LinkReference) :
    Link.unlink (String.ofList (marker ++ text)) references =
      String.ofList (marker ++ references.foldl (fun body r => r.restore body) text) := by
  unfold Link.unlink
  rw [String.toList_ofList]
  rfl

end Marker

section Restored

variable {bytecode : Bytecode} {linked contract : String} {references : List LinkReference}

def restored (linked : String) (references : List LinkReference) : List Char :=
  references.foldl (fun body r => r.restore body) linked.toList

lemma unlink_eq_restored (h : ¬startsWith marker linked.toList) :
    Link.unlink linked references = String.ofList (restored linked references) := by
  rw [restored, ← unlink_of_unmarked h, String.ofList_toList]

lemma unlink_marker_append (linked : String) (references : List LinkReference) :
    Link.unlink ("0x" ++ linked) references =
      String.ofList (marker ++ restored linked references) := by
  rw [marked_append, unlink_marked, restored]

lemma LinkedForm.mends (h : LinkedForm bytecode linked) (hascii : isAscii bytecode.object.toList)
    (hextract : Link.extract contract bytecode = .ok references) :
    Mends bytecode.object.toList (fun i => ∃ place ∈ Link.places bytecode, place.2.2.Covers i)
      linked.toList (restored linked references) := by
  simp only [← exists_covers_iff hextract]
  exact restoreAll_mends hascii (fun r hr => takenFrom_of_extract hextract hr) h.ascii h.length

lemma LinkedForm.map_toLower_restored (h : LinkedForm bytecode linked)
    (hascii : isAscii bytecode.object.toList)
    (hextract : Link.extract contract bytecode = .ok references) :
    (restored linked references).map Char.toLower = bytecode.object.toList.map Char.toLower := by
  have hmends := h.mends hascii hextract
  apply List.ext_getElem?
  intro i
  rw [List.getElem?_map, List.getElem?_map]
  by_cases hcovered : ∃ place ∈ Link.places bytecode, place.2.2.Covers i
  · rw [hmends.inside i hcovered]
  · rw [hmends.outside i hcovered]
    by_cases hi : i < linked.toList.length
    · exact h.agrees i hi fun place hplace hcovers => hcovered ⟨place, hplace, hcovers⟩
    · have hlength := h.length
      rw [List.getElem?_eq_none (by omega), List.getElem?_eq_none (by omega)]

lemma LinkedForm.unmarked_restored (h : LinkedForm bytecode linked)
    (hascii : isAscii bytecode.object.toList)
    (hunmarked : ¬startsWith marker bytecode.object.toList)
    (hextract : Link.extract contract bytecode = .ok references) :
    ¬startsWith marker (restored linked references) := by
  have hmends := h.mends hascii hextract
  -- places begin and end between bytes, so both characters of a marker would come from one text
  have hpair : (∃ place ∈ Link.places bytecode, place.2.2.Covers 0) ↔
      ∃ place ∈ Link.places bytecode, place.2.2.Covers 1 := by
    refine exists_congr fun place => and_congr_right fun _ => ?_
    unfold LinkOffset.Covers
    omega
  rw [startsWith_marker_iff]
  by_cases hcovered : ∃ place ∈ Link.places bytecode, place.2.2.Covers 0
  · rw [hmends.inside 0 hcovered, hmends.inside 1 (hpair.mp hcovered), ← startsWith_marker_iff]
    exact hunmarked
  · have hcovered' := fun hone => hcovered (hpair.mpr hone)
    rw [hmends.outside 0 hcovered, hmends.outside 1 hcovered', ← startsWith_marker_iff]
    exact h.unmarked

lemma LinkedForm.canonical_unlink (h : LinkedForm bytecode linked)
    (hascii : isAscii bytecode.object.toList)
    (hunmarked : ¬startsWith marker bytecode.object.toList)
    (hextract : Link.extract contract bytecode = .ok references) :
    canonical (Link.unlink linked references) = canonical bytecode.object ∧
      canonical (Link.unlink ("0x" ++ linked) references) = canonical bytecode.object := by
  have hlower := h.map_toLower_restored hascii hextract
  have hobject : canonical bytecode.object =
      String.ofList (bytecode.object.toList.map Char.toLower) := by
    rw [← canonical_of_unmarked hunmarked, String.ofList_toList]
  constructor
  · rw [unlink_eq_restored h.unmarked,
      canonical_of_unmarked (h.unmarked_restored hascii hunmarked hextract), hlower, hobject]
  · rw [unlink_marker_append, canonical_marked, hlower, hobject]

end Restored

variable {log : ValidationLog} {config : Config} {locate : Locator} {output : Output}
  {run : ValidationRun} {name : String} {record : ContractRecord}

lemma mem_linkable_iff : record ∈ log.linkable ↔
    ∃ run ∈ log.runs, ∃ name, run.get? name = some record ∧ record.isLinkable := by
  unfold ValidationLog.linkable Table.values
  simp only [List.mem_flatMap, List.mem_filter, List.mem_map, Prod.exists, exists_eq_right,
    mem_entries_iff_get?, exists_and_right]

/-- What is normalized is either led back by some record to its fingerprint or left as it is. -/
lemma normalize_cases (log : ValidationLog) (bytecode : String) :
    (∃ record ∈ log.linkable, log.normalize bytecode = Link.unlink bytecode record.linkReferences ∧
      record.hasVersion (Fingerprint.of (log.normalize bytecode))) ∨
    (log.normalize bytecode = bytecode ∧ ∀ record ∈ log.linkable,
      ¬record.hasVersion (Fingerprint.of (Link.unlink bytecode record.linkReferences))) := by
  unfold ValidationLog.normalize
  dsimp only
  cases hfound : log.linkable.findSome? fun record =>
      if record.hasVersion (Fingerprint.of (Link.unlink bytecode record.linkReferences)) then
        some (Link.unlink bytecode record.linkReferences)
      else none with
  | none =>
    refine .inr ⟨rfl, fun record hrecord hversion => ?_⟩
    have hnone := List.findSome?_eq_none_iff.mp hfound record hrecord
    rw [if_pos hversion] at hnone
    cases hnone
  | some unlinked =>
    obtain ⟨record, hrecord, hunlinked⟩ := List.exists_of_findSome?_eq_some hfound
    obtain ⟨hversion, hunlinked⟩ := Option.ite_none_right_eq_some.mp hunlinked
    obtain rfl := Option.some.inj hunlinked
    exact .inl ⟨record, hrecord, rfl, hversion⟩

lemma finds_normalize (hrecord : record ∈ log.linkable) {bytecode : String}
    (hversion : record.hasVersion (Fingerprint.of (Link.unlink bytecode record.linkReferences))) :
    log.Finds (Fingerprint.of (log.normalize bytecode)) := by
  -- an earlier record may answer first, but then it has the fingerprint that is asked for
  rcases normalize_cases log bytecode with ⟨first, hfirst, -, hsame⟩ | ⟨-, hnone⟩
  · obtain ⟨run, hrun, name, hget, -⟩ := mem_linkable_iff.mp hfirst
    exact finds_of_matches hrun hget (hasVersion_iff.mp hsame)
  · exact absurd hversion (hnone record hrecord)

lemma isLinkable_of_extract {contract : String} {bytecode : Bytecode}
    (h : Link.extract contract bytecode = .ok record.linkReferences)
    (hplaces : Link.places bytecode ≠ []) : record.isLinkable := by
  have hlength := (mapM_eq_ok_iff.mp h).length_eq
  unfold ContractRecord.isLinkable
  rw [Bool.not_eq_true', List.isEmpty_eq_false_iff, ← List.length_pos_iff, ← hlength,
    List.length_pos_iff]
  exact hplaces

lemma hasVersion_of_canonical {compiled bytecode : String}
    (hversion : record.version = some (Fingerprint.of compiled))
    (hcanonical : canonical bytecode = canonical compiled) :
    record.hasVersion (Fingerprint.of bytecode) := by
  have hsame : Fingerprint.of bytecode = Fingerprint.of compiled := by
    unfold Fingerprint.of
    rw [hcanonical]
  rw [hsame]
  exact hasVersion_of_version hversion

/-- What a contract with places for libraries is deployed as, with or without a marker, is found in
any log that holds its run: whatever addresses were linked into it, and however the places lie. What
is found is a record of the log with the fingerprint of the normalized text. -/
theorem linked_deployment_is_found (hvalid : validate config locate output = .ok run)
    (hrun : run ∈ log.runs) {path : String} {contract : Compiler.Contract}
    (hlast : LastCompiled output name path contract) (hcode : contract.bytecode.object ≠ "")
    (hascii : isAscii contract.bytecode.object.toList)
    (hunmarked : ¬startsWith marker contract.bytecode.object.toList)
    (hplaces : Link.places contract.bytecode ≠ []) {linked : String}
    (hlinked : LinkedForm contract.bytecode linked) :
    log.Finds (Fingerprint.of (log.normalize linked)) ∧
      log.Finds (Fingerprint.of (log.normalize ("0x" ++ linked))) := by
  obtain ⟨record, hrecord⟩ := Option.isSome_iff_exists.mp
    ((get?_validate_isSome_iff hvalid name).mpr ⟨path, by rw [hlast.compiled]; rfl⟩)
  obtain ⟨_, compiled, hlast', hversion, hextract⟩ := compiled_of_validate hvalid hrecord
  obtain rfl : compiled = contract := hlast'.unique hlast
  rw [versionOf?, if_neg hcode] at hversion
  have hmem : record ∈ log.linkable :=
    mem_linkable_iff.mpr ⟨run, hrun, name, hrecord, isLinkable_of_extract hextract hplaces⟩
  obtain ⟨hplain, hmarked⟩ := hlinked.canonical_unlink hascii hunmarked hextract
  exact ⟨finds_normalize hmem (hasVersion_of_canonical hversion hplain),
    finds_normalize hmem (hasVersion_of_canonical hversion hmarked)⟩

def linkedBytecode : Bytecode :=
  ⟨"73__$aa$__f3", Table.ofList [("lib.sol", Table.ofList [("Lib", [⟨1, 4⟩])])]⟩

/-- A token with a library, compiled again without it from an earlier source. -/
def linkedToken : Output where
  contracts := Table.ofList [("a.sol", Table.ofList [("Token", ⟨⟨"6001", ∅⟩⟩)]),
    ("b.sol", Table.ofList [("Token", ⟨linkedBytecode⟩)])]

theorem linkedToken_is_found :
    ∃ run, validate {} rawLocator linkedToken = .ok run ∧
      ValidationLog.Finds ⟨[.empty, run]⟩ (Fingerprint.of
        (ValidationLog.normalize ⟨[.empty, run]⟩ "73c0ffee00F3")) ∧
      ValidationLog.Finds ⟨[.empty, run]⟩ (Fingerprint.of
        (ValidationLog.normalize ⟨[.empty, run]⟩ ("0x" ++ "73c0ffee00F3"))) := by
  have hvalue : ((validate {} rawLocator linkedToken).toOption.bind fun run =>
      some (run.contains "Token")) = some true := by decide +kernel
  obtain ⟨run, hrun, -⟩ := exists_ok_of_toOption hvalue
  have hcompiled : (linkedToken.compiled.findRev? fun item => item.2.1 = "Token") =
      some ("b.sol", "Token", ⟨linkedBytecode⟩) := by decide +kernel
  exact ⟨run, hrun, linked_deployment_is_found hrun (by simp) (lastCompiled_of_findRev? hcompiled)
    (by decide) (by decide +kernel) (by decide +kernel) (by decide +kernel) (by decide +kernel)⟩

end UpgradeAudit.Proofs
