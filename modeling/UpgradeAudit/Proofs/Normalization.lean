import UpgradeAudit.Proofs.LogGrowth
import UpgradeAudit.Proofs.UnlinkedBytes

/-!
# What normalizing a bytecode gives

A bytecode is unlinked for one record after another until the result has the fingerprint of the
record. The first record of which this holds decides: its contract is found by the result, which
differs from the bytecode only in the ranges of its references. Where it holds of no record, the
bytecode stays as it is.
-/

namespace UpgradeAudit.Proofs

variable {log : ValidationLog} {run : ValidationRun} {name bytecode : String}
  {record : ContractRecord}

/-- A record has places for libraries, and with its placeholders put back into it a bytecode has the
fingerprint of the record. -/
def leadsBack (bytecode : String) (record : ContractRecord) : Bool :=
  record.isLinkable &&
    record.hasVersion (Fingerprint.of (Link.unlink bytecode record.linkReferences))

lemma findSome?_linkable (bytecode : String) (entries : List (String × ContractRecord)) :
    ((entries.map Prod.snd).filter ContractRecord.isLinkable).findSome? (fun record =>
        if record.hasVersion (Fingerprint.of (Link.unlink bytecode record.linkReferences)) then
          some (Link.unlink bytecode record.linkReferences) else none) =
      (entries.find? fun entry => leadsBack bytecode entry.2).map fun entry =>
        Link.unlink bytecode entry.2.linkReferences := by
  induction entries with
  | nil => rfl
  | cons entry rest ih =>
    rw [List.map_cons, List.find?_cons, leadsBack]
    by_cases hlinkable : entry.2.isLinkable
    · rw [List.filter_cons_of_pos hlinkable, List.findSome?_cons, ih, hlinkable, Bool.true_and]
      cases entry.2.hasVersion
        (Fingerprint.of (Link.unlink bytecode entry.2.linkReferences)) <;> rfl
    · rw [List.filter_cons_of_neg hlinkable, ih]
      simp [hlinkable]

/-- Normalizing unlinks for the first record that leads back, and does nothing without one. -/
lemma normalize_eq (log : ValidationLog) (bytecode : String) :
    log.normalize bytecode =
      match log.runs.findSome? (firstIn? (leadsBack bytecode)) with
      | some place => Link.unlink bytecode place.2.2.linkReferences
      | none => bytecode := by
  obtain ⟨runs⟩ := log
  unfold ValidationLog.normalize ValidationLog.linkable Table.values
  dsimp only
  induction runs with
  | nil => rfl
  | cons run rest ih =>
    rw [List.flatMap_cons, List.findSome?_append, findSome?_linkable, List.findSome?_cons, firstIn?]
    cases run.records.entries.find? fun entry => leadsBack bytecode entry.2 with
    | none => exact ih
    | some entry => rfl

lemma sameVersion_of_matches {found : ContractRecord} {version : Fingerprint}
    (h : found.Matches version) (h' : record.Matches version) :
    sameVersion found.version record.version := by
  obtain ⟨first, hfirst, heq⟩ := h
  obtain ⟨second, hsecond, heq'⟩ := h'
  simp [hfirst, hsecond, sameVersion, Fingerprint.agrees, heq, heq']

/-- A bytecode is normalized by the first record that leads it back to its own fingerprint: to a
text by which a contract of that fingerprint is found, and which is the bytecode but for bytes in
the ranges of that record's references. Where no record leads it back, it is left unchanged. -/
theorem normalize_by_first_record (log : ValidationLog) (bytecode : String) :
    ((∃ run ∈ log.runs, ∃ name record, run.get? name = some record ∧ leadsBack bytecode record) →
      ∃ run name record, FirstRecord log (leadsBack bytecode) run name record ∧
        log.normalize bytecode = Link.unlink bytecode record.linkReferences ∧
        (∃ found, log.find (Fingerprint.of (log.normalize bytecode)) = .ok found ∧
          found.run ∈ log.runs ∧ found.run.get? found.name = some found.record ∧
          sameVersion found.record.version record.version) ∧
        UnlinkedFrom record.linkReferences bytecode (log.normalize bytecode)) ∧
      ((¬∃ run ∈ log.runs, ∃ name record, run.get? name = some record ∧
        leadsBack bytecode record) → log.normalize bytecode = bytecode) := by
  have heq := normalize_eq log bytecode
  cases hfirst : log.runs.findSome? (firstIn? (leadsBack bytecode)) with
  | none =>
    rw [hfirst] at heq
    refine ⟨?_, fun _ => heq⟩
    rintro ⟨run, hrun, name, record, hrecord, hleads⟩
    exact absurd hleads (findSome?_firstIn?_eq_none_iff.mp hfirst run hrun name record hrecord)
  | some place =>
    obtain ⟨run, name, record⟩ := place
    rw [hfirst] at heq
    have hrecord := findSome?_firstIn?_eq_some_iff.mp hfirst
    have hmatches : record.Matches (Fingerprint.of (log.normalize bytecode)) := by
      rw [heq]
      exact hasVersion_iff.mp (Bool.and_eq_true_iff.mp hrecord.holds).2
    constructor
    · intro _
      obtain ⟨found, hfind, hrun, hget, hfound⟩ :=
        finds_of_matches hrecord.run_mem hrecord.recorded hmatches
      refine ⟨run, name, record, hrecord, heq,
        ⟨found, hfind, hrun, hget, sameVersion_of_matches hfound hmatches⟩, ?_⟩
      rw [heq]
      exact unlink_unlinkedFrom bytecode record.linkReferences
    · intro hnone
      exact absurd ⟨run, hrecord.run_mem, name, record, hrecord.recorded, hrecord.holds⟩ hnone

/-- A token without places for libraries, and behind it a contract with one. -/
def tokenAndLinkedLog : ValidationLog :=
  ⟨[earlierRun, .insert .empty "Linked" linkedRecord]⟩

theorem tokenAndLinkedLog_normalize :
    leadsBack "0x73C0ffee00f3" linkedRecord ∧
      tokenAndLinkedLog.normalize "0x73C0ffee00f3" = "0x73__$aa$__f3" ∧
      (∃ found, tokenAndLinkedLog.find (Fingerprint.of "0x73__$aa$__f3") = .ok found ∧
        sameVersion found.record.version linkedRecord.version) ∧
      UnlinkedFrom linkedRecord.linkReferences "0x73C0ffee00f3" "0x73__$aa$__f3" := by
  have hunlink : Link.unlink "0x73C0ffee00f3" linkedRecord.linkReferences = "0x73__$aa$__f3" := by
    decide +kernel
  have hleads : leadsBack "0x73C0ffee00f3" linkedRecord := by
    have hversion : linkedRecord.hasVersion (Fingerprint.of "0x73__$aa$__f3") :=
      hasVersion_of_canonical rfl (by decide +kernel)
    rw [leadsBack, hunlink]
    exact Bool.and_eq_true_iff.mpr ⟨rfl, hversion⟩
  obtain ⟨run, name, record, hfirst, hnormalize, ⟨found, hfind, -, -, hsame⟩, hbytes⟩ :=
    (normalize_by_first_record tokenAndLinkedLog "0x73C0ffee00f3").1
      ⟨.insert .empty "Linked" linkedRecord, by simp [tokenAndLinkedLog], "Linked", linkedRecord,
        rfl, hleads⟩
  have hmem : record ∈ tokenAndLinkedLog.linkable := mem_linkable_iff.mpr
    ⟨run, hfirst.run_mem, name, hfirst.recorded, (Bool.and_eq_true_iff.mp hfirst.holds).1⟩
  obtain rfl : record = linkedRecord := List.mem_singleton.mp hmem
  rw [hunlink] at hnormalize
  rw [hnormalize] at hfind hbytes
  exact ⟨hleads, hnormalize, ⟨found, hfind, hsame⟩, hbytes⟩

end UpgradeAudit.Proofs
