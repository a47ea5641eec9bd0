import UpgradeAudit.Proofs.Traversal
import UpgradeAudit.Validation.Query

/-!
# Looking a contract up

What the questions to a log come down to in terms of the records of its runs: the first record with
a fingerprint, and the records of the names that it mentions.
-/

namespace UpgradeAudit

/-- A record has a fingerprint with the same digest with metadata as another. -/
def ContractRecord.Matches (record : ContractRecord) (version : Fingerprint) : Prop :=
  ∃ own, record.version = some own ∧ own.withMetadata = version.withMetadata

namespace Proofs

variable {run : ValidationRun} {name : String} {record : ContractRecord} {version : Fingerprint}

lemma contract_eq_ok_iff : run.contract name = .ok record ↔ run.get? name = some record := by
  unfold ValidationRun.contract
  cases run.get? name <;> simp

lemma contractVersion_eq_ok_iff : run.contractVersion name = .ok version ↔
    ∃ record, run.get? name = some record ∧ record.version = some version := by
  unfold ValidationRun.contractVersion
  rw [bind_eq_ok_iff]
  refine exists_congr fun record => and_congr contract_eq_ok_iff ?_
  cases record.version <;> simp

lemma mem_entries_iff_get? : (name, record) ∈ run.records.entries ↔ run.get? name = some record :=
  Table.mem_entries_iff run.records

lemma hasVersion_iff : record.hasVersion version ↔ record.Matches version := by
  unfold ContractRecord.hasVersion ContractRecord.Matches
  cases record.version with
  | none => simp [sameVersion]
  | some own => simp [sameVersion, Fingerprint.agrees]

instance (record : ContractRecord) (version : Fingerprint) : Decidable (record.Matches version) :=
  decidable_of_iff _ hasVersion_iff

lemma hasVersion_of_version (h : record.version = some version) : record.hasVersion version :=
  hasVersion_iff.mpr ⟨version, h, rfl⟩

section Records

variable {names : List String}

lemma mapM_contract_of_missing {missing : String}
    (h : names.find? (fun name => (run.get? name).isNone) = some missing) :
    names.mapM run.contract = .error (.unknownContract missing) := by
  induction names with
  | nil => cases h
  | cons first rest ih =>
    rw [List.find?_cons] at h
    rw [List.mapM_cons, ValidationRun.contract]
    cases hfirst : run.get? first with
    | none =>
      simp only [hfirst, Option.isNone_none, Option.some.injEq] at h
      rw [← h]
      rfl
    | some record =>
      simp only [hfirst, Option.isNone_some] at h
      rw [ih h]
      rfl

lemma exists_records_of_none_missing
    (h : names.find? (fun name => (run.get? name).isNone) = none) :
    ∃ records, List.Forall₂ (fun name record => run.get? name = some record) names records := by
  induction names with
  | nil => exact ⟨[], .nil⟩
  | cons first rest ih =>
    rw [List.find?_eq_none] at h
    have hfirst : ¬(run.get? first).isNone := h first List.mem_cons_self
    have hrest := ih (List.find?_eq_none.mpr fun name hname =>
      h name (List.mem_cons_of_mem _ hname))
    obtain ⟨record, hrecord⟩ := Option.ne_none_iff_exists'.mp (by simpa using hfirst)
    obtain ⟨records, hrecords⟩ := hrest
    exact ⟨record :: records, .cons hrecord hrecords⟩

end Records

/-- No other record of a run has the fingerprint of a contract. -/
def Unshared (run : ValidationRun) (name : String) (version : Fingerprint) : Prop :=
  ∀ other found, run.get? other = some found → found.Matches version → other = name

/-- A fingerprint that no other record has leads to its contract. -/
lemma find_ofRun (hrecord : run.get? name = some record) (hversion : record.version = some version)
    (hunshared : Unshared run name version) :
    (ValidationLog.ofRun run).find version = .ok ⟨0, run, name, record⟩ := by
  have hfind : run.find? version = some (name, record) := by
    refine find?_eq_some_of_unique (mem_entries_iff_get?.mpr hrecord)
      (hasVersion_of_version hversion) ?_
    rintro ⟨other, found⟩ hmem hhas
    have hget : run.get? other = some found := mem_entries_iff_get?.mp hmem
    obtain rfl := hunshared other found hget (hasVersion_iff.mp hhas)
    rw [Option.some.inj (hrecord.symm.trans hget)]
  simp [ValidationLog.find, ValidationLog.ofRun, ValidationLog.findFrom?, hfind]

lemma find?_isSome_iff : (run.find? version).isSome ↔
    ∃ name record, run.get? name = some record ∧ record.Matches version := by
  unfold ValidationRun.find?
  simp only [List.find?_isSome, Prod.exists, mem_entries_iff_get?, hasVersion_iff]

lemma matchErrors_eq_ok_iff {found : Match} {findings : List Finding} :
    found.errors = .ok findings ↔
      ∃ related, List.Forall₂ (fun name record => found.run.get? name = some record)
          (found.record.inherit ++ found.record.libraries) related ∧
        findings = found.record.errors ++ related.flatMap ContractRecord.errors := by
  unfold Match.errors Match.related
  simp only [bind_eq_ok_iff, mapM_eq_ok_iff, contract_eq_ok_iff, pure, Except.pure,
    Except.ok.injEq]
  exact exists_congr fun related => and_congr_right fun _ => eq_comm

lemma errors_ofRun (hrecord : run.get? name = some record)
    (hversion : record.version = some version) (hunshared : Unshared run name version) :
    (ValidationLog.ofRun run).errors version = Match.errors ⟨0, run, name, record⟩ := by
  unfold ValidationLog.errors
  rw [find_ofRun hrecord hversion hunshared]
  rfl

lemma matchLayout_eq_ok_iff {found : Match} {layout : StorageLayout} :
    found.mergedLayout = .ok layout ↔
      ∃ records, List.Forall₂ (fun name record => found.run.get? name = some record)
          (found.name :: found.record.inherit) records ∧
        layout = (records.map ContractRecord.layout).foldl StorageLayout.addBase .empty := by
  unfold Match.mergedLayout
  simp only [bind_eq_ok_iff, mapM_eq_ok_iff, contract_eq_ok_iff, pure, Except.pure,
    Except.ok.injEq, List.foldl_map]
  exact exists_congr fun records => and_congr_right fun _ => eq_comm

lemma mergedLayout_ofRun (hrecord : run.get? name = some record)
    (hversion : record.version = some version) (hunshared : Unshared run name version) :
    (ValidationLog.ofRun run).mergedLayout version =
      Match.mergedLayout ⟨0, run, name, record⟩ := by
  unfold ValidationLog.mergedLayout
  rw [find_ofRun hrecord hversion hunshared]
  rfl

lemma isSafe_eq_ok_true_iff {log : ValidationLog} :
    log.isSafe version = .ok true ↔ log.errors version = .ok [] := by
  unfold ValidationLog.isSafe
  rw [bind_eq_ok_iff]
  constructor
  · rintro ⟨findings, hfindings, hempty⟩
    have hnil : findings = [] := by simpa using Except.ok.inj hempty
    rw [hfindings, hnil]
  · intro hnil
    exact ⟨[], hnil, rfl⟩

/-- Whether no record but that of a name has a fingerprint. -/
def isSoleVersion (run : ValidationRun) (name : String) : Bool :=
  run.records.entries.all fun entry => entry.1 = name || entry.2.version.isNone

lemma unshared_of_isSoleVersion (h : isSoleVersion run name) : Unshared run name version := by
  intro other found hget hhas
  have hentry := List.all_eq_true.mp h _ (mem_entries_iff_get?.mpr hget)
  simp only [Bool.or_eq_true, decide_eq_true_eq, Option.isNone_iff_eq_none] at hentry
  rcases hentry with heq | hnone
  · exact heq
  · obtain ⟨own, hown, -⟩ := hhas
    rw [hnone] at hown
    cases hown

/-- The findings for a contract that alone has a fingerprint. -/
def soleFindings? (run : ValidationRun) (name : String) : Option (List Finding) :=
  (run.get? name).bind fun record =>
    if record.version.isSome ∧ isSoleVersion run name then
      (Match.errors ⟨0, run, name, record⟩).toOption
    else none

/-- The findings of a lone contract are those that a log gives, found without any digest. -/
lemma errors_of_soleFindings? {findings : List Finding}
    (h : soleFindings? run name = some findings) :
    ∃ record version, run.get? name = some record ∧ record.version = some version ∧
      Unshared run name version ∧ (ValidationLog.ofRun run).errors version = .ok findings := by
  obtain ⟨record, hrecord, h⟩ := Option.bind_eq_some_iff.mp h
  obtain ⟨⟨hsome, hsole⟩, h⟩ := Option.ite_none_right_eq_some.mp h
  obtain ⟨version, hversion⟩ := Option.isSome_iff_exists.mp hsome
  have hunshared : Unshared run name version := unshared_of_isSoleVersion hsole
  refine ⟨record, version, hrecord, hversion, hunshared, ?_⟩
  rw [errors_ofRun hrecord hversion hunshared]
  cases herrors : Match.errors ⟨0, run, name, record⟩ with
  | error e => rw [herrors] at h; cases h
  | ok found => rw [herrors] at h; rw [Option.some.inj h]

end Proofs

end UpgradeAudit
