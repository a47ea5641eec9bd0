import UpgradeAudit.Proofs.FirstMatch
import UpgradeAudit.Validation.Safety

/-!
# What an assertion of safety tolerates

An assertion looks a contract up, gathers the findings of the contract, its ancestors and its
libraries, and divides them by the options of the caller. `Judged` says which verdict this leads to
in terms of the records alone: a contract that is not there, a name without a record, or a judgement
of all findings. Only a judgement comes with warnings.
-/

namespace UpgradeAudit

/-- Whatever some options tolerate is tolerated by others too. -/
structure Options.Within (options wider : Options) : Prop where
  customTypes : options.allowCustomTypes → wider.allowCustomTypes
  linkedLibraries : options.allowLinkedLibraries → wider.allowLinkedLibraries

namespace Proofs

open Exceptions (customTypesMessage linkedLibrariesMessage)

variable {log : ValidationLog} {run : ValidationRun} {name : String} {record : ContractRecord}
  {version : Fingerprint} {options : Options} {findings : List Finding}

def IsCustomType (finding : Finding) : Prop :=
  finding.kind = .structDefinition ∨ finding.kind = .enumDefinition

def IsLinking (finding : Finding) : Prop :=
  finding.kind = .externalLibraryLinking

/-- A switch is on for the kind of a finding. -/
def Tolerated (options : Options) (finding : Finding) : Prop :=
  options.allowCustomTypes ∧ IsCustomType finding ∨
    options.allowLinkedLibraries ∧ IsLinking finding

instance : DecidablePred IsCustomType := fun finding =>
  inferInstanceAs (Decidable (finding.kind = .structDefinition ∨ finding.kind = .enumDefinition))

instance : DecidablePred IsLinking := fun finding =>
  inferInstanceAs (Decidable (finding.kind = .externalLibraryLinking))

instance (options : Options) : DecidablePred (Tolerated options) := fun _ =>
  inferInstanceAs (Decidable (_ ∨ _))

/-- The verdict on the findings of a contract. An option that is used gives a warning, and findings
that no option tolerates give the failure. -/
def judgement (options : Options) (contract : String) (findings : List Finding) : Verdict where
  warnings :=
    (if options.allowCustomTypes ∧ ∃ finding ∈ findings, IsCustomType finding then
        [⟨contract, "Potentially unsafe deployment of " ++ contract, customTypesMessage⟩] else [])
      ++ (if options.allowLinkedLibraries ∧ ∃ finding ∈ findings, IsLinking finding then
        [⟨contract, "Potentially unsafe deployment of " ++ contract, linkedLibrariesMessage⟩]
      else [])
  failure :=
    if ∀ finding ∈ findings, Tolerated options finding then none
    else some (.rejected contract (findings.filter fun finding => ¬Tolerated options finding))

/-- The verdicts that an assertion may come to. -/
inductive Judged (log : ValidationLog) (version : Fingerprint) (options : Options) : Verdict → Prop
  | notFound (h : ¬log.Has version) : Judged log version options ⟨[], some (.lookup .notFound)⟩
  /-- The first name that the contract mentions and the run has no record of. -/
  | unknown {run : ValidationRun} {name missing : String} {record : ContractRecord}
      (hfirst : FirstMatch log version run name record)
      (hmissing : (record.inherit ++ record.libraries).find? (fun name => (run.get? name).isNone) =
        some missing) :
      Judged log version options ⟨[], some (.lookup (.unknownContract missing))⟩
  | decided {run : ValidationRun} {name : String} {record : ContractRecord}
      {related : List ContractRecord} (hfirst : FirstMatch log version run name record)
      (hrelated : List.Forall₂ (fun name record => run.get? name = some record)
        (record.inherit ++ record.libraries) related) :
      Judged log version options
        (judgement options name (record.errors ++ related.flatMap ContractRecord.errors))

section Options

lemma allows_iff {finding : Finding} :
    options.allows finding.kind ↔ Tolerated options finding := by
  unfold Tolerated IsCustomType IsLinking
  cases finding.kind <;> simp [Options.allows]

/-- Where one switch decides about all findings of some kinds, they are removed if it is on. -/
lemma hasRemoved_apply_iff {kinds : List FindingKind} {allowed : Bool} {p : Finding → Prop}
    (hkind : ∀ finding : Finding,
      (options.allows finding.kind ∧ finding.kind ∈ kinds) ↔ allowed ∧ p finding) :
    (options.apply findings).hasRemoved kinds ↔ allowed ∧ ∃ finding ∈ findings, p finding := by
  have hremoved : (options.apply findings).hasRemoved kinds ↔
      ∃ finding ∈ findings, options.allows finding.kind ∧ finding.kind ∈ kinds := by
    simp [Exceptions.hasRemoved, Options.apply]
  simp only [hremoved, hkind]
  tauto

lemma hasRemoved_customTypes_iff :
    (options.apply findings).hasRemoved [.structDefinition, .enumDefinition] ↔
      options.allowCustomTypes ∧ ∃ finding ∈ findings, IsCustomType finding := by
  apply hasRemoved_apply_iff
  intro finding
  unfold IsCustomType
  cases finding.kind <;> simp [Options.allows]

lemma hasRemoved_linking_iff :
    (options.apply findings).hasRemoved [.externalLibraryLinking] ↔
      options.allowLinkedLibraries ∧ ∃ finding ∈ findings, IsLinking finding := by
  apply hasRemoved_apply_iff
  intro finding
  unfold IsLinking
  cases finding.kind <;> simp [Options.allows]

lemma retained_eq : (options.apply findings).retained =
    findings.filter fun finding => ¬Tolerated options finding := by
  unfold Options.apply
  simp only [← allows_iff, Bool.not_eq_true, Bool.decide_eq_false]

lemma retained_isEmpty_iff : (options.apply findings).retained.isEmpty ↔
    ∀ finding ∈ findings, Tolerated options finding := by
  simp [retained_eq]

lemma warnings_apply (options : Options) (name : String) (findings : List Finding) :
    (options.apply findings).warnings name = (judgement options name findings).warnings := by
  unfold Exceptions.warnings judgement
  simp only [hasRemoved_customTypes_iff, hasRemoved_linking_iff]

lemma tolerated_mono {wider : Options} (h : options.Within wider) {finding : Finding}
    (hfinding : Tolerated options finding) : Tolerated wider finding :=
  hfinding.imp (.imp_left h.customTypes) (.imp_left h.linkedLibraries)

end Options

lemma assertSafe_of_find {found : Match} (h : log.find version = .ok found) (options : Options) :
    log.assertSafe version options =
      match found.errors with
      | .error e => ⟨[], some (.lookup e)⟩
      | .ok findings => judgement options found.name findings := by
  unfold ValidationLog.assertSafe
  rw [h]
  cases hfindings : found.errors with
  | error e => simp [bind, Except.bind, hfindings]
  | ok findings =>
    have hfailure : (judgement options found.name findings).failure =
        if (options.apply findings).retained.isEmpty then none
        else some (.rejected found.name (options.apply findings).retained) := by
      simp only [judgement, ← retained_isEmpty_iff, ← retained_eq]
    simp only [bind, Except.bind, hfindings, pure, Except.pure, warnings_apply, ← hfailure]

lemma assertSafe_eq_of_judged {verdict : Verdict} (h : Judged log version options verdict) :
    log.assertSafe version options = verdict := by
  cases h with
  | notFound h =>
    unfold ValidationLog.assertSafe
    rw [find_of_not_has h]
    rfl
  | @unknown run name missing record hfirst hmissing =>
    obtain ⟨index, hfind⟩ := find_of_firstMatch hfirst
    have herrors : Match.errors ⟨index, run, name, record⟩ = .error (.unknownContract missing) := by
      unfold Match.errors Match.related
      rw [mapM_contract_of_missing hmissing]
      rfl
    rw [assertSafe_of_find hfind, herrors]
  | @decided run name record related hfirst hrelated =>
    obtain ⟨index, hfind⟩ := find_of_firstMatch hfirst
    have herrors : Match.errors ⟨index, run, name, record⟩ =
        .ok (record.errors ++ related.flatMap ContractRecord.errors) :=
      matchErrors_eq_ok_iff.mpr ⟨related, hrelated, rfl⟩
    rw [assertSafe_of_find hfind, herrors]

lemma exists_judged (log : ValidationLog) (version : Fingerprint) (options : Options) :
    ∃ verdict, Judged log version options verdict := by
  rcases not_has_or_firstMatch log version with hnone | ⟨run, name, record, hfirst⟩
  · exact ⟨_, .notFound hnone⟩
  · cases hmissing :
        (record.inherit ++ record.libraries).find? (fun name => (run.get? name).isNone) with
    | some missing => exact ⟨_, .unknown hfirst hmissing⟩
    | none =>
      obtain ⟨related, hrelated⟩ := exists_records_of_none_missing hmissing
      exact ⟨_, .decided hfirst hrelated⟩

/-- An assertion succeeds exactly when all findings are known and tolerated. -/
lemma failure_eq_none_iff : (log.assertSafe version options).failure = none ↔
    ∃ findings, log.errors version = .ok findings ∧
      ∀ finding ∈ findings, Tolerated options finding := by
  unfold ValidationLog.errors
  cases hfind : log.find version with
  | error e => simp [ValidationLog.assertSafe, hfind, bind, Except.bind]
  | ok found =>
    rw [assertSafe_of_find hfind]
    cases hfindings : found.errors with
    | error e => simp [bind, Except.bind, hfindings]
    | ok findings => simp [bind, Except.bind, hfindings, judgement]

/-- An assertion comes to the one verdict that the records, the findings and the options give. With
no option it succeeds exactly for safe contracts, and an option more never makes it fail. -/
theorem assertSafe_follows_policy (log : ValidationLog) (version : Fingerprint)
    (options : Options) :
    (∀ verdict, log.assertSafe version options = verdict ↔ Judged log version options verdict) ∧
      (log.isSafe version = .ok true ↔ (log.assertSafe version {}).failure = none) ∧
      ∀ wider, options.Within wider → (log.assertSafe version options).failure = none →
        (log.assertSafe version wider).failure = none := by
  refine ⟨?_, ?_, ?_⟩
  · intro verdict
    constructor
    · rintro rfl
      obtain ⟨verdict, hjudged⟩ := exists_judged log version options
      rw [assertSafe_eq_of_judged hjudged]
      exact hjudged
    · exact assertSafe_eq_of_judged
  · rw [isSafe_eq_ok_true_iff, failure_eq_none_iff]
    have hstrict : ∀ finding, ¬Tolerated {} finding := by simp [Tolerated]
    constructor
    · intro herrors
      exact ⟨[], herrors, by simp⟩
    · rintro ⟨findings, herrors, hallowed⟩
      have hnil : findings = [] := List.eq_nil_iff_forall_not_mem.mpr fun finding hfinding =>
        hstrict finding (hallowed finding hfinding)
      rw [herrors, hnil]
  · intro wider hwider hsafe
    obtain ⟨findings, herrors, hallowed⟩ := failure_eq_none_iff.mp hsafe
    exact failure_eq_none_iff.mpr
      ⟨findings, herrors, fun finding hfinding => tolerated_mono hwider (hallowed finding hfinding)⟩

/-- A token whose base defines a struct. -/
def structuredToken : ValidationLog :=
  .ofRun ⟨Table.ofList [("Base", { errors := [.structDefinition "Entry" "base.sol:3"] }),
    ("Token", { version := some ⟨"aa", "bb"⟩, inherit := ["Base"] })]⟩

theorem structuredToken_tolerated :
    Judged structuredToken ⟨"aa", ""⟩ ⟨true, false⟩
        ⟨[⟨"Token", "Potentially unsafe deployment of Token", customTypesMessage⟩], none⟩ ∧
      structuredToken.isSafe ⟨"aa", ""⟩ ≠ .ok true ∧
      (structuredToken.assertSafe ⟨"aa", ""⟩ ⟨true, true⟩).failure = none := by
  obtain ⟨hjudged, -, hwider⟩ := assertSafe_follows_policy structuredToken ⟨"aa", ""⟩ ⟨true, false⟩
  have hverdict : structuredToken.assertSafe ⟨"aa", ""⟩ ⟨true, false⟩ =
      ⟨[⟨"Token", "Potentially unsafe deployment of Token", customTypesMessage⟩], none⟩ := by
    decide +kernel
  have hstrict : (structuredToken.assertSafe ⟨"aa", ""⟩ {}).failure ≠ none := by decide +kernel
  have hsafe := (assertSafe_follows_policy structuredToken ⟨"aa", ""⟩ {}).2.1
  exact ⟨(hjudged _).mp hverdict, fun h => hstrict (hsafe.mp h),
    hwider ⟨true, true⟩ ⟨fun h => h, fun _ => rfl⟩ (by rw [hverdict])⟩

end Proofs

end UpgradeAudit
