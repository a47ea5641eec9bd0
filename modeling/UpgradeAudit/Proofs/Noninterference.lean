import UpgradeAudit.Proofs.Tolerance

/-!
# Records that have no say

The answers about a fingerprint come from the first match and from the records of the names that it
mentions. A record under any other name, with any other fingerprint, can be added or replaced
without a difference to them, wherever its name stands in the order of the search.
-/

namespace UpgradeAudit.Proofs

variable {run run' : ValidationRun} {name other : String}
  {record added : ContractRecord} {version : Fingerprint}

lemma get?_insert_record (run : ValidationRun) (other : String) (added : ContractRecord)
    (name : String) :
    (run.insert other added).get? name = if name = other then some added else run.get? name :=
  Table.get?_insert run.records other name added

/-- A contract stays the first match as long as no record of its fingerprint is put before it. -/
lemma firstMatch_insert (h : FirstMatch (.ofRun run) version run name record)
    (hname : other ≠ name) (hversion : ¬added.Matches version) :
    FirstMatch (.ofRun (run.insert other added)) version (run.insert other added) name record := by
  refine ⟨⟨[], [], rfl, by simp⟩, ?_, h.agreed, ?_⟩
  · rw [get?_insert_record, if_neg hname.symm]
    exact h.recorded
  · intro key found hfound hhas
    rw [get?_insert_record] at hfound
    by_cases hkey : key = other
    · rw [if_pos hkey] at hfound
      exact absurd (Option.some.inj hfound ▸ hhas) hversion
    · rw [if_neg hkey] at hfound
      exact h.least key found hfound hhas

section Reading

variable {names : List String}

/-- A pass over names reads the records of these names and nothing else. -/
lemma mapM_contract_congr (h : ∀ key ∈ names, run'.get? key = run.get? key) :
    names.mapM run'.contract = names.mapM run.contract := by
  induction names with
  | nil => rfl
  | cons first rest ih =>
    rw [List.forall_mem_cons] at h
    have hfirst : run'.contract first = run.contract first := by
      unfold ValidationRun.contract
      rw [h.1]
    rw [List.mapM_cons, List.mapM_cons, hfirst, ih h.2]

lemma matchErrors_congr (index index' : Nat)
    (h : ∀ key ∈ record.inherit ++ record.libraries, run'.get? key = run.get? key) :
    Match.errors ⟨index', run', name, record⟩ = Match.errors ⟨index, run, name, record⟩ := by
  unfold Match.errors Match.related
  rw [mapM_contract_congr h]

lemma matchLayout_congr (index index' : Nat)
    (h : ∀ key ∈ name :: record.inherit, run'.get? key = run.get? key) :
    Match.mergedLayout ⟨index', run', name, record⟩ =
      Match.mergedLayout ⟨index, run, name, record⟩ := by
  unfold Match.mergedLayout
  rw [mapM_contract_congr h]

end Reading

/-- Let a contract be the first match of a fingerprint in a run. Whatever record is put under a name
that is neither its own nor that of an ancestor or a library of it, and has not this fingerprint,
the contract is found as before, and all answers about the fingerprint stay as they are, errors and
warnings included. -/
theorem answers_ignore_unrelated_record (hfirst : FirstMatch (.ofRun run) version run name record)
    (hname : other ≠ name) (hinherit : other ∉ record.inherit)
    (hlibraries : other ∉ record.libraries) (hversion : ¬added.Matches version) :
    let before := ValidationLog.ofRun run
    let after := ValidationLog.ofRun (run.insert other added)
    after.contractName version = .ok name ∧
      after.errors version = before.errors version ∧
      after.isSafe version = before.isSafe version ∧
      after.mergedLayout version = before.mergedLayout version ∧
      ∀ options, after.assertSafe version options = before.assertSafe version options := by
  intro before after
  obtain ⟨index, hbefore⟩ := find_of_firstMatch hfirst
  obtain ⟨index', hafter⟩ := find_of_firstMatch (firstMatch_insert hfirst hname hversion)
  have hkept : ∀ key ≠ other, (run.insert other added).get? key = run.get? key := by
    intro key hkey
    rw [get?_insert_record, if_neg hkey]
  have hread : ∀ key ∈ record.inherit ++ record.libraries,
      (run.insert other added).get? key = run.get? key := by
    intro key hkey
    apply hkept
    rintro rfl
    exact (List.mem_append.mp hkey).elim hinherit hlibraries
  have hfindings : Match.errors ⟨index', run.insert other added, name, record⟩ =
      Match.errors ⟨index, run, name, record⟩ := matchErrors_congr index index' hread
  have herrors : after.errors version = before.errors version := by
    unfold ValidationLog.errors
    rw [hbefore, hafter]
    exact hfindings
  refine ⟨?_, herrors, ?_, ?_, ?_⟩
  · unfold ValidationLog.contractName
    rw [hafter]
    rfl
  · unfold ValidationLog.isSafe
    rw [herrors]
  · unfold ValidationLog.mergedLayout
    rw [hbefore, hafter]
    apply matchLayout_congr
    intro key hkey
    apply hkept
    rintro rfl
    exact (List.mem_cons.mp hkey).elim (fun heq => hname heq) hinherit
  · intro options
    rw [assertSafe_of_find hbefore, assertSafe_of_find hafter, hfindings]

/-- A token that shares its fingerprint with a later contract, and mentions a library that has no
record. -/
def twinnedRun : ValidationRun :=
  ⟨Table.ofList [("Base", { errors := [.structDefinition "Entry" "base.sol:3"] }),
    ("Token", { version := some ⟨"aa", "b0"⟩, inherit := ["Base"], libraries := ["Gone"] }),
    ("Twin", { version := some ⟨"aa", "b1"⟩ })]⟩

theorem twinnedRun_answers_kept :
    (ValidationLog.ofRun (twinnedRun.insert "Alias" { version := some ⟨"cc", ""⟩ })).errors
        ⟨"aa", ""⟩ = .error (.unknownContract "Gone") ∧
      (ValidationLog.ofRun (twinnedRun.insert "Twin" {})).mergedLayout ⟨"aa", ""⟩ = .ok {} := by
  have hfirst : FirstMatch (.ofRun twinnedRun) ⟨"aa", ""⟩ twinnedRun "Token"
      { version := some ⟨"aa", "b0"⟩, inherit := ["Base"], libraries := ["Gone"] } :=
    findSome?_matchIn?_eq_some_iff.mp (by decide +kernel)
  obtain ⟨-, herrors, -⟩ := @answers_ignore_unrelated_record twinnedRun "Token" "Alias" _
    { version := some ⟨"cc", ""⟩ } _ hfirst (by decide) (by decide) (by decide) (by decide)
  obtain ⟨-, -, -, hlayout, -⟩ := @answers_ignore_unrelated_record twinnedRun "Token" "Twin" _ {} _
    hfirst (by decide) (by decide) (by decide) (by decide)
  exact ⟨herrors.trans rfl, hlayout.trans rfl⟩

end UpgradeAudit.Proofs
