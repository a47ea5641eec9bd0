import UpgradeAudit.Proofs.Lookup

/-!
# The first match of a fingerprint

A log is searched run by run, and each run name by name. What a search comes to is said here without
the search: the first run that has the fingerprint, and in it the least name with that fingerprint.
-/

namespace UpgradeAudit

/-- Some record of the run has the fingerprint. -/
def ValidationRun.Has (run : ValidationRun) (version : Fingerprint) : Prop :=
  ∃ name record, run.get? name = some record ∧ record.Matches version

/-- Some record of some run has the fingerprint. -/
def ValidationLog.Has (log : ValidationLog) (version : Fingerprint) : Prop :=
  ∃ run ∈ log.runs, run.Has version

/-- A contract of some run is found by the fingerprint, and matches it. -/
def ValidationLog.Finds (log : ValidationLog) (version : Fingerprint) : Prop :=
  ∃ found, log.find version = .ok found ∧ found.run ∈ log.runs ∧
    found.run.get? found.name = some found.record ∧ found.record.Matches version

/-- What was found, wherever its run stands in the log. -/
def Match.place (found : Match) : ValidationRun × String × ContractRecord :=
  (found.run, found.name, found.record)

namespace Proofs

variable {log : ValidationLog} {run : ValidationRun} {name : String} {record : ContractRecord}
  {version : Fingerprint}

/-- The record of a fingerprint in the first run that has one, under the least such name. -/
structure FirstMatch (log : ValidationLog) (version : Fingerprint) (run : ValidationRun)
    (name : String) (record : ContractRecord) : Prop where
  first : ∃ before after, log.runs = before ++ run :: after ∧
    ∀ earlier ∈ before, ¬earlier.Has version
  recorded : run.get? name = some record
  agreed : record.Matches version
  least : ∀ other found, run.get? other = some found → found.Matches version → name ≤ other

/-- The first record with a property: in the first run that has one, under the least such name. -/
structure FirstRecord (log : ValidationLog) (p : ContractRecord → Bool) (run : ValidationRun)
    (name : String) (record : ContractRecord) : Prop where
  first : ∃ before after, log.runs = before ++ run :: after ∧
    ∀ earlier ∈ before, ∀ other found, earlier.get? other = some found → ¬p found
  recorded : run.get? name = some record
  holds : p record
  least : ∀ other found, run.get? other = some found → p found → name ≤ other

lemma FirstMatch.run_mem (h : FirstMatch log version run name record) : run ∈ log.runs := by
  obtain ⟨before, after, hruns, -⟩ := h.first
  simp [hruns]

section FirstRecord

variable {p : ContractRecord → Bool}

lemma FirstRecord.run_mem (h : FirstRecord log p run name record) : run ∈ log.runs := by
  obtain ⟨before, after, hruns, -⟩ := h.first
  simp [hruns]

lemma entries_find?_eq_some_iff :
    (run.records.entries.find? fun entry => p entry.2) = some (name, record) ↔
      run.get? name = some record ∧ p record ∧
        ∀ other found, run.get? other = some found → p found → name ≤ other := by
  have hsorted : SortedByKey run.records.entries := run.records.sorted
  rw [List.find?_eq_some_iff_append]
  constructor
  · rintro ⟨hholds, before, after, hentries, hbefore⟩
    have hmem : (name, record) ∈ run.records.entries := by simp [hentries]
    refine ⟨mem_entries_iff_get?.mp hmem, hholds, ?_⟩
    intro other found hother hfound
    have hmem' : (other, found) ∈ before ++ (name, record) :: after :=
      hentries ▸ mem_entries_iff_get?.mpr hother
    rw [hentries] at hsorted
    rcases List.mem_append.mp hmem' with hearlier | hlater
    · have hno := hbefore _ hearlier
      simp [hfound] at hno
    · rcases List.mem_cons.mp hlater with heq | hlater
      · obtain ⟨rfl, rfl⟩ := Prod.mk.inj heq
        exact String.le_refl other
      · have hafter := (List.pairwise_append.mp hsorted).2.1
        exact Std.le_of_lt ((List.pairwise_cons.mp hafter).1 _ hlater)
  · rintro ⟨hrecord, hholds, hleast⟩
    obtain ⟨before, after, hentries⟩ := List.append_of_mem (mem_entries_iff_get?.mpr hrecord)
    refine ⟨hholds, before, after, hentries, ?_⟩
    intro entry hentry
    by_contra hhas
    have hget : run.get? entry.1 = some entry.2 :=
      mem_entries_iff_get?.mp (by rw [hentries]; exact List.mem_append_left _ hentry)
    have hle : name ≤ entry.1 := hleast entry.1 entry.2 hget (by simpa using hhas)
    rw [hentries] at hsorted
    have hlt : entry.1 < name :=
      (List.pairwise_append.mp hsorted).2.2 entry hentry (name, record) List.mem_cons_self
    exact String.not_le.mpr hlt hle

lemma entries_find?_eq_none_iff : (run.records.entries.find? fun entry => p entry.2) = none ↔
    ∀ name record, run.get? name = some record → ¬p record := by
  simp only [List.find?_eq_none, Prod.forall, mem_entries_iff_get?]

/-- The first record of a run with a property. -/
def firstIn? (p : ContractRecord → Bool) (run : ValidationRun) :
    Option (ValidationRun × String × ContractRecord) :=
  (run.records.entries.find? fun entry => p entry.2).map fun entry => (run, entry)

lemma firstIn?_eq_none_iff : firstIn? p run = none ↔
    ∀ name record, run.get? name = some record → ¬p record :=
  Option.map_eq_none_iff.trans entries_find?_eq_none_iff

lemma findSome?_firstIn?_eq_some_iff :
    log.runs.findSome? (firstIn? p) = some (run, name, record) ↔
      FirstRecord log p run name record := by
  rw [List.findSome?_eq_some_iff]
  constructor
  · rintro ⟨before, first, after, hruns, hfirst, hbefore⟩
    obtain ⟨entry, hentry, heq⟩ := Option.map_eq_some_iff.mp hfirst
    obtain ⟨rfl, rfl⟩ := Prod.mk.inj heq
    obtain ⟨hrecord, hholds, hleast⟩ := entries_find?_eq_some_iff.mp hentry
    exact ⟨⟨before, after, hruns, fun earlier hearlier =>
      firstIn?_eq_none_iff.mp (hbefore earlier hearlier)⟩, hrecord, hholds, hleast⟩
  · rintro ⟨⟨before, after, hruns, hnone⟩, hrecord, hholds, hleast⟩
    refine ⟨before, run, after, hruns, ?_, fun earlier hearlier =>
      firstIn?_eq_none_iff.mpr (hnone earlier hearlier)⟩
    rw [firstIn?, entries_find?_eq_some_iff.mpr ⟨hrecord, hholds, hleast⟩]
    rfl

lemma findSome?_firstIn?_eq_none_iff : log.runs.findSome? (firstIn? p) = none ↔
    ∀ run ∈ log.runs, ∀ name record, run.get? name = some record → ¬p record := by
  simp only [List.findSome?_eq_none_iff, firstIn?_eq_none_iff]

end FirstRecord

instance (run : ValidationRun) (version : Fingerprint) : Decidable (run.Has version) :=
  decidable_of_iff _ find?_isSome_iff

instance (log : ValidationLog) (version : Fingerprint) : Decidable (log.Has version) :=
  inferInstanceAs (Decidable (∃ run ∈ log.runs, run.Has version))

lemma find?_eq_none_iff : run.find? version = none ↔ ¬run.Has version := by
  rw [← Option.not_isSome_iff_eq_none, find?_isSome_iff]
  rfl

/-- The first contract of a run with a fingerprint. -/
def matchIn? (version : Fingerprint) (run : ValidationRun) :
    Option (ValidationRun × String × ContractRecord) :=
  (run.find? version).map fun entry => (run, entry)

lemma matchIn?_eq_none_iff : matchIn? version run = none ↔ ¬run.Has version := by
  rw [← find?_eq_none_iff]
  exact Option.map_eq_none_iff

lemma findFrom?_place (version : Fingerprint) (index : Nat) (runs : List ValidationRun) :
    (ValidationLog.findFrom? version index runs).map Match.place =
      runs.findSome? (matchIn? version) := by
  induction runs generalizing index with
  | nil => rfl
  | cons run rest ih =>
    rw [ValidationLog.findFrom?, List.findSome?_cons, matchIn?]
    cases run.find? version with
    | none => exact ih (index + 1)
    | some entry => rfl

/-- A search is the search for the first run with a match, whatever the positions of the runs. -/
lemma find_place (log : ValidationLog) (version : Fingerprint) :
    (log.find version).map Match.place =
      match log.runs.findSome? (matchIn? version) with
      | some place => .ok place
      | none => .error .notFound := by
  rw [← findFrom?_place version 0 log.runs]
  unfold ValidationLog.find
  cases ValidationLog.findFrom? version 0 log.runs <;> rfl

lemma findSome?_matchIn?_eq_some_iff :
    log.runs.findSome? (matchIn? version) = some (run, name, record) ↔
      FirstMatch log version run name record := by
  refine (findSome?_firstIn?_eq_some_iff (p := fun record => record.hasVersion version)).trans ?_
  constructor
  · rintro ⟨⟨before, after, hruns, hnone⟩, hrecord, hversion, hleast⟩
    simp only [hasVersion_iff] at hnone hversion hleast
    refine ⟨⟨before, after, hruns, ?_⟩, hrecord, hversion, hleast⟩
    rintro earlier hearlier ⟨other, found, hother, hfound⟩
    exact hnone earlier hearlier other found hother hfound
  · rintro ⟨⟨before, after, hruns, hnone⟩, hrecord, hversion, hleast⟩
    simp only [← hasVersion_iff] at hversion hleast
    refine ⟨⟨before, after, hruns, ?_⟩, hrecord, hversion, hleast⟩
    intro earlier hearlier other found hother hfound
    exact hnone earlier hearlier ⟨other, found, hother, hasVersion_iff.mp hfound⟩

lemma findSome?_matchIn?_eq_none_iff :
    log.runs.findSome? (matchIn? version) = none ↔ ¬log.Has version := by
  simp [List.findSome?_eq_none_iff, matchIn?_eq_none_iff, ValidationLog.Has]

lemma find_of_not_has (h : ¬log.Has version) : log.find version = .error .notFound := by
  have hplace := find_place log version
  rw [findSome?_matchIn?_eq_none_iff.mpr h] at hplace
  cases hfind : log.find version with
  | error e => simpa [hfind, Except.map] using hplace
  | ok found => simp [hfind, Except.map] at hplace

lemma find_of_firstMatch (h : FirstMatch log version run name record) :
    ∃ index, log.find version = .ok ⟨index, run, name, record⟩ := by
  have hplace := find_place log version
  rw [findSome?_matchIn?_eq_some_iff.mpr h] at hplace
  cases hfind : log.find version with
  | error e => simp [hfind, Except.map] at hplace
  | ok found =>
    have hsame : found.place = (run, name, record) := by simpa [hfind, Except.map] using hplace
    obtain ⟨index, foundRun, foundName, foundRecord⟩ := found
    obtain ⟨rfl, rfl, rfl⟩ : foundRun = run ∧ foundName = name ∧ foundRecord = record := by
      simpa [Match.place] using hsame
    exact ⟨index, rfl⟩

lemma not_has_or_firstMatch (log : ValidationLog) (version : Fingerprint) :
    ¬log.Has version ∨ ∃ run name record, FirstMatch log version run name record := by
  cases hfound : log.runs.findSome? (matchIn? version) with
  | none => exact .inl (findSome?_matchIn?_eq_none_iff.mp hfound)
  | some place => exact .inr ⟨_, _, _, findSome?_matchIn?_eq_some_iff.mp hfound⟩

/-- Where a record matches a fingerprint, a contract is found by it. It may be another one, but
matches it as well. -/
lemma finds_of_matches (hrun : run ∈ log.runs) (hrecord : run.get? name = some record)
    (hmatches : record.Matches version) : log.Finds version := by
  rcases not_has_or_firstMatch log version with hnone | ⟨foundRun, foundName, found, hfound⟩
  · exact absurd ⟨run, hrun, name, record, hrecord, hmatches⟩ hnone
  · obtain ⟨index, hfind⟩ := find_of_firstMatch hfound
    exact ⟨_, hfind, hfound.run_mem, hfound.recorded, hfound.agreed⟩

end Proofs

end UpgradeAudit
