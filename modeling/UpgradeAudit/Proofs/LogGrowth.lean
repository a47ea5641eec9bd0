import UpgradeAudit.Proofs.FirstMatch
import UpgradeAudit.Validation.Safety

/-!
# Logs that grow and logs in another order

Every question about a fingerprint is answered from its first match, so runs behind that match have
no say in the answer, be it a result or an error. The order of the runs only matters where more than
one of them has the fingerprint.
-/

namespace UpgradeAudit

/-- The runs of one log, and those of another behind them. -/
instance : Append ValidationLog where
  append log later := ⟨log.runs ++ later.runs⟩

namespace Proofs

/-- Two logs give the same answers to all questions about a fingerprint. -/
structure SameAnswers (log log' : ValidationLog) (version : Fingerprint) : Prop where
  find : (log.find version).map Match.place = (log'.find version).map Match.place
  contractName : log.contractName version = log'.contractName version
  errors : log.errors version = log'.errors version
  isSafe : log.isSafe version = log'.isSafe version
  mergedLayout : log.mergedLayout version = log'.mergedLayout version
  assertSafe : ∀ options, log.assertSafe version options = log'.assertSafe version options

variable {log log' : ValidationLog} {version : Fingerprint}

lemma runs_append (log later : ValidationLog) : (log ++ later).runs = log.runs ++ later.runs := rfl

/-- What is made from a match alone, and not from where in the log it stands, is the same wherever
the same is found. -/
lemma find_bind_of_place {α : Type} (f : ValidationRun × String × ContractRecord →
    Except LookupError α)
    (h : (log.find version).map Match.place = (log'.find version).map Match.place) :
    (log.find version >>= fun found => f found.place) =
      log'.find version >>= fun found => f found.place := by
  have hmap : ∀ x : Except LookupError Match, (x >>= fun found => f found.place) =
      x.map Match.place >>= f := by
    intro x
    cases x <;> rfl
  rw [hmap, hmap, h]

lemma sameAnswers_of_place
    (h : (log.find version).map Match.place = (log'.find version).map Match.place) :
    SameAnswers log log' version := by
  have herrors : log.errors version = log'.errors version :=
    find_bind_of_place (fun place => Match.errors ⟨0, place.1, place.2.1, place.2.2⟩) h
  refine ⟨h, ?_, herrors, ?_, ?_, ?_⟩
  · exact find_bind_of_place (fun place => pure place.2.1) h
  · unfold ValidationLog.isSafe
    rw [herrors]
  · exact find_bind_of_place (fun place => Match.mergedLayout ⟨0, place.1, place.2.1, place.2.2⟩) h
  · intro options
    have houtcome : (do let found ← log.find version; return (found.name, ← found.errors)) =
        (do let found ← log'.find version; return (found.name, ← found.errors)) :=
      find_bind_of_place (fun place => do
        return (place.2.1, ← Match.errors ⟨0, place.1, place.2.1, place.2.2⟩)) h
    unfold ValidationLog.assertSafe
    rw [houtcome]

lemma sameAnswers_of_findSome? (h : log.runs.findSome? (matchIn? version) =
    log'.runs.findSome? (matchIn? version)) : SameAnswers log log' version := by
  apply sameAnswers_of_place
  rw [find_place, find_place, h]

lemma sameAnswers_append_left (later : ValidationLog) (h : log.Has version) :
    SameAnswers (log ++ later) log version := by
  apply sameAnswers_of_findSome?
  rw [runs_append, List.findSome?_append]
  cases hfirst : log.runs.findSome? (matchIn? version) with
  | none => exact absurd h (findSome?_matchIn?_eq_none_iff.mp hfirst)
  | some place => rfl

lemma sameAnswers_append_right (later : ValidationLog) (h : ¬log.Has version) :
    SameAnswers (log ++ later) later version := by
  apply sameAnswers_of_findSome?
  rw [runs_append, List.findSome?_append, findSome?_matchIn?_eq_none_iff.mpr h, Option.none_or]

lemma findSome?_perm {α β : Type} {f : α → Option β} {xs ys : List α} (h : xs.Perm ys)
    (hone : ∀ a ∈ xs, ∀ b ∈ xs, (f a).isSome → (f b).isSome → a = b) :
    xs.findSome? f = ys.findSome? f := by
  cases hxs : xs.findSome? f with
  | none =>
    symm
    rw [List.findSome?_eq_none_iff] at hxs ⊢
    intro y hy
    exact hxs y (h.mem_iff.mpr hy)
  | some found =>
    obtain ⟨a, ha, hfa⟩ := List.exists_of_findSome?_eq_some hxs
    cases hys : ys.findSome? f with
    | none =>
      have hnone := List.findSome?_eq_none_iff.mp hys a (h.mem_iff.mp ha)
      rw [hfa] at hnone
      cases hnone
    | some other =>
      obtain ⟨b, hb, hfb⟩ := List.exists_of_findSome?_eq_some hys
      have hab : a = b := hone a ha b (h.mem_iff.mpr hb) (by rw [hfa]; rfl) (by rw [hfb]; rfl)
      rw [← hfa, hab, hfb]

lemma matchIn?_isSome_iff {run : ValidationRun} :
    (matchIn? version run).isSome ↔ run.Has version := by
  rw [Option.isSome_iff_ne_none, Ne, matchIn?_eq_none_iff, not_not]

lemma sameAnswers_of_perm (hperm : log.runs.Perm log'.runs)
    (hone : ∀ a ∈ log.runs, ∀ b ∈ log.runs, a.Has version → b.Has version → a = b) :
    SameAnswers log log' version := by
  apply sameAnswers_of_findSome?
  apply findSome?_perm hperm
  intro a ha b hb hasa hasb
  exact hone a ha b hb (matchIn?_isSome_iff.mp hasa) (matchIn?_isSome_iff.mp hasb)

lemma normalize_append (log later : ValidationLog) {bytecode : String}
    (h : log.normalize bytecode ≠ bytecode) :
    (log ++ later).normalize bytecode = log.normalize bytecode := by
  have hlinkable : (log ++ later).linkable = log.linkable ++ later.linkable := List.flatMap_append
  unfold ValidationLog.normalize at h ⊢
  dsimp only at h ⊢
  rw [hlinkable, List.findSome?_append]
  generalize log.linkable.findSome? _ = unlinked at h ⊢
  cases unlinked with
  | none => exact absurd rfl h
  | some text => rfl

/-- A log that has a fingerprint answers as before when runs are put behind it, and one that has not
leaves the answer to them. Runs may change places if at most one of them has the fingerprint. What
is normalized to another text stays normalized to it. -/
theorem answers_of_growth_and_reordering (log later : ValidationLog) (version : Fingerprint) :
    (log.Has version → SameAnswers (log ++ later) log version) ∧
      (¬log.Has version → SameAnswers (log ++ later) later version) ∧
      (∀ reordered : ValidationLog, log.runs.Perm reordered.runs →
        (∀ a ∈ log.runs, ∀ b ∈ log.runs, a.Has version → b.Has version → a = b) →
          SameAnswers log reordered version) ∧
      ∀ bytecode, log.normalize bytecode ≠ bytecode →
        (log ++ later).normalize bytecode = log.normalize bytecode :=
  ⟨sameAnswers_append_left later, sameAnswers_append_right later,
    fun _ hperm hone => sameAnswers_of_perm hperm hone, fun _ h => normalize_append log later h⟩

/-- A token, and a contract without code that has no fingerprint. -/
def earlierRun : ValidationRun :=
  ⟨Table.ofList [("Base", {}), ("Token", { version := some ⟨"aa", "b0"⟩, inherit := ["Gone"] })]⟩

/-- The code of the token under another name, and a vault. -/
def laterRun : ValidationRun :=
  ⟨Table.ofList [("Clone", { version := some ⟨"aa", "b1"⟩ }),
    ("Vault", { version := some ⟨"cc", ""⟩ })]⟩

/-- A contract with a place for a library, fingerprinted with its placeholder. -/
def linkedRecord : ContractRecord where
  version := some (Fingerprint.of "73__$aa$__f3")
  linkReferences := [⟨"lib.sol", "Lib", 1, 4, "__$aa$__"⟩]

theorem token_answers_in_grown_log :
    SameAnswers (.ofRun earlierRun ++ .ofRun laterRun) (.ofRun earlierRun) ⟨"aa", ""⟩ ∧
      (ValidationLog.ofRun earlierRun ++ .ofRun laterRun).errors ⟨"aa", ""⟩ =
        .error (.unknownContract "Gone") ∧
      SameAnswers (.ofRun earlierRun ++ .ofRun laterRun) (.ofRun laterRun) ⟨"cc", ""⟩ ∧
      SameAnswers ⟨[earlierRun, laterRun]⟩ ⟨[laterRun, earlierRun]⟩ ⟨"cc", ""⟩ ∧
      (ValidationLog.ofRun (.insert .empty "Linked" linkedRecord) ++ .ofRun laterRun).normalize
        "73c0ffee00f3" = "73__$aa$__f3" := by
  obtain ⟨hkept, -, -, -⟩ :=
    answers_of_growth_and_reordering (.ofRun earlierRun) (.ofRun laterRun) ⟨"aa", ""⟩
  obtain ⟨-, hleft, -, -⟩ :=
    answers_of_growth_and_reordering (.ofRun earlierRun) (.ofRun laterRun) ⟨"cc", ""⟩
  obtain ⟨-, -, hreordered, -⟩ :=
    answers_of_growth_and_reordering ⟨[earlierRun, laterRun]⟩ .empty ⟨"cc", ""⟩
  obtain ⟨-, -, -, hnormalized⟩ := answers_of_growth_and_reordering
    (.ofRun (.insert .empty "Linked" linkedRecord)) (.ofRun laterRun) ⟨"cc", ""⟩
  have hanswers := hkept (by decide +kernel)
  have hlinked : (ValidationLog.ofRun (.insert .empty "Linked" linkedRecord)).normalize
      "73c0ffee00f3" = "73__$aa$__f3" := by
    have hunlink : Link.unlink "73c0ffee00f3" linkedRecord.linkReferences = "73__$aa$__f3" := by
      decide +kernel
    have hlinkable : (ValidationLog.ofRun (.insert .empty "Linked" linkedRecord)).linkable =
        [linkedRecord] := rfl
    have hversion : linkedRecord.hasVersion (Fingerprint.of "73__$aa$__f3") :=
      hasVersion_of_version rfl
    simp [ValidationLog.normalize, hlinkable, hunlink, hversion]
  refine ⟨hanswers, ?_, hleft (by decide +kernel),
    hreordered ⟨[laterRun, earlierRun]⟩ (List.Perm.swap _ _ _) (by decide +kernel), ?_⟩
  · rw [hanswers.errors]
    rfl
  · rw [hnormalized _ (by rw [hlinked]; decide), hlinked]

end Proofs

end UpgradeAudit
