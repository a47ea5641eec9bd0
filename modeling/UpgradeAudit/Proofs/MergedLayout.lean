import UpgradeAudit.Proofs.FirstMatch

/-!
# Layouts merged along the ancestors

The layout for a fingerprint is put together from the first match: the layouts of the contract and
of its ancestors, the closest first, are put in front of each other. So the variables come to stand
in the opposite order, the most distant ancestor first, while a type that several of them describe
keeps the description of the most distant one. `Merged` says this without the fold, for a list of
ancestors that may be long, repeat names, or mention names that the run has no record of.
-/

namespace UpgradeAudit.Proofs

variable {log : ValidationLog} {version : Fingerprint} {records : List ContractRecord}

/-- A layout has the variables and the types of some records, of which the following ones are
farther from the contract: their variables stand in front, and their descriptions of types win. -/
structure MergedFrom (records : List ContractRecord) (layout : StorageLayout) : Prop where
  storage : layout.storage = records.reverse.flatMap fun record => record.layout.storage
  keys : ∀ key, key ∈ layout.types.keys ↔ ∃ record ∈ records, key ∈ record.layout.types.keys
  described : ∀ key type, layout.types.get? key = some type ↔
    ∃ nearer record farther, records = nearer ++ record :: farther ∧
      record.layout.types.get? key = some type ∧
      ∀ other ∈ farther, other.layout.types.get? key = none

/-- What the question for a layout may come to. -/
inductive Merged (log : ValidationLog) (version : Fingerprint) :
    Except LookupError StorageLayout → Prop
  | notFound (h : ¬log.Has version) : Merged log version (.error .notFound)
  /-- The first ancestor that the run has no record of. -/
  | unknown {run : ValidationRun} {name missing : String} {record : ContractRecord}
      (hfirst : FirstMatch log version run name record)
      (hmissing : record.inherit.find? (fun ancestor => (run.get? ancestor).isNone) =
        some missing) :
      Merged log version (.error (.unknownContract missing))
  | merged {run : ValidationRun} {name : String} {record : ContractRecord}
      {records : List ContractRecord} {layout : StorageLayout}
      (hfirst : FirstMatch log version run name record)
      (hrecords : List.Forall₂ (fun name record => run.get? name = some record)
        (name :: record.inherit) records)
      (hlayout : MergedFrom records layout) :
      Merged log version (.ok layout)

/-- Putting bases in front one after the other leaves the last of them first. -/
lemma storage_foldl_addBase (bases : List StorageLayout) (layout : StorageLayout) :
    (bases.foldl StorageLayout.addBase layout).storage =
      bases.reverse.flatMap StorageLayout.storage ++ layout.storage := by
  induction bases generalizing layout with
  | nil => rfl
  | cons base bases ih =>
    rw [List.foldl_cons, ih, StorageLayout.addBase, List.reverse_cons, List.flatMap_append,
      List.flatMap_singleton, List.append_assoc]

/-- The last base that describes a type is the one whose description is kept. -/
lemma types_foldl_addBase (bases : List StorageLayout) (layout : StorageLayout) (key : String) :
    (bases.foldl StorageLayout.addBase layout).types.get? key =
      (bases.reverse.findSome? fun base => base.types.get? key).or (layout.types.get? key) := by
  induction bases generalizing layout with
  | nil => rfl
  | cons base bases ih =>
    rw [List.foldl_cons, ih, StorageLayout.addBase, Table.get?_extend, List.reverse_cons,
      List.findSome?_append, List.findSome?_singleton, Option.or_assoc]

lemma types_merged (records : List ContractRecord) (key : String) :
    ((records.map ContractRecord.layout).foldl StorageLayout.addBase .empty).types.get? key =
      records.reverse.findSome? fun record => record.layout.types.get? key := by
  have hempty : StorageLayout.empty.types.get? key = none := rfl
  rw [types_foldl_addBase, hempty, Option.or_none, ← List.map_reverse, List.findSome?_map]
  rfl

lemma mergedFrom_foldl_addBase (records : List ContractRecord) :
    MergedFrom records
      ((records.map ContractRecord.layout).foldl StorageLayout.addBase .empty) := by
  refine ⟨?_, fun key => ?_, fun key type => ?_⟩
  · rw [storage_foldl_addBase, ← List.map_reverse, List.flatMap_map]
    exact List.append_nil _
  · simp only [Table.mem_keys_iff, types_merged, List.findSome?_isSome_iff, List.mem_reverse]
  · rw [types_merged, findSome?_reverse_eq_some_iff]

lemma MergedFrom.unique {layout layout' : StorageLayout} (h : MergedFrom records layout)
    (h' : MergedFrom records layout') : layout = layout' := by
  have hstorage : layout.storage = layout'.storage := h.storage.trans h'.storage.symm
  have htypes : layout.types = layout'.types := by
    apply Table.ext_get?
    intro key
    apply Option.ext
    intro type
    exact (h.described key type).trans (h'.described key type).symm
  cases layout
  cases layout'
  cases hstorage
  cases htypes
  rfl

lemma mergedLayout_eq_of_merged {outcome : Except LookupError StorageLayout}
    (h : Merged log version outcome) : log.mergedLayout version = outcome := by
  unfold ValidationLog.mergedLayout
  cases h with
  | notFound h =>
    rw [find_of_not_has h]
    rfl
  | @unknown run name missing record hfirst hmissing =>
    obtain ⟨index, hfind⟩ := find_of_firstMatch hfirst
    have hnames : (name :: record.inherit).find? (fun name => (run.get? name).isNone) =
        some missing := by
      rw [List.find?_cons, hfirst.recorded]
      exact hmissing
    rw [hfind]
    change Match.mergedLayout ⟨index, run, name, record⟩ = _
    unfold Match.mergedLayout
    rw [mapM_contract_of_missing hnames]
    rfl
  | @merged run name record records layout hfirst hrecords hlayout =>
    obtain ⟨index, hfind⟩ := find_of_firstMatch hfirst
    rw [hfind]
    change Match.mergedLayout ⟨index, run, name, record⟩ = _
    rw [matchLayout_eq_ok_iff]
    exact ⟨records, hrecords, hlayout.unique (mergedFrom_foldl_addBase records)⟩

lemma exists_merged (log : ValidationLog) (version : Fingerprint) :
    ∃ outcome, Merged log version outcome := by
  rcases not_has_or_firstMatch log version with hnone | ⟨run, name, record, hfirst⟩
  · exact ⟨_, .notFound hnone⟩
  · cases hmissing : record.inherit.find? (fun ancestor => (run.get? ancestor).isNone) with
    | some missing => exact ⟨_, .unknown hfirst hmissing⟩
    | none =>
      obtain ⟨ancestors, hancestors⟩ := exists_records_of_none_missing hmissing
      exact ⟨_, .merged hfirst (.cons hfirst.recorded hancestors) (mergedFrom_foldl_addBase _)⟩

/-- The question for the layout of a fingerprint comes to the one outcome that the first match and
the records of its ancestors give, and it finds nothing exactly where no record has the
fingerprint. -/
theorem mergedLayout_by_first_match (log : ValidationLog) (version : Fingerprint) :
    (∀ outcome, log.mergedLayout version = outcome ↔ Merged log version outcome) ∧
      (log.mergedLayout version = .error .notFound ↔ ¬log.Has version) := by
  have hmerged : ∀ outcome, log.mergedLayout version = outcome ↔ Merged log version outcome := by
    intro outcome
    constructor
    · rintro rfl
      obtain ⟨outcome, h⟩ := exists_merged log version
      rw [mergedLayout_eq_of_merged h]
      exact h
    · exact mergedLayout_eq_of_merged
  refine ⟨hmerged, ?_⟩
  rw [hmerged]
  constructor
  · intro h
    cases h with
    | notFound h => exact h
  · exact .notFound

/-- The layout of a contract with one variable of a type that it describes itself. -/
def itemLayout (contract label : String) : StorageLayout :=
  ⟨[⟨contract, label, "t_item", contract ++ ".sol:3"⟩],
    Table.ofList [("t_item", ⟨contract ++ ".Item"⟩)]⟩

/-- A token and its base describe the same type. The heir of the token has an ancestor without a
record. -/
def describedTwice : ValidationRun :=
  ⟨Table.ofList [("Base", { layout := itemLayout "Base" "first" }),
    ("Heir", { version := some ⟨"cc", "d0"⟩, inherit := ["Token", "Gone", "Base"] }),
    ("Token", ⟨some ⟨"aa", "b0"⟩, ["Base"], [], [], [], itemLayout "Token" "second"⟩)]⟩

theorem describedTwice_mergedLayout :
    Merged (.ofRun describedTwice) ⟨"aa", ""⟩ (.ok
      ⟨[⟨"Base", "first", "t_item", "Base.sol:3"⟩, ⟨"Token", "second", "t_item", "Token.sol:3"⟩],
        Table.ofList [("t_item", ⟨"Base.Item"⟩)]⟩) ∧
      Merged (.ofRun describedTwice) ⟨"cc", ""⟩ (.error (.unknownContract "Gone")) ∧
      ¬(ValidationLog.ofRun describedTwice).Has ⟨"d0", ""⟩ := by
  obtain ⟨htoken, -⟩ := mergedLayout_by_first_match (.ofRun describedTwice) ⟨"aa", ""⟩
  obtain ⟨hheir, -⟩ := mergedLayout_by_first_match (.ofRun describedTwice) ⟨"cc", ""⟩
  obtain ⟨-, hnone⟩ := mergedLayout_by_first_match (.ofRun describedTwice) ⟨"d0", ""⟩
  exact ⟨(htoken _).mp rfl, (hheir _).mp rfl, hnone.mp rfl⟩

end UpgradeAudit.Proofs
