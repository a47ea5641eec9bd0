import UpgradeAudit.Proofs.Lookup
import UpgradeAudit.Proofs.Provenance

/-!
# Contracts among their own ancestors

A contract is left out of its ancestors by its number, but the ancestors in a record are names. A
record therefore lists its own name exactly when the definition that it was made from has a base of
another number and of the same name, as when a contract extends an imported one of its name.
-/

namespace UpgradeAudit.Proofs

open Compiler (Output)
open Validation

variable {config : Config} {locate : Locator} {output : Output} {run : ValidationRun}
  {name : String} {record : ContractRecord}

/-- The definition from which the record of a name is made has a base of another number that stands
for the same name. -/
def InheritsNamesake (output : Output) (name : String) : Prop :=
  ∃ path node id bases base, lastDefinition? output name = some (path, node) ∧
    Node.id? node = some id ∧ Node.bases? node = some bases ∧ base ∈ bases ∧ base ≠ id ∧
    nameOfNumber? output base = some name

/-- Definitions of one name have one number. -/
def NamesIdentify (output : Output) : Prop :=
  ∀ a ∈ definitionNodes output, ∀ b ∈ definitionNodes output, ∀ name,
    Node.name? a.2 = some name → Node.name? b.2 = some name → Node.id? a.2 = Node.id? b.2

lemma mem_of_resolves {ids : List Int} {names : List String} (h : Resolves output ids names) :
    name ∈ names ↔ ∃ id ∈ ids, nameOfNumber? output id = some name := by
  unfold Resolves at h
  induction h with
  | nil => simp
  | @cons id first _ _ hfirst _ ih =>
    simp only [List.mem_cons, ih, or_and_right, exists_or, exists_eq_left, hfirst,
      Option.some.injEq]
    exact or_congr_left eq_comm

lemma mem_inherit_self_iff (h : validate config locate output = .ok run)
    (hrecord : run.get? name = some record) :
    name ∈ record.inherit ↔ InheritsNamesake output name := by
  unfold InheritsNamesake
  cases hlast : lastDefinition? output name with
  | none =>
    obtain ⟨-, -, hinherit, -⟩ := unanalysed_of_validate h hrecord hlast
    simp [hinherit]
  | some place =>
    obtain ⟨path, node⟩ := place
    obtain ⟨_, id, bases, -, hid, hbases, -, -, hinherit, -⟩ := analysed_of_validate h hrecord hlast
    rw [mem_of_resolves hinherit]
    constructor
    · rintro ⟨base, hbase, hname⟩
      obtain ⟨hmem, hne⟩ := List.mem_filter.mp hbase
      exact ⟨path, node, id, bases, base, rfl, hid, hbases, hmem, by simpa using hne, hname⟩
    · rintro ⟨_, _, id', bases', base, hplace, hid', hbases', hmem, hne, hname⟩
      obtain ⟨rfl, rfl⟩ := Prod.mk.inj (Option.some.inj hplace)
      obtain rfl := Option.some.inj (hid'.symm.trans hid)
      obtain rfl := Option.some.inj (hbases'.symm.trans hbases)
      exact ⟨base, List.mem_filter.mpr ⟨hmem, by simpa using hne⟩, hname⟩

lemma not_inheritsNamesake (h : NamesIdentify output) : ¬InheritsNamesake output name := by
  rintro ⟨path, node, id, bases, base, hlast, hid, -, -, hne, hname⟩
  obtain ⟨path', node', hmem', hbase, hname'⟩ := mem_of_nameOfNumber? hname
  obtain ⟨hmem, hname, -⟩ := mem_of_lastDefinition? hlast
  have hsame : Node.id? node' = Node.id? node :=
    h (path', node') hmem' (path, node) hmem name hname' hname
  rw [hbase, hid] at hsame
  exact hne (Option.some.inj hsame)

/-- No record of a run lists its own name among the ancestors exactly when no name inherits a
namesake, for which it is enough that definitions of one name have one number. -/
theorem inherit_excludes_self_iff (h : validate config locate output = .ok run) :
    ((∀ name record, run.get? name = some record → name ∉ record.inherit) ↔
      ∀ name, ¬InheritsNamesake output name) ∧
    (NamesIdentify output →
      ∀ name record, run.get? name = some record → name ∉ record.inherit) := by
  constructor
  · constructor
    · intro hall name hnamesake
      have ⟨path, node, _, _, _, hlast, _⟩ := hnamesake
      obtain ⟨-, -, hcompiled⟩ := mem_of_lastDefinition? hlast
      obtain ⟨record, hrecord⟩ := Option.isSome_iff_exists.mp
        ((get?_validate_isSome_iff h name).mpr ⟨path, hcompiled⟩)
      exact hall name record hrecord ((mem_inherit_self_iff h hrecord).mpr hnamesake)
    · intro hnone name record hrecord hmem
      exact hnone name ((mem_inherit_self_iff h hrecord).mp hmem)
  · intro hnames name record hrecord hmem
    exact not_inheritsNamesake hnames ((mem_inherit_self_iff h hrecord).mp hmem)

theorem redefinedToken_excludes_itself :
    (∃ run, validate {} rawLocator redefinedToken = .ok run) ∧
      ∀ name, ¬InheritsNamesake redefinedToken name := by
  have hvalue : ((validate {} rawLocator redefinedToken).toOption.bind fun run =>
      some (run.records.entries.all fun entry => entry.1 ∉ entry.2.inherit)) = some true := by
    decide +kernel
  obtain ⟨run, hrun, hall⟩ := exists_ok_of_toOption hvalue
  refine ⟨⟨run, hrun⟩, (inherit_excludes_self_iff hrun).1.mp fun name record hrecord => ?_⟩
  have hentry := List.all_eq_true.mp (Option.some.inj hall) _ (mem_entries_iff_get?.mpr hrecord)
  simpa using hentry

/-- A token that extends a token of the same name in another source. -/
def extendedToken : Output :=
  outputOf [("a.sol", [("Token", "")], [contractNode 1 "Token" [1] []]),
    ("b.sol", [("Token", "6001")], [contractNode 2 "Token" [2, 1] []])]

/-- A contract is listed among its own ancestors. -/
theorem extendedToken_inherits_itself :
    ∃ run record, validate {} rawLocator extendedToken = .ok run ∧
      run.get? "Token" = some record ∧ "Token" ∈ record.inherit := by
  have hvalue : ((validate {} rawLocator extendedToken).toOption.bind fun run =>
      (run.get? "Token").map ContractRecord.inherit) = some ["Token"] := by decide +kernel
  obtain ⟨run, hrun, hget⟩ := exists_ok_of_toOption hvalue
  obtain ⟨record, hrecord, hinherit⟩ := Option.map_eq_some_iff.mp hget
  exact ⟨run, record, hrun, hrecord, by simp [hinherit]⟩

end UpgradeAudit.Proofs
