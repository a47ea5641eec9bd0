import UpgradeAudit.Proofs.StorageOrder

/-!
# Types are described if and only if they are used

A layout holds its variables in a list and the types in a table of their own, and each operation
updates the two separately. Yet no layout that is put together by these operations, in whatever
order and from whatever bases, has a variable of a type that is not described, or describes a type
that no variable has. Layouts that a validation reads from definitions, and those that are merged
along ancestors, are put together in this way.
-/

namespace UpgradeAudit

namespace StorageLayout

/-- Layouts that are put together from empty ones, by variables that are put behind the others and
bases that are put in front. -/
inductive Built : StorageLayout → Prop
  | empty : Built empty
  | add {layout : StorageLayout} (h : Built layout) (item : StorageItem) (type : TypeItem) :
      Built (layout.add item type)
  | addBase {layout base : StorageLayout} (h : Built layout) (hbase : Built base) :
      Built (layout.addBase base)

/-- The types that are described are those that variables have. -/
structure Closed (layout : StorageLayout) : Prop where
  described : ∀ item ∈ layout.storage, item.type ∈ layout.types.keys
  used : ∀ key ∈ layout.types.keys, ∃ item ∈ layout.storage, item.type = key

end StorageLayout

namespace Proofs

open Compiler (Output)
open StorageLayout (Built Closed)

variable {layout base : StorageLayout} {run : ValidationRun} {log : ValidationLog}
  {version : Fingerprint}

lemma closed_empty : Closed .empty := by
  constructor
  · intro item hitem
    cases hitem
  · intro key hkey
    cases hkey

lemma closed_add (h : Closed layout) (item : StorageItem) (type : TypeItem) :
    Closed (layout.add item type) := by
  unfold StorageLayout.add
  constructor
  · intro other hother
    rw [Table.mem_keys_insert]
    rcases List.mem_append.mp hother with hold | hnew
    · exact .inr (h.described other hold)
    · exact .inl (congrArg StorageItem.type (List.mem_singleton.mp hnew))
  · intro key hkey
    rcases Table.mem_keys_insert _ |>.mp hkey with rfl | hold
    · exact ⟨item, by simp, rfl⟩
    · obtain ⟨other, hother, htype⟩ := h.used key hold
      exact ⟨other, List.mem_append_left _ hother, htype⟩

lemma closed_addBase (h : Closed layout) (hbase : Closed base) : Closed (layout.addBase base) := by
  unfold StorageLayout.addBase
  constructor
  · intro item hitem
    rw [Table.mem_keys_extend]
    exact (List.mem_append.mp hitem).imp (hbase.described item) (h.described item)
  · intro key hkey
    rcases Table.mem_keys_extend _ _ |>.mp hkey with hkey | hkey
    · obtain ⟨item, hitem, htype⟩ := hbase.used key hkey
      exact ⟨item, List.mem_append_left _ hitem, htype⟩
    · obtain ⟨item, hitem, htype⟩ := h.used key hkey
      exact ⟨item, List.mem_append_right _ hitem, htype⟩

lemma closed_of_built (h : Built layout) : Closed layout := by
  induction h with
  | empty => exact closed_empty
  | add _ item type ih => exact closed_add ih item type
  | addBase _ _ ih ihbase => exact closed_addBase ih ihbase

lemma built_foldl_add {α : Type} (item : α → StorageItem) (type : α → TypeItem) (xs : List α)
    (h : Built layout) :
    Built (xs.foldl (fun layout x => layout.add (item x) (type x)) layout) := by
  induction xs generalizing layout with
  | nil => exact h
  | cons x xs ih => exact ih (h.add (item x) (type x))

lemma built_extract (contract : Node) (locate : Locator) :
    Built (Storage.extract contract locate) :=
  built_foldl_add _ _ _ .empty

lemma built_foldl_addBase {bases : List StorageLayout} (hbases : ∀ base ∈ bases, Built base)
    (h : Built layout) : Built (bases.foldl StorageLayout.addBase layout) := by
  induction bases generalizing layout with
  | nil => exact h
  | cons base bases ih =>
    obtain ⟨hbase, hrest⟩ := List.forall_mem_cons.mp hbases
    exact ih hrest (h.addBase hbase)

/-- The run comes from a validation that reads layouts from definitions, with whatever rules. -/
def Validated (run : ValidationRun) : Prop :=
  ∃ rules locate output, validate ⟨rules, Storage.extract⟩ locate output = .ok run

lemma built_of_validated (h : Validated run) {name : String} {record : ContractRecord}
    (hrecord : run.get? name = some record) : Built record.layout := by
  obtain ⟨rules, locate, output, hvalid⟩ := h
  cases hlast : lastDefinition? output name with
  | none =>
    obtain ⟨-, hlayout, -⟩ := unanalysed_of_validate hvalid hrecord hlast
    rw [hlayout]
    exact .empty
  | some place =>
    obtain ⟨contract, id, bases, -, -, -, -, hlayout, -⟩ :=
      analysed_of_validate hvalid hrecord hlast
    rw [hlayout]
    exact built_extract place.2 locate

lemma built_mergedLayout (hlog : ∀ run ∈ log.runs, Validated run)
    (h : log.mergedLayout version = .ok layout) : Built layout := by
  obtain ⟨outcome, hmerged⟩ := exists_merged log version
  obtain rfl : Except.ok layout = outcome := h.symm.trans (mergedLayout_eq_of_merged hmerged)
  cases hmerged with
  | @merged run name record records _ hfirst hrecords hlayout =>
    rw [hlayout.unique (mergedFrom_foldl_addBase records)]
    refine built_foldl_addBase (fun base hbase => ?_) .empty
    obtain ⟨ancestor, hancestor, rfl⟩ := List.mem_map.mp hbase
    obtain ⟨name, -, hget⟩ := exists_of_forall₂_left hrecords.flip hancestor
    exact built_of_validated (hlog run hfirst.run_mem) hget

/-- The table of types is closed in every layout that is put together from empty ones, hence in the
layout of every record of a validation, and in every layout that is merged from a log of such
validations. -/
theorem types_closed (layout : StorageLayout) :
    (layout.Built → layout.Closed) ∧
    (∀ run name record, Validated run → run.get? name = some record → record.layout = layout →
      layout.Closed) ∧
    ∀ (log : ValidationLog) (version : Fingerprint), (∀ run ∈ log.runs, Validated run) →
      log.mergedLayout version = .ok layout → layout.Closed := by
  refine ⟨closed_of_built, ?_, ?_⟩
  · rintro run name record hrun hrecord rfl
    exact closed_of_built (built_of_validated hrun hrecord)
  · intro log version hlog hlayout
    exact closed_of_built (built_mergedLayout hlog hlayout)

def typedVariable (name type label : String) : Node :=
  variableNode name [("typeDescriptions",
    .object [("typeIdentifier", .text type), ("typeString", .text label)])]

/-- A token and its base describe one type in different words, and the token another one twice. -/
def typedToken : Output :=
  outputOf [("a.sol", [("Token", "6001")], [contractNode 2 "Token" [2, 1]
      [typedVariable "name" "t_string_storage_ptr" "string", typedVariable "a" "t_uint" "uint",
        typedVariable "b" "t_uint" "uint256"]]),
    ("b.sol", [("Base", "")], [contractNode 1 "Base" [1]
      [typedVariable "title" "t_string_storage" "string storage ref"]])]

theorem typedToken_types_closed :
    ∃ run record version layout, validate {} rawLocator typedToken = .ok run ∧
      run.get? "Token" = some record ∧ record.layout.Closed ∧ record.version = some version ∧
      (ValidationLog.ofRun run).mergedLayout version = .ok layout ∧ layout.Closed ∧
      layout.types.keys = ["t_string_storage", "t_uint"] ∧ (layout.addBase record.layout).Built ∧
      (layout.addBase record.layout).Closed := by
  have hvalue : ((validate {} rawLocator typedToken).toOption.bind fun run =>
      (run.get? "Token").bind fun record =>
        if record.version.isSome ∧ isSoleVersion run "Token" then
          (Match.mergedLayout ⟨0, run, "Token", record⟩).toOption.bind fun layout =>
            some layout.types.keys
        else none) = some ["t_string_storage", "t_uint"] := by decide +kernel
  obtain ⟨run, hrun, hvalue⟩ := exists_ok_of_toOption hvalue
  obtain ⟨record, hrecord, hvalue⟩ := Option.bind_eq_some_iff.mp hvalue
  obtain ⟨⟨hsome, hsole⟩, hvalue⟩ := Option.ite_none_right_eq_some.mp hvalue
  obtain ⟨version, hversion⟩ := Option.isSome_iff_exists.mp hsome
  obtain ⟨layout, hmerged, hkeys⟩ := exists_ok_of_toOption hvalue
  have hlayout : (ValidationLog.ofRun run).mergedLayout version = .ok layout := by
    rw [mergedLayout_ofRun hrecord hversion (unshared_of_isSoleVersion hsole), hmerged]
  have hvalidated : Validated run := ⟨DetectorSuite.standard, rawLocator, typedToken, hrun⟩
  have hlog : ∀ run' ∈ (ValidationLog.ofRun run).runs, Validated run' := by
    intro run' hmem
    obtain rfl := List.mem_singleton.mp hmem
    exact hvalidated
  have hbuilt : (layout.addBase record.layout).Built :=
    (built_mergedLayout hlog hlayout).addBase (built_of_validated hvalidated hrecord)
  refine ⟨run, record, version, layout, hrun, hrecord, ?_, hversion, hlayout, ?_,
    Option.some.inj hkeys, hbuilt, (types_closed _).1 hbuilt⟩
  · exact (types_closed record.layout).2.1 run "Token" record hvalidated hrecord rfl
  · exact (types_closed layout).2.2 _ version hlog hlayout

end Proofs

end UpgradeAudit
