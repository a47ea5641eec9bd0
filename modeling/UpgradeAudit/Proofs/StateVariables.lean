import UpgradeAudit.Proofs.StorageOrder
import UpgradeAudit.Proofs.UnsafeConstructs

/-!
# Where the variables of a contract go

The layout of a contract and the findings about its variables come from two passes over the same
declarations, each with tests of its own for constants and immutable variables. `Accounts` goes over
the declarations once and says of each where it goes: into the layout, into a finding, or, for a
constant, nowhere. Attributes that are missing, `null` or of another shape, and marks that
contradict each other, leave no declaration without its place and none with two.
-/

namespace UpgradeAudit

open Json (Value)

namespace Target

/-- The variable in storage of a declaration: its name as the label, and its type without pointer
marks. -/
def storedAs (target : Target) (declaration : Node) : StorageItem where
  contract := target.contractName
  label := Node.nameOrEmpty declaration
  type := Storage.normalizeType ((Node.typeIdentifier? declaration).getD "")
  src := target.locate declaration

/-- The variables in storage and the findings about immutable variables that declarations give, each
of which is taken in its turn and goes to one place. -/
inductive Accounts (target : Target) : List Node → List StorageItem → List Finding → Prop
  | nil : Accounts target [] [] []
  | stored {declaration : Node} {rest : List Node} {items : List StorageItem}
      {findings : List Finding}
      (hconstant : Value.get? declaration "constant" ≠ some (.bool true))
      (hmutability : Value.get? declaration "mutability" ≠ some (.text "immutable"))
      (h : Accounts target rest items findings) :
      Accounts target (declaration :: rest) (target.storedAs declaration :: items) findings
  | immutable {declaration : Node} {rest : List Node} {items : List StorageItem}
      {findings : List Finding}
      (hmutability : Value.get? declaration "mutability" = some (.text "immutable"))
      (h : Accounts target rest items findings) :
      Accounts target (declaration :: rest) items (.stateVariableImmutable
        (Node.nameOrEmpty declaration) (target.locate declaration) :: findings)
  | constant {declaration : Node} {rest : List Node} {items : List StorageItem}
      {findings : List Finding}
      (hconstant : Value.get? declaration "constant" = some (.bool true))
      (hmutability : Value.get? declaration "mutability" ≠ some (.text "immutable"))
      (h : Accounts target rest items findings) :
      Accounts target (declaration :: rest) items findings

end Target

namespace Proofs

variable {target : Target} {declaration : Node} {declarations : List Node}
  {items : List StorageItem} {findings : List Finding}

lemma isStored_iff : Storage.isStored declaration ↔
    Value.get? declaration "constant" ≠ some (.bool true) ∧
      Value.get? declaration "mutability" ≠ some (.text "immutable") := by
  rw [Storage.isStored, Bool.not_eq_true', Bool.or_eq_false_iff, isConstant_eq_false_iff,
    ← Bool.not_eq_true, isImmutable_iff]

lemma exists_accounts (target : Target) (declarations : List Node) :
    ∃ items findings, target.Accounts declarations items findings := by
  induction declarations with
  | nil => exact ⟨[], [], .nil⟩
  | cons declaration rest ih =>
    obtain ⟨items, findings, h⟩ := ih
    by_cases hmutability : Value.get? declaration "mutability" = some (.text "immutable")
    · exact ⟨_, _, .immutable hmutability h⟩
    · by_cases hconstant : Value.get? declaration "constant" = some (.bool true)
      · exact ⟨_, _, .constant hconstant hmutability h⟩
      · exact ⟨_, _, .stored hconstant hmutability h⟩

lemma items_of_accounts (h : target.Accounts declarations items findings) :
    items = (declarations.filter Storage.isStored).map
      (Storage.itemOf target.locate target.contract) := by
  induction h with
  | nil => rfl
  | stored hconstant hmutability _ ih =>
    rw [List.filter_cons_of_pos (isStored_iff.mpr ⟨hconstant, hmutability⟩), List.map_cons, ← ih]
    rfl
  | immutable hmutability _ ih =>
    rw [List.filter_cons_of_neg fun hstored => (isStored_iff.mp hstored).2 hmutability, ih]
  | constant hconstant _ _ ih =>
    rw [List.filter_cons_of_neg fun hstored => (isStored_iff.mp hstored).1 hconstant, ih]

/-- The findings about one declaration. -/
def variableFindings (target : Target) (declaration : Node) : List Finding :=
  let name := Node.nameOrEmpty declaration
  (if !Node.isConstant declaration && Node.hasValue declaration then
      [Finding.stateVariableAssignment name (target.locate declaration)] else [])
    ++ (if Node.isImmutable declaration then
      [Finding.stateVariableImmutable name (target.locate declaration)] else [])

lemma filter_variableFindings (target : Target) (declaration : Node) :
    ((variableFindings target declaration).filter fun finding =>
      finding.kind = .stateVariableImmutable) =
      if Node.isImmutable declaration then [.stateVariableImmutable (Node.nameOrEmpty declaration)
        (target.locate declaration)] else [] := by
  unfold variableFindings
  rw [List.filter_append]
  split <;> split <;> simp [Finding.kind]

lemma filter_flatMap_variableFindings (target : Target) (declarations : List Node) :
    ((declarations.flatMap (variableFindings target)).filter fun finding =>
      finding.kind = .stateVariableImmutable) =
      (declarations.filter Node.isImmutable).map fun declaration =>
        .stateVariableImmutable (Node.nameOrEmpty declaration) (target.locate declaration) := by
  induction declarations with
  | nil => rfl
  | cons declaration rest ih =>
    rw [List.flatMap_cons, List.filter_append, filter_variableFindings, ih, List.filter_cons]
    split <;> rfl

lemma findings_of_accounts (h : target.Accounts declarations items findings) :
    findings = (declarations.filter Node.isImmutable).map fun declaration =>
      .stateVariableImmutable (Node.nameOrEmpty declaration) (target.locate declaration) := by
  induction h with
  | nil => rfl
  | immutable hmutability _ ih =>
    rw [List.filter_cons_of_pos (isImmutable_iff.mpr hmutability), List.map_cons, ← ih]
  | stored _ hmutability _ ih =>
    rw [List.filter_cons_of_neg fun h => hmutability (isImmutable_iff.mp h), ih]
  | constant _ hmutability _ ih =>
    rw [List.filter_cons_of_neg fun h => hmutability (isImmutable_iff.mp h), ih]

lemma stored_of_no_findings (h : variableFindings target declaration = [])
    (hconstant : Value.get? declaration "constant" ≠ some (.bool true)) :
    Storage.isStored declaration ∧
      ∀ value, Value.get? declaration "value" = some value → value = .null := by
  obtain ⟨hassigned, himmutable⟩ := List.append_eq_nil_iff.mp h
  have hmutability : ¬Node.isImmutable declaration := fun h => by simp [h] at himmutable
  have hvalue : ¬Node.hasValue declaration := fun h => by
    simp [isConstant_eq_false_iff.mpr hconstant, h] at hassigned
  refine ⟨isStored_iff.mpr ⟨hconstant, mt isImmutable_iff.mpr hmutability⟩, ?_⟩
  intro value hget
  by_contra hnull
  exact hvalue (hasValue_iff.mpr ⟨value, hget, hnull⟩)

/-- The layout and the findings about immutable variables are what the members that declare
variables come to, each in its turn and in one place. Where nothing at all is found, each member
that is not marked as constant is in storage, and none of these has a value but `null`. -/
theorem variables_accounted_for (target : Target) :
    (∀ items findings, target.Accounts ((Node.members target.contract).filter fun member =>
        Node.hasType member "VariableDeclaration") items findings ↔
      (Storage.extract target.contract target.locate).storage = items ∧
        ((Detector.stateVariable.detect target).filter fun finding =>
          finding.kind = .stateVariableImmutable) = findings) ∧
    (Detector.stateVariable.detect target = [] → ∀ member ∈ Node.members target.contract,
      Node.hasType member "VariableDeclaration" →
      Value.get? member "constant" ≠ some (.bool true) →
        target.storedAs member ∈ (Storage.extract target.contract target.locate).storage ∧
        ∀ value, Value.get? member "value" = some value → value = .null) := by
  have hdetect : Detector.stateVariable.detect target =
      (Node.declaredVariables target.contract).flatMap (variableFindings target) := rfl
  constructor
  · intro items findings
    rw [hdetect, storage_extract, filter_flatMap_variableFindings]
    constructor
    · intro h
      exact ⟨(items_of_accounts h).symm, (findings_of_accounts h).symm⟩
    · rintro ⟨rfl, rfl⟩
      obtain ⟨items, findings, h⟩ := exists_accounts target (Node.declaredVariables target.contract)
      rw [← items_of_accounts h, ← findings_of_accounts h]
      exact h
  · intro hnone member hmember hvariable hconstant
    have hdeclared : member ∈ Node.declaredVariables target.contract :=
      List.mem_filter.mpr ⟨hmember, hvariable⟩
    rw [hdetect, List.flatMap_eq_nil_iff] at hnone
    obtain ⟨hstored, hvalue⟩ := stored_of_no_findings (hnone member hdeclared) hconstant
    rw [storage_extract]
    exact ⟨List.mem_map_of_mem (List.mem_filter.mpr ⟨hdeclared, hstored⟩), hvalue⟩

/-- The mark of `a` as a constant is no boolean. -/
def tokenWithMembers (others : List Node) : Target where
  contract := contractNode 1 "Token" [1]
    (variableNode "a" [("constant", .text "true"), ("value", .null)] ::
      variableNode "k" [("constant", .bool true), ("value", .int 1)] :: others)
  bytecode := {}
  locate := rawLocator

/-- A variable that is marked as both constant and immutable is immutable. -/
theorem tokenWithMembers_accounted_for :
    (∃ target items findings, target = tokenWithMembers [variableNode "i"
        [("constant", .bool true), ("mutability", .text "immutable")], variableNode "b" []] ∧
      target.Accounts ((Node.members target.contract).filter fun member =>
        Node.hasType member "VariableDeclaration") items findings ∧
      items.map StorageItem.label = ["a", "b"] ∧ findings.map Finding.name? = [some "i"]) ∧
    ∃ target member, target = tokenWithMembers [] ∧ Detector.stateVariable.detect target = [] ∧
      member ∈ Node.members target.contract ∧ Node.name? member = some "a" ∧
      target.storedAs member ∈ (Storage.extract target.contract target.locate).storage := by
  constructor
  · obtain ⟨haccounts, -⟩ := variables_accounted_for (tokenWithMembers [variableNode "i"
      [("constant", .bool true), ("mutability", .text "immutable")], variableNode "b" []])
    exact ⟨_, _, _, rfl, (haccounts _ _).mpr ⟨rfl, rfl⟩, by decide +kernel, by decide +kernel⟩
  · obtain ⟨-, hquiet⟩ := variables_accounted_for (tokenWithMembers [])
    have hnone : Detector.stateVariable.detect (tokenWithMembers []) = [] := by decide +kernel
    obtain ⟨hstored, -⟩ := hquiet hnone _ List.mem_cons_self (by decide +kernel)
      (isConstant_eq_false_iff.mp (by decide +kernel))
    exact ⟨_, _, rfl, hnone, List.mem_cons_self, by decide +kernel, hstored⟩

end Proofs

end UpgradeAudit
