import Mathlib.Data.List.Flatten
import UpgradeAudit.Detector
import UpgradeAudit.Proofs.SourceOrder

/-!
# A member more hides no finding

A contract is searched at every depth, and what a new member has inside it is sorted in among the
nodes that were found before. Neither the walk nor the sort changes the order of the old nodes, so
each rule reports of them what it reported without the new member. The contract itself is the one
node that is not the same as before; all that the rules read of it stays, but a locator that looks
at its members may name it in another way.
-/

namespace UpgradeAudit

namespace Json.Value

/-- The fields with another value under a key, if they have the key. -/
def setField (key : String) (value : Value) : List (String × Value) → List (String × Value)
  | [] => []
  | field :: rest =>
    if field.1 = key then (key, value) :: rest else field :: setField key value rest

/-- An object with another value under a key, if it has the key. -/
def set (object : Value) (key : String) (value : Value) : Value :=
  match object with
  | .object fields => .object (setField key value fields)
  | other => other

/-- The values inside a value, at any depth. -/
def inside (value : Value) : List Value :=
  itemsPreorder value.children

end Json.Value

/-- A contract with other members. -/
def Node.withMembers (contract : Node) (members : List Node) : Node :=
  Json.Value.set contract "nodes" (.array members)

/-- Two locators give a contract and an extension of it one name, and each other node one name. -/
structure Locator.NameAlike (locate locate' : Locator) (contract extended : Node) : Prop where
  others : ∀ node, node ≠ contract → locate node = locate' node
  itself : locate contract = locate' extended

namespace Proofs

open Json (Value)
open Json.Value (itemsPreorder)
open Node (findAll isNode place)

section Objects

variable {object value : Value} {key other : String}

lemma set_object_append {before after : List (String × Value)} {old : Value}
    (hbefore : ∀ field ∈ before, field.1 ≠ key) :
    (Value.object (before ++ (key, old) :: after)).set key value =
      .object (before ++ (key, value) :: after) := by
  have hfields : Value.setField key value (before ++ (key, old) :: after) =
      before ++ (key, value) :: after := by
    induction before with
    | nil => simp [Value.setField]
    | cons field rest ih =>
      rw [List.cons_append, Value.setField, if_neg (hbefore field List.mem_cons_self),
        ih fun f hf => hbefore f (List.mem_cons_of_mem field hf), List.cons_append]
  rw [Value.set, hfields]

lemma exists_fields_of_get? (h : object.get? key = some value) :
    ∃ before after, object = .object (before ++ (key, value) :: after) ∧
      ∀ field ∈ before, field.1 ≠ key := by
  cases object with
  | object fields =>
    obtain ⟨⟨_, _⟩, hfind, rfl⟩ := Option.map_eq_some_iff.mp h
    obtain ⟨hkey, before, after, rfl, hbefore⟩ := List.find?_eq_some_iff_append.mp hfind
    obtain rfl := of_decide_eq_true hkey
    exact ⟨before, after, rfl, fun field hfield => by simpa using hbefore field hfield⟩
  | _ => cases h

lemma get?_set_self {new : Value} (h : object.get? key = some value) :
    (object.set key new).get? key = some new := by
  obtain ⟨before, after, rfl, hbefore⟩ := exists_fields_of_get? h
  have hnone : before.find? (fun field => field.1 = key) = none := by
    simpa using hbefore
  rw [set_object_append hbefore, Value.get?, List.find?_append, hnone]
  simp

lemma get?_set_of_ne {new : Value} (h : object.get? key = some value) (hne : other ≠ key) :
    (object.set key new).get? other = object.get? other := by
  obtain ⟨before, after, rfl, hbefore⟩ := exists_fields_of_get? h
  have hskip : ∀ value : Value, ((key, value) :: after).find? (fun field => field.1 = other) =
      after.find? fun field => field.1 = other := fun value =>
    List.find?_cons_of_neg (by simpa using hne.symm)
  rw [set_object_append hbefore, Value.get?, Value.get?, List.find?_append, List.find?_append,
    hskip, hskip]

end Objects

section Weights

variable {value : Value}

lemma mem_itemsPreorder_iff {values : List Value} {found : Value} :
    found ∈ itemsPreorder values ↔ ∃ value ∈ values, found ∈ value.preorder := by
  induction values with
  | nil => simp [itemsPreorder]
  | cons first rest ih => simp [itemsPreorder, ih]

lemma weight_le_of_mem_preorder {found : Value} (h : found ∈ value.preorder) :
    found.weight ≤ value.weight := by
  induction value using Value.induction_children with
  | h value ih =>
    rw [Value.preorder_eq, List.mem_cons, mem_itemsPreorder_iff] at h
    rcases h with rfl | ⟨child, hchild, hfound⟩
    · exact Nat.le_refl _
    · have hpart := Value.weight_le_itemsWeight hchild
      have hwhole := Value.itemsWeight_children_lt value
      have hfound := ih child hchild hfound
      omega

lemma ne_of_mem_inside {found : Value} (h : found ∈ value.inside) : found ≠ value := by
  rintro rfl
  obtain ⟨child, hchild, hfound⟩ := mem_itemsPreorder_iff.mp h
  have hpart := Value.weight_le_itemsWeight hchild
  have hwhole := Value.itemsWeight_children_lt found
  have hfound := weight_le_of_mem_preorder hfound
  omega

end Weights

/-! ### What a search finds -/

section Extended

variable {contract member : Node} {left right members : List Node} {nodeType : String}
variable (hnodes : Value.get? contract "nodes" = some (.array (left ++ right)))

include hnodes

lemma get?_withMembers {key : String} (hkey : key ≠ "nodes") :
    Value.get? (contract.withMembers members) key = Value.get? contract key :=
  get?_set_of_ne hnodes hkey

lemma isNode_withMembers :
    isNode nodeType (contract.withMembers members) = isNode nodeType contract := by
  rw [Bool.eq_iff_iff, isNode_iff, isNode_iff, get?_withMembers hnodes (by decide)]

lemma place_withMembers : place (contract.withMembers members) = place contract := by
  unfold place Node.start? Node.src? Node.text?
  rw [get?_withMembers hnodes (by decide)]

lemma inside_withMembers (member : Node) : ∃ front back,
    Value.inside contract =
      front ++ (.array (left ++ right) :: (itemsPreorder left ++ itemsPreorder right) ++ back) ∧
    Value.inside (contract.withMembers (left ++ member :: right)) =
      front ++ (.array (left ++ member :: right) ::
        (itemsPreorder left ++ (Value.preorder member ++ itemsPreorder right)) ++ back) := by
  obtain ⟨before, after, rfl, hbefore⟩ := exists_fields_of_get? hnodes
  refine ⟨itemsPreorder (before.map Prod.snd), itemsPreorder (after.map Prod.snd), ?_, ?_⟩
  · simp [Value.inside, Value.children, Value.itemsPreorder_append, itemsPreorder, Value.preorder]
  · rw [Node.withMembers, set_object_append hbefore]
    simp [Value.inside, Value.children, Value.itemsPreorder_append, itemsPreorder, Value.preorder]

lemma filter_inside_sublist :
    ((Value.inside contract).filter (isNode nodeType)).Sublist
      ((Value.inside (contract.withMembers (left ++ member :: right))).filter
        (isNode nodeType)) := by
  obtain ⟨front, back, hold, hnew⟩ := inside_withMembers hnodes member
  have harray : ∀ items, isNode nodeType (.array items) = false := fun _ => rfl
  simp only [hold, hnew, List.filter_append, List.filter_cons, harray, Bool.false_eq_true,
    if_false]
  apply List.Sublist.append_left
  apply List.Sublist.append_right
  apply List.Sublist.append_left
  exact List.sublist_append_right _ _

omit hnodes in
/-- What is reported of the nodes of a kind depends on their places only through their order. -/
lemma flatMap_findAll (node : Node) (report : Node → List Finding) :
    (findAll node nodeType).flatMap report =
      ((((Value.preorder node).filter (isNode nodeType)).map fun found =>
        (place found, report found)).mergeSort fun a b => a.1 ≤ b.1).flatMap Prod.snd := by
  rw [← List.map_mergeSort (r := fun a b => place a ≤ place b) fun _ _ _ _ => rfl,
    List.flatMap_map, Node.findAll_eq]

lemma flatMap_findAll_sublist {report report' : Node → List Finding}
    (hinside : ∀ node ∈ Value.inside contract, report node = report' node)
    (hitself : isNode nodeType contract →
      report contract = report' (contract.withMembers (left ++ member :: right))) :
    ((findAll contract nodeType).flatMap report).Sublist
      ((findAll (contract.withMembers (left ++ member :: right)) nodeType).flatMap report') := by
  rw [flatMap_findAll, flatMap_findAll]
  apply List.Sublist.flatMap
  apply (stablySorted_mergeSort Prod.fst _).sublist (stablySorted_mergeSort Prod.fst _)
  have hrest : (((Value.inside contract).filter (isNode nodeType)).map fun found =>
      (place found, report found)).Sublist
      (((Value.inside (contract.withMembers (left ++ member :: right))).filter
        (isNode nodeType)).map fun found => (place found, report' found)) := by
    have hsame : ∀ found ∈ (Value.inside contract).filter (isNode nodeType),
        (place found, report found) = (place found, report' found) := fun found hfound => by
      rw [hinside found (List.mem_filter.mp hfound).1]
    rw [List.map_congr_left hsame]
    exact (filter_inside_sublist hnodes).map _
  rw [Value.preorder_eq, Value.preorder_eq]
  by_cases hnode : isNode nodeType contract
  · rw [List.filter_cons_of_pos hnode,
      List.filter_cons_of_pos (by rwa [isNode_withMembers hnodes]), List.map_cons, List.map_cons,
      place_withMembers hnodes, hitself hnode]
    exact hrest.cons_cons _
  · rw [List.filter_cons_of_neg hnode,
      List.filter_cons_of_neg (by rwa [isNode_withMembers hnodes])]
    exact hrest

/-! ### What the rules report -/

lemma members_eq : Node.members contract = left ++ right := by
  simp [Node.members, Node.list, hnodes, Value.items?]

lemma members_withMembers : Node.members (contract.withMembers members) = members := by
  have hget : Value.get? (contract.withMembers members) "nodes" = some (.array members) :=
    get?_set_self hnodes
  simp [Node.members, Node.list, hget, Value.items?]

lemma mem_inside_of_mem_members {node : Node} (h : node ∈ Node.members contract) :
    node ∈ Value.inside contract := by
  rw [members_eq hnodes] at h
  obtain ⟨before, after, rfl, -⟩ := exists_fields_of_get? hnodes
  refine mem_itemsPreorder_iff.mpr ⟨.array (left ++ right), by simp [Value.children], ?_⟩
  rw [Value.preorder_eq]
  exact List.mem_cons_of_mem _ (mem_itemsPreorder_iff.mpr ⟨node, h, by simp [Value.preorder_eq]⟩)

lemma flatMap_members_sublist {report report' : Node → List Finding}
    (hinside : ∀ node ∈ Value.inside contract, report node = report' node) :
    ((Node.members contract).flatMap report).Sublist
      ((Node.members (contract.withMembers (left ++ member :: right))).flatMap report') := by
  have hreport : (Node.members contract).flatMap report =
      (Node.members contract).flatMap report' :=
    List.flatMap_congr fun node hnode => hinside node (mem_inside_of_mem_members hnodes hnode)
  rw [hreport, members_eq hnodes, members_withMembers hnodes]
  apply List.Sublist.flatMap
  apply List.Sublist.append_left
  exact List.sublist_cons_self member right

omit hnodes in
lemma flatMap_filter {α β : Type} (p : α → Bool) (f : α → List β) (list : List α) :
    (list.filter p).flatMap f = list.flatMap fun a => if p a then f a else [] := by
  induction list with
  | nil => rfl
  | cons a rest ih => by_cases h : p a <;> simp [h, ih]

section Rules

variable {locate locate' : Locator} {bytecode : Bytecode}
variable (hinside : ∀ node ∈ Value.inside contract, locate node = locate' node)

include hinside

lemma constructors_sublist (hitself : isNode "FunctionDefinition" contract →
      locate contract = locate' (contract.withMembers (left ++ member :: right))) :
    (Target.constructors ⟨contract, bytecode, locate⟩).Sublist
      (Target.constructors
        ⟨contract.withMembers (left ++ member :: right), bytecode, locate'⟩) := by
  simp only [Target.constructors, List.map_eq_flatMap, flatMap_filter]
  have hname : Target.contractName ⟨contract, bytecode, locate⟩ = Target.contractName
      ⟨contract.withMembers (left ++ member :: right), bytecode, locate'⟩ := by
    simp [Target.contractName, Node.nameOrEmpty, Node.name?, Node.text?, get?_withMembers hnodes]
  apply flatMap_findAll_sublist hnodes
  · intro node hnode
    rw [hinside node hnode, hname]
  · intro hnode
    have hunsafe : (Node.isConstructor contract && Node.doesSomething contract) =
        (Node.isConstructor (contract.withMembers (left ++ member :: right)) &&
          Node.doesSomething (contract.withMembers (left ++ member :: right))) := by
      simp [Node.isConstructor, Node.doesSomething, Node.statements, Node.attribute?, Node.list,
        Node.text?, get?_withMembers hnodes]
    rw [hitself hnode, hname, hunsafe]

lemma opcodes_sublist (hitself : isNode "FunctionCall" contract →
      locate contract = locate' (contract.withMembers (left ++ member :: right))) :
    (Target.opcodes ⟨contract, bytecode, locate⟩).Sublist
      (Target.opcodes ⟨contract.withMembers (left ++ member :: right), bytecode, locate'⟩) := by
  apply flatMap_findAll_sublist hnodes
  · intro node hnode
    dsimp only
    rw [hinside node hnode]
  · intro hnode
    have hcalls : ∀ lead, Node.callsType lead contract =
        Node.callsType lead (contract.withMembers (left ++ member :: right)) := by
      intro lead
      simp [Node.callsType, Node.calleeType?, Node.attribute?, get?_withMembers hnodes]
    have hdelegate : Node.isDelegatecall contract =
        Node.isDelegatecall (contract.withMembers (left ++ member :: right)) := hcalls _
    have hdestruct : Node.isSelfdestruct contract =
        Node.isSelfdestruct (contract.withMembers (left ++ member :: right)) := hcalls _
    dsimp only
    rw [hdelegate, hdestruct, hitself hnode]

lemma detect_sublist
    (hitself : isNode "FunctionDefinition" contract ∨ isNode "FunctionCall" contract →
      locate contract = locate' (contract.withMembers (left ++ member :: right)))
    (rule : Detector) :
    (rule.detect ⟨contract, bytecode, locate⟩).Sublist
      (rule.detect ⟨contract.withMembers (left ++ member :: right), bytecode, locate'⟩) := by
  cases rule with
  | constructor => exact constructors_sublist hnodes hinside fun hnode => hitself (.inl hnode)
  | opcode => exact opcodes_sublist hnodes hinside fun hnode => hitself (.inr hnode)
  | stateVariable | structDefinition | enumDefinition =>
    simp only [Detector.detect, Target.stateVariables, Node.declaredVariables,
      Target.structDefinitions, Target.enumDefinitions, Target.definitions, List.map_eq_flatMap,
      flatMap_filter]
    apply flatMap_members_sublist hnodes
    intro node hnode
    rw [hinside node hnode]
  | linking => exact List.Sublist.refl _

lemma standard_detect_sublist
    (hitself : isNode "FunctionDefinition" contract ∨ isNode "FunctionCall" contract →
      locate contract = locate' (contract.withMembers (left ++ member :: right))) :
    (DetectorSuite.standard.detect ⟨contract, bytecode, locate⟩).Sublist
      (DetectorSuite.standard.detect
        ⟨contract.withMembers (left ++ member :: right), bytecode, locate'⟩) := by
  apply List.Sublist.flatMap_right
  intro rule _
  exact detect_sublist hnodes hinside hitself rule

end Rules

lemma nameAlike_of_src {locate : Locator}
    (hsrc : ∀ a b, Node.src? a = Node.src? b → locate a = locate b) :
    locate.NameAlike locate contract (contract.withMembers members) := by
  refine ⟨fun _ _ => rfl, hsrc _ _ ?_⟩
  unfold Node.src? Node.text?
  rw [get?_withMembers hnodes (by decide)]

end Extended

/-- A contract with one member more, at any position, has all the findings that it had without it,
in their order. An object that is itself a function or a call may be among its own findings, and
then has to be given the name that it had. -/
theorem findings_survive_added_member {contract : Node} {left right : List Node}
    (hnodes : Value.get? contract "nodes" = some (.array (left ++ right))) (member : Node)
    (bytecode : Bytecode) (locate : Locator) :
    (¬isNode "FunctionDefinition" contract → ¬isNode "FunctionCall" contract →
      (DetectorSuite.standard.detect ⟨contract, bytecode, locate⟩).Sublist
        (DetectorSuite.standard.detect
          ⟨contract.withMembers (left ++ member :: right), bytecode, locate⟩)) ∧
    ∀ locate' : Locator,
      locate.NameAlike locate' contract (contract.withMembers (left ++ member :: right)) →
      (DetectorSuite.standard.detect ⟨contract, bytecode, locate⟩).Sublist
        (DetectorSuite.standard.detect
          ⟨contract.withMembers (left ++ member :: right), bytecode, locate'⟩) := by
  constructor
  · intro hfunction hcall
    exact standard_detect_sublist hnodes (fun _ _ => rfl)
      fun hitself => absurd hitself (not_or.mpr ⟨hfunction, hcall⟩)
  · intro locate' halike
    exact standard_detect_sublist hnodes
      (fun node hnode => halike.others node (ne_of_mem_inside hnode)) fun _ => halike.itself

/-- A contract definition is not among its own findings, however its nodes are named. -/
theorem findings_of_definition_survive {contract : Node} {left right : List Node}
    (htype : Value.get? contract "nodeType" = some (.text "ContractDefinition"))
    (hnodes : Value.get? contract "nodes" = some (.array (left ++ right))) (member : Node)
    (bytecode : Bytecode) (locate : Locator) :
    (DetectorSuite.standard.detect ⟨contract, bytecode, locate⟩).Sublist
      (DetectorSuite.standard.detect
        ⟨contract.withMembers (left ++ member :: right), bytecode, locate⟩) := by
  apply standard_detect_sublist hnodes (fun _ _ => rfl)
  simp [isNode_iff, htype]

def unsafeCall (callee src : String) (members : List Node) : Node :=
  .object [("expression",
      .object [("typeDescriptions", .object [("typeIdentifier", .text callee)])]),
    ("nodeType", .text "FunctionCall"), ("nodes", .array members), ("src", .text src)]

def delegatingCall : Node := unsafeCall "t_function_baredelegatecall_nonpayable$" "30:5:0" []

/-- A call that destroys the contract, before the other one in the source. -/
def destroyingCall : Node := unsafeCall "t_function_selfdestruct_nonpayable$" "10:4:0" []

def itemDefinition : Node :=
  .object [("name", .text "Item"), ("nodeType", .text "StructDefinition"), ("src", .text "50:9:0")]

def delegatingToken : Node :=
  .object [("name", .text "Token"), ("nodeType", .text "ContractDefinition"),
    ("nodes", .array [delegatingCall, itemDefinition])]

/-- Names a node by whether it has members. -/
def memberLocator : Locator := fun node =>
  if (Node.members node).isEmpty then "empty" else "filled"

-- a call with a member more may be named in another way, and then its old finding is gone
example : ¬(DetectorSuite.standard.detect ⟨delegatingCall, {}, memberLocator⟩).Sublist
    (DetectorSuite.standard.detect
      ⟨delegatingCall.withMembers [itemDefinition], {}, memberLocator⟩) := by
  decide +kernel

theorem delegatingToken_findings_survive :
    [Finding.delegatecall "30:5:0", .structDefinition "Item" "50:9:0"].Sublist
      (DetectorSuite.standard.detect
        ⟨delegatingToken.withMembers [delegatingCall, destroyingCall, itemDefinition], {},
          rawLocator⟩) ∧
    [Finding.delegatecall "30:5:0"].Sublist
      (DetectorSuite.standard.detect
        ⟨delegatingCall.withMembers [destroyingCall], {}, rawLocator⟩) := by
  have htoken : DetectorSuite.standard.detect ⟨delegatingToken, {}, rawLocator⟩ =
      [.delegatecall "30:5:0", .structDefinition "Item" "50:9:0"] := by decide +kernel
  have hcall : DetectorSuite.standard.detect ⟨delegatingCall, {}, rawLocator⟩ =
      [.delegatecall "30:5:0"] := by decide +kernel
  constructor
  · rw [← htoken]
    exact (@findings_survive_added_member delegatingToken [delegatingCall] [itemDefinition] rfl
      destroyingCall {} rawLocator).1 (by decide +kernel) (by decide +kernel)
  · -- the call is itself what is reported, and goes by its raw location with any members
    have halike := @nameAlike_of_src delegatingCall [] [] [destroyingCall] rfl rawLocator
      fun a b h => by rw [rawLocator, rawLocator, h]
    rw [← hcall]
    exact (@findings_survive_added_member delegatingCall [] [] rfl destroyingCall {}
      rawLocator).2 rawLocator halike

end Proofs

end UpgradeAudit
