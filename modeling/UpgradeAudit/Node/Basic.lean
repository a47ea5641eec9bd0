import UpgradeAudit.Error
import UpgradeAudit.Json.Value
import UpgradeAudit.Text.Search

/-!
# Nodes of the syntax tree

The compiler gives the syntax tree of a source as JSON. Any value can be looked at as a node; an
attribute that is missing or has another shape than expected is simply not there. The few attributes
that a contract definition cannot do without are asked for by `requireId`, `requireName` and
`requireBases`.
-/

namespace UpgradeAudit

/-- A node of a syntax tree. -/
abbrev Node := Json.Value

namespace Node

def text? (node : Node) (key : String) : Option String :=
  (Json.Value.get? node key).bind Json.Value.text?

theorem text?_eq_some_iff {node : Node} {key content : String} :
    text? node key = some content ↔ Json.Value.get? node key = some (.text content) := by
  unfold text?
  cases Json.Value.get? node key with
  | none => simp
  | some value => cases value <;> simp [Json.Value.text?]

def bool? (node : Node) (key : String) : Option Bool :=
  (Json.Value.get? node key).bind Json.Value.bool?

theorem bool?_eq_some_iff {node : Node} {key : String} {content : Bool} :
    bool? node key = some content ↔ Json.Value.get? node key = some (.bool content) := by
  unfold bool?
  cases Json.Value.get? node key with
  | none => simp
  | some value => cases value <;> simp [Json.Value.bool?]

def int? (node : Node) (key : String) : Option Int :=
  (Json.Value.get? node key).bind Json.Value.int?

theorem int?_eq_some_iff {node : Node} {key : String} {n : Int} :
    int? node key = some n ↔ Json.Value.get? node key = some (.int n) ∧
      -(Text.maxSigned + 1) ≤ n ∧ n ≤ Text.maxSigned := by
  rw [int?, Option.bind_eq_some_iff]
  constructor
  · rintro ⟨value, hvalue, hint⟩
    obtain ⟨rfl, hfits⟩ := Json.Value.int?_eq_some_iff.mp hint
    exact ⟨hvalue, hfits⟩
  · rintro ⟨hvalue, hfits⟩
    exact ⟨.int n, hvalue, Json.Value.int?_eq_some_iff.mpr ⟨rfl, hfits⟩⟩

/-- An attribute other than `null`, as a node. -/
def attribute? (node : Node) (key : String) : Option Node :=
  (Json.Value.get? node key).filter fun value => !value.isNull

theorem attribute?_eq_some_iff {node value : Node} {key : String} :
    attribute? node key = some value ↔ Json.Value.get? node key = some value ∧ value ≠ .null := by
  rw [attribute?, Option.filter_eq_some_iff]
  refine and_congr_right fun _ => ?_
  cases value <;> simp [Json.Value.isNull]

/-- Nothing is inside `null`, so it does not matter that it is no attribute. -/
theorem text?_of_attribute?_iff {node : Node} {key inner content : String} :
    ((attribute? node key).bind fun value => text? value inner) = some content ↔
      ∃ value, Json.Value.get? node key = some value ∧
        Json.Value.get? value inner = some (.text content) := by
  simp only [Option.bind_eq_some_iff, attribute?_eq_some_iff, text?_eq_some_iff]
  constructor
  · rintro ⟨value, ⟨hvalue, -⟩, hcontent⟩
    exact ⟨value, hvalue, hcontent⟩
  · rintro ⟨value, hvalue, hcontent⟩
    refine ⟨value, ⟨hvalue, ?_⟩, hcontent⟩
    rintro rfl
    cases hcontent

/-- The elements of an attribute that is an array; none if it is not. -/
def list (node : Node) (key : String) : List Node :=
  ((Json.Value.get? node key).bind Json.Value.items?).getD []

theorem list_eq_cons_iff {node item : Node} {key : String} {rest : List Node} :
    list node key = item :: rest ↔ Json.Value.get? node key = some (.array (item :: rest)) := by
  unfold list
  cases Json.Value.get? node key with
  | none => simp
  | some value => cases value <;> simp [Json.Value.items?]

/-- The kind of the node, such as `ContractDefinition`. -/
def nodeType? (node : Node) : Option String :=
  text? node "nodeType"

def hasType (node : Node) (nodeType : String) : Bool :=
  nodeType? node == some nodeType

theorem hasType_iff {node : Node} {nodeType : String} :
    hasType node nodeType ↔ Json.Value.get? node "nodeType" = some (.text nodeType) := by
  rw [hasType, beq_iff_eq, nodeType?, text?_eq_some_iff]

/-- The number by which other nodes refer to the node. -/
def id? (node : Node) : Option Int :=
  int? node "id"

def name? (node : Node) : Option String :=
  text? node "name"

/-- The raw location `start:length:source`. -/
def src? (node : Node) : Option String :=
  text? node "src"

/-- The byte of the source at which the node starts. -/
def start? (node : Node) : Option Nat := do
  let src ← src? node
  let first ← (Text.splitOn ':' src.toList).head?
  Text.numeral? 10 Text.maxWord first

/-- The nodes declared directly inside the node. -/
def members (node : Node) : List Node :=
  list node "nodes"

def typeIdentifier? (node : Node) : Option String :=
  (attribute? node "typeDescriptions").bind fun types => text? types "typeIdentifier"

theorem typeIdentifier?_eq_some_iff {node : Node} {type : String} :
    typeIdentifier? node = some type ↔
      ∃ types, Json.Value.get? node "typeDescriptions" = some types ∧
        Json.Value.get? types "typeIdentifier" = some (.text type) :=
  text?_of_attribute?_iff

/-- The type that the compiler gave the node, in words. -/
def typeString? (node : Node) : Option String :=
  (attribute? node "typeDescriptions").bind fun types => text? types "typeString"

theorem typeString?_eq_some_iff {node : Node} {type : String} :
    typeString? node = some type ↔
      ∃ types, Json.Value.get? node "typeDescriptions" = some types ∧
        Json.Value.get? types "typeString" = some (.text type) :=
  text?_of_attribute?_iff

/-- The number of the declaration that the node refers to. -/
def reference? (node : Node) : Option Int :=
  int? node "referencedDeclaration"

/-- The numbers of the contract and its ancestors, the closest first. -/
def bases? (node : Node) : Option (List Int) :=
  ((Json.Value.get? node "linearizedBaseContracts").bind Json.Value.items?).bind fun items =>
    items.mapM Json.Value.int?

def missing (node : Node) (key : String) : InputError :=
  .missingAttribute ((nodeType? node).getD "<unknown>") ((src? node).getD "<unknown>") key

/-- Turns a missing value into an error. -/
def orMissing {α : Type} (node : Node) (key : String) : Option α → Except InputError α
  | some value => .ok value
  | none => .error (missing node key)

def requireId (node : Node) : Except InputError Int :=
  orMissing node "id" (id? node)

def requireName (node : Node) : Except InputError String :=
  orMissing node "name" (name? node)

def requireBases (node : Node) : Except InputError (List Int) :=
  orMissing node "linearizedBaseContracts" (bases? node)

end Node

end UpgradeAudit
