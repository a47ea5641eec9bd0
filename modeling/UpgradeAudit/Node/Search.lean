import UpgradeAudit.Node.Basic

/-!
# Searching a syntax tree

`Node.findAll` gives the nodes of a kind at any depth, in the order of their places in the source.
The search goes over a list of values still to be visited. Each value is visited before its
children, fields in the order of their keys and items in theirs; nodes that start at the same byte,
and nodes without a place, stay in the order of this walk. Main statement: the nodes found are
those that recursion over the tree meets, in that order before they are sorted (`findAll_eq`).
-/

namespace UpgradeAudit

namespace Json.Value

/-- The values directly inside a value. -/
def children : Value → List Value
  | .array items => items
  | .object fields => fields.map Prod.snd
  | _ => []

mutual

/-- The number of values in a value, with itself. -/
def weight : Value → Nat
  | .array items => itemsWeight items + 1
  | .object fields => fieldsWeight fields + 1
  | _ => 1

def itemsWeight : List Value → Nat
  | [] => 0
  | item :: rest => item.weight + itemsWeight rest

def fieldsWeight : List (String × Value) → Nat
  | [] => 0
  | (_, value) :: rest => value.weight + fieldsWeight rest

end

theorem itemsWeight_append (xs ys : List Value) :
    itemsWeight (xs ++ ys) = itemsWeight xs + itemsWeight ys := by
  induction xs with
  | nil => simp [itemsWeight]
  | cons x rest ih => simp [itemsWeight, ih, Nat.add_assoc]

theorem itemsWeight_map_snd (fields : List (String × Value)) :
    itemsWeight (fields.map Prod.snd) = fieldsWeight fields := by
  induction fields with
  | nil => rfl
  | cons field rest ih => simp [itemsWeight, fieldsWeight, ih]

theorem itemsWeight_children_lt (value : Value) : itemsWeight value.children < value.weight := by
  cases value <;> simp [children, weight, itemsWeight, itemsWeight_map_snd]

mutual

/-- A value and all values inside it, each before its children. -/
def preorder : Value → List Value
  | .array items => .array items :: itemsPreorder items
  | .object fields => .object fields :: fieldsPreorder fields
  | value => [value]

def itemsPreorder : List Value → List Value
  | [] => []
  | item :: rest => item.preorder ++ itemsPreorder rest

def fieldsPreorder : List (String × Value) → List Value
  | [] => []
  | (_, value) :: rest => value.preorder ++ fieldsPreorder rest

end

theorem itemsPreorder_append (xs ys : List Value) :
    itemsPreorder (xs ++ ys) = itemsPreorder xs ++ itemsPreorder ys := by
  induction xs with
  | nil => rfl
  | cons x rest ih => simp [itemsPreorder, ih]

theorem itemsPreorder_map_snd (fields : List (String × Value)) :
    itemsPreorder (fields.map Prod.snd) = fieldsPreorder fields := by
  induction fields with
  | nil => rfl
  | cons field rest ih => simp [itemsPreorder, fieldsPreorder, ih]

theorem preorder_eq (value : Value) : value.preorder = value :: itemsPreorder value.children := by
  cases value <;> simp [preorder, children, itemsPreorder, itemsPreorder_map_snd]

end Json.Value

namespace Node

/-- Whether a value is an object of a kind. -/
def isNode (nodeType : String) : Json.Value → Bool
  | .object fields => hasType (.object fields) nodeType
  | _ => false

/-- Visits the values of a list and all inside them, and keeps the nodes of a kind; `found` holds
those found before, the last first. -/
def walk (nodeType : String) (found : List Node) : List Json.Value → List Node
  | [] => found.reverse
  | value :: rest =>
    walk nodeType (if isNode nodeType value then value :: found else found) (value.children ++ rest)
  termination_by pending => Json.Value.itemsWeight pending
  decreasing_by
    rw [Json.Value.itemsWeight_append, Json.Value.itemsWeight]
    have := Json.Value.itemsWeight_children_lt value
    omega

/-- The walk finds the nodes of a kind in pre-order, after those found before. -/
theorem walk_eq (nodeType : String) (found : List Node) (pending : List Json.Value) :
    walk nodeType found pending =
      found.reverse ++ (Json.Value.itemsPreorder pending).filter (isNode nodeType) := by
  fun_induction walk nodeType found pending with
  | case1 found => simp [Json.Value.itemsPreorder]
  | case2 found value rest ih =>
    rw [Json.Value.itemsPreorder_append] at ih
    rw [Json.Value.itemsPreorder, Json.Value.preorder_eq]
    by_cases h : isNode nodeType value <;> simpa [h] using ih

/-- What the order of nodes goes by: where the node starts, or the largest number. -/
def place (node : Node) : Nat :=
  (start? node).getD Text.maxWord

/-- The nodes of a kind in a tree, with its root, in the order of their places. -/
def findAll (node : Node) (nodeType : String) : List Node :=
  (walk nodeType [] [node]).mergeSort fun a b => place a ≤ place b

theorem findAll_eq (node : Node) (nodeType : String) :
    findAll node nodeType =
      ((Json.Value.preorder node).filter (isNode nodeType)).mergeSort
        fun a b => place a ≤ place b := by
  simp [findAll, walk_eq, Json.Value.itemsPreorder]

end Node

end UpgradeAudit
