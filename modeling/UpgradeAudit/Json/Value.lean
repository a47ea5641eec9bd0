import UpgradeAudit.Table
import UpgradeAudit.Json.Tree

/-!
# Free JSON values

A value of any shape, with the repetitions of a written tree settled: an object holds each key once,
with the last value written for it, sorted by key.
-/

namespace UpgradeAudit.Json

inductive Value where
  | null
  | bool (value : Bool)
  /-- An integer that fits a machine word. -/
  | int (value : Int)
  /-- Any other number, as written. -/
  | real (value : Number)
  | text (value : String)
  | array (items : List Value)
  | object (fields : List (String × Value))
  deriving Inhabited, Repr

namespace Value

/-- The value under a key of an object. -/
def get? (v : Value) (key : String) : Option Value :=
  match v with
  | .object fields => (fields.find? fun field => field.1 = key).map Prod.snd
  | _ => none

def isNull : Value → Bool
  | .null => true
  | _ => false

def text? : Value → Option String
  | .text value => some value
  | _ => none

def bool? : Value → Option Bool
  | .bool value => some value
  | _ => none

/-- The integer of a number that fits a signed 64-bit word. -/
def int? : Value → Option Int
  | .int value => if value ≤ Text.maxSigned ∧ -value ≤ Text.maxSigned + 1 then some value else none
  | _ => none

theorem int?_eq_some_iff {value : Value} {n : Int} :
    value.int? = some n ↔ value = .int n ∧ -(Text.maxSigned + 1) ≤ n ∧ n ≤ Text.maxSigned := by
  cases value with
  | int m =>
    rw [int?, Option.ite_none_right_eq_some, Option.some.injEq, Value.int.injEq]
    constructor
    · rintro ⟨hfits, rfl⟩
      exact ⟨rfl, by omega, hfits.1⟩
    · rintro ⟨rfl, hlow, hhigh⟩
      exact ⟨⟨hhigh, by omega⟩, rfl⟩
  | _ => simp [int?]

def items? : Value → Option (List Value)
  | .array items => some items
  | _ => none

end Value

/-- The number of nested arrays and objects that a value may have around its innermost parts. -/
def maxNesting : Nat := 127

mutual

/-- The free value of a tree nested at most `nesting` deep. A number beyond the largest double and a
string with an unpaired surrogate half have none. -/
def Tree.toValue? (nesting : Nat) : Tree → Option Value
  | .null => some .null
  | .bool value => some (.bool value)
  | .number number =>
    match number.integer? with
    | some value => some (.int value)
    | none => if number.overflows then none else some (.real number)
  | .string pieces => (resolve pieces).map .text
  | .array items =>
    match nesting with
    | 0 => none
    | nesting + 1 => (itemValues? nesting items).map .array
  | .object members =>
    match nesting with
    | 0 => none
    | nesting + 1 => (memberValues? nesting [] members).map .object

def itemValues? (nesting : Nat) : List Tree → Option (List Value)
  | [] => some []
  | item :: rest => do
    let value ← item.toValue? nesting
    let values ← itemValues? nesting rest
    return value :: values

/-- The free values of the members of an object, put into the sorted fields `read`. -/
def memberValues? (nesting : Nat) (read : List (String × Value)) :
    List (List Piece × Tree) → Option (List (String × Value))
  | [] => some read
  | (name, item) :: rest => do
    let key ← resolve name
    let value ← item.toValue? nesting
    memberValues? nesting (insertEntry key value read) rest

end

end UpgradeAudit.Json
