import UpgradeAudit.Json.Reader
import UpgradeAudit.Json.Value

/-!
# Decoding records

A decoder turns a written tree into a value of a type, or refuses it. A record is written as an
object with named fields, or as an array of its fields in the order of their declaration. Fields
that a record does not know are skipped without a look at their values, so neither the nesting nor
the numbers nor the surrogates in them matter.
-/

namespace UpgradeAudit.Json

/-- Decodes a tree that may be nested as deep as the number allows. -/
abbrev Decoder (α : Type) := Nat → Tree → Option α

def Decoder.parse? {α : Type} (decoder : Decoder α) (text : String) : Option α :=
  (Json.parse? text).bind (decoder maxNesting)

namespace Decode

variable {α : Type}

/-- Any value. -/
def free : Decoder Value :=
  Tree.toValue?

def text : Decoder String
  | _, .string pieces => resolve pieces
  | _, _ => none

def bool : Decoder Bool
  | _, .bool value => some value
  | _, _ => none

/-- A natural number up to a limit, written as an integer. -/
def natUpTo (limit : Nat) : Decoder Nat
  | _, .number number =>
    match number.integer? with
    | some (.ofNat n) => if n ≤ limit then some n else none
    | _ => none
  | _, _ => none

/-- An unsigned 64-bit number. -/
def word : Decoder UInt64 := fun nesting tree =>
  (natUpTo Text.maxWord nesting tree).map UInt64.ofNat

/-- An unsigned 32-bit number. -/
def halfWord : Decoder UInt32 := fun nesting tree =>
  (natUpTo Text.maxHalfWord nesting tree).map UInt32.ofNat

def list (decoder : Decoder α) : Decoder (List α)
  | nesting + 1, .array items => items.mapM (decoder nesting)
  | _, _ => none

/-- Decodes members and puts them into a table in their order. -/
def membersInto (decoder : Tree → Option α) (read : Table α) :
    List (List Piece × Tree) → Option (Table α)
  | [] => some read
  | (name, tree) :: rest => do
    let key ← resolve name
    let value ← decoder tree
    membersInto decoder (read.insert key value) rest

/-- An object with values of one type under any keys. -/
def table (decoder : Decoder α) : Decoder (Table α)
  | nesting + 1, .object members => membersInto (decoder nesting) ∅ members
  | _, _ => none

def nullable (decoder : Decoder α) : Decoder (Option α)
  | _, .null => some none
  | nesting, tree => (decoder nesting tree).map some

/-- The members of an object with their names as texts. -/
def namedMembers? (members : List (List Piece × Tree)) : Option (List (String × Tree)) :=
  members.mapM fun member => do return (← resolve member.1, member.2)

/-- The tree of a named field, if it is written; refused if it is written twice. -/
def field? (members : List (String × Tree)) (name : String) : Option (Option Tree) :=
  match members.filter fun member => member.1 = name with
  | [] => some none
  | [member] => some (some member.2)
  | _ => none

/-- The trees of the fields with some names, in the order of the names. A tree has them under their
names if it is an object, and in their order if it is an array; the last fields of an array may be
missing, but there must be no more of them than names. -/
def fields? (names : List String) : Tree → Option (List (Option Tree))
  | .object members => do
    let members ← namedMembers? members
    names.mapM (field? members)
  | .array items =>
    if items.length ≤ names.length then
      some (items.map some ++ List.replicate (names.length - items.length) none)
    else none
  | _ => none

/-- A record with named fields, made from their trees. -/
def record (names : List String) (make : Nat → List (Option Tree) → Option α) : Decoder α
  | nesting + 1, tree => (fields? names tree).bind (make nesting)
  | 0, _ => none

def required (decoder : Decoder α) (nesting : Nat) : Option Tree → Option α
  | some tree => decoder nesting tree
  | none => none

/-- A field with a value of its own when it is not written. -/
def defaulted (decoder : Decoder α) (default : α) (nesting : Nat) : Option Tree → Option α
  | some tree => decoder nesting tree
  | none => some default

end Decode

end UpgradeAudit.Json
