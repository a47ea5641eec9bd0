import UpgradeAudit.Table
import UpgradeAudit.Json.Tree

/-!
# Encoding records

The trees that records, tables and lists are written as, so that decoding gives them back.
-/

namespace UpgradeAudit.Json.Encode

variable {α : Type}

def text (value : String) : Tree :=
  .string (piecesOf value)

def nat (value : Nat) : Tree :=
  .number (Number.ofNat value)

def int (value : Int) : Tree :=
  .number { Number.ofNat value.natAbs with negative := decide (value < 0) }

def list (encode : α → Tree) (values : List α) : Tree :=
  .array (values.map encode)

/-- An object with the entries of a table. -/
def table (encode : α → Tree) (t : Table α) : Tree :=
  .object (t.entries.map fun entry => (piecesOf entry.1, encode entry.2))

def nullable (encode : α → Tree) : Option α → Tree
  | some value => encode value
  | none => .null

/-- An object with named fields in their order. -/
def record (fields : List (String × Tree)) : Tree :=
  .object (fields.map fun field => (piecesOf field.1, field.2))

end UpgradeAudit.Json.Encode
