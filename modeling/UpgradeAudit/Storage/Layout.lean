import UpgradeAudit.Json.Decode
import UpgradeAudit.Json.Encode

/-!
# Storage layouts

The storage variables of a contract in the order of their slots, with a table that describes the
types they have. The layout of a contract with its ancestors is made by putting the variables of
each ancestor in front.
-/

namespace UpgradeAudit

open Json

structure StorageItem where
  contract : String
  label : String
  type : String
  src : String
  deriving DecidableEq, Repr

structure TypeItem where
  label : String
  deriving DecidableEq, Repr

/-- Storage variables and the types they have. -/
structure StorageLayout where
  storage : List StorageItem := []
  types : Table TypeItem := ∅
  deriving DecidableEq

namespace StorageItem

def decode : Decoder StorageItem :=
  Decode.record ["contract", "label", "type", "src"] fun
    | nesting, [contract, label, type, src] => do
      return ⟨← Decode.required Decode.text nesting contract,
        ← Decode.required Decode.text nesting label, ← Decode.required Decode.text nesting type,
        ← Decode.required Decode.text nesting src⟩
    | _, _ => none

def encode (item : StorageItem) : Tree :=
  Encode.record [("contract", Encode.text item.contract), ("label", Encode.text item.label),
    ("type", Encode.text item.type), ("src", Encode.text item.src)]

end StorageItem

namespace TypeItem

def decode : Decoder TypeItem :=
  Decode.record ["label"] fun
    | nesting, [label] => do
      return ⟨← Decode.required Decode.text nesting label⟩
    | _, _ => none

def encode (item : TypeItem) : Tree :=
  Encode.record [("label", Encode.text item.label)]

end TypeItem

namespace StorageLayout

def empty : StorageLayout := {}

/-- Puts a variable behind the others and describes its type. -/
def add (layout : StorageLayout) (item : StorageItem) (type : TypeItem) : StorageLayout :=
  ⟨layout.storage ++ [item], layout.types.insert item.type type⟩

/-- Puts the variables of a base in front of the others; its descriptions of types win. -/
def addBase (layout base : StorageLayout) : StorageLayout :=
  ⟨base.storage ++ layout.storage, layout.types.extend base.types⟩

/-- The position of the variable that a contract declares under a label. -/
def position? (layout : StorageLayout) (contract label : String) : Option Nat :=
  layout.storage.findIdx? fun item => item.contract = contract ∧ item.label = label

def labels (layout : StorageLayout) : List String :=
  layout.storage.map StorageItem.label

def isEmpty (layout : StorageLayout) : Bool :=
  layout.storage.isEmpty

def decode : Decoder StorageLayout :=
  Decode.record ["storage", "types"] fun
    | nesting, [storage, types] => do
      return ⟨← Decode.required (Decode.list StorageItem.decode) nesting storage,
        ← Decode.required (Decode.table TypeItem.decode) nesting types⟩
    | _, _ => none

def encode (layout : StorageLayout) : Tree :=
  Encode.record [("storage", Encode.list StorageItem.encode layout.storage),
    ("types", Encode.table TypeItem.encode layout.types)]

end StorageLayout

end UpgradeAudit
