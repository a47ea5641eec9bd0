import UpgradeAudit.Json.Decode
import UpgradeAudit.Json.Encode

/-!
# Bytecode with places for libraries

The creation bytecode of a contract as text, with a table of the places in it that are left for the
addresses of linked libraries: by the path that declares the library, then by its name.
-/

namespace UpgradeAudit

open Json

/-- A place in a bytecode, in bytes of the code that two characters stand for. -/
structure LinkOffset where
  start : UInt64
  length : UInt64
  deriving DecidableEq, Repr

structure Bytecode where
  object : String := ""
  linkReferences : Table (Table (List LinkOffset)) := ∅
  deriving DecidableEq

namespace LinkOffset

def decode : Decoder LinkOffset :=
  Decode.record ["start", "length"] fun
    | nesting, [start, length] => do
      return ⟨← Decode.required Decode.word nesting start,
        ← Decode.required Decode.word nesting length⟩
    | _, _ => none

def encode (offset : LinkOffset) : Tree :=
  Encode.record [("start", Encode.nat offset.start.toNat),
    ("length", Encode.nat offset.length.toNat)]

end LinkOffset

namespace Bytecode

/-- Whether there is no code, as for abstract contracts and interfaces. -/
def isEmpty (bytecode : Bytecode) : Bool :=
  bytecode.object.isEmpty

def decode : Decoder Bytecode :=
  Decode.record ["object", "linkReferences"] fun
    | nesting, [object, linkReferences] => do
      return ⟨← Decode.defaulted Decode.text "" nesting object,
        ← Decode.defaulted (Decode.table (Decode.table (Decode.list LinkOffset.decode))) ∅ nesting
          linkReferences⟩
    | _, _ => none

def encode (bytecode : Bytecode) : Tree :=
  Encode.record [("object", Encode.text bytecode.object),
    ("linkReferences",
      Encode.table (Encode.table (Encode.list LinkOffset.encode)) bytecode.linkReferences)]

end Bytecode

end UpgradeAudit
