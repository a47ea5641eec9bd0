import UpgradeAudit.Compiler.Bytecode

/-!
# Input and output of the compiler

The output of one compiler invocation: for each source the contracts compiled from it, and for each
source its number and its syntax tree. The input holds the texts of the sources.
-/

namespace UpgradeAudit.Compiler

open Json

/-- What the compiler made of one contract. -/
structure Contract where
  bytecode : Bytecode := {}
  deriving DecidableEq

/-- A source as the compiler saw it: its number in locations, and its syntax tree. -/
structure Source where
  id : UInt32 := 0
  ast : Value := .null

/-- The output of one compiler invocation, by the paths of the sources. -/
structure Output where
  contracts : Table (Table Contract) := ∅
  sources : Table Source := ∅

/-- The text of a source. -/
structure InputSource where
  content : String := ""
  deriving DecidableEq, Repr

/-- The texts that the compiler was given, by their paths. -/
structure Input where
  sources : Table InputSource := ∅
  deriving DecidableEq

namespace Contract

/-- Reads the part of a contract around its bytecode. -/
def decodeMachine : Decoder Bytecode :=
  Decode.record ["bytecode"] fun
    | nesting, [bytecode] => Decode.defaulted Bytecode.decode {} nesting bytecode
    | _, _ => none

def decode : Decoder Contract :=
  Decode.record ["evm"] fun
    | nesting, [machine] => do
      return ⟨← Decode.defaulted decodeMachine {} nesting machine⟩
    | _, _ => none

def encode (contract : Contract) : Tree :=
  Encode.record [("evm", Encode.record [("bytecode", contract.bytecode.encode)])]

end Contract

def Source.decode : Decoder Source :=
  Decode.record ["id", "ast"] fun
    | nesting, [id, ast] => do
      return ⟨← Decode.defaulted Decode.halfWord 0 nesting id,
        ← Decode.defaulted Decode.free .null nesting ast⟩
    | _, _ => none

namespace Output

def decode : Decoder Output :=
  Decode.record ["contracts", "sources"] fun
    | nesting, [contracts, sources] => do
      return ⟨← Decode.defaulted (Decode.table (Decode.table Contract.decode)) ∅ nesting contracts,
        ← Decode.defaulted (Decode.table Source.decode) ∅ nesting sources⟩
    | _, _ => none

/-- The contract of a name that was compiled from a source. -/
def contract? (output : Output) (path name : String) : Option Contract :=
  (output.contracts.get? path).bind fun contracts => contracts.get? name

/-- The compiled contracts with the paths they come from, in the order of the tables. -/
def compiled (output : Output) : List (String × String × Contract) :=
  output.contracts.entries.flatMap fun source =>
    source.2.entries.map fun contract => (source.1, contract.1, contract.2)

end Output

namespace Input

def decodeSource : Decoder InputSource :=
  Decode.record ["content"] fun
    | nesting, [content] => do
      return ⟨← Decode.defaulted Decode.text "" nesting content⟩
    | _, _ => none

def decode : Decoder Input :=
  Decode.record ["sources"] fun
    | nesting, [sources] => do
      return ⟨← Decode.defaulted (Decode.table decodeSource) ∅ nesting sources⟩
    | _, _ => none

def encode (input : Input) : Tree :=
  Encode.record [("sources",
    Encode.table (fun source => Encode.record [("content", Encode.text source.content)])
      input.sources)]

end Input

end UpgradeAudit.Compiler
