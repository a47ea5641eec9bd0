import UpgradeAudit.Compiler.Bytecode
import UpgradeAudit.Error
import UpgradeAudit.Fingerprint

/-!
# Linked libraries

Deploying a contract writes the addresses of libraries over the placeholders that the compiler left
for them. `extract` takes the placeholders from a bytecode with their places; `unlink` writes them
back into a deployed bytecode.
-/

namespace UpgradeAudit

open Json

/-- A place for the address of a library, with the text the compiler left there. -/
structure LinkReference where
  src : String
  name : String
  start : UInt64
  length : UInt64
  placeholder : String
  deriving DecidableEq, Repr

namespace Link

/-- The characters that bytes of code stand for, two for each byte, unless their positions exceed
the largest word. -/
def charRange? (start length : UInt64) : Option (Nat × Nat) :=
  let last := 2 * (start.toNat + length.toNat)
  if last ≤ Text.maxWord then some (2 * start.toNat, last) else none

/-- The text at a place of a bytecode. -/
def placeholder? (object : String) (start length : UInt64) : Option String := do
  let (first, last) ← charRange? start length
  let window ← Text.window? object.toList first last
  return String.ofList window.inside

/-- The places of a bytecode with the path and the name of the library of each, in table order. -/
def places (bytecode : Bytecode) : List (String × String × LinkOffset) :=
  bytecode.linkReferences.entries.flatMap fun source =>
    source.2.entries.flatMap fun library =>
      library.2.map fun offset => (source.1, library.1, offset)

def reference (contract object : String) (place : String × String × LinkOffset) :
    Except InputError LinkReference :=
  let (src, name, offset) := place
  match placeholder? object offset.start offset.length with
  | some placeholder => .ok ⟨src, name, offset.start, offset.length, placeholder⟩
  | none => .error (.linkOutOfBounds contract name offset.start offset.length)

/-- The references of a bytecode in table order; the contract is named in the error of the first
place that is not part of the bytecode. -/
def extract (contract : String) (bytecode : Bytecode) : Except InputError (List LinkReference) :=
  (places bytecode).mapM (reference contract bytecode.object)

end Link

namespace LinkReference

/-- The characters that the reference covers, behind any marker. -/
def charRange? (r : LinkReference) : Option (Nat × Nat) :=
  Link.charRange? r.start r.length

/-- Writes the placeholder into a body, if its place is there and has its size. -/
def restore (r : LinkReference) (body : List Char) : List Char :=
  match r.charRange? with
  | none => body
  | some (first, last) =>
    match Text.window? body first last with
    | none => body
    | some window =>
      let placeholder := r.placeholder.toList
      if Text.byteLength placeholder = last - first then
        window.before ++ placeholder ++ window.after
      else body

def decode : Decoder LinkReference :=
  Decode.record ["src", "name", "start", "length", "placeholder"] fun
    | nesting, [src, name, start, length, placeholder] => do
      return ⟨← Decode.required Decode.text nesting src, ← Decode.required Decode.text nesting name,
        ← Decode.required Decode.word nesting start, ← Decode.required Decode.word nesting length,
        ← Decode.required Decode.text nesting placeholder⟩
    | _, _ => none

def encode (r : LinkReference) : Tree :=
  Encode.record [("src", Encode.text r.src), ("name", Encode.text r.name),
    ("start", Encode.nat r.start.toNat), ("length", Encode.nat r.length.toNat),
    ("placeholder", Encode.text r.placeholder)]

end LinkReference

namespace Link

/-- Writes the placeholders of the references back into a bytecode, in their order, behind the
marker that the bytecode may start with. -/
def unlink (bytecode : String) (references : List LinkReference) : String :=
  let restoreAll (body : List Char) : List Char :=
    references.foldl (fun body r => r.restore body) body
  match Text.afterLead? Fingerprint.marker bytecode.toList with
  | some body => String.ofList (Fingerprint.marker ++ restoreAll body)
  | none => String.ofList (restoreAll bytecode.toList)

end Link

end UpgradeAudit
