import UpgradeAudit.Json.Decode
import UpgradeAudit.Json.Encode

/-!
# Findings

A finding is a construct that makes a contract unsafe behind an upgradeable proxy, with the place
where it was found. Findings come in eight kinds.
-/

namespace UpgradeAudit

open Json

/-- The kinds of findings, in their order. -/
inductive FindingKind where
  | constructor
  | delegatecall
  | selfdestruct
  | stateVariableAssignment
  | stateVariableImmutable
  | externalLibraryLinking
  | structDefinition
  | enumDefinition
  deriving DecidableEq, Repr

/-- A construct that is unsafe behind a proxy. -/
inductive Finding where
  /-- The contract has a constructor that does something. -/
  | constructor (contract src : String)
  /-- The contract hands control to other code. -/
  | delegatecall (src : String)
  /-- The contract can be destroyed. -/
  | selfdestruct (src : String)
  /-- A variable gets a value that the proxy never sees. -/
  | stateVariableAssignment (name src : String)
  /-- A variable is kept in the code that all proxies share. -/
  | stateVariableImmutable (name src : String)
  /-- The bytecode links a library; the place is the path that declares it. -/
  | externalLibraryLinking (name src : String)
  | structDefinition (name src : String)
  | enumDefinition (name src : String)
  deriving DecidableEq, Repr

namespace FindingKind

def all : List FindingKind :=
  [.constructor, .delegatecall, .selfdestruct, .stateVariableAssignment, .stateVariableImmutable,
    .externalLibraryLinking, .structDefinition, .enumDefinition]

/-- The position of a kind in the order of kinds. -/
def rank (kind : FindingKind) : Nat :=
  all.idxOf kind

def name : FindingKind → String
  | .constructor => "constructor"
  | .delegatecall => "delegatecall"
  | .selfdestruct => "selfdestruct"
  | .stateVariableAssignment => "state-variable-assignment"
  | .stateVariableImmutable => "state-variable-immutable"
  | .externalLibraryLinking => "external-library-linking"
  | .structDefinition => "struct-definition"
  | .enumDefinition => "enum-definition"

def ofName? (name : String) : Option FindingKind :=
  all.find? fun kind => kind.name = name

/-- Kinds in their order, equal ones side by side. -/
def sort (kinds : List FindingKind) : List FindingKind :=
  kinds.mergeSort fun a b => a.rank ≤ b.rank

/-- Reads a kind: its name, or an object with `null` under its name. -/
def decode : Decoder FindingKind
  | nesting, .string pieces => (Decode.text nesting (.string pieces)).bind ofName?
  | _ + 1, .object [(name, .null)] => (resolve name).bind ofName?
  | _, _ => none

/-- The names of the fields that a finding of the kind has. -/
def fieldNames : FindingKind → List String
  | .constructor => ["contract", "src"]
  | .delegatecall | .selfdestruct => ["src"]
  | _ => ["name", "src"]

end FindingKind

namespace Finding

def kind : Finding → FindingKind
  | .constructor .. => .constructor
  | .delegatecall .. => .delegatecall
  | .selfdestruct .. => .selfdestruct
  | .stateVariableAssignment .. => .stateVariableAssignment
  | .stateVariableImmutable .. => .stateVariableImmutable
  | .externalLibraryLinking .. => .externalLibraryLinking
  | .structDefinition .. => .structDefinition
  | .enumDefinition .. => .enumDefinition

def src : Finding → String
  | .constructor _ src | .delegatecall src | .selfdestruct src => src
  | .stateVariableAssignment _ src | .stateVariableImmutable _ src => src
  | .externalLibraryLinking _ src | .structDefinition _ src | .enumDefinition _ src => src

/-- The name of the declaration that the finding is about, for the kinds that have one. -/
def name? : Finding → Option String
  | .constructor .. | .delegatecall .. | .selfdestruct .. => none
  | .stateVariableAssignment name _ | .stateVariableImmutable name _ => some name
  | .externalLibraryLinking name _ | .structDefinition name _ | .enumDefinition name _ => some name

/-- The values of the fields, in the order of their names. -/
def fieldValues : Finding → List String
  | .constructor contract src => [contract, src]
  | .delegatecall src | .selfdestruct src => [src]
  | .stateVariableAssignment name src | .stateVariableImmutable name src => [name, src]
  | .externalLibraryLinking name src | .structDefinition name src => [name, src]
  | .enumDefinition name src => [name, src]

/-- The finding of a kind with the values of its fields. -/
def ofFields? : FindingKind → List String → Option Finding
  | .constructor, [contract, src] => some (.constructor contract src)
  | .delegatecall, [src] => some (.delegatecall src)
  | .selfdestruct, [src] => some (.selfdestruct src)
  | .stateVariableAssignment, [name, src] => some (.stateVariableAssignment name src)
  | .stateVariableImmutable, [name, src] => some (.stateVariableImmutable name src)
  | .externalLibraryLinking, [name, src] => some (.externalLibraryLinking name src)
  | .structDefinition, [name, src] => some (.structDefinition name src)
  | .enumDefinition, [name, src] => some (.enumDefinition name src)
  | _, _ => none

/-- The kind and the trees of the fields of a finding: an object with the kind among its members, or
an array with the kind in front. -/
def parts? (nesting : Nat) : Tree → Option (FindingKind × List (Option Tree))
  | .object members => do
    let members ← Decode.namedMembers? members
    let tag ← Decode.field? members "kind"
    let name ← Decode.required Decode.text nesting tag
    let kind ← FindingKind.ofName? name
    let fields ← kind.fieldNames.mapM (Decode.field? members)
    return (kind, fields)
  | .array (tag :: fields) => do
    let name ← Decode.text nesting tag
    let kind ← FindingKind.ofName? name
    return (kind, fields.map some)
  | _ => none

/-- Reads a finding. Unlike the unknown fields of other records, those of a finding are read as
values. -/
def decode : Decoder Finding
  | nesting + 1, tree => do
    let _ ← Decode.free (nesting + 1) tree
    let (kind, fields) ← parts? nesting tree
    let values ← fields.mapM (Decode.required Decode.text nesting)
    ofFields? kind values
  | 0, _ => none

def encode (finding : Finding) : Tree :=
  Encode.record (("kind", Encode.text finding.kind.name) ::
    finding.kind.fieldNames.zip (finding.fieldValues.map Encode.text))

end Finding

end UpgradeAudit
