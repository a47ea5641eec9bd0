import UpgradeAudit.Compiler.Bytecode
import UpgradeAudit.Finding.Basic
import UpgradeAudit.Location
import UpgradeAudit.Node.Declaration
import UpgradeAudit.Node.Search

/-!
# Detectors

Six rules, each of which finds one family of unsafe constructs in the definition and the bytecode of
a contract. The rules do not depend on one another. Each gives its findings in the order in which
the constructs stand in the contract.
-/

namespace UpgradeAudit

/-- What a detector looks at: the definition of a contract, its bytecode, and a way to name
places. -/
structure Target where
  contract : Node
  bytecode : Bytecode
  locate : Locator

/-- Any rules, as the findings that they give together. -/
abbrev Rules := Target → List Finding

inductive Detector where
  | constructor
  | opcode
  | stateVariable
  | structDefinition
  | enumDefinition
  | linking
  deriving DecidableEq, Repr

namespace Node

def isConstructor (function : Node) : Bool :=
  text? function "kind" == some "constructor"

def statements (function : Node) : List Node :=
  match attribute? function "body" with
  | some body => list body "statements"
  | none => []

/-- Whether a function has statements or modifiers. -/
def doesSomething (function : Node) : Bool :=
  !(statements function).isEmpty || !(list function "modifiers").isEmpty

def calleeType? (call : Node) : Option String :=
  (attribute? call "expression").bind typeIdentifier?

/-- Whether the type identifier of what a call calls starts in some way. -/
def callsType (lead : String) (call : Node) : Bool :=
  match calleeType? call with
  | some type => Text.startsWith lead.toList type.toList
  | none => false

/-- Whether a call is a bare delegate call. -/
def isDelegatecall (call : Node) : Bool :=
  callsType "t_function_baredelegatecall_" call

def isSelfdestruct (call : Node) : Bool :=
  callsType "t_function_selfdestruct_" call

end Node

namespace Target

/-- The name of the contract, empty if there is none. -/
def contractName (target : Target) : String :=
  Node.nameOrEmpty target.contract

/-- Constructors that do something: what they set up is missing behind a proxy. -/
def constructors (target : Target) : List Finding :=
  ((Node.findAll target.contract "FunctionDefinition").filter fun function =>
      Node.isConstructor function && Node.doesSomething function).map
    fun function => .constructor target.contractName (target.locate function)

/-- Calls that can destroy the contract or take it over. -/
def opcodes (target : Target) : List Finding :=
  (Node.findAll target.contract "FunctionCall").flatMap fun call =>
    (if Node.isDelegatecall call then [Finding.delegatecall (target.locate call)] else [])
      ++ (if Node.isSelfdestruct call then [Finding.selfdestruct (target.locate call)] else [])

/-- Variables with an initial value, and immutable variables. -/
def stateVariables (target : Target) : List Finding :=
  (Node.declaredVariables target.contract).flatMap fun declaration =>
    let name := Node.nameOrEmpty declaration
    (if !Node.isConstant declaration && Node.hasValue declaration then
        [Finding.stateVariableAssignment name (target.locate declaration)] else [])
      ++ (if Node.isImmutable declaration then
        [Finding.stateVariableImmutable name (target.locate declaration)] else [])

/-- A finding for each member of a kind, from its name and its place. -/
def definitions (target : Target) (nodeType : String) (finding : String → String → Finding) :
    List Finding :=
  ((Node.members target.contract).filter fun node => Node.hasType node nodeType).map
    fun node => finding (Node.nameOrEmpty node) (target.locate node)

def structDefinitions (target : Target) : List Finding :=
  target.definitions "StructDefinition" .structDefinition

def enumDefinitions (target : Target) : List Finding :=
  target.definitions "EnumDefinition" .enumDefinition

/-- Libraries that the bytecode is linked to. -/
def linkedLibraries (target : Target) : List Finding :=
  target.bytecode.linkReferences.entries.flatMap fun source =>
    source.2.keys.map fun library => .externalLibraryLinking library source.1

end Target

namespace Detector

/-- All rules, in the order in which findings are reported. -/
def all : List Detector :=
  [.constructor, .opcode, .stateVariable, .structDefinition, .enumDefinition, .linking]

def detect (target : Target) : Detector → List Finding
  | .constructor => target.constructors
  | .opcode => target.opcodes
  | .stateVariable => target.stateVariables
  | .structDefinition => target.structDefinitions
  | .enumDefinition => target.enumDefinitions
  | .linking => target.linkedLibraries

end Detector

/-- Rules without repetitions, in the order in which they are run. -/
structure DetectorSuite where
  detectors : List Detector
  nodup : detectors.Nodup

namespace DetectorSuite

def empty : DetectorSuite := ⟨[], List.nodup_nil⟩

def standard : DetectorSuite := ⟨Detector.all, by decide⟩

def contains (suite : DetectorSuite) (detector : Detector) : Bool :=
  detector ∈ suite.detectors

/-- Puts a rule behind the others, unless it is there already. -/
def add (suite : DetectorSuite) (detector : Detector) : DetectorSuite :=
  if h : detector ∈ suite.detectors then suite
  else
    ⟨suite.detectors ++ [detector], List.nodup_append.mpr
      ⟨suite.nodup, by simp, fun a ha b hb hab => h (List.mem_singleton.mp hb ▸ hab ▸ ha)⟩⟩

/-- The suite of some rules, each added in turn. -/
def ofList (detectors : List Detector) : DetectorSuite :=
  detectors.foldl add empty

def size (suite : DetectorSuite) : Nat :=
  suite.detectors.length

def isEmpty (suite : DetectorSuite) : Bool :=
  suite.detectors.isEmpty

/-- The findings of all rules, in the order of the rules. -/
def detect (suite : DetectorSuite) (target : Target) : List Finding :=
  suite.detectors.flatMap (Detector.detect target)

instance : Coe DetectorSuite Rules := ⟨detect⟩

end DetectorSuite

end UpgradeAudit
