import UpgradeAudit.Detector
import UpgradeAudit.Library
import UpgradeAudit.Storage.Extract
import UpgradeAudit.Validation.Record

/-!
# Validating a compiler output

Every compiled contract gets a record with its fingerprint and its places for libraries. Every
contract definition in the syntax trees gives its number a name. The definitions of contracts that
were compiled from the same source are analysed: their findings and their layout go into the record
of their name. Ancestors and libraries are numbers in the syntax trees and may be defined in any
source, so they are named last, when the names of all definitions are known.
-/

namespace UpgradeAudit

open Compiler (Output)

/-- How contracts are analysed. -/
structure Config where
  detectors : Rules := DetectorSuite.standard
  layout : LayoutExtractor := Storage.extract

namespace Validation

/-- The findings, the layout and the references of a contract definition. -/
structure Analysis where
  errors : List Finding
  layout : StorageLayout
  inherit : List Int
  libraries : List Int

/-- A contract definition: its number, its name, and its analysis if it was compiled. -/
structure Definition where
  id : Int
  name : String
  analysis : Option Analysis

/-- The record of a compiled contract before its definition is analysed. -/
def registered (name : String) (bytecode : Bytecode) : Except InputError ContractRecord := do
  let linkReferences ← Link.extract name bytecode
  let version := if bytecode.isEmpty then none else some (Fingerprint.of bytecode.object)
  return { ContractRecord.ofVersion version with linkReferences }

/-- A record for every compiled contract; of two with one name the later stays. -/
def register (output : Output) : Except InputError ValidationRun := do
  let records ← output.compiled.mapM fun (_, name, contract) => do
    return (name, ← registered name contract.bytecode)
  return ⟨Table.ofList records⟩

/-- The contract definitions of all sources, each with its path. -/
def definitionNodes (output : Output) : List (String × Node) :=
  output.sources.entries.flatMap fun source =>
    (Node.findAll source.2.ast "ContractDefinition").map fun node => (source.1, node)

/-- Analyses a definition with the bytecode that was compiled from it. -/
def analyse (config : Config) (locate : Locator) (id : Int) (node : Node) (bytecode : Bytecode) :
    Except InputError Analysis := do
  let bases ← Node.requireBases node
  return {
    errors := config.detectors ⟨node, bytecode, locate⟩
    layout := config.layout node locate
    inherit := bases.filter fun base => base ≠ id
    libraries := Library.referenced node }

/-- Reads a definition, and analyses it if its contract was compiled from the same source. -/
def define (config : Config) (locate : Locator) (output : Output) (place : String × Node) :
    Except InputError Definition := do
  let (path, node) := place
  let id ← Node.requireId node
  let name ← Node.requireName node
  match output.contract? path name with
  | some contract => return ⟨id, name, some (← analyse config locate id node contract.bytecode)⟩
  | none => return ⟨id, name, none⟩

/-- The name of the last definition with a number. -/
def nameOf? (definitions : List Definition) (id : Int) : Option String :=
  (definitions.reverse.find? fun definition => definition.id = id).map Definition.name

/-- The names that numbers in a contract stand for. -/
def resolve (definitions : List Definition) (contract : String) (ids : List Int) :
    Except InputError (List String) :=
  ids.mapM fun id =>
    match nameOf? definitions id with
    | some name => .ok name
    | none => .error (.unresolvedReference contract id)

/-- What an analysis adds to the record of its contract. -/
structure Completion where
  name : String
  errors : List Finding
  layout : StorageLayout
  inherit : List String
  libraries : List String

/-- The completions of the definitions that were analysed, with ancestors and libraries named. -/
def completions (definitions : List Definition) : Except InputError (List Completion) :=
  (definitions.filterMap fun definition =>
    definition.analysis.map fun analysis => (definition.name, analysis)).mapM
    fun (name, analysis) => do
      let inherit ← resolve definitions name analysis.inherit
      let libraries ← resolve definitions name analysis.libraries
      return ⟨name, analysis.errors, analysis.layout, inherit, libraries⟩

/-- Completes the record of a contract; of two completions of one name the later stays. -/
def complete (run : ValidationRun) (completion : Completion) : ValidationRun :=
  run.modify completion.name fun record =>
    { record with
      errors := completion.errors
      layout := completion.layout
      inherit := completion.inherit
      libraries := completion.libraries }

end Validation

open Validation

/-- Validates every contract of a compiler output. -/
def validate (config : Config) (locate : Locator) (output : Output) :
    Except InputError ValidationRun := do
  let run ← register output
  let definitions ← (definitionNodes output).mapM (define config locate output)
  let completions ← completions definitions
  return completions.foldl complete run

end UpgradeAudit
