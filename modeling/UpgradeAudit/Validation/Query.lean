import UpgradeAudit.Validation.Record

/-!
# Asking a log

A contract is looked for by the fingerprint of its bytecode. The first run that has it answers, and
within a run the first name. What is inherited and what libraries bring along is taken from the same
run.
-/

namespace UpgradeAudit

/-- A contract found in a log: the position of its run, the run, its name and its record. -/
structure Match where
  index : Nat
  run : ValidationRun
  name : String
  record : ContractRecord

namespace ValidationRun

/-- The first contract with a fingerprint, by name. -/
def find? (run : ValidationRun) (version : Fingerprint) : Option (String × ContractRecord) :=
  run.records.entries.find? fun entry => entry.2.hasVersion version

end ValidationRun

namespace ValidationLog

/-- The first contract with a fingerprint in runs that stand from a position on. -/
def findFrom? (version : Fingerprint) (index : Nat) : List ValidationRun → Option Match
  | [] => none
  | run :: rest =>
    match run.find? version with
    | some (name, record) => some ⟨index, run, name, record⟩
    | none => findFrom? version (index + 1) rest

/-- The first contract with a fingerprint. -/
def find (log : ValidationLog) (version : Fingerprint) : Except LookupError Match :=
  match findFrom? version 0 log.runs with
  | some found => .ok found
  | none => .error .notFound

def contractName (log : ValidationLog) (version : Fingerprint) : Except LookupError String := do
  return (← log.find version).name

end ValidationLog

namespace Match

/-- The records of the ancestors, then of the libraries. -/
def related (found : Match) : Except LookupError (List ContractRecord) :=
  (found.record.inherit ++ found.record.libraries).mapM found.run.contract

/-- The findings of the contract itself, of its ancestors, and of its libraries. -/
def errors (found : Match) : Except LookupError (List Finding) := do
  let related ← found.related
  return found.record.errors ++ related.flatMap ContractRecord.errors

/-- The layout of the contract with its ancestors, the most distant one first. -/
def mergedLayout (found : Match) : Except LookupError StorageLayout := do
  let records ← (found.name :: found.record.inherit).mapM found.run.contract
  return records.foldl (fun layout record => layout.addBase record.layout) StorageLayout.empty

end Match

namespace ValidationLog

/-- All findings that apply to the contract with a fingerprint. -/
def errors (log : ValidationLog) (version : Fingerprint) : Except LookupError (List Finding) := do
  (← log.find version).errors

/-- Whether no finding applies to the contract with a fingerprint. -/
def isSafe (log : ValidationLog) (version : Fingerprint) : Except LookupError Bool := do
  return (← log.errors version).isEmpty

/-- The layout of the contract with a fingerprint and of its ancestors. -/
def mergedLayout (log : ValidationLog) (version : Fingerprint) :
    Except LookupError StorageLayout := do
  (← log.find version).mergedLayout

/-- The records whose bytecode has places for libraries, in the order of the search. -/
def linkable (log : ValidationLog) : List ContractRecord :=
  log.runs.flatMap fun run => run.records.values.filter ContractRecord.isLinkable

/-- A deployed bytecode without the addresses that were linked into it: the first unlinking that has
the fingerprint of the contract it was made for, or the bytecode itself. -/
def normalize (log : ValidationLog) (bytecode : String) : String :=
  let unlinked? (record : ContractRecord) : Option String :=
    let unlinked := Link.unlink bytecode record.linkReferences
    if record.hasVersion (Fingerprint.of unlinked) then some unlinked else none
  (log.linkable.findSome? unlinked?).getD bytecode

end ValidationLog

end UpgradeAudit
