import UpgradeAudit.Finding.Basic
import UpgradeAudit.Link
import UpgradeAudit.Storage.Layout

/-!
# Records, runs and logs

The validation of a contract is kept in a record. A run holds the records of one compiler output by
the names of the contracts; a log holds runs in the order in which they are searched.
-/

namespace UpgradeAudit

/-- What validation found out about one contract. -/
structure ContractRecord where
  /-- The fingerprint of the bytecode; abstract contracts have none. -/
  version : Option Fingerprint := none
  /-- The names of the ancestors, the closest first. -/
  inherit : List String := []
  /-- The names of the libraries that the contract refers to. -/
  libraries : List String := []
  /-- The places for the addresses of libraries. -/
  linkReferences : List LinkReference := []
  /-- The findings in the contract itself. -/
  errors : List Finding := []
  /-- The variables that the contract itself declares. -/
  layout : StorageLayout := {}
  deriving DecidableEq

/-- The records of one compiler output, by contract name. -/
structure ValidationRun where
  records : Table ContractRecord := ∅
  deriving DecidableEq

/-- Runs in the order in which they are searched. -/
structure ValidationLog where
  runs : List ValidationRun := []
  deriving DecidableEq

/-- Whether two optional fingerprints stand for the same bytecode, or are both absent. -/
def sameVersion : Option Fingerprint → Option Fingerprint → Bool
  | some a, some b => a.agrees b
  | none, none => true
  | _, _ => false

namespace ContractRecord

/-- The record of a contract of which only the fingerprint is known. -/
def ofVersion (version : Option Fingerprint) : ContractRecord :=
  { version }

def isLinkable (record : ContractRecord) : Bool :=
  !record.linkReferences.isEmpty

def hasVersion (record : ContractRecord) (version : Fingerprint) : Bool :=
  sameVersion record.version (some version)

/-- Whether two records are equal but for the digests without metadata. -/
def agrees (a b : ContractRecord) : Bool :=
  sameVersion a.version b.version && a.inherit == b.inherit && a.libraries == b.libraries
    && a.linkReferences == b.linkReferences && a.errors == b.errors && a.layout == b.layout

end ContractRecord

/-- Whether two lists have the same length and agree item by item. -/
def agreeEach {α : Type} (agrees : α → α → Bool) : List α → List α → Bool
  | [], [] => true
  | a :: as, b :: bs => agrees a b && agreeEach agrees as bs
  | _, _ => false

namespace ValidationRun

def empty : ValidationRun := {}

/-- Puts a record under a name, in place of an earlier one. -/
def insert (run : ValidationRun) (name : String) (record : ContractRecord) : ValidationRun :=
  ⟨run.records.insert name record⟩

/-- Changes the record of a name, if there is one. -/
def modify (run : ValidationRun) (name : String) (change : ContractRecord → ContractRecord) :
    ValidationRun :=
  ⟨run.records.modify name change⟩

def get? (run : ValidationRun) (name : String) : Option ContractRecord :=
  run.records.get? name

def contains (run : ValidationRun) (name : String) : Bool :=
  run.records.contains name

/-- The names of the contracts, in increasing order. -/
def names (run : ValidationRun) : List String :=
  run.records.keys

def size (run : ValidationRun) : Nat :=
  run.records.size

def isEmpty (run : ValidationRun) : Bool :=
  run.records.isEmpty

def contract (run : ValidationRun) (name : String) : Except LookupError ContractRecord :=
  match run.get? name with
  | some record => .ok record
  | none => .error (.unknownContract name)

def contractVersion (run : ValidationRun) (name : String) : Except LookupError Fingerprint := do
  match (← run.contract name).version with
  | some version => .ok version
  | none => .error (.abstractContract name)

/-- Whether two runs are equal but for the digests without metadata. -/
def agrees (a b : ValidationRun) : Bool :=
  agreeEach (fun x y => x.1 == y.1 && x.2.agrees y.2) a.records.entries b.records.entries

end ValidationRun

namespace ValidationLog

def empty : ValidationLog := {}

def ofRun (run : ValidationRun) : ValidationLog := ⟨[run]⟩

/-- Puts a run behind the others. -/
def push (log : ValidationLog) (run : ValidationRun) : ValidationLog :=
  ⟨log.runs ++ [run]⟩

def size (log : ValidationLog) : Nat :=
  log.runs.length

/-- Whether two logs are equal but for the digests without metadata. -/
def agrees (a b : ValidationLog) : Bool :=
  agreeEach ValidationRun.agrees a.runs b.runs

end ValidationLog

end UpgradeAudit
