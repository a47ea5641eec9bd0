import UpgradeAudit.Finding.Wording
import UpgradeAudit.Validation.Query

/-!
# Asserting safety

A caller may tolerate findings of some kinds. Tolerated findings do not fail the assertion, but a
warning says which option let them through.
-/

namespace UpgradeAudit

open Json

/-- The findings that a caller tolerates. -/
structure Options where
  allowCustomTypes : Bool := false
  allowLinkedLibraries : Bool := false
  deriving DecidableEq, Repr

/-- Findings divided into those that fail an assertion and those that are tolerated. -/
structure Exceptions where
  retained : List Finding
  removed : List Finding
  deriving DecidableEq, Repr

/-- A warning about tolerated findings. -/
structure Warning where
  contract : String
  title : String
  message : String
  deriving DecidableEq, Repr

/-- Why an assertion of safety fails. -/
inductive SafetyError where
  /-- The contract is not found. -/
  | lookup (error : LookupError)
  /-- The contract has findings that are not tolerated. -/
  | rejected (contract : String) (findings : List Finding)
  deriving DecidableEq, Repr

/-- The outcome of an assertion: its warnings, and why it fails, if it does. -/
structure Verdict where
  warnings : List Warning
  failure : Option SafetyError
  deriving DecidableEq, Repr

namespace Options

def allows (options : Options) : FindingKind → Bool
  | .structDefinition | .enumDefinition => options.allowCustomTypes
  | .externalLibraryLinking => options.allowLinkedLibraries
  | _ => false

/-- Reads options; what is not written is not tolerated. -/
def decode : Decoder Options :=
  Decode.record ["allowCustomTypes", "allowLinkedLibraries"] fun
    | nesting, [custom, linked] => do
      return ⟨← Decode.defaulted Decode.bool false nesting custom,
        ← Decode.defaulted Decode.bool false nesting linked⟩
    | _, _ => none

def encode (options : Options) : Tree :=
  Encode.record [("allowCustomTypes", .bool options.allowCustomTypes),
    ("allowLinkedLibraries", .bool options.allowLinkedLibraries)]

/-- Divides findings, each part in the order of the findings. -/
def apply (options : Options) (findings : List Finding) : Exceptions where
  retained := findings.filter fun finding => !options.allows finding.kind
  removed := findings.filter fun finding => options.allows finding.kind

end Options

namespace Exceptions

/-- Whether a tolerated finding is of one of some kinds. -/
def hasRemoved (exceptions : Exceptions) (kinds : List FindingKind) : Bool :=
  exceptions.removed.any fun finding => finding.kind ∈ kinds

def customTypesMessage : String :=
  "You are using the `allow_custom_types` option to skip storage checks for structs and enums. "
    ++ "Make sure you have manually checked the storage layout for incompatibilities."

def linkedLibrariesMessage : String :=
  "You are using the `allow_linked_libraries` option to include external libraries. "
    ++ "Make sure you have manually checked that the linked libraries are upgrade safe."

/-- The warnings about the tolerated findings of a contract, one for each option that was needed. -/
def warnings (exceptions : Exceptions) (contract : String) : List Warning :=
  let warning (message : String) : Warning :=
    ⟨contract, "Potentially unsafe deployment of " ++ contract, message⟩
  (if exceptions.hasRemoved [.structDefinition, .enumDefinition] then
      [warning customTypesMessage] else [])
    ++ (if exceptions.hasRemoved [.externalLibraryLinking] then
      [warning linkedLibrariesMessage] else [])

end Exceptions

namespace SafetyError

def message : SafetyError → String
  | .lookup error => error.message
  | .rejected contract findings =>
    "Contract `" ++ contract ++ "` is not upgrade safe\n"
      ++ String.join (findings.map Finding.report)

end SafetyError

namespace ValidationLog

/-- Asserts that the contract with a fingerprint is safe but for what the options tolerate. -/
def assertSafe (log : ValidationLog) (version : Fingerprint) (options : Options) : Verdict :=
  let outcome : Except LookupError (String × List Finding) := do
    let found ← log.find version
    return (found.name, ← found.errors)
  match outcome with
  | .error error => ⟨[], some (.lookup error)⟩
  | .ok (name, findings) =>
    let exceptions := options.apply findings
    let failure :=
      if exceptions.retained.isEmpty then none else some (.rejected name exceptions.retained)
    ⟨exceptions.warnings name, failure⟩

end ValidationLog

end UpgradeAudit
