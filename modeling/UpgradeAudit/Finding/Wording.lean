import UpgradeAudit.Finding.Basic

/-!
# The wording of findings

What is said about a finding: its message, a hint how to mend it, and the page that documents it.
-/

namespace UpgradeAudit

namespace FindingKind

/-- The number of the page that documents a kind. -/
def page : FindingKind → Nat
  | .constructor => 1
  | .delegatecall => 2
  | .selfdestruct => 3
  | .stateVariableAssignment => 4
  | .stateVariableImmutable => 5
  | .externalLibraryLinking => 6
  | .structDefinition | .enumDefinition => 7

/-- How to mend a finding of a kind. -/
def hint? : FindingKind → Option String
  | .constructor => some "Define an initializer instead"
  | .delegatecall | .selfdestruct => none
  | .stateVariableAssignment => some "Move the assignment to the initializer"
  | .stateVariableImmutable => some "Use a constant or mutable variable instead"
  | .externalLibraryLinking =>
    some ("Use libraries with internal functions only, or skip this check with the "
      ++ "`allow_linked_libraries` option if you have manually checked that the libraries are "
      ++ "upgrade safe")
  | .structDefinition | .enumDefinition =>
    some ("If you have manually checked for storage layout compatibility, you can skip this check "
      ++ "with the `allow_custom_types` option")

/-- A number with at least three digits. -/
def paddedNumber (n : Nat) : String :=
  let digits := Nat.toDigits 10 n
  String.ofList (List.replicate (3 - digits.length) '0' ++ digits)

/-- The address of the page that documents a kind. -/
def link (kind : FindingKind) : String :=
  "https://zpl.in/upgrades/error-" ++ paddedNumber kind.page

end FindingKind

namespace Finding

def message : Finding → String
  | .constructor contract _ => "Contract `" ++ contract ++ "` has a constructor"
  | .delegatecall _ => "Use of delegatecall is not allowed"
  | .selfdestruct _ => "Use of selfdestruct is not allowed"
  | .stateVariableAssignment name _ => "Variable `" ++ name ++ "` is assigned an initial value"
  | .stateVariableImmutable name _ => "Variable `" ++ name ++ "` is immutable"
  | .externalLibraryLinking name _ =>
    "Linking external libraries like `" ++ name ++ "` is not yet supported"
  | .structDefinition name _ => "Defining structs like `" ++ name ++ "` is not yet supported"
  | .enumDefinition name _ => "Defining enums like `" ++ name ++ "` is not yet supported"

def hint? (finding : Finding) : Option String :=
  finding.kind.hint?

def link (finding : Finding) : String :=
  finding.kind.link

/-- A finding in a report: its place and message, a hint if there is one, and its page. -/
def report (finding : Finding) : String :=
  "\n" ++ finding.src ++ ": " ++ finding.message ++ "\n"
    ++ (match finding.hint? with
      | some hint => "    " ++ hint ++ "\n"
      | none => "")
    ++ "    " ++ finding.link

end Finding

end UpgradeAudit
