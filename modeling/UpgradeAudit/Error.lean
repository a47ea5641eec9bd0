import UpgradeAudit.Text.Quoted

/-!
# Errors

What can be wrong with a compiler output, and why a contract cannot be looked up. Each error is a
cause; its wording is given by `message`.
-/

namespace UpgradeAudit

/-- A defect of a compiler output. -/
inductive InputError where
  /-- A node of the syntax tree lacks an attribute that it has to have. -/
  | missingAttribute (nodeType src key : String)
  /-- An ancestor or a library of a contract is no contract of the output. -/
  | unresolvedReference (contract : String) (id : Int)
  /-- A place for the address of a library is not part of the bytecode. -/
  | linkOutOfBounds (contract library : String) (start length : UInt64)
  deriving DecidableEq, Repr

/-- The reason why a contract is not found. -/
inductive LookupError where
  /-- No contract has the fingerprint. -/
  | notFound
  /-- The contract has no bytecode. -/
  | abstractContract (name : String)
  /-- The run has no contract of the name. -/
  | unknownContract (name : String)
  deriving DecidableEq, Repr

namespace InputError

def message : InputError → String
  | .missingAttribute nodeType src key =>
    "The `" ++ nodeType ++ "` node at " ++ Text.quoted src ++ " has no valid `" ++ key
      ++ "` attribute"
  | .unresolvedReference contract id =>
    "Contract `" ++ contract ++ "` refers to AST node " ++ toString id
      ++ ", which is not a known contract"
  | .linkOutOfBounds contract library start length =>
    "Link reference for `" ++ library ++ "` in `" ++ contract ++ "` at byte "
      ++ toString start.toNat ++ " with length " ++ toString length.toNat
      ++ " lies outside the bytecode"

end InputError

namespace LookupError

def message : LookupError → String
  | .notFound =>
    "The requested contract was not found. Make sure the source code is available for compilation"
  | .abstractContract name => "Contract `" ++ name ++ "` is abstract"
  | .unknownContract name => "Contract `" ++ name ++ "` is not present in the validation run"

end LookupError

end UpgradeAudit
