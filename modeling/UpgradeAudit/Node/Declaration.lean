import UpgradeAudit.Node.Basic

/-!
# Variables that a contract declares

The members of a contract that declare variables, and what decides where a variable is kept: a
constant is put where it is used, an immutable variable into the code, and any other into storage.
-/

namespace UpgradeAudit.Node

/-- The declared name, empty if there is none. -/
def nameOrEmpty (node : Node) : String :=
  (name? node).getD ""

def isVariable (node : Node) : Bool :=
  hasType node "VariableDeclaration"

def isConstant (node : Node) : Bool :=
  (bool? node "constant").getD false

/-- Whether a declared variable is kept in the code of the contract. -/
def isImmutable (node : Node) : Bool :=
  text? node "mutability" == some "immutable"

/-- Whether a declared variable is given a value where it is declared. -/
def hasValue (node : Node) : Bool :=
  (attribute? node "value").isSome

/-- The variables that a contract declares itself. -/
def declaredVariables (contract : Node) : List Node :=
  (members contract).filter isVariable

end UpgradeAudit.Node
