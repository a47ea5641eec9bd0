import UpgradeAudit.Location
import UpgradeAudit.Node.Declaration
import UpgradeAudit.Storage.Layout
import UpgradeAudit.Storage.TypeName

/-!
# The layout of a contract definition

The variables that a contract declares itself and that take up storage, in the order of their
declarations.
-/

namespace UpgradeAudit

/-- Gives the layout of the variables that a contract declares itself. -/
abbrev LayoutExtractor := Node → Locator → StorageLayout

namespace Storage

def itemOf (locate : Locator) (contract declaration : Node) : StorageItem where
  contract := Node.nameOrEmpty contract
  label := Node.nameOrEmpty declaration
  type := normalizeType ((Node.typeIdentifier? declaration).getD "")
  src := locate declaration

def typeOf (declaration : Node) : TypeItem where
  label := (Node.typeString? declaration).getD ""

/-- Whether a declared variable takes up storage: it is neither constant nor immutable. -/
def isStored (declaration : Node) : Bool :=
  !(Node.isConstant declaration || Node.isImmutable declaration)

/-- The layout of the declared variables that take up storage. -/
def extract : LayoutExtractor := fun contract locate =>
  ((Node.declaredVariables contract).filter isStored).foldl
    (fun layout declaration => layout.add (itemOf locate contract declaration) (typeOf declaration))
    StorageLayout.empty

/-- No variables, for a validation without layouts. -/
def noLayout : LayoutExtractor := fun _ _ => StorageLayout.empty

end Storage

end UpgradeAudit
