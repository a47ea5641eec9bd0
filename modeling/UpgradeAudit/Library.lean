import UpgradeAudit.Node.Search

/-!
# Libraries that a contract refers to

A contract refers to a library by a directive that attaches it to a type, or by its name in an
expression.
-/

namespace UpgradeAudit.Library

/-- The libraries of directives, in the order of the directives. -/
def attached (contract : Node) : List Int :=
  ((Node.findAll contract "UsingForDirective").filterMap fun directive =>
    Node.attribute? directive "libraryName").filterMap Node.reference?

/-- Whether the type of an identifier is a library. -/
def isNamed (identifier : Node) : Bool :=
  match Node.typeString? identifier with
  | some type => Text.startsWith "type(library ".toList type.toList
  | none => false

/-- The libraries that are named, in the order of their mention. -/
def named (contract : Node) : List Int :=
  ((Node.findAll contract "Identifier").filter isNamed).filterMap Node.reference?

/-- The numbers of the libraries that a contract refers to, each once: first those of directives,
then those that are named. -/
def referenced (contract : Node) : List Int :=
  (attached contract ++ named contract).eraseDups

end UpgradeAudit.Library
