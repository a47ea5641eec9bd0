import UpgradeAudit.Json.Tree

/-!
# Writing JSON text

The compact text of a tree: no blanks, members in their order, and escapes only where the grammar
asks for them.
-/

namespace UpgradeAudit.Json

/-- How a character is written in a string. -/
def writtenChar (c : Char) : List Char :=
  if c = '"' then ['\\', '"']
  else if c = '\\' then ['\\', '\\']
  else if c = '\x08' then ['\\', 'b']
  else if c = '\t' then ['\\', 't']
  else if c = '\n' then ['\\', 'n']
  else if c = '\x0c' then ['\\', 'f']
  else if c = '\r' then ['\\', 'r']
  else if c.toNat < 0x20 then
    ['\\', 'u', '0', '0', Text.hexDigit (c.toNat / 16), Text.hexDigit (c.toNat % 16)]
  else [c]

/-- How a piece of a string is written. -/
def writtenPiece : Piece → List Char
  | .char c => writtenChar c
  | .surrogate unit =>
    ['\\', 'u', Text.hexDigit (unit / 4096 % 16), Text.hexDigit (unit / 256 % 16),
      Text.hexDigit (unit / 16 % 16), Text.hexDigit (unit % 16)]

def writeString (pieces : List Piece) : List Char :=
  '"' :: pieces.flatMap writtenPiece ++ ['"']

def writeNumber (n : Number) : List Char :=
  (if n.negative then ['-'] else []) ++ n.whole
    ++ (match n.fraction with
      | some digits => '.' :: digits
      | none => [])
    ++ (match n.exponent with
      | some (true, digits) => 'e' :: '-' :: digits
      | some (false, digits) => 'e' :: digits
      | none => [])

mutual

/-- The compact text of a tree. -/
def write : Tree → List Char
  | .null => ['n', 'u', 'l', 'l']
  | .bool true => ['t', 'r', 'u', 'e']
  | .bool false => ['f', 'a', 'l', 's', 'e']
  | .number n => writeNumber n
  | .string pieces => writeString pieces
  | .array [] => ['[', ']']
  | .array (item :: items) => '[' :: write item ++ writeItems items
  | .object [] => ['\x7b', '\x7d']
  | .object ((name, item) :: members) =>
    '\x7b' :: writeString name ++ ':' :: write item ++ writeMembers members

/-- The items after the first one of an array, up to its end. -/
def writeItems : List Tree → List Char
  | [] => [']']
  | item :: items => ',' :: write item ++ writeItems items

/-- The members after the first one of an object, up to its end. -/
def writeMembers : List (List Piece × Tree) → List Char
  | [] => ['\x7d']
  | (name, item) :: members =>
    ',' :: writeString name ++ ':' :: write item ++ writeMembers members

end

/-- The compact text of a tree. -/
def render (tree : Tree) : String :=
  String.ofList (write tree)

end UpgradeAudit.Json
