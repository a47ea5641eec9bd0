import UpgradeAudit.Json.Number

/-!
# JSON as written

The tree of a JSON text before anything is decided about it: members keep their order and their
repetitions, and strings may hold halves of surrogate pairs that belong to no character.
-/

namespace UpgradeAudit.Json

/-- An element of a written string. -/
inductive Piece where
  /-- A character, written out or escaped. -/
  | char (c : Char)
  /-- One 16-bit half of a surrogate pair, which only an escape can name. -/
  | surrogate (unit : Nat)
  deriving DecidableEq, Repr

inductive Tree where
  | null
  | bool (value : Bool)
  | number (value : Number)
  | string (pieces : List Piece)
  | array (items : List Tree)
  | object (members : List (List Piece × Tree))
  deriving Inhabited

/-- The character of a pair of surrogate halves. -/
def pairedChar (high low : Nat) : Char :=
  Char.ofNat ((high - 0xD800) * 0x400 + (low - 0xDC00) + 0x10000)

/-- The characters of a written string, added to the front of `read`; refused if a surrogate half
stands without its partner. -/
def resolveOnto (read : List Char) : List Piece → Option (List Char)
  | [] => some read.reverse
  | .char c :: rest => resolveOnto (c :: read) rest
  | .surrogate high :: .surrogate low :: rest =>
    if 0xD800 ≤ high ∧ high < 0xDC00 ∧ 0xDC00 ≤ low ∧ low < 0xE000 then
      resolveOnto (pairedChar high low :: read) rest
    else none
  | .surrogate _ :: _ => none

def resolve (pieces : List Piece) : Option String :=
  (resolveOnto [] pieces).map String.ofList

/-- The written string of a text. -/
def piecesOf (text : String) : List Piece :=
  text.toList.map .char

end UpgradeAudit.Json
