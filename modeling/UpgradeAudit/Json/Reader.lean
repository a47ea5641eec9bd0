import UpgradeAudit.Json.Tree

/-!
# Reading JSON text

The strict grammar of JSON: blanks are space, tab, line feed and carriage return only, control
characters in strings are refused, and nothing but blanks may follow the value. Each reader takes
what it reads off the front of the text and returns the rest.
-/

namespace UpgradeAudit.Json

/-- Whether a character may stand between two tokens. -/
def isBlank (c : Char) : Bool :=
  c = ' ' || c = '\t' || c = '\n' || c = '\r'

def skipBlanks (text : List Char) : List Char :=
  text.dropWhile isBlank

/-- The character that a short escape stands for. -/
def escapedChar? (c : Char) : Option Char :=
  if c = '"' ∨ c = '\\' ∨ c = '/' then some c
  else if c = 'b' then some '\x08'
  else if c = 'f' then some '\x0c'
  else if c = 'n' then some '\n'
  else if c = 'r' then some '\r'
  else if c = 't' then some '\t'
  else none

/-- The piece that an escape with four hexadecimal digits stands for. -/
def escapedPiece? (a b c d : Char) : Option Piece := do
  let unit ← Text.digitsValue? 16 0 [a, b, c, d]
  return if 0xD800 ≤ unit ∧ unit < 0xE000 then .surrogate unit else .char (Char.ofNat unit)

/-- Reads a string from behind its opening quote; `read` holds the pieces before, the last first. -/
def readPieces (read : List Piece) : List Char → Option (List Piece × List Char)
  | [] => none
  | '"' :: rest => some (read.reverse, rest)
  | '\\' :: 'u' :: a :: b :: c :: d :: rest =>
    match escapedPiece? a b c d with
    | some piece => readPieces (piece :: read) rest
    | none => none
  | '\\' :: c :: rest =>
    match escapedChar? c with
    | some escaped => readPieces (.char escaped :: read) rest
    | none => none
  | c :: rest =>
    if c = '\\' ∨ c.toNat < 0x20 then none else readPieces (.char c :: read) rest

def readDigits (text : List Char) : Option (List Char × List Char) :=
  match text.span Char.isDigit with
  | ([], _) => none
  | parts => some parts

/-- Reads the whole digits of a number, which have no zero in front. -/
def readWhole (text : List Char) : Option (List Char × List Char) :=
  match readDigits text with
  | some ('0' :: _ :: _, _) => none
  | parts => parts

/-- Reads the fraction of a number, if there is one. -/
def readFraction : List Char → Option (Option (List Char) × List Char)
  | '.' :: rest => (readDigits rest).map fun parts => (some parts.1, parts.2)
  | text => some (none, text)

/-- Reads the sign of an exponent: whether it is negative. -/
def readSign : List Char → Bool × List Char
  | '-' :: rest => (true, rest)
  | '+' :: rest => (false, rest)
  | text => (false, text)

/-- Reads the exponent of a number, if there is one. -/
def readExponent : List Char → Option (Option (Bool × List Char) × List Char)
  | [] => some (none, [])
  | c :: rest =>
    if c = 'e' ∨ c = 'E' then
      let (negative, rest) := readSign rest
      (readDigits rest).map fun parts => (some (negative, parts.1), parts.2)
    else some (none, c :: rest)

def readUnsigned (negative : Bool) (text : List Char) : Option (Number × List Char) := do
  let (whole, rest) ← readWhole text
  let (fraction, rest) ← readFraction rest
  let (exponent, rest) ← readExponent rest
  return (⟨negative, whole, fraction, exponent⟩, rest)

def readNumber : List Char → Option (Number × List Char)
  | '-' :: rest => readUnsigned true rest
  | text => readUnsigned false text

/-- Reads the name of a member and the colon behind it. -/
def readName (text : List Char) : Option (List Piece × List Char) :=
  match skipBlanks text with
  | '"' :: rest => do
    let (name, rest) ← readPieces [] rest
    match skipBlanks rest with
    | ':' :: rest => some (name, rest)
    | _ => none
  | _ => none

mutual

/-- Reads a value, in at most `fuel` nested steps. -/
def readTree : Nat → List Char → Option (Tree × List Char)
  | 0, _ => none
  | fuel + 1, text =>
    match skipBlanks text with
    | 'n' :: 'u' :: 'l' :: 'l' :: rest => some (.null, rest)
    | 't' :: 'r' :: 'u' :: 'e' :: rest => some (.bool true, rest)
    | 'f' :: 'a' :: 'l' :: 's' :: 'e' :: rest => some (.bool false, rest)
    | '"' :: rest => (readPieces [] rest).map fun parts => (.string parts.1, parts.2)
    | '[' :: rest =>
      match skipBlanks rest with
      | ']' :: rest => some (.array [], rest)
      | rest => readItems fuel [] rest
    | '\x7b' :: rest =>
      match skipBlanks rest with
      | '\x7d' :: rest => some (.object [], rest)
      | rest => readMembers fuel [] rest
    | rest => (readNumber rest).map fun parts => (.number parts.1, parts.2)

/-- Reads the items of an array up to its end; `read` holds those before, the last first. -/
def readItems : Nat → List Tree → List Char → Option (Tree × List Char)
  | 0, _, _ => none
  | fuel + 1, read, text =>
    match readTree fuel text with
    | none => none
    | some (item, rest) =>
      match skipBlanks rest with
      | ',' :: rest => readItems fuel (item :: read) rest
      | ']' :: rest => some (.array (item :: read).reverse, rest)
      | _ => none

/-- Reads the members of an object up to its end; `read` holds those before, the last first. -/
def readMembers : Nat → List (List Piece × Tree) → List Char → Option (Tree × List Char)
  | 0, _, _ => none
  | fuel + 1, read, text =>
    match readName text with
    | none => none
    | some (name, rest) =>
      match readTree fuel rest with
      | none => none
      | some (item, rest) =>
        match skipBlanks rest with
        | ',' :: rest => readMembers fuel ((name, item) :: read) rest
        | '\x7d' :: rest => some (.object ((name, item) :: read).reverse, rest)
        | _ => none

end

/-- The tree of a JSON text. A value of `n` characters is read in at most `2 * n + 1` nested steps:
an array or object is two steps deeper than its items, and its bracket is a character that they do
not have. -/
def parse? (text : String) : Option Tree :=
  let characters := text.toList
  match readTree (2 * characters.length + 2) characters with
  | some (tree, rest) => if (skipBlanks rest).isEmpty then some tree else none
  | none => none

end UpgradeAudit.Json
