import UpgradeAudit.Digest.Keccak
import UpgradeAudit.Text.Bytes
import UpgradeAudit.Text.Numeral
import UpgradeAudit.Text.Search

/-!
# Fingerprints of bytecode

A fingerprint identifies a bytecode text whatever its letter case and whether or not it carries the
`0x` marker. It holds a digest of the whole canonical text, and a second digest of the text without
the metadata section that the compiler appends. Fingerprints are compared by the first digest.
-/

namespace UpgradeAudit

/-- The digests of a bytecode with and without its metadata section. -/
structure Fingerprint where
  withMetadata : String
  withoutMetadata : String
  deriving DecidableEq, Repr

namespace Fingerprint

/-- The characters that may stand before the digits of a bytecode. -/
def marker : List Char := ['0', 'x']

/-- The text that is hashed: without one leading marker, in small letters. -/
def canonical (bytecode : String) : String :=
  String.ofList ((Text.dropLead marker bytecode.toList).map Char.toLower)

/-- The number of characters that give the length of the metadata section. -/
def lengthDigits : Nat := 4

/-- The number of characters of the metadata section, with those that give its length, if the text
ends in a readable length and is long enough to hold the section. -/
def metadataLength? (text : List Char) : Option Nat := do
  guard (Text.isAscii text ∧ lengthDigits ≤ text.length)
  let bytes ← Text.numeral? 16 Text.maxWord (text.drop (text.length - lengthDigits))
  let characters := 2 * bytes + lengthDigits
  guard (characters ≤ text.length)
  return characters

/-- The text without its metadata section; unchanged if it has none. -/
def trimMetadata (text : String) : String :=
  match metadataLength? text.toList with
  | some characters => String.ofList (text.toList.take (text.toList.length - characters))
  | none => text

/-- The Keccak-256 digest of a text, in hexadecimal. -/
def digest (text : String) : String :=
  String.ofList <| (Digest.keccak256 text.toUTF8.toList).flatMap fun byte =>
    [Text.hexDigit (byte.toNat / 16), Text.hexDigit (byte.toNat % 16)]

def of (bytecode : String) : Fingerprint where
  withMetadata := digest (canonical bytecode)
  withoutMetadata := digest (trimMetadata (canonical bytecode))

/-- Two fingerprints stand for the same bytecode when their digests with metadata agree. -/
def agrees (a b : Fingerprint) : Bool :=
  a.withMetadata == b.withMetadata

/-- The number of different bytecodes that a list of fingerprints stands for. -/
def countDistinct (fingerprints : List Fingerprint) : Nat :=
  (fingerprints.map withMetadata).eraseDups.length

end Fingerprint

end UpgradeAudit
