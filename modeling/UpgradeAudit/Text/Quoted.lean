import UpgradeAudit.Text.ExtendingMarks
import UpgradeAudit.Text.Numeral
import UpgradeAudit.Text.Unprintable

/-!
# Quoted text

A text between double quotes in which every character can be seen: a quote and a backslash are
escaped, and what has no printed form, or none apart from the character before it, is written as its
code point.
-/

namespace UpgradeAudit.Text

/-- A code point as an escape, in hexadecimal without leading zeros. -/
def codePointEscape (c : Char) : List Char :=
  "\\u\x7b".toList ++ Nat.toDigits 16 c.toNat ++ ['\x7d']

/-- How a character is written between double quotes. -/
def quotedChar (c : Char) : List Char :=
  if c = '"' then ['\\', '"']
  else if c = '\\' then ['\\', '\\']
  else if c = '\x00' then ['\\', '0']
  else if c = '\t' then ['\\', 't']
  else if c = '\r' then ['\\', 'r']
  else if c = '\n' then ['\\', 'n']
  else if extendingMarks.contains c || unprintable.contains c then codePointEscape c
  else [c]

def quoted (text : String) : String :=
  String.ofList ('"' :: text.toList.flatMap quotedChar ++ ['"'])

end UpgradeAudit.Text
