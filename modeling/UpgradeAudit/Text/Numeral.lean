/-!
# Unsigned numerals

A numeral is one or more digits of a base after an optional plus sign. Its value must not exceed a
limit; signs other than one leading plus, blanks and separators are refused.
-/

namespace UpgradeAudit.Text

/-- The largest unsigned 64-bit number. -/
def maxWord : Nat := 0xFFFFFFFFFFFFFFFF

/-- The largest unsigned 32-bit number. -/
def maxHalfWord : Nat := 0xFFFFFFFF

/-- The largest signed 64-bit number; the least one is one further from zero. -/
def maxSigned : Nat := 0x7FFFFFFFFFFFFFFF

/-- The value of a digit, with letters of either case above nine. -/
def digitValue? (base : Nat) (c : Char) : Option Nat :=
  let value :=
    if '0' ≤ c ∧ c ≤ '9' then some (c.toNat - '0'.toNat)
    else if 'a' ≤ c ∧ c ≤ 'z' then some (c.toNat - 'a'.toNat + 10)
    else if 'A' ≤ c ∧ c ≤ 'Z' then some (c.toNat - 'A'.toNat + 10)
    else none
  value.filter (· < base)

/-- The value of a run of digits read after a number `value`. -/
def digitsValue? (base : Nat) : Nat → List Char → Option Nat
  | value, [] => some value
  | value, c :: rest => do
    let digit ← digitValue? base c
    digitsValue? base (value * base + digit) rest

/-- The digits of a numeral, without its sign. -/
def unsignedPart : List Char → List Char
  | '+' :: rest => rest
  | text => text

/-- The value of a numeral that does not exceed `limit`. -/
def numeral? (base limit : Nat) (text : List Char) : Option Nat :=
  match unsignedPart text with
  | [] => none
  | digits => (digitsValue? base 0 digits).filter (· ≤ limit)

/-- The digits that write a number in base ten. -/
def decimal (n : Nat) : List Char :=
  Nat.toDigits 10 n

/-- The digit with a value below sixteen, with small letters above nine. -/
def hexDigit (n : Nat) : Char :=
  if n < 10 then Char.ofNat ('0'.toNat + n) else Char.ofNat ('a'.toNat + (n - 10))

end UpgradeAudit.Text
