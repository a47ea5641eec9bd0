import UpgradeAudit.Text.Numeral

/-!
# Numbers of JSON

A number as it is written, and the two things a reader asks of it: the integer it stands for, if it
is written as one and fits a machine word, and whether it exceeds the largest double.
-/

namespace UpgradeAudit.Json

/-- A number as written, by its digits. -/
structure Number where
  negative : Bool
  whole : List Char
  fraction : Option (List Char)
  exponent : Option (Bool × List Char)
  deriving DecidableEq, Repr

namespace Number

def ofNat (n : Nat) : Number :=
  ⟨false, Text.decimal n, none, none⟩

/-- The value of a run of decimal digits. -/
def digitsNat (digits : List Char) : Nat :=
  digits.foldl (fun value c => 10 * value + (c.toNat - '0'.toNat)) 0

/-- The integer that a number without fraction and exponent stands for: an unsigned 64-bit number,
or a negative signed one. Minus zero is no integer. -/
def integer? (n : Number) : Option Int :=
  match n.fraction, n.exponent with
  | none, none =>
    let value := digitsNat n.whole
    if n.negative then
      if 0 < value ∧ value ≤ Text.maxSigned + 1 then some (-(value : Int)) else none
    else if value ≤ Text.maxWord then some value else none
  | _, _ => none

/-- Reads digits after `value` as long as the number fits a word, and returns those left over. -/
def fitting (value : Nat) : List Char → Nat × List Char
  | [] => (value, [])
  | c :: rest =>
    let next := 10 * value + (c.toNat - '0'.toNat)
    if next ≤ Text.maxWord then fitting next rest else (value, c :: rest)

/-- The digits of a number that fit a word, and the power of ten they are scaled by. Whole digits
that do not fit raise the power; fraction digits that do not fit are dropped. -/
def scaled (n : Number) : Nat × Int :=
  let (whole, unread) := fitting 0 n.whole
  let fraction := n.fraction.getD []
  let (significand, dropped) := fitting whole fraction
  let exponent : Int :=
    match n.exponent with
    | none => 0
    | some (negative, digits) => if negative then -(digitsNat digits : Int) else digitsNat digits
  (significand, unread.length - ((fraction.length - dropped.length : Nat) : Int) + exponent)

/-- The double nearest to a natural number, a tie going to the even one of two neighbours. -/
def nearestDouble (n : Nat) : Nat :=
  let unit := Nat.pow 2 (n.log2 - 52)
  let below := n / unit
  let rest := n % unit
  if 2 * rest > unit ∨ (2 * rest = unit ∧ below % 2 = 1) then (below + 1) * unit else below * unit

/-- The largest power of ten that is a finite double. -/
def maxPower : Nat := 308

/-- Whether a number exceeds the largest double: the double nearest to its digits times the double
nearest to its power of ten rounds to infinity. -/
def overflows (n : Number) : Bool :=
  let (significand, power) := n.scaled
  if significand = 0 ∨ power < 0 then false
  else if power > maxPower then true
  else
    Nat.pow 2 1024 ≤
      nearestDouble (nearestDouble significand * nearestDouble (Nat.pow 10 power.toNat))

end Number

end UpgradeAudit.Json
