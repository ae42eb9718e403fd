/-!
# Digits and integers in text

A run of the ten ASCII digits has a positional value; a sign in front makes it an integer. Nothing else is a digit: the
digits of other scripts are not read.
-/

namespace SheetFill.Text

/-- One of the ten ASCII digits. -/
def isDigit (c : Char) : Bool :=
  '0' ≤ c && c ≤ '9'

/-- The value of a digit. -/
def digitValue (c : Char) : Nat :=
  c.toNat - '0'.toNat

/-- The positional value of a run of digits in front of which `value` was read. -/
def digitsValue (value : Nat) : List Char → Nat
  | [] => value
  | c :: cs => digitsValue (value * 10 + digitValue c) cs

/-- The number that a non-empty run of digits writes; leading zeros count for nothing. -/
def nat? (cs : List Char) : Option Nat :=
  if cs ≠ [] ∧ cs.all isDigit then some (digitsValue 0 cs) else none

/-- The number of at most `bound` that a run of digits writes. -/
def natUpTo? (bound : Nat) (cs : List Char) : Option Nat :=
  (nat? cs).filter (· ≤ bound)

/-- The largest integer of 64 bits with a sign. -/
def maxInt64 : Int := 9223372036854775807

/-- The smallest integer of 64 bits with a sign. -/
def minInt64 : Int := -9223372036854775808

/-- The largest number of 64 bits without a sign. -/
def maxNat64 : Nat := 18446744073709551615

/-- The integer that an optional sign and a run of digits write. -/
def int? : List Char → Option Int
  | '-' :: cs => (nat? cs).map fun n => -(n : Int)
  | '+' :: cs => (nat? cs).map Int.ofNat
  | cs => (nat? cs).map Int.ofNat

/-- The integer of 64 bits that a text writes. -/
def int64? (cs : List Char) : Option Int :=
  (int? cs).filter fun i => minInt64 ≤ i ∧ i ≤ maxInt64

/-- The decimal digits of a number. -/
def ofNat (n : Nat) : List Char :=
  if n < 10 then [Char.ofNat (48 + n)] else ofNat (n / 10) ++ [Char.ofNat (48 + n % 10)]
termination_by n
decreasing_by omega

/-- The decimal digits of an integer behind its sign. -/
def ofInt (i : Int) : List Char :=
  if i < 0 then '-' :: ofNat i.natAbs else ofNat i.natAbs

/-- A number in decimal digits. -/
def natText (n : Nat) : String :=
  String.ofList (ofNat n)

/-- An integer in decimal digits. -/
def intText (i : Int) : String :=
  String.ofList (ofInt i)

end SheetFill.Text
