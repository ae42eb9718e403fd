import SheetFill.Content.Basic
import SheetFill.Text.Digits

/-!
# Numerals of JSON

A numeral without point and exponent is an integer as long as it fits 64 bits. Every other numeral is a double: its
digits are gathered into a significand of at most 64 bits, the digits behind that only count as places, and the
significand is multiplied or divided once by a power of ten. A numeral beyond the largest double is refused.
-/

namespace SheetFill.Json

open Text (isDigit digitValue digitsValue maxNat64)

/-- The parts of a numeral. -/
structure Numeral where
  negative : Bool
  whole : List Char
  /-- The digits behind the point. -/
  fraction : Option (List Char)
  exponent : Option Int
deriving DecidableEq

/-- A non-empty run of digits, and what follows it. -/
def readDigits (cs : List Char) : Option (List Char × List Char) :=
  if cs.takeWhile isDigit = [] then none
  else some (cs.takeWhile isDigit, cs.dropWhile isDigit)

/-- The digits before the point: no zero stands in front of another digit. -/
def readWhole (cs : List Char) : Option (List Char × List Char) :=
  (readDigits cs).filter fun (digits, _) => digits.head? ≠ some '0' || digits.length = 1

/-- A point and digits, if there is a point. -/
def readFraction : List Char → Option (Option (List Char) × List Char)
  | '.' :: cs => (readDigits cs).map fun (digits, rest) => (some digits, rest)
  | cs => some (none, cs)

/-- The digits of an exponent behind its sign. -/
def readSigned : List Char → Option (Int × List Char)
  | '-' :: cs => (readDigits cs).map fun (digits, rest) => (-(digitsValue 0 digits : Int), rest)
  | '+' :: cs => (readDigits cs).map fun (digits, rest) => ((digitsValue 0 digits : Int), rest)
  | cs => (readDigits cs).map fun (digits, rest) => ((digitsValue 0 digits : Int), rest)

/-- An exponent, if there is a letter for it. -/
def readExponent : List Char → Option (Option Int × List Char)
  | 'e' :: cs | 'E' :: cs => (readSigned cs).map fun (e, rest) => (some e, rest)
  | cs => some (none, cs)

/-- A numeral without its sign. -/
def readUnsigned (negative : Bool) (cs : List Char) : Option (Numeral × List Char) := do
  let (whole, cs) ← readWhole cs
  let (fraction, cs) ← readFraction cs
  let (exponent, cs) ← readExponent cs
  some (⟨negative, whole, fraction, exponent⟩, cs)

/-- The numeral that a text starts with, and what follows it. -/
def Numeral.read : List Char → Option (Numeral × List Char)
  | '-' :: cs => readUnsigned true cs
  | cs => readUnsigned false cs

/-- Gathers digits as long as the significand fits 64 bits; the second part is what was not gathered. -/
def gather (significand : Nat) : List Char → Nat × List Char
  | [] => (significand, [])
  | c :: cs =>
    if significand * 10 + digitValue c ≤ maxNat64 then gather (significand * 10 + digitValue c) cs
    else (significand, c :: cs)

/-- The largest power of ten that is a double. -/
def maxPower : Nat := 308

/-- The bits of a power of ten. -/
def powerOfTen (e : Nat) : Nat :=
  Double.nearest (pow10 e) 1

/-- A magnitude divided by a power of ten, in steps of the largest power. -/
def divideDown (magnitude e : Nat) : Nat :=
  if magnitude = 0 then 0
  else if e ≤ maxPower then Double.divMagnitude magnitude (powerOfTen e)
  else divideDown (Double.divMagnitude magnitude (powerOfTen maxPower)) (e - maxPower)
termination_by e
decreasing_by
  simp only [maxPower] at *
  omega

/-- The magnitude of a significand times a power of ten, unless it is infinite. -/
def scaled? (significand : Nat) (e : Int) : Option Nat :=
  let magnitude := Double.nearest significand 1
  if e < 0 then some (divideDown magnitude e.natAbs)
  else if magnitude = 0 then some 0
  else if e.toNat ≤ maxPower then
    let product := Double.mulMagnitude magnitude (powerOfTen e.toNat)
    if product < Double.infinityBits then some product else none
  else none

/-- The value of a numeral without point and exponent whose digits were all gathered. -/
def integral (negative : Bool) (significand : Nat) : Content :=
  if !negative then .natural significand
  else if significand ≠ 0 ∧ significand ≤ pow2 63 then .integer (-(significand : Int))
  else .double (Double.ofMagnitude true (Double.nearest significand 1))

/-- The value of a numeral. -/
def Numeral.value? (n : Numeral) : Option Content :=
  let (significand, dropped) := gather 0 n.whole
  if n.fraction = none ∧ n.exponent = none ∧ dropped = [] then
    some (integral n.negative significand)
  else
    let fraction := n.fraction.getD []
    let (significand, ignored) := gather significand fraction
    let places : Int := (fraction.length : Int) - (ignored.length : Int)
    let exponent := (dropped.length : Int) - places + n.exponent.getD 0
    (scaled? significand exponent).map fun m => .double (Double.ofMagnitude n.negative m)

end SheetFill.Json
