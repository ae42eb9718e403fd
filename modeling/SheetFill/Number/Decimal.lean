import SheetFill.Number.Double
import SheetFill.Text.Digits

/-!
# Decimal numerals

A numeral is an optional sign, digits with at most one point among, before or behind them, and an optional exponent. It
stands for a significand times a power of ten, and reading it as a double rounds that value once.

Infinities and NaN have no numeral here.
-/

namespace SheetFill

/-- A sign, a significand and the power of ten that it is multiplied by. -/
structure Decimal where
  negative : Bool
  significand : Nat
  exponent : Int
deriving DecidableEq

namespace Decimal

open Text (isDigit digitsValue int?)

/-- The exponent part of a numeral: nothing, or a letter and an integer. -/
def exponent? : List Char → Option Int
  | [] => some 0
  | c :: cs => if c = 'e' ∨ c = 'E' then int? cs else none

/-- A numeral without its sign: digits, perhaps a point and digits, and an exponent part. -/
def unsigned? (cs : List Char) : Option (Nat × Int) :=
  let whole := cs.takeWhile isDigit
  let rest := cs.dropWhile isDigit
  let fraction := match rest with
    | '.' :: more => more.takeWhile isDigit
    | _ => []
  let tail := match rest with
    | '.' :: more => more.dropWhile isDigit
    | other => other
  if whole = [] ∧ fraction = [] then none
  else
    (exponent? tail).map fun e =>
      (digitsValue 0 (whole ++ fraction), e - (fraction.length : Int))

/-- The value of a numeral. -/
def parse? : List Char → Option Decimal
  | '-' :: cs => (unsigned? cs).map fun (s, e) => ⟨true, s, e⟩
  | '+' :: cs => (unsigned? cs).map fun (s, e) => ⟨false, s, e⟩
  | cs => (unsigned? cs).map fun (s, e) => ⟨false, s, e⟩

/-- The bits of the double nearest to `significand · 10 ^ exponent`. The two outer branches only keep the powers small:
above the first bound every value is infinite, below the second every value rounds to zero. -/
def magnitude (significand : Nat) (exponent : Int) : Nat :=
  if significand = 0 then 0
  else if 400 < exponent then Double.infinityBits
  else if exponent < -400 - (Nat.log2 significand : Int) then 0
  else Double.nearest (significand * pow10 exponent.toNat) (pow10 (-exponent).toNat)

/-- The double nearest to a decimal. -/
def toDouble (d : Decimal) : Double :=
  Double.ofMagnitude d.negative (magnitude d.significand d.exponent)

/-- The finite double that a numeral stands for. -/
def finite? (cs : List Char) : Option Double :=
  ((parse? cs).map toDouble).filter Double.isFinite

end Decimal

end SheetFill
