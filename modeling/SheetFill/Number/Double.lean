import SheetFill.Number.Power

/-!
# Double-precision numbers

A cell holds a number of 64 bits in the binary interchange format: a sign, eleven bits of exponent and fifty-two of
fraction. It is kept as its bits, so that a negative zero stays one and two numbers are equal when their bits are.

Arithmetic is exact and then rounded: `nearest` takes a quotient of natural numbers to the nearest double, a tie to the
even neighbour, and everything too large to infinity. Reading a decimal text, counting and scaling all go through it.
-/

namespace SheetFill

/-- A double-precision number, as its bits. -/
structure Double where
  bits : UInt64
deriving DecidableEq, Inhabited

namespace Double

/-- The bits of infinity, which are also the first bits that stand for no finite magnitude. -/
def infinityBits : Nat := 2047 * pow2 52

/-- The weight of the sign bit. -/
def signBit : Nat := pow2 63

/-- The quotient of two numbers, rounded to the nearest integer, a half to the even neighbour. -/
def roundHalfEven (num den : Nat) : Nat :=
  let q := num / den
  let r := num % den
  if 2 * r < den then q else if den < 2 * r then q + 1 else q + q % 2

/-- The exponent of the largest power of two that is not above `num / den`. -/
def floorLog2 (num den : Nat) : Int :=
  let e : Int := (Nat.log2 num : Int) - (Nat.log2 den : Int)
  if num * pow2 (-e).toNat < den * pow2 e.toNat then e - 1 else e

/-- The bits of the double nearest to `num / den`; the last place weighs two to the power `q`. -/
def nearest (num den : Nat) : Nat :=
  if num = 0 then 0
  else
    let q := max (floorLog2 num den - 52) (-1074)
    let m := roundHalfEven (num * pow2 (-q).toNat) (den * pow2 q.toNat)
    min ((q + 1074).toNat * pow2 52 + m) infinityBits

/-- The double with the given sign and the bits of its magnitude. -/
def ofMagnitude (negative : Bool) (magnitude : Nat) : Double :=
  ⟨UInt64.ofNat (if negative then signBit + magnitude else magnitude)⟩

/-- The bits without the sign. -/
def magnitude (d : Double) : Nat :=
  d.bits.toNat % signBit

/-- Whether the sign bit is set. -/
def isNegative (d : Double) : Bool :=
  signBit ≤ d.bits.toNat

/-- Neither infinite nor a NaN. -/
def isFinite (d : Double) : Bool :=
  d.magnitude < infinityBits

/-- Whether the bits stand for no number. -/
def isNaN (d : Double) : Bool :=
  infinityBits < d.magnitude

/-- The significand of a magnitude as an integer. -/
def significand (magnitude : Nat) : Nat :=
  if magnitude / pow2 52 = 0 then magnitude else pow2 52 + magnitude % pow2 52

/-- The weight of the last place of a magnitude, as an exponent of two. -/
def lastPlace (magnitude : Nat) : Int :=
  if magnitude / pow2 52 = 0 then -1074 else (magnitude / pow2 52 : Nat) - 1075

/-- A finite magnitude as a quotient of natural numbers. -/
def quotient (magnitude : Nat) : Nat × Nat :=
  let q := lastPlace magnitude
  (significand magnitude * pow2 q.toNat, pow2 (-q).toNat)

/-- The double nearest to a natural number. -/
def ofNat (n : Nat) : Double :=
  ofMagnitude false (nearest n 1)

/-- The double nearest to an integer. -/
def ofInt (i : Int) : Double :=
  ofMagnitude (decide (i < 0)) (nearest i.natAbs 1)

/-- The bits of the product of two finite magnitudes. -/
def mulMagnitude (a b : Nat) : Nat :=
  let (n, d) := quotient a
  let (n', d') := quotient b
  nearest (n * n') (d * d')

/-- The bits of the quotient of two finite magnitudes, the second of which is not zero. -/
def divMagnitude (a b : Nat) : Nat :=
  let (n, d) := quotient a
  let (n', d') := quotient b
  nearest (n * d') (d * n')

/-- The integers up to two to the power 53 are doubles. -/
example : (ofNat (pow2 53 + 1)).bits = 0x4340000000000000 := by decide

/-- The smallest positive magnitude, and the tie between it and zero. -/
example : nearest 1 (pow2 1074) = 1 ∧ nearest 1 (pow2 1075) = 0 := by decide +kernel

end Double

end SheetFill
