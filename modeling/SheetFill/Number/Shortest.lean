import SheetFill.Number.Double

/-!
# Shortest decimal digits

Every finite double is written with the fewest decimal digits that read back as the same double, and among those with
the digits nearest to it. A double stands for all real numbers that round to it; `roundsTo` is that interval, its ends
included when the significand is even.

For one, two, up to seventeen digits the two neighbours of the value on the decimal grid are tried; if any grid point
lies in the interval, one of these two does. Which neighbour an exact tie goes to is the caller's choice.
-/

namespace SheetFill

/-- Where a value goes that lies halfway between two decimals. -/
inductive Tie where
  | even
  | up
deriving DecidableEq

/-- Digits `digits` with the value `digits · 10 ^ exponent`. -/
structure ShortDecimal where
  digits : Nat
  exponent : Int
deriving DecidableEq

namespace Shortest

/-- Whether `digits · 10 ^ exponent` rounds to the finite magnitude. The interval is given in quarters of the last
place, because below a power of two the neighbour is half as far. -/
def roundsTo (magnitude digits : Nat) (exponent : Int) : Bool :=
  let m := Double.significand magnitude
  let q := Double.lastPlace magnitude - 2
  let low := if m = pow2 52 ∧ pow2 52 < magnitude then 4 * m - 1 else 4 * m - 2
  let high := 4 * m + 2
  let value := digits * pow10 exponent.toNat * pow2 (-q).toNat
  let unit := pow10 (-exponent).toNat * pow2 q.toNat
  if m % 2 = 0 then low * unit ≤ value && value ≤ high * unit
  else low * unit < value && value < high * unit

/-- The number of digits before the point of `num / den`, found upwards from an estimate; it is negative or zero for
numbers below one. -/
def countUp : Nat → Nat → Nat → Int → Int
  | 0, _, _, k => k
  | fuel + 1, num, den, k =>
    if num * pow10 (-k).toNat < den * pow10 k.toNat then k else countUp fuel num den (k + 1)

/-- The least `k` with `num / den < 10 ^ k`. The estimate is at most two below it. -/
def integerDigits (num den : Nat) : Int :=
  countUp 4 num den (Double.floorLog2 num den * 1233 / 4096 - 1)

/-- The grid point with `n` digits that is taken for the magnitude, if one of its neighbours rounds to it. -/
def onGrid? (tie : Tie) (magnitude n : Nat) (k : Int) : Option ShortDecimal :=
  let (num, den) := Double.quotient magnitude
  let exponent := k - (n : Int)
  let value := num * pow10 (-exponent).toNat
  let unit := den * pow10 exponent.toNat
  let below := value / unit
  let rest := value % unit
  let above := below + 1
  match roundsTo magnitude below exponent, roundsTo magnitude above exponent with
  | false, false => none
  | true, false => some ⟨below, exponent⟩
  | false, true => some ⟨above, exponent⟩
  | true, true =>
    if 2 * rest < unit then some ⟨below, exponent⟩
    else if unit < 2 * rest then some ⟨above, exponent⟩
    else if tie = .even ∧ below % 2 = 0 then some ⟨below, exponent⟩
    else some ⟨above, exponent⟩

/-- The first grid from `n` digits on that holds a decimal for the magnitude. -/
def search (tie : Tie) (magnitude : Nat) (k : Int) : Nat → Nat → ShortDecimal
  | 0, n => (onGrid? tie magnitude n k).getD ⟨0, 0⟩
  | fuel + 1, n =>
    match onGrid? tie magnitude n k with
    | some d => d
    | none => search tie magnitude k fuel (n + 1)

/-- Drops the zeros at the end of the digits. -/
def dropZeros : Nat → ShortDecimal → ShortDecimal
  | 0, d => d
  | fuel + 1, d =>
    if d.digits ≠ 0 ∧ d.digits % 10 = 0 then dropZeros fuel ⟨d.digits / 10, d.exponent + 1⟩ else d

end Shortest

/-- The shortest decimal of a positive finite magnitude. -/
def shortest (tie : Tie) (magnitude : Nat) : ShortDecimal :=
  let (num, den) := Double.quotient magnitude
  Shortest.dropZeros 17 (Shortest.search tie magnitude (Shortest.integerDigits num den) 16 1)

end SheetFill
