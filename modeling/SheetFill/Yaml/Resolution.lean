import SheetFill.Number.Decimal
import SheetFill.Text.Digits

/-!
# What plain scalars stand for

A plain scalar is null, a truth value, an integer, a double, or else a text, decided by its spelling. Integers may have a
plus sign and may be written in base sixteen, eight and two; digits behind a leading zero are a text. An integer that is
too large for 64 bits is refused, and one that is too large for 128 bits is a double.
-/

namespace SheetFill.Yaml

open Text (isDigit)

/-- What a plain scalar stands for. -/
inductive Resolved where
  | null
  | boolean (value : Bool)
  | natural (value : Nat)
  /-- An integer with a minus sign. -/
  | integer (value : Int)
  /-- A double, perhaps infinite or no number. -/
  | double (value : Double)
  | text
  /-- An integer that is too large. -/
  | refused
deriving DecidableEq

/-- The spellings of null. -/
def isNull (cs : List Char) : Bool :=
  ["null".toList, "Null".toList, "NULL".toList, ['~']].contains cs

/-- The truth value that a scalar spells. -/
def boolean? (cs : List Char) : Option Bool :=
  if ["true".toList, "True".toList, "TRUE".toList].contains cs then some true
  else if ["false".toList, "False".toList, "FALSE".toList].contains cs then some false
  else none

/-- The value of a digit in some base up to sixteen. -/
def baseDigit? (base : Nat) (c : Char) : Option Nat :=
  let value :=
    if isDigit c then some (c.toNat - 48)
    else if 'a' ≤ c ∧ c ≤ 'f' then some (c.toNat - 87)
    else if 'A' ≤ c ∧ c ≤ 'F' then some (c.toNat - 55)
    else none
  value.filter (· < base)

/-- The number that digits of a base write. -/
def ofBase? (base : Nat) (cs : List Char) : Option Nat :=
  if cs = [] then none
  else (cs.mapM (baseDigit? base)).map fun ds => ds.foldl (fun n d => n * base + d) 0

/-- A scalar without its sign. -/
def unsigned (cs : List Char) : List Char :=
  match cs with
  | '-' :: rest | '+' :: rest => rest
  | _ => cs

/-- Digits behind a leading zero, perhaps with a sign, are no number. -/
def isZeroPadded (cs : List Char) : Bool :=
  match unsigned cs with
  | '0' :: c :: rest => (c :: rest).all isDigit
  | _ => false

/-- The number that a scalar without sign writes. -/
def magnitude? (cs : List Char) : Option Nat :=
  match cs with
  | '0' :: 'x' :: rest => ofBase? 16 rest
  | '0' :: 'o' :: rest => ofBase? 8 rest
  | '0' :: 'b' :: rest => ofBase? 2 rest
  | _ => if isZeroPadded cs then none else ofBase? 10 cs

/-- The integer that a scalar spells, the magnitude of a negative one on the right. -/
def integer? : List Char → Option (Nat ⊕ Nat)
  | '-' :: rest => (magnitude? rest).map .inr
  | '+' :: rest => (magnitude? rest).map .inl
  | cs => (magnitude? cs).map .inl

/-- The largest integer without sign that is refused, and not read as a double. -/
def maxRefused : Nat := pow2 128 - 1

/-- The largest magnitude with a minus sign that is refused, and not read as a double. -/
def maxRefusedNegative : Nat := pow2 127

/-- What the spelling of an integer stands for. -/
def resolveInteger? (cs : List Char) : Option Resolved :=
  match integer? cs with
  | some (.inl n) =>
    if n ≤ Text.maxNat64 then some (.natural n)
    else if n ≤ maxRefused then some .refused
    else none
  | some (.inr n) =>
    if n ≤ pow2 63 then some (.integer (-(n : Int)))
    else if n ≤ maxRefusedNegative then some .refused
    else none
  | none => none

/-- The double that a scalar spells. -/
def double? (cs : List Char) : Option Double :=
  let positive := match cs with
    | '+' :: rest => rest
    | _ => cs
  if ('+' :: positive = cs ∧ (positive.head? = some '+' ∨ positive.head? = some '-')) then none
  else if [".inf".toList, ".Inf".toList, ".INF".toList].contains positive then
    some (Double.ofMagnitude false Double.infinityBits)
  else if ["-.inf".toList, "-.Inf".toList, "-.INF".toList].contains cs then
    some (Double.ofMagnitude true Double.infinityBits)
  else if [".nan".toList, ".NaN".toList, ".NAN".toList].contains cs then
    some (Double.ofMagnitude false (Double.infinityBits + pow2 51))
  else Decimal.finite? positive

/-- What a plain scalar stands for. -/
def resolve (cs : List Char) : Resolved :=
  if cs = [] ∨ isNull cs then .null
  else
    match boolean? cs with
    | some b => .boolean b
    | none =>
      match resolveInteger? cs with
      | some r => r
      | none =>
        if isZeroPadded cs then .text
        else
          match double? cs with
          | some d => .double d
          | none => .text

end SheetFill.Yaml
