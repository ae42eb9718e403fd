import SheetFill.Number.Shortest
import SheetFill.Text.Digits

/-!
# Layouts of numbers

Three texts show doubles: a data tree in JSON, a matrix in YAML, and the inspection of a template. All take the shortest
digits; they differ in where positional notation ends, in how an integer and an exponent are written, and in where a tie
goes. A `Layout` names these choices, and the three layouts are the three records at the end.
-/

namespace SheetFill

/-- The choices in writing the shortest digits of a double. -/
structure Layout where
  /-- The exponents of ten, least and greatest, that are written positionally; none means all. -/
  positional : Option (Int × Int)
  /-- Whether an integer is followed by a point and a zero. -/
  pointZero : Bool
  /-- Whether a positive exponent has a plus sign. -/
  plusSign : Bool
  /-- Where a value halfway between two decimals goes. -/
  tie : Tie

namespace Layout

open Text (ofNat ofInt)

/-- Digits with the point behind the first `point` of them, padded with zeros on either side. -/
def positionalText (pointZero : Bool) (digits : List Char) (point : Int) : List Char :=
  if point ≤ 0 then
    '0' :: '.' :: (List.replicate (-point).toNat '0' ++ digits)
  else
    let n := point.toNat
    let whole := digits.take n ++ List.replicate (n - digits.length) '0'
    match digits.drop n with
    | [] => if pointZero then whole ++ ['.', '0'] else whole
    | fraction => whole ++ '.' :: fraction

/-- The first digit, the others behind a point, and an exponent of ten. -/
def scientificText (plusSign : Bool) (digits : List Char) (exponent : Int) : List Char :=
  let mantissa := match digits with
    | [] => []
    | d :: [] => [d]
    | d :: more => d :: '.' :: more
  mantissa ++ 'e' :: ((if plusSign ∧ 0 ≤ exponent then ['+'] else []) ++ ofInt exponent)

/-- The text of a positive finite magnitude. -/
def magnitudeText (layout : Layout) (magnitude : Nat) : List Char :=
  let d := shortest layout.tie magnitude
  let digits := ofNat d.digits
  let point := d.exponent + (digits.length : Int)
  match layout.positional with
  | none => positionalText layout.pointZero digits point
  | some (least, greatest) =>
    if least ≤ point - 1 ∧ point - 1 ≤ greatest then
      positionalText layout.pointZero digits point
    else scientificText layout.plusSign digits (point - 1)

/-- The text of a double. -/
def text (layout : Layout) (d : Double) : String :=
  if d.isNaN then "NaN"
  else
    let sign := if d.isNegative then ['-'] else []
    let body :=
      if !d.isFinite then "inf".toList
      else if d.magnitude = 0 then (if layout.pointZero then "0.0" else "0").toList
      else layout.magnitudeText d.magnitude
    String.ofList (sign ++ body)

/-- In JSON an integer keeps a point and a zero, and exponents from -5 to 15 are positional. -/
def json : Layout := ⟨some (-5, 15), true, true, .even⟩

/-- In YAML the same exponents are positional, and a positive exponent has no sign. -/
def yaml : Layout := ⟨some (-5, 15), true, false, .even⟩

/-- An inspection shows every number positionally, and an integer without a point. -/
def inspection : Layout := ⟨none, false, false, .up⟩

end Layout

end SheetFill
