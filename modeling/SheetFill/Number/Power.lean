/-!
# Powers of two and of ten

The places of a double weigh powers of two, and those of a decimal weigh powers of ten.
-/

namespace SheetFill

/-- A power of two. -/
def pow2 (exponent : Nat) : Nat := Nat.pow 2 exponent

/-- A power of ten. -/
def pow10 (exponent : Nat) : Nat := Nat.pow 10 exponent

end SheetFill
