import Mathlib.Algebra.Group.Nat.Defs

/-!
# Arithmetic in words

Rows and columns are numbers of 32 bits, lengths and counts are numbers of 64 bits. An operation has a result here only if
the true result is one of those numbers: no sum, product or narrowed number is too large, no difference is below zero,
and nothing is divided by zero.
-/

namespace SheetFill.Word

/-- A number, if it fits into so many bits. -/
def fit? (bits n : Nat) : Option Nat :=
  if n < 2 ^ bits then some n else none

/-- A sum, if it fits. -/
def add? (bits a b : Nat) : Option Nat :=
  fit? bits (a + b)

/-- A product, if it fits. -/
def mul? (bits a b : Nat) : Option Nat :=
  fit? bits (a * b)

/-- A difference, if it is not below zero. -/
def sub? (a b : Nat) : Option Nat :=
  if b ≤ a then some (a - b) else none

/-- A quotient, if there is one. -/
def div? (a b : Nat) : Option Nat :=
  if b = 0 then none else some (a / b)

/-- A remainder, if there is one. -/
def mod? (a b : Nat) : Option Nat :=
  if b = 0 then none else some (a % b)

variable {bits a b n : Nat}

theorem fit?_of_lt (h : n < 2 ^ bits) : fit? bits n = some n :=
  if_pos h

theorem add?_of_lt (h : a + b < 2 ^ bits) : add? bits a b = some (a + b) :=
  fit?_of_lt h

theorem mul?_of_lt (h : a * b < 2 ^ bits) : mul? bits a b = some (a * b) :=
  fit?_of_lt h

theorem sub?_of_le (h : b ≤ a) : sub? a b = some (a - b) :=
  if_pos h

theorem div?_of_pos (h : 0 < b) : div? a b = some (a / b) :=
  if_neg (Nat.ne_of_gt h)

theorem mod?_of_pos (h : 0 < b) : mod? a b = some (a % b) :=
  if_neg (Nat.ne_of_gt h)

end SheetFill.Word
