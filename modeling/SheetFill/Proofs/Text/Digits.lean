import Mathlib.Data.List.Basic
import Mathlib.Data.List.Induction
import Mathlib.Data.Nat.Digits.Defs
import SheetFill.Text.Blank
import SheetFill.Text.Digits

/-!
# Numbers are read back from their digits

The decimal digits of a number are at least one, all of them are digits, and their value is the
number. None of them is a leading zero, unless the number is zero itself. Any other digits with the
same value differ by leading zeros.
-/

namespace SheetFill.Text

/-- The ten characters from the zero on are the digits, with their values. -/
theorem isDigit_digit {d : Nat} (h : d < 10) :
    isDigit (Char.ofNat (48 + d)) = true ∧ digitValue (Char.ofNat (48 + d)) = d := by
  revert d
  decide

/-- The value of digits and one digit more. -/
theorem digitsValue_singleton (value : Nat) (c : Char) :
    digitsValue value [c] = value * 10 + digitValue c := rfl

/-- The value of digits is read from left to right. -/
theorem digitsValue_append (value : Nat) (first second : List Char) :
    digitsValue value (first ++ second) = digitsValue (digitsValue value first) second := by
  induction first generalizing value with
  | nil => rfl
  | cons c rest ih => exact ih _

/-- A number is written in digits. -/
theorem all_isDigit_ofNat (n : Nat) : (ofNat n).all isDigit = true := by
  fun_induction ofNat n with
  | case1 n hsmall => simp [(isDigit_digit hsmall).1]
  | case2 n hlarge ih =>
    have hlast := (isDigit_digit (Nat.mod_lt n (by decide : 0 < 10))).1
    simp [ih, hlast]

/-- A number has at least one digit. -/
theorem ofNat_ne_nil (n : Nat) : ofNat n ≠ [] := by
  rw [ofNat]
  split <;> simp

/-- The value of the digits of a number is the number. -/
theorem digitsValue_ofNat (n : Nat) : digitsValue 0 (ofNat n) = n := by
  fun_induction ofNat n with
  | case1 n hsmall =>
    rw [digitsValue_singleton, (isDigit_digit hsmall).2, Nat.zero_mul, Nat.zero_add]
  | case2 n hlarge ih =>
    have hlast := (isDigit_digit (Nat.mod_lt n (by decide : 0 < 10))).2
    rw [digitsValue_append, ih, digitsValue_singleton, hlast]
    omega

/-- Only zero starts with a zero. -/
theorem head?_ofNat_ne_zero {n : Nat} (h : n ≠ 0) : (ofNat n).head? ≠ some '0' := by
  fun_induction ofNat n with
  | case1 n hsmall =>
    intro hzero
    have hvalue := (isDigit_digit hsmall).2
    rw [Option.some.inj hzero] at hvalue
    exact h hvalue.symm
  | case2 n hlarge ih =>
    rw [List.head?_append_of_ne_nil _ (ofNat_ne_nil _)]
    exact ih (by omega)

/-- The value of digits is the number that they write to the base ten. -/
theorem digitsValue_eq_ofDigits (cs : List Char) :
    digitsValue 0 cs = Nat.ofDigits 10 (cs.reverse.map digitValue) := by
  induction cs using List.reverseRecOn with
  | nil => rfl
  | append_singleton cs c ih =>
    rw [digitsValue_append, digitsValue_singleton, ih, List.reverse_append, List.reverse_singleton,
      List.singleton_append, List.map_cons, Nat.ofDigits_cons]
    omega

/-- A digit is the character with its value. -/
theorem exists_of_isDigit {c : Char} (h : isDigit c = true) : ∃ d < 10, c = Char.ofNat (48 + d) ∧ digitValue c = d := by
  simp only [isDigit, Bool.and_eq_true, decide_eq_true_eq, Char.le_def, UInt32.le_iff_toNat_le] at h
  obtain ⟨hlow, hhigh⟩ : 48 ≤ c.toNat ∧ c.toNat ≤ 57 := h
  refine ⟨c.toNat - 48, by omega, ?_, rfl⟩
  rw [Nat.add_sub_cancel' hlow, Char.ofNat_toNat]

/-- Digits with the value zero are zeros. -/
theorem dropWhile_zero_eq_nil {cs : List Char} (hcs : ∀ c ∈ cs, isDigit c = true) (h : digitsValue 0 cs = 0) :
    cs.dropWhile (· = '0') = [] := by
  induction cs using List.reverseRecOn with
  | nil => rfl
  | append_singleton cs c ih =>
    obtain ⟨hfront, hlast⟩ := List.forall_mem_append.mp hcs
    obtain ⟨d, -, rfl, hvalue⟩ := exists_of_isDigit (hlast c List.mem_cons_self)
    rw [digitsValue_append, digitsValue_singleton, hvalue] at h
    obtain rfl : d = 0 := by omega
    rw [List.dropWhile_append, ih hfront (by omega)]
    rfl

/-- Digits whose value is not zero are the digits of that number, behind leading zeros. -/
theorem ofNat_digitsValue {cs : List Char} (hcs : ∀ c ∈ cs, isDigit c = true) (h : digitsValue 0 cs ≠ 0) :
    ofNat (digitsValue 0 cs) = cs.dropWhile (· = '0') := by
  induction cs using List.reverseRecOn with
  | nil => exact absurd rfl h
  | append_singleton cs c ih =>
    obtain ⟨hfront, hlast⟩ := List.forall_mem_append.mp hcs
    obtain ⟨d, hd, rfl, hvalue⟩ := exists_of_isDigit (hlast c List.mem_cons_self)
    rw [digitsValue_append, digitsValue_singleton, hvalue] at h ⊢
    rw [ofNat, List.dropWhile_append]
    by_cases hzero : digitsValue 0 cs = 0
    · rw [hzero, Nat.zero_mul, Nat.zero_add] at h ⊢
      have hne : Char.ofNat (48 + d) ≠ '0' := by
        intro heq
        rw [heq] at hvalue
        exact h hvalue.symm
      rw [if_pos hd, dropWhile_zero_eq_nil hfront hzero, List.isEmpty_nil, if_pos rfl,
        List.dropWhile_cons_of_neg (by simpa using hne)]
    · have hbehind : (cs.dropWhile (· = '0')).isEmpty = false := by
        rw [← ih hfront hzero, List.isEmpty_eq_false_iff]
        exact ofNat_ne_nil _
      rw [if_neg (by omega), hbehind, if_neg (by decide), ← ih hfront hzero,
        show (digitsValue 0 cs * 10 + d) / 10 = digitsValue 0 cs by omega,
        show (digitsValue 0 cs * 10 + d) % 10 = d by omega]

/-- A number is read back from its digits. -/
theorem nat?_ofNat (n : Nat) : nat? (ofNat n) = some n := by
  rw [nat?, if_pos ⟨ofNat_ne_nil n, all_isDigit_ofNat n⟩, digitsValue_ofNat]

/-- A number starts with a digit. -/
theorem exists_ofNat_eq_cons (n : Nat) : ∃ c cs, ofNat n = c :: cs ∧ isDigit c = true := by
  obtain ⟨c, cs, hcons⟩ := List.exists_cons_of_ne_nil (ofNat_ne_nil n)
  have hall := all_isDigit_ofNat n
  rw [hcons, List.all_cons, Bool.and_eq_true] at hall
  exact ⟨c, cs, hcons, hall.1⟩

/-- What is no digit is another character than a digit. -/
theorem ne_of_isDigit {c d : Char} (hc : isDigit c = true) (hd : isDigit d = false) : c ≠ d := by
  rintro rfl
  rw [hc] at hd
  cases hd

/-- A digit is not blank. -/
theorem isBlank_of_isDigit {c : Char} (h : isDigit c = true) : isBlank c = false := by
  simp only [isDigit, Bool.and_eq_true, decide_eq_true_eq, Char.le_def, UInt32.le_iff_toNat_le] at h
  obtain ⟨hlow, hhigh⟩ : 48 ≤ c.toNat ∧ c.toNat ≤ 57 := h
  simp only [isBlank, Bool.or_eq_false_iff, Bool.and_eq_false_iff, decide_eq_false_iff_not,
    beq_eq_false_iff_ne]
  omega

/-- A text that is read as a number is a run of digits with that value. -/
theorem nat?_eq_some_iff {cs : List Char} {n : Nat} :
    nat? cs = some n ↔ cs ≠ [] ∧ (∀ c ∈ cs, isDigit c = true) ∧ digitsValue 0 cs = n := by
  rw [nat?, Option.ite_none_right_eq_some, Option.some.injEq, List.all_eq_true, and_assoc]

/-- Digits within a bound are read as their number. -/
theorem natUpTo?_eq_some_iff {bound n : Nat} {cs : List Char} :
    natUpTo? bound cs = some n ↔ cs ≠ [] ∧ (∀ c ∈ cs, isDigit c = true) ∧ digitsValue 0 cs = n ∧ n ≤ bound := by
  rw [natUpTo?, Option.filter_eq_some_iff, nat?_eq_some_iff, decide_eq_true_eq]
  simp only [and_assoc]

/-- A text that starts with a digit is read as an integer without a sign. -/
theorem int?_of_isDigit {c : Char} (h : isDigit c = true) (cs : List Char) :
    int? (c :: cs) = (nat? (c :: cs)).map Int.ofNat := by
  have hminus := ne_of_isDigit h (by decide : isDigit '-' = false)
  have hplus := ne_of_isDigit h (by decide : isDigit '+' = false)
  rw [int?.eq_3 _ (by simpa using hminus) (by simpa using hplus)]

/-- Behind a minus sign the integer is negative. -/
theorem int?_minus (cs : List Char) : int? ('-' :: cs) = (nat? cs).map fun n : Nat => -(n : Int) := by
  rw [int?]
  cases nat? cs <;> rfl

/-- An integer of 64 bits is read as an integer. -/
theorem int64?_eq_some_iff {cs : List Char} {i : Int} :
    int64? cs = some i ↔ int? cs = some i ∧ minInt64 ≤ i ∧ i ≤ maxInt64 := by
  rw [int64?, Option.filter_eq_some_iff, decide_eq_true_eq]

/-- A number of 63 bits is read back as an integer of 64. -/
theorem int64?_ofNat {n : Nat} (h : (n : Int) ≤ maxInt64) : int64? (ofNat n) = some (n : Int) := by
  have hint : int? (ofNat n) = some (n : Int) := by
    obtain ⟨c, cs, hcons, hc⟩ := exists_ofNat_eq_cons n
    rw [hcons, int?_of_isDigit hc, ← hcons, nat?_ofNat]
    rfl
  have hleast : minInt64 ≤ (n : Int) := Int.le_trans (by decide) (Int.natCast_nonneg n)
  exact int64?_eq_some_iff.mpr ⟨hint, hleast, h⟩

end SheetFill.Text
