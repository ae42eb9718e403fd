import SheetFill.Json.Token
import SheetFill.Proofs.Lists
import SheetFill.Proofs.Text.Digits

/-!
# Integers are read back

The digits of a number of 64 bits are gathered completely, and a numeral of such digits, perhaps with
a minus sign in front, is the integer that they write. It ends at the next character that can stand
in no numeral. Read the other way, a numeral is an integer of 64 bits or a double. A number that was read
stays the same when such a character is put behind the text.
-/

namespace SheetFill

namespace Text

/-- More digits make no smaller number. -/
theorem le_digitsValue (value : Nat) (cs : List Char) : value ≤ digitsValue value cs := by
  induction cs generalizing value with
  | nil => exact Nat.le_refl value
  | cons c rest ih =>
    have hstep : value ≤ value * 10 + digitValue c := by omega
    exact Nat.le_trans hstep (ih _)

end Text

namespace Json

open Text (isDigit digitValue digitsValue maxNat64 minInt64)

/-- Digits of a number of 64 bits are gathered completely. -/
theorem gather_eq {significand : Nat} {cs : List Char} (h : digitsValue significand cs ≤ maxNat64) :
    gather significand cs = (digitsValue significand cs, []) := by
  induction cs generalizing significand with
  | nil => rfl
  | cons c rest ih =>
    have hstep : significand * 10 + digitValue c ≤ maxNat64 := Nat.le_trans (Text.le_digitsValue _ rest) h
    rw [gather, if_pos hstep, ih h]
    rfl

/-- What is gathered fits 64 bits. -/
theorem gather_le {significand : Nat} (h : significand ≤ maxNat64) (cs : List Char) :
    (gather significand cs).1 ≤ maxNat64 := by
  induction cs generalizing significand with
  | nil => exact h
  | cons c rest ih =>
    rw [gather]
    split
    · next hstep => exact ih hstep
    · exact h

/-- A numeral ends here: nothing that could go on with it follows. -/
def EndsNumeral : List Char → Prop
  | [] => True
  | c :: _ => isDigit c = false ∧ c ≠ '.' ∧ c ≠ 'e' ∧ c ≠ 'E'

theorem EndsNumeral.cons {c : Char} (h : isDigit c = false ∧ c ≠ '.' ∧ c ≠ 'e' ∧ c ≠ 'E') (cs : List Char) :
    EndsNumeral (c :: cs) := h

variable {cs rest more : List Char}

/-- No digit follows a numeral. -/
theorem EndsNumeral.not_isDigit (h : EndsNumeral rest) : ∀ c ∈ rest.head?, isDigit c = false := by
  intro c hc
  cases rest with
  | nil => cases hc
  | cons first cs =>
    cases hc
    exact h.1

/-- No fraction follows a numeral. -/
theorem EndsNumeral.readFraction_eq (h : EndsNumeral rest) : readFraction rest = some (none, rest) := by
  cases rest with
  | nil => rfl
  | cons c cs => exact readFraction.eq_2 _ fun _ hpoint => h.2.1 (List.cons.inj hpoint).1

/-- No exponent follows a numeral. -/
theorem EndsNumeral.readExponent_eq (h : EndsNumeral rest) : readExponent rest = some (none, rest) := by
  cases rest with
  | nil => rfl
  | cons c cs =>
    exact readExponent.eq_3 _ (fun _ hlower => h.2.2.1 (List.cons.inj hlower).1)
      fun _ hupper => h.2.2.2 (List.cons.inj hupper).1

/-- Digits are read up to their end. -/
theorem readDigits_ofNat (n : Nat) (hrest : EndsNumeral rest) :
    readDigits (Text.ofNat n ++ rest) = some (Text.ofNat n, rest) := by
  have hall : ∀ c ∈ Text.ofNat n, isDigit c = true := List.all_eq_true.mp (Text.all_isDigit_ofNat n)
  have hstop := hrest.not_isDigit
  rw [readDigits, takeWhile_run hall hstop, dropWhile_run hall hstop, if_neg (Text.ofNat_ne_nil n)]

/-- The digits of a number start with a zero only if it is the one digit. -/
theorem readWhole_ofNat (n : Nat) (hrest : EndsNumeral rest) :
    readWhole (Text.ofNat n ++ rest) = some (Text.ofNat n, rest) := by
  rw [readWhole, readDigits_ofNat n hrest]
  by_cases hzero : n = 0
  · subst hzero
    simp [Text.ofNat]
  · have hhead := Text.head?_ofNat_ne_zero hzero
    simp [hhead]

/-- Digits with nothing behind them that belongs to a numeral are an integer. -/
theorem readUnsigned_ofNat (negative : Bool) (n : Nat) (hrest : EndsNumeral rest) :
    readUnsigned negative (Text.ofNat n ++ rest) = some (⟨negative, Text.ofNat n, none, none⟩, rest) := by
  simp only [readUnsigned, readWhole_ofNat n hrest, hrest.readFraction_eq, hrest.readExponent_eq,
    Option.bind_eq_bind, Option.bind_some]

/-- The value of the digits of a number of 64 bits. -/
theorem value?_ofNat (negative : Bool) {n : Nat} (h : n ≤ maxNat64) :
    Numeral.value? ⟨negative, Text.ofNat n, none, none⟩ = some (integral negative n) := by
  have hvalue := Text.digitsValue_ofNat n
  have hgather : gather 0 (Text.ofNat n) = (n, []) := by
    rw [gather_eq (by rwa [hvalue]), hvalue]
  simp [Numeral.value?, hgather]

/-- A number is read back from its digits. -/
theorem readNumber_ofNat {n : Nat} (h : n ≤ maxNat64) (hrest : EndsNumeral rest) :
    readNumber (Text.ofNat n ++ rest) = some (.natural n, rest) := by
  obtain ⟨c, cs, hcons, hdigit⟩ := Text.exists_ofNat_eq_cons n
  have hread : Numeral.read (Text.ofNat n ++ rest) = readUnsigned false (Text.ofNat n ++ rest) := by
    have hminus := Text.ne_of_isDigit hdigit (by decide : isDigit '-' = false)
    exact Numeral.read.eq_2 _ (by simpa [hcons] using fun h => absurd h hminus)
  simp only [readNumber, hread, readUnsigned_ofNat false n hrest, value?_ofNat false h, Option.bind_eq_bind,
    Option.bind_some]
  rfl

/-- A negative integer is read back from its digits behind a minus sign. -/
theorem readNumber_ofInt {i : Int} (hneg : i < 0) (hmin : minInt64 ≤ i) (hrest : EndsNumeral rest) :
    readNumber (Text.ofInt i ++ rest) = some (.integer i, rest) := by
  have hbound : i.natAbs ≤ maxNat64 := by
    simp only [minInt64, maxNat64] at *
    omega
  have hfits : i.natAbs ≠ 0 ∧ i.natAbs ≤ pow2 63 := by
    have hpow : pow2 63 = 9223372036854775808 := by decide
    simp only [minInt64] at hmin
    omega
  have hvalue : -(i.natAbs : Int) = i := by omega
  rw [Text.ofInt, if_pos hneg, List.cons_append, readNumber, Numeral.read]
  simp only [readUnsigned_ofNat true _ hrest, value?_ofNat true hbound, Option.bind_eq_bind, Option.bind_some,
    integral, Bool.not_true, if_pos hfits, hvalue]
  rfl

/-- Digits are read as before when something is put behind the text that does not go on with a numeral. -/
theorem readDigits_append {digits : List Char} (hmore : EndsNumeral more)
    (h : readDigits cs = some (digits, rest)) : readDigits (cs ++ more) = some (digits, rest ++ more) := by
  unfold readDigits at h
  split at h
  · cases h
  · next hdigits =>
    cases h
    have hall : ∀ c ∈ cs.takeWhile isDigit, isDigit c = true := fun _ => List.mem_takeWhile_imp
    have hstop : ∀ c ∈ (cs.dropWhile isDigit ++ more).head?, isDigit c = false := by
      have hnot := List.head?_dropWhile_not isDigit cs
      cases hdrop : cs.dropWhile isDigit with
      | nil => exact hmore.not_isDigit
      | cons first behind =>
        intro c hc
        cases hc
        rwa [hdrop] at hnot
    have htext : cs ++ more = cs.takeWhile isDigit ++ (cs.dropWhile isDigit ++ more) := by
      rw [← List.append_assoc, List.takeWhile_append_dropWhile]
    rw [readDigits, htext, takeWhile_run hall hstop, dropWhile_run hall hstop, if_neg hdigits]

/-- The digits before the point are read as before. -/
theorem readWhole_append {digits : List Char} (hmore : EndsNumeral more)
    (h : readWhole cs = some (digits, rest)) : readWhole (cs ++ more) = some (digits, rest ++ more) := by
  obtain ⟨hdigits, hzero⟩ := Option.filter_eq_some_iff.mp h
  rw [readWhole, readDigits_append hmore hdigits]
  exact Option.filter_eq_some_iff.mpr ⟨rfl, hzero⟩

/-- A text that is not empty starts with the same character when more is put behind it. -/
theorem append_ne_cons {c : Char} (hne : cs ≠ []) (h : ∀ behind, cs ≠ c :: behind) (behind : List Char) :
    cs ++ more ≠ c :: behind := by
  obtain ⟨first, tail, rfl⟩ := List.exists_cons_of_ne_nil hne
  rw [List.cons_append, ne_eq, List.cons.injEq]
  rintro ⟨rfl, -⟩
  exact h tail rfl

/-- A fraction is read as before. -/
theorem readFraction_append {fraction : Option (List Char)} (hmore : EndsNumeral more)
    (h : readFraction cs = some (fraction, rest)) : readFraction (cs ++ more) = some (fraction, rest ++ more) := by
  unfold readFraction at h
  split at h
  · obtain ⟨⟨digits, tail⟩, hdigits, heq⟩ := Option.map_eq_some_iff.mp h
    cases heq
    rw [List.cons_append, readFraction, readDigits_append hmore hdigits]
    rfl
  · next hpoint =>
    cases h
    rcases eq_or_ne cs [] with rfl | hne
    · exact hmore.readFraction_eq
    · exact readFraction.eq_2 _ (append_ne_cons hne hpoint)

/-- The digits of an exponent are read as before. -/
theorem readSigned_append {e : Int} (hmore : EndsNumeral more)
    (h : readSigned cs = some (e, rest)) : readSigned (cs ++ more) = some (e, rest ++ more) := by
  unfold readSigned at h
  split at h
  case h_1 | h_2 =>
    obtain ⟨⟨digits, tail⟩, hdigits, heq⟩ := Option.map_eq_some_iff.mp h
    cases heq
    rw [List.cons_append, readSigned, readDigits_append hmore hdigits]
    rfl
  case h_3 hminus hplus =>
    obtain ⟨⟨digits, tail⟩, hdigits, heq⟩ := Option.map_eq_some_iff.mp h
    cases heq
    have hne : cs ≠ [] := by
      rintro rfl
      cases hdigits
    rw [readSigned.eq_3 _ (append_ne_cons hne hminus) (append_ne_cons hne hplus), readDigits_append hmore hdigits]
    rfl

/-- An exponent is read as before. -/
theorem readExponent_append {e : Option Int} (hmore : EndsNumeral more)
    (h : readExponent cs = some (e, rest)) : readExponent (cs ++ more) = some (e, rest ++ more) := by
  unfold readExponent at h
  split at h
  case h_1 | h_2 =>
    obtain ⟨⟨value, tail⟩, hsigned, heq⟩ := Option.map_eq_some_iff.mp h
    cases heq
    rw [List.cons_append, readExponent, readSigned_append hmore hsigned]
    rfl
  case h_3 hlower hupper =>
    cases h
    rcases eq_or_ne cs [] with rfl | hne
    · exact hmore.readExponent_eq
    · exact readExponent.eq_3 _ (append_ne_cons hne hlower) (append_ne_cons hne hupper)

/-- A numeral without its sign is read as before. -/
theorem readUnsigned_append {negative : Bool} {n : Numeral} (hmore : EndsNumeral more)
    (h : readUnsigned negative cs = some (n, rest)) :
    readUnsigned negative (cs ++ more) = some (n, rest ++ more) := by
  obtain ⟨⟨whole, behind⟩, hwhole, h⟩ := Option.bind_eq_some_iff.mp h
  obtain ⟨⟨fraction, tail⟩, hfraction, h⟩ := Option.bind_eq_some_iff.mp h
  obtain ⟨⟨exponent, last⟩, hexponent, h⟩ := Option.bind_eq_some_iff.mp h
  cases h
  simp only [readUnsigned, readWhole_append hmore hwhole, readFraction_append hmore hfraction,
    readExponent_append hmore hexponent, Option.bind_eq_bind, Option.bind_some]

/-- A numeral is read as before. -/
theorem Numeral.read_append {n : Numeral} (hmore : EndsNumeral more)
    (h : Numeral.read cs = some (n, rest)) : Numeral.read (cs ++ more) = some (n, rest ++ more) := by
  unfold Numeral.read at h
  split at h
  · exact readUnsigned_append hmore h
  · next hminus =>
    have hne : cs ≠ [] := by
      rintro rfl
      cases h
    rw [Numeral.read.eq_2 _ (append_ne_cons hne hminus), readUnsigned_append hmore h]

/-- A number is read as before when something is put behind the text that does not go on with a numeral. -/
theorem readNumber_append {c : Content} (hmore : EndsNumeral more)
    (h : readNumber cs = some (c, rest)) : readNumber (cs ++ more) = some (c, rest ++ more) := by
  obtain ⟨⟨numeral, behind⟩, hnumeral, h⟩ := Option.bind_eq_some_iff.mp h
  obtain ⟨value, hvalue, h⟩ := Option.bind_eq_some_iff.mp h
  cases h
  simp only [readNumber, Numeral.read_append hmore hnumeral, hvalue, Option.bind_eq_bind, Option.bind_some]

/-- A numeral starts with a digit or a minus sign. -/
theorem of_readNumber {c : Content} (h : readNumber cs = some (c, rest)) :
    ∃ first behind, cs = first :: behind ∧ (isDigit first = true ∨ first = '-') := by
  obtain ⟨⟨numeral, tail⟩, hnumeral, -⟩ := Option.bind_eq_some_iff.mp h
  unfold Numeral.read at hnumeral
  split at hnumeral
  · next behind => exact ⟨'-', behind, rfl, .inr rfl⟩
  · obtain ⟨⟨whole, tail⟩, hwhole, -⟩ := Option.bind_eq_some_iff.mp hnumeral
    obtain ⟨hdigits, -⟩ := Option.filter_eq_some_iff.mp hwhole
    cases cs with
    | nil => cases hdigits
    | cons first behind =>
      refine ⟨first, behind, rfl, .inl (Bool.of_not_eq_false fun hfirst => ?_)⟩
      rw [readDigits, List.takeWhile_cons_of_neg (Bool.eq_false_iff.mp hfirst), if_pos rfl] at hdigits
      cases hdigits

end Json

end SheetFill
