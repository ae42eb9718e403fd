import SheetFill.Json.Token
import SheetFill.Tree.Printer

/-!
# Quoted texts are read back

A character is written in quotes as itself, as a backslash and a letter, or, for the other control
characters, as a backslash and four digits of base sixteen. None of the three forms ends the quoted
text early, and each of them is read back as the character. So every text is read back from its
quoted form, whatever follows the closing quote. What follows never matters to a quoted text that was read.
-/

namespace SheetFill.Json

/-- How a character is written in quotes. -/
inductive Escape (c : Char) : Prop where
  /-- As itself. -/
  | plain (hchars : escape c = [c]) (hquote : c ≠ '"') (hbackslash : c ≠ '\\') (hcontrol : ¬ c.toNat < 32)
  /-- By a letter behind a backslash. -/
  | letter (x : Char) (hchars : escape c = ['\\', x]) (hread : unescaped? x = some c)
  /-- By its number. -/
  | number (hchars : escape c = ['\\', 'u', '0', '0', hexDigit (c.toNat / 16), hexDigit (c.toNat % 16)])
      (hcontrol : c.toNat < 32)

/-- Every character is written in one of the three forms. -/
theorem escape_form (c : Char) : Escape c := by
  by_cases hletter : c ∈ ['"', '\\', '\x08', '\t', '\n', '\x0c', '\r']
  · simp only [List.mem_cons, List.not_mem_nil, or_false] at hletter
    rcases hletter with rfl | rfl | rfl | rfl | rfl | rfl | rfl <;> exact .letter _ rfl rfl
  · simp only [List.mem_cons, List.not_mem_nil, or_false, not_or] at hletter
    obtain ⟨hquote, hbackslash, hback, htab, hline, hfeed, hreturn⟩ := hletter
    by_cases hcontrol : c.toNat < 32
    · exact .number (by simp only [escape, if_neg, hquote, hbackslash, hback, htab, hline, hfeed, hreturn,
        not_false_eq_true, if_pos hcontrol]) hcontrol
    · exact .plain (by simp only [escape, if_neg, hquote, hbackslash, hback, htab, hline, hfeed, hreturn,
        not_false_eq_true, hcontrol]) hquote hbackslash hcontrol

/-- A digit of base sixteen is read back. -/
theorem hexValue?_hexDigit {n : Nat} (h : n < 16) : hexValue? (hexDigit n) = some n := by
  revert n
  decide

/-- The number of a control character is read back. -/
theorem hex4?_hexDigit {n : Nat} (h : n < 32) :
    hex4? '0' '0' (hexDigit (n / 16)) (hexDigit (n % 16)) = some n := by
  have hzero : hexValue? '0' = some 0 := by decide
  have hhigh := hexValue?_hexDigit (by omega : n / 16 < 16)
  have hlow := hexValue?_hexDigit (Nat.mod_lt n (by decide : 0 < 16))
  simp only [hex4?, hzero, hhigh, hlow, Option.bind_eq_bind, Option.bind_some, Option.some.injEq]
  omega

/-- A digit of base sixteen ends no quoted text and starts no escape. -/
theorem hexDigit_ne {n : Nat} (h : n < 16) : hexDigit n ≠ '"' ∧ hexDigit n ≠ '\\' := by
  revert n
  decide

/-- A character that neither ends the quoted text nor starts an escape stands for itself. -/
theorem cutQuoted_cons {c : Char} (hquote : c ≠ '"') (hbackslash : c ≠ '\\') (cs : List Char) :
    cutQuoted (c :: cs) = (cutQuoted cs).map fun p => (c :: p.1, p.2) :=
  cutQuoted.eq_4 c cs (by simpa using hquote) fun _ _ h => absurd h hbackslash

/-- A character in quotes does not end the quoted text. -/
theorem cutQuoted_escape (c : Char) (cs : List Char) :
    cutQuoted (escape c ++ cs) = (cutQuoted cs).map fun p => (escape c ++ p.1, p.2) := by
  cases escape_form c with
  | plain hchars hquote hbackslash =>
    rw [hchars]
    exact cutQuoted_cons hquote hbackslash cs
  | letter x hchars =>
    rw [hchars]
    rfl
  | number hchars hcontrol =>
    obtain ⟨hhigh, hhigh'⟩ := hexDigit_ne (by omega : c.toNat / 16 < 16)
    obtain ⟨hlow, hlow'⟩ := hexDigit_ne (Nat.mod_lt c.toNat (by decide : 0 < 16))
    rw [hchars]
    simp only [List.cons_append, List.nil_append]
    rw [cutQuoted, cutQuoted_cons (by decide) (by decide), cutQuoted_cons (by decide) (by decide),
      cutQuoted_cons hhigh hhigh', cutQuoted_cons hlow hlow']
    simp only [Option.map_map]
    rfl

/-- Characters in quotes are followed by the closing quote. -/
theorem cutQuoted_flatMap_escape (cs rest : List Char) :
    cutQuoted (cs.flatMap escape ++ '"' :: rest) = some (cs.flatMap escape, rest) := by
  induction cs with
  | nil => rfl
  | cons c cs ih =>
    rw [List.flatMap_cons, List.append_assoc, cutQuoted_escape, ih]
    rfl

/-- A character is read back from quotes. -/
theorem unescape_escape (c : Char) (cs : List Char) :
    unescape (escape c ++ cs) = (unescape cs).map (c :: ·) := by
  cases escape_form c with
  | plain hchars hquote hbackslash hcontrol =>
    rw [hchars, List.singleton_append, unescape.eq_4 c cs (fun _ _ _ _ _ h => absurd h hbackslash)
      (fun _ _ h => absurd h hbackslash), if_neg hcontrol]
  | letter x hchars hread =>
    have hu : x ≠ 'u' := by
      rintro rfl
      cases hread
    rw [hchars, List.cons_append, List.singleton_append,
      unescape.eq_3 x cs fun _ _ _ _ _ h => absurd h hu, hread]
  | number hchars hcontrol =>
    rw [hchars]
    simp only [List.cons_append, List.nil_append]
    rw [unescape.eq_2, hex4?_hexDigit hcontrol]
    dsimp only
    rw [if_neg (by omega), if_neg (by omega), Char.ofNat_toNat]

/-- Characters are read back from quotes. -/
theorem unescape_flatMap_escape (cs : List Char) : unescape (cs.flatMap escape) = some cs := by
  induction cs with
  | nil => rfl
  | cons c cs ih => rw [List.flatMap_cons, unescape_escape, ih, Option.map_some]

/-- A text is read back behind its opening quote. -/
theorem readText_flatMap_escape (s : String) (rest : List Char) :
    readText (s.toList.flatMap escape ++ '"' :: rest) = some (.text s, rest) := by
  rw [readText, cutQuoted_flatMap_escape]
  simp only [Option.bind_eq_bind, Option.bind_some, unescape_flatMap_escape, String.ofList_toList]

/-- A closing quote is found as before when more is put behind the text. -/
theorem cutQuoted_append {cs rest body : List Char} (h : cutQuoted cs = some (body, rest)) (more : List Char) :
    cutQuoted (cs ++ more) = some (body, rest ++ more) := by
  fun_induction cutQuoted cs generalizing body rest with
  | case1 => cases h
  | case2 cs =>
    cases h
    rfl
  | case3 c cs ih =>
    obtain ⟨⟨inner, behind⟩, hinner, heq⟩ := Option.map_eq_some_iff.mp h
    cases heq
    rw [List.cons_append, List.cons_append, cutQuoted, ih hinner]
    rfl
  | case4 c cs hquote hescape ih =>
    obtain ⟨⟨inner, behind⟩, hinner, heq⟩ := Option.map_eq_some_iff.mp h
    cases heq
    have hne : cs ≠ [] := by
      rintro rfl
      cases hinner
    have hbackslash : c ≠ '\\' := by
      rintro rfl
      obtain ⟨first, tail, rfl⟩ := List.exists_cons_of_ne_nil hne
      exact hescape _ _ rfl rfl
    rw [List.cons_append, cutQuoted_cons hquote hbackslash, ih hinner]
    rfl

/-- A quoted text is read as before when more is put behind the text. -/
theorem readText_append {c : Content} {cs rest : List Char} (h : readText cs = some (c, rest)) (more : List Char) :
    readText (cs ++ more) = some (c, rest ++ more) := by
  obtain ⟨⟨body, behind⟩, hbody, h⟩ := Option.bind_eq_some_iff.mp h
  obtain ⟨text, htext, h⟩ := Option.bind_eq_some_iff.mp h
  cases h
  simp only [readText, cutQuoted_append hbody, htext, Option.bind_eq_bind, Option.bind_some]

end SheetFill.Json
