import SheetFill.Proofs.Lists
import SheetFill.Proofs.Template.Reference

/-!
# Placeholders are filled in one pass

A reference is taken apart from the left: literal text up to the leftmost placeholder, its name, and so on
behind it, until no placeholder is left. This can be done in one way only. Filling keeps the literal text,
puts the values of the variables in place of the placeholders, and looks at nothing that it has put there.

Main statement: a reference in whose placeholders a name without a variable occurs is refused with all such
names in order; otherwise it is the literal text with the values in between. No other variable matters.
-/

namespace SheetFill.Template

/-- A name of a placeholder has at least one character, and only characters of names. -/
def IsName (name : List Char) : Prop :=
  name ≠ [] ∧ ∀ c ∈ name, isNameChar c = true

/-- A placeholder as it stands in a reference. -/
def written (name : String) : List Char :=
  '\x7b' :: (name.toList ++ ['\x7d'])

/-- The text starts with a placeholder. -/
def Opens (cs : List Char) : Prop :=
  ∃ (name : String) (rest : List Char), IsName name.toList ∧ cs = written name ++ rest

/-- A reference that is taken apart. -/
structure Parts where
  /-- The placeholders' names, each with the literal text in front of it. -/
  placeholders : List (List Char × String)
  /-- The literal text behind the last placeholder. -/
  last : List Char
deriving DecidableEq

namespace Parts

/-- The names of the placeholders where they occur. -/
def names (parts : Parts) : List String :=
  parts.placeholders.map Prod.snd

/-- The names without a variable where they occur. -/
def missing (parts : Parts) (bindings : TextMap) : List String :=
  parts.names.filter fun name => bindings.get? name = none

/-- The literal text with a value in place of each placeholder. -/
def textWith (parts : Parts) (value : String → String) : List Char :=
  parts.placeholders.flatMap (fun p => p.1 ++ (value p.2).toList) ++ parts.last

/-- The parts with one more literal character in front. -/
def cons (c : Char) (parts : Parts) : Parts :=
  match parts.placeholders with
  | [] => ⟨[], c :: parts.last⟩
  | (before, name) :: rest => ⟨(c :: before, name) :: rest, parts.last⟩

/-- The parts that pieces make, with the literal characters gathered. -/
def ofPieces : List Piece → Parts
  | [] => ⟨[], []⟩
  | .literal c :: rest => (ofPieces rest).cons c
  | .placeholder name :: rest => ⟨([], name) :: (ofPieces rest).placeholders, (ofPieces rest).last⟩

end Parts

/-- The parts of a text: up to the leftmost placeholder, and then those of the text behind it. -/
inductive TakenApart : List Char → Parts → Prop where
  /-- A text in which no placeholder starts. -/
  | plain {cs : List Char} (hnone : ∀ front back, cs = front ++ back → ¬ Opens back) : TakenApart cs ⟨[], cs⟩
  /-- A placeholder with literal text in front, in which no placeholder starts. -/
  | placeholder {before rest : List Char} {name : String} {parts : Parts} (hname : IsName name.toList)
    (hleft : ∀ front back, before = front ++ back → back ≠ [] → ¬ Opens (back ++ (written name ++ rest)))
    (hrest : TakenApart rest parts) :
    TakenApart (before ++ (written name ++ rest)) ⟨(before, name) :: parts.placeholders, parts.last⟩

variable {c : Char} {cs before rest : List Char} {name : String} {parts : Parts}

/-- What stands behind an opening brace is a placeholder if a name and a closing brace follow. -/
theorem placeholder?_eq_some_iff :
    placeholder? cs = some (name, rest) ↔ IsName name.toList ∧ cs = name.toList ++ '\x7d' :: rest := by
  have hsplit := List.takeWhile_append_dropWhile (p := isNameChar) (l := cs)
  unfold placeholder?
  dsimp only
  constructor
  · intro h
    split at h
    · cases h
    · next first behind hbehind =>
      obtain ⟨⟨hne, rfl⟩, heq⟩ := Option.ite_none_right_eq_some.mp h
      cases heq
      rw [String.toList_ofList]
      refine ⟨⟨hne, fun x hx => List.mem_takeWhile_imp hx⟩, ?_⟩
      rw [← hbehind, hsplit]
  · rintro ⟨⟨hne, hall⟩, rfl⟩
    have hstop : ∀ x ∈ ('\x7d' :: rest).head?, isNameChar x = false := by
      intro x hx
      cases hx
      decide
    simp only [takeWhile_run hall hstop, dropWhile_run hall hstop, ne_eq, hne, not_false_eq_true, true_and,
      if_true, String.ofList_toList]

/-- A placeholder starts with an opening brace. -/
theorem opens_cons_iff : Opens (c :: cs) ↔ c = '\x7b' ∧ ∃ p, placeholder? cs = some p := by
  constructor
  · rintro ⟨name, rest, hname, hcs⟩
    rw [written, List.cons_append, List.append_assoc, List.singleton_append, List.cons.injEq] at hcs
    exact ⟨hcs.1, ⟨name, rest⟩, placeholder?_eq_some_iff.mpr ⟨hname, hcs.2⟩⟩
  · rintro ⟨rfl, ⟨name, rest⟩, hfound⟩
    obtain ⟨hname, rfl⟩ := placeholder?_eq_some_iff.mp hfound
    exact ⟨name, rest, hname, by simp [written]⟩

theorem not_opens_nil : ¬ Opens [] := by
  rintro ⟨name, rest, -, hcs⟩
  cases hcs

/-- Where no placeholder starts, the character is literal. -/
theorem pieces_cons_of_not_opens (h : ¬ Opens (c :: cs)) : pieces (c :: cs) = .literal c :: pieces cs := by
  rw [opens_cons_iff, not_and, not_exists] at h
  rw [pieces]
  split
  · next hbrace =>
    split
    · next hfound => exact absurd hfound (h hbrace _)
    · rfl
  · rfl

/-- A placeholder is one piece. -/
theorem pieces_written_append (hname : IsName name.toList) (rest : List Char) :
    pieces (written name ++ rest) = .placeholder name :: pieces rest := by
  have hfound : placeholder? (name.toList ++ '\x7d' :: rest) = some (name, rest) :=
    placeholder?_eq_some_iff.mpr ⟨hname, rfl⟩
  rw [written, List.cons_append, List.append_assoc, List.singleton_append, pieces, if_pos rfl]
  split
  · next hsome =>
    rw [hfound] at hsome
    cases hsome
    rfl
  · next hnone =>
    rw [hfound] at hnone
    cases hnone

/-- Text in which no placeholder starts is literal. -/
theorem pieces_append (hleft : ∀ front back, before = front ++ back → back ≠ [] → ¬ Opens (back ++ cs)) :
    pieces (before ++ cs) = before.map .literal ++ pieces cs := by
  induction before with
  | nil => rfl
  | cons c before ih =>
    have hfirst : ¬ Opens (c :: (before ++ cs)) := hleft [] (c :: before) rfl (List.cons_ne_nil _ _)
    rw [List.cons_append, pieces_cons_of_not_opens hfirst, ih, List.map_cons, List.cons_append]
    rintro front back rfl hback
    exact hleft (c :: front) back rfl hback

namespace Parts

/-- Literal characters are gathered in front of a placeholder. -/
theorem ofPieces_append_placeholder (before : List Char) (name : String) (ps : List Piece) :
    ofPieces (before.map .literal ++ .placeholder name :: ps) =
      ⟨(before, name) :: (ofPieces ps).placeholders, (ofPieces ps).last⟩ := by
  induction before with
  | nil => rfl
  | cons c before ih =>
    rw [List.map_cons, List.cons_append, ofPieces, ih]
    rfl

/-- Literal characters are gathered behind the last placeholder. -/
theorem ofPieces_map_literal (cs : List Char) : ofPieces (cs.map .literal) = ⟨[], cs⟩ := by
  induction cs with
  | nil => rfl
  | cons c cs ih =>
    rw [List.map_cons, ofPieces, ih]
    rfl

theorem names_cons (c : Char) (parts : Parts) : (parts.cons c).names = parts.names := by
  obtain ⟨placeholders, last⟩ := parts
  cases placeholders <;> rfl

theorem textWith_cons (c : Char) (parts : Parts) (value : String → String) :
    (parts.cons c).textWith value = c :: parts.textWith value := by
  obtain ⟨placeholders, last⟩ := parts
  cases placeholders <;> rfl

/-- The missing names of pieces are those of their parts. -/
theorem missing_ofPieces (ps : List Piece) (bindings : TextMap) :
    (ofPieces ps).missing bindings = ps.filterMap (Piece.missing? bindings) := by
  induction ps with
  | nil => rfl
  | cons p ps ih =>
    cases p with
    | literal c =>
      rw [ofPieces, missing, names_cons, ← missing, ih]
      rfl
    | placeholder name =>
      change (name :: (ofPieces ps).names).filter _ = _
      rw [List.filter_cons, List.filterMap_cons, ← ih]
      cases hfound : bindings.get? name <;> simp [Piece.missing?, hfound, missing]

/-- The text of pieces is that of their parts. -/
theorem textWith_ofPieces (ps : List Piece) (bindings : TextMap) :
    (ofPieces ps).textWith (fun name => (bindings.get? name).getD "") = ps.flatMap (Piece.filled bindings) := by
  induction ps with
  | nil => rfl
  | cons p ps ih =>
    cases p with
    | literal c =>
      rw [ofPieces, textWith_cons, ih]
      rfl
    | placeholder name =>
      rw [List.flatMap_cons, ← ih, ofPieces, textWith, List.flatMap_cons, List.append_assoc]
      rfl

/-- Only the values of the names matter. -/
theorem textWith_congr {value other : String → String} (h : ∀ name ∈ parts.names, value name = other name) :
    parts.textWith value = parts.textWith other := by
  have hplaceholders : parts.placeholders.flatMap (fun p => p.1 ++ (value p.2).toList) =
      parts.placeholders.flatMap fun p => p.1 ++ (other p.2).toList := by
    refine List.flatMap_congr fun p hp => ?_
    rw [h p.2 (List.mem_map_of_mem hp)]
  rw [textWith, hplaceholders, textWith]

end Parts

/-- One more literal character stands in front of the parts. -/
theorem TakenApart.cons (hfirst : ¬ Opens (c :: cs)) (h : TakenApart cs parts) :
    TakenApart (c :: cs) (parts.cons c) := by
  cases h with
  | plain hnone =>
    refine .plain fun front back hcs => ?_
    rcases List.cons_eq_append_iff.mp hcs with ⟨-, rfl⟩ | ⟨front, -, hcs⟩
    · exact hfirst
    · exact hnone front back hcs
  | @placeholder before rest name parts hname hleft hrest =>
    refine @TakenApart.placeholder (c :: before) rest name parts hname (fun front back hbefore hback => ?_) hrest
    rcases List.cons_eq_append_iff.mp hbefore with ⟨-, rfl⟩ | ⟨front, -, hbefore⟩
    · exact hfirst
    · exact hleft front back hbefore hback

/-- The pieces of a text are its parts. -/
theorem takenApart_pieces (cs : List Char) : TakenApart cs (Parts.ofPieces (pieces cs)) := by
  fun_induction pieces cs with
  | case1 =>
    refine .plain fun front back hcs => ?_
    rw [(List.append_eq_nil_iff.mp hcs.symm).2]
    exact not_opens_nil
  | case2 cs name rest hfound ih =>
    obtain ⟨hname, rfl⟩ := placeholder?_eq_some_iff.mp hfound
    have hparts := @TakenApart.placeholder [] _ _ _ hname
      (fun front back hnil hback => absurd (List.append_eq_nil_iff.mp hnil.symm).2 hback) ih
    rwa [List.nil_append, written, List.cons_append, List.append_assoc, List.singleton_append] at hparts
  | case3 cs hnone ih =>
    refine ih.cons fun hopens => ?_
    obtain ⟨-, p, hp⟩ := opens_cons_iff.mp hopens
    rw [hp] at hnone
    cases hnone
  | case4 c cs hbrace ih => exact ih.cons fun hopens => hbrace (opens_cons_iff.mp hopens).1

/-- A text is taken apart in one way only. -/
theorem TakenApart.eq (h : TakenApart cs parts) : parts = Parts.ofPieces (pieces cs) := by
  induction h with
  | @plain cs hnone =>
    have hliteral : pieces (cs ++ []) = cs.map .literal ++ pieces [] := by
      refine pieces_append fun front back hcs _ => ?_
      rw [List.append_nil]
      exact hnone front back hcs
    rw [List.append_nil, pieces, List.append_nil] at hliteral
    rw [hliteral, Parts.ofPieces_map_literal]
  | placeholder hname hleft hrest ih =>
    rw [pieces_append hleft, pieces_written_append hname, Parts.ofPieces_append_placeholder, ← ih]

/-- A reference is filled by its parts. -/
theorem TakenApart.resolve_eq {reference : String} (h : TakenApart reference.toList parts) (bindings : TextMap) :
    resolve reference bindings =
      if parts.missing bindings = [] then
        .ok (String.ofList (parts.textWith fun name => (bindings.get? name).getD ""))
      else .error (.unresolvedPlaceholders reference (parts.missing bindings)) := by
  rw [h.eq, Parts.missing_ofPieces, Parts.textWith_ofPieces, resolve]
  split
  · next hnone => rw [if_pos hnone]
  · next hmissing => rw [if_neg hmissing]

/-- Every reference is taken apart in one way, by its leftmost placeholders. If a name without a variable
occurs in it, it is refused, with all such names where they occur; if all names have variables, it becomes
the literal text with their values in between. Variables with other names do not matter. -/
theorem resolve_takenApart (reference : String) :
    ∃ parts : Parts, (∀ found, TakenApart reference.toList found ↔ found = parts) ∧
      (∀ bindings : TextMap, (∃ name ∈ parts.names, bindings.get? name = none) →
        ∃ fault : Fault, resolve reference bindings = .error fault ∧
          fault = .unresolvedPlaceholders reference (parts.names.filter fun name => bindings.get? name = none) ∧
          fault.code.text = "UNRESOLVED_PLACEHOLDER") ∧
      (∀ (bindings : TextMap) (value : String → String),
        (∀ name ∈ parts.names, bindings.get? name = some (value name)) →
        resolve reference bindings = .ok (String.ofList (parts.textWith value))) ∧
      ∀ bindings others : TextMap, (∀ name ∈ parts.names, bindings.get? name = others.get? name) →
        resolve reference bindings = resolve reference others := by
  obtain ⟨parts, hparts⟩ : ∃ parts, TakenApart reference.toList parts := ⟨_, takenApart_pieces _⟩
  refine ⟨parts, fun found => ⟨fun h => h.eq.trans hparts.eq.symm, ?_⟩, ?_, ?_, ?_⟩
  · rintro rfl
    exact hparts
  · rintro bindings ⟨name, hname, hnone⟩
    have hmissing : parts.missing bindings ≠ [] :=
      List.ne_nil_of_mem (List.mem_filter.mpr ⟨hname, decide_eq_true hnone⟩)
    exact ⟨_, (hparts.resolve_eq bindings).trans (if_neg hmissing), rfl, rfl⟩
  · intro bindings value hvalue
    have hmissing : parts.missing bindings = [] := by
      refine List.filter_eq_nil_iff.mpr fun name hname => ?_
      rw [hvalue name hname]
      exact Bool.false_ne_true
    rw [hparts.resolve_eq, if_pos hmissing]
    refine congrArg (fun cs => Except.ok (String.ofList cs)) (Parts.textWith_congr fun name hname => ?_)
    rw [hvalue name hname, Option.getD_some]
  · intro bindings others hsame
    have hmissing : parts.missing bindings = parts.missing others := by
      refine List.filter_congr fun name hname => ?_
      rw [hsame name hname]
    have htext : (parts.textWith fun name => (bindings.get? name).getD "") =
        parts.textWith fun name => (others.get? name).getD "" := by
      refine Parts.textWith_congr fun name hname => ?_
      rw [hsame name hname]
    rw [hparts.resolve_eq, hparts.resolve_eq, hmissing, htext]

/-- A brace in front of a placeholder, a placeholder with a blank, and neighbours. The value that looks like a
placeholder stays; a name that is missing twice is listed twice. -/
theorem resolve_takenApart_nested_braces :
    resolve "\x7b\x7ba\x7d/\x7bb c\x7d\x7bb.\x7d\x7ba\x7d!" ⟨[("b.", "x"), ("a", "\x7bb.\x7d")], by decide⟩ =
        .ok "\x7b\x7bb.\x7d/\x7bb c\x7dx\x7bb.\x7d!" ∧
      ∃ fault : Fault, resolve "\x7b\x7ba\x7d/\x7bb c\x7d\x7bb.\x7d\x7ba\x7d!" ⟨[("b.", "x")], by decide⟩ =
          .error fault ∧
        fault = .unresolvedPlaceholders "\x7b\x7ba\x7d/\x7bb c\x7d\x7bb.\x7d\x7ba\x7d!" ["a", "a"] ∧
        fault.code.text = "UNRESOLVED_PLACEHOLDER" := by
  obtain ⟨parts, hone, hrefused, hfilled, -⟩ :=
    resolve_takenApart "\x7b\x7ba\x7d/\x7bb c\x7d\x7bb.\x7d\x7ba\x7d!"
  have hparts : parts =
      ⟨[("\x7b".toList, "a"), ("/\x7bb c\x7d".toList, "b."), ("".toList, "a")], "!".toList⟩ := by
    rw [← (hone _).mp (takenApart_pieces _)]
    decide +kernel
  subst hparts
  constructor
  · have hok := hfilled ⟨[("b.", "x"), ("a", "\x7bb.\x7d")], by decide⟩
      (fun name => if name = "a" then "\x7bb.\x7d" else "x") (by decide)
    rw [hok]
    decide +kernel
  · have herror := hrefused ⟨[("b.", "x")], by decide⟩ ⟨"a", by decide, by decide⟩
    exact herror

end SheetFill.Template
