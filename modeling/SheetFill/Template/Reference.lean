import SheetFill.Fault
import SheetFill.Text.Digits
import SheetFill.Text.TextMap

/-!
# References of templates

A reference may hold placeholders: a name of letters, digits, underscores, points and hyphens between braces. They are
filled from the variables in one pass; what a variable says is not looked at again. A placeholder without a variable is
a fault that lists every such name where it occurs.
-/

namespace SheetFill.Template

/-- A character of a placeholder's name. -/
def isNameChar (c : Char) : Bool :=
  ('A' ≤ c && c ≤ 'Z') || ('a' ≤ c && c ≤ 'z') || Text.isDigit c || c == '_' || c == '.' || c == '-'

/-- A part of a reference. -/
inductive Piece where
  | literal (c : Char)
  | placeholder (name : String)
deriving DecidableEq

/-- The placeholder that stands behind an opening brace, if there is one, and what follows it. -/
def placeholder? (cs : List Char) : Option (String × List Char) :=
  let name := cs.takeWhile isNameChar
  match cs.dropWhile isNameChar with
  | [] => none
  | c :: rest => if name ≠ [] ∧ c = '\x7d' then some (String.ofList name, rest) else none

theorem length_of_placeholder? {cs rest : List Char} {name : String}
    (h : placeholder? cs = some (name, rest)) : rest.length < cs.length := by
  have hl := (List.dropWhile_sublist (l := cs) isNameChar).length_le
  unfold placeholder? at h
  cases hd : cs.dropWhile isNameChar with
  | nil => simp [hd] at h
  | cons c more =>
    rw [hd, List.length_cons] at hl
    simp only [hd, Option.ite_none_right_eq_some, Option.some.injEq, Prod.mk.injEq] at h
    rw [← h.2.2]
    omega

/-- The pieces of a reference. -/
def pieces : List Char → List Piece
  | [] => []
  | c :: cs =>
    if c = '\x7b' then
      match _h : placeholder? cs with
      | some (name, rest) => .placeholder name :: pieces rest
      | none => .literal c :: pieces cs
    else .literal c :: pieces cs
termination_by cs => cs.length
decreasing_by
  · have := length_of_placeholder? _h
    simp only [List.length_cons]
    omega
  · simp
  · simp

/-- The name of a placeholder without a variable. -/
def Piece.missing? (bindings : TextMap) : Piece → Option String
  | literal _ => none
  | placeholder name => if (bindings.get? name).isSome then none else some name

/-- What a piece becomes. -/
def Piece.filled (bindings : TextMap) : Piece → List Char
  | literal c => [c]
  | placeholder name => ((bindings.get? name).getD "").toList

/-- The reference with its placeholders filled. -/
def resolve (reference : String) (bindings : TextMap) : Except Fault String :=
  let parts := pieces reference.toList
  match parts.filterMap (Piece.missing? bindings) with
  | [] => .ok (String.ofList (parts.flatMap (Piece.filled bindings)))
  | names => .error (.unresolvedPlaceholders reference names)

end SheetFill.Template
