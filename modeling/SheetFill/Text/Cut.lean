/-!
# Cutting a text at a separator

`cut` splits at the first occurrence of a character and `cutLast` at the last one; both lose the separator and nothing
else. `splitOn` splits at every occurrence.
-/

namespace SheetFill.Text

/-- What stands before and behind the first occurrence of a character. -/
def cut (separator : Char) : List Char → Option (List Char × List Char)
  | [] => none
  | c :: cs =>
    if c = separator then some ([], cs)
    else (cut separator cs).map fun (before, behind) => (c :: before, behind)

/-- What stands before and behind the last occurrence of a character. -/
def cutLast (separator : Char) : List Char → Option (List Char × List Char)
  | [] => none
  | c :: cs =>
    match cutLast separator cs with
    | some (before, behind) => some (c :: before, behind)
    | none => if c = separator then some ([], cs) else none

/-- The pieces between the occurrences of a character; there is always at least one. -/
def splitOn (separator : Char) : List Char → List (List Char)
  | [] => [[]]
  | c :: cs =>
    if c = separator then [] :: splitOn separator cs
    else
      match splitOn separator cs with
      | piece :: rest => (c :: piece) :: rest
      | [] => [[c]]

theorem append_of_cut {separator : Char} {cs before behind : List Char}
    (h : cut separator cs = some (before, behind)) : cs = before ++ separator :: behind := by
  induction cs generalizing before behind with
  | nil => simp [cut] at h
  | cons c cs ih =>
    simp only [cut] at h
    split at h
    · next hc =>
      cases h
      simp [hc]
    · obtain ⟨⟨b, e⟩, hb, heq⟩ := Option.map_eq_some_iff.1 h
      cases heq
      simp [ih hb]

end SheetFill.Text
