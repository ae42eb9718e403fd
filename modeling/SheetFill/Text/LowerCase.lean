import SheetFill.Text.CaseTable

/-!
# Lower case

Keys of a comparison matrix and names of sheets are compared without regard to case, by the full lower-case mapping of
the character standard. It maps letter by letter, with two exceptions: the capital I with a dot above becomes two
characters, and a capital sigma at the end of a word becomes a final sigma.
-/

namespace SheetFill.Text

/-- Whether a code point lies in one of the runs. -/
def inRuns (runs : List (Nat × Nat)) (n : Nat) : Bool :=
  runs.any fun (first, last) => first ≤ n && n ≤ last

/-- The lower-case partner of a character, or the character itself. -/
def lowerPartner (c : Char) : Char :=
  let n := c.toNat
  match lowerCaseRuns.find? fun (first, last, step, _) =>
      first ≤ n && n ≤ last && (n - first) % step == 0 with
  | some (_, _, _, distance) => Char.ofNat (n + distance).toNat
  | none => c

/-- Whether the nearest character that is not passed over has case. -/
def letterAhead : List Char → Bool
  | [] => false
  | c :: cs =>
    if inRuns caseIgnorableRuns c.toNat then letterAhead cs else inRuns casedRuns c.toNat

/-- Lower case of a text that stands behind the reversed text `before`. -/
def lowerAfter (before : List Char) : List Char → List Char
  | [] => []
  | c :: cs =>
    let mapped :=
      if c.toNat < 0x80 then [c.toLower]
      else if c.toNat = 0x130 then ['i', '\u0307']
      else if c.toNat = 0x3A3 then
        if letterAhead before && !letterAhead cs then ['ς'] else ['σ']
      else [lowerPartner c]
    mapped ++ lowerAfter (c :: before) cs

/-- The full lower-case mapping of a text. -/
def lowerCase (cs : List Char) : List Char :=
  lowerAfter [] cs

end SheetFill.Text
