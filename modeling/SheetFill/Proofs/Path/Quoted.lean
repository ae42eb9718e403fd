import SheetFill.Path.Selection
import SheetFill.Proofs.Path.Grammar
import SheetFill.Proofs.Text.Trim

/-!
# Keys in brackets

Between quotes in brackets a key may hold any characters: a backslash goes before the quote and
before a backslash of the key. `Dialect.keyPath` writes a key this way, and whatever the key, what
is read is the key again. So every field of a record has a path, in both dialects.
-/

namespace SheetFill

namespace Path

/-- A character of a key between quotes. -/
def escapedChar (quote c : Char) : List Char :=
  if c = quote ∨ c = '\\' then ['\\', c] else [c]

/-- A key between quotes. -/
def escaped (quote : Char) (key : List Char) : List Char :=
  key.flatMap (escapedChar quote)

/-- A key in quotes and brackets. -/
def bracketed (quote : Char) (key : List Char) : List Char :=
  '[' :: quote :: (escaped quote key ++ [quote, ']'])

variable {quote : Char}

/-- Between quotes the escaped key writes the key. -/
theorem isQuoted_escaped (key : List Char) : IsQuoted quote (escaped quote key) key := by
  induction key with
  | nil => exact .nil
  | cons c key ih =>
    change IsQuoted quote (escapedChar quote c ++ escaped quote key) (c :: key)
    rw [escapedChar]
    split
    · exact .escaped ih
    · next hplain =>
      obtain ⟨hne, hbackslash⟩ := not_or.mp hplain
      exact .plain hne hbackslash ih

/-- A quoted key in brackets, in front of a tail, is a step to the field with the key. -/
theorem isTail_bracketed (hquote : IsQuote quote) (key : List Char) {rest : List Char} {segments : List Segment}
    (hrest : IsTail rest segments) :
    IsTail (bracketed quote key ++ rest) (.field (String.ofList key) :: segments) := by
  have hbracket : IsBracket (quote :: (escaped quote key ++ [quote]) ++ [']']) (.field (String.ofList key)) :=
    (IsBody.key hquote (isQuoted_escaped key)).isBracket
  rw [List.cons_append, List.append_assoc, List.singleton_append] at hbracket
  exact .bracket hbracket hrest

end Path

namespace Dialect

/-- The characters in front of the brackets. -/
def root : Dialect → List Char
  | dotted => []
  | jsonPath => ['$']

/-- The path of a key of a record. -/
def keyPath (dialect : Dialect) (quote : Char) (key : String) : String :=
  String.ofList (dialect.root ++ Path.bracketed quote key.toList)

variable {quote : Char}

/-- The path of a key neither starts nor ends with a blank. -/
theorem trim_keyPath (dialect : Dialect) (key : List Char) :
    Text.trim (dialect.root ++ Path.bracketed quote key) = dialect.root ++ Path.bracketed quote key := by
  apply Text.trim_eq_self
  · intro c hc
    cases dialect <;> cases hc <;> decide
  · intro c hc
    have hsplit : dialect.root ++ Path.bracketed quote key =
        (dialect.root ++ '[' :: quote :: (Path.escaped quote key ++ [quote])) ++ [']'] := by
      simp [Path.bracketed]
    rw [hsplit, List.getLast?_concat] at hc
    cases hc
    decide

/-- The path of a key selects the field with that key. -/
theorem parse_keyPath (dialect : Dialect) (hquote : Path.IsQuote quote) (key : String) :
    dialect.parse (dialect.keyPath quote key) = .ok [.field key] := by
  have htail : Path.IsTail (Path.bracketed quote key.toList) [.field key] := by
    have h := Path.isTail_bracketed hquote key.toList .nil
    rwa [List.append_nil, String.ofList_toList] at h
  rw [parse_eq_ok_iff, keyPath, String.toList_ofList, trim_keyPath]
  cases dialect with
  | dotted => exact .bracket htail
  | jsonPath => exact .dollar htail

/-- The path of a key selects what a record has under the key. -/
theorem evaluate_keyPath (dialect : Dialect) (hquote : Path.IsQuote quote) {fields : List (String × Tree)}
    {key : String} {node : Tree} (h : fields.lookup key = some node) :
    dialect.evaluate (.record fields) (dialect.keyPath quote key) = .ok (.one node) := by
  rw [evaluate, dialect.parse_keyPath hquote]
  simp [Except.map, walk, walkFrom, Segment.select, h]

end Dialect

end SheetFill
