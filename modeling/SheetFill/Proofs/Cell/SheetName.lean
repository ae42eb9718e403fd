import SheetFill.Proofs.Cell.Address
import SheetFill.Proofs.Cell.Spelling

/-!
# Sheets in front of references

The name of a sheet stands in front of the last exclamation mark, in quotes with its own quotes doubled, or
as it is. A coordinate or a range holds no exclamation mark, so that the mark behind the name is the last
one whatever the name holds, and the colon that tells a range from a cell is looked for behind the name.

Main statement: every name in quotes, and every trimmed name that does not itself look like one in quotes,
leads each coordinate and each range of a sheet to the sheet of that name.
-/

namespace SheetFill

/-- The text with each quote written twice. -/
def doubled (cs : List Char) : List Char :=
  cs.flatMap fun c => if c = '\'' then [c, c] else [c]

/-- The name of a sheet between quotes, with its own quotes written twice. -/
def quotedName (name : String) : String :=
  String.ofList ('\'' :: (doubled name.toList ++ ['\'']))

/-- The name starts with a quote and ends with another one. -/
def LooksQuoted (name : String) : Prop :=
  2 ≤ name.toList.length ∧ name.toList.head? = some '\'' ∧ name.toList.getLast? = some '\''

instance (name : String) : Decidable (LooksQuoted name) :=
  inferInstanceAs (Decidable (_ ∧ _))

/-- Behind `lead`, each coordinate of a sheet is read as this cell of `sheet`, and each range as this range of
`sheet`, and the two are told apart. -/
structure LeadsTo (lead : String) (sheet : Option String) : Prop where
  cell : ∀ c : Coordinate, c.OnSheet →
    CellAddress.parse (lead ++ c.text) = .ok ⟨sheet, c⟩ ∧ isRangeReference (lead ++ c.text) = false
  range : ∀ r : CellRange, r.last.OnSheet →
    RangeAddress.parse (lead ++ r.text) = .ok ⟨sheet, r⟩ ∧ isRangeReference (lead ++ r.text) = true

/-- A character that is no quote is not changed. -/
theorem undouble_cons_of_ne {c : Char} (h : c ≠ '\'') (cs : List Char) : undouble (c :: cs) = c :: undouble cs :=
  undouble.eq_2 c cs fun _ hc => absurd hc h

/-- A text is read back from its doubled quotes. -/
theorem undouble_doubled (cs : List Char) : undouble (doubled cs) = cs := by
  induction cs with
  | nil => rfl
  | cons c cs ih =>
    by_cases hquote : c = '\''
    · subst hquote
      change undouble ('\'' :: '\'' :: doubled cs) = _
      rw [undouble, ih]
    · rw [doubled, List.flatMap_cons, if_neg hquote, List.singleton_append, undouble_cons_of_ne hquote]
      exact congrArg _ ih

/-- What stands between a quote in front and a quote behind. -/
theorem betweenQuotes?_eq_some (inner : List Char) : betweenQuotes? ('\'' :: (inner ++ ['\''])) = some inner := by
  rw [betweenQuotes?, List.getLast?_concat, if_pos rfl, List.dropLast_concat]

/-- Nothing stands between quotes if the name does not look so. -/
theorem betweenQuotes?_eq_none {name : String} (h : ¬ LooksQuoted name) : betweenQuotes? name.toList = none := by
  rw [LooksQuoted] at h
  cases hname : name.toList with
  | nil => rfl
  | cons c cs =>
    rw [hname] at h
    by_cases hquote : c = '\''
    · subst hquote
      rw [betweenQuotes?, if_neg]
      intro hlast
      have hne : cs ≠ [] := by
        rintro rfl
        cases hlast
      have hlength : 0 < cs.length := List.length_pos_iff.mpr hne
      refine h ⟨Nat.succ_le_succ hlength, rfl, ?_⟩
      rw [List.getLast?_cons_of_ne_nil hne, hlast]
    · exact betweenQuotes?.eq_2 _ fun _ hcons => hquote (List.cons.inj hcons).1

/-- The name of a sheet is read back from its quotes. -/
theorem sheetName_quotedName (name : String) : sheetName (quotedName name).toList = name.toList := by
  have htrim : Text.trim (quotedName name).toList = (quotedName name).toList := by
    rw [quotedName, String.toList_ofList]
    apply Text.trim_eq_self
    · intro c hc
      cases hc
      decide
    · intro c hc
      rw [← List.cons_append, List.getLast?_concat] at hc
      cases hc
      decide
  rw [sheetName, htrim, quotedName, String.toList_ofList, betweenQuotes?_eq_some]
  exact undouble_doubled _

/-- A trimmed name that does not look quoted is the name of the sheet as it stands. -/
theorem sheetName_of_not_looksQuoted {name : String} (htrim : Text.trim name.toList = name.toList)
    (h : ¬ LooksQuoted name) : sheetName name.toList = name.toList := by
  rw [sheetName, htrim, betweenQuotes?_eq_none h]

/-- A trimmed reference without an exclamation mark is left behind the name of a sheet. -/
theorem splitSheet_behind {written rest : List Char} (hmark : '!' ∉ rest) (htrim : Text.trim rest = rest) :
    splitSheet (written ++ '!' :: rest) = (some (String.ofList (sheetName written)), rest) := by
  rw [splitSheet, Text.cutLast_append hmark]
  dsimp only
  rw [htrim]

namespace CellRange

/-- The text of a range holds no exclamation mark. -/
theorem mark_not_mem_cornerChars (r : CellRange) : '!' ∉ cornerChars r.first r.last := by
  have hsign : '!' ∈ referenceSigns := by decide
  simp only [cornerChars, List.mem_append, List.mem_cons, not_or]
  exact ⟨Coordinate.not_mem_chars hsign _, by decide, Coordinate.not_mem_chars hsign _⟩

/-- There are no blanks around the text of a range. -/
theorem trim_cornerChars (r : CellRange) : Text.trim (cornerChars r.first r.last) = cornerChars r.first r.last := by
  refine Text.trim_append (Coordinate.trim_chars r.first) (Coordinate.chars_ne_nil r.first) ?_
  intro x hx
  rw [List.getLast?_cons_of_ne_nil (Coordinate.chars_ne_nil r.last)] at hx
  exact (Coordinate.of_mem_chars (List.mem_of_mem_getLast? hx)).1

end CellRange

/-- What is left behind a lead decides how it leads. -/
theorem leadsTo_of_splitSheet {lead : String} {sheet : Option String}
    (h : ∀ rest, '!' ∉ rest → Text.trim rest = rest → splitSheet (lead.toList ++ rest) = (sheet, rest)) :
    LeadsTo lead sheet := by
  constructor
  · intro c hc
    have hsplit : splitSheet (lead ++ c.text).toList = (sheet, c.chars) := by
      rw [String.toList_append, Coordinate.text, String.toList_ofList]
      exact h _ (Coordinate.not_mem_chars (by decide) c) c.trim_chars
    constructor
    · simp only [CellAddress.parse, hsplit, Coordinate.parseChars_chars hc]
    · rw [isRangeReference, hsplit]
      exact decide_eq_false (Coordinate.not_mem_chars (by decide) c)
  · intro r hr
    have hsplit : splitSheet (lead ++ r.text).toList = (sheet, CellRange.cornerChars r.first r.last) := by
      rw [String.toList_append, CellRange.text, String.toList_ofList]
      exact h _ r.mark_not_mem_cornerChars r.trim_cornerChars
    constructor
    · simp only [RangeAddress.parse, hsplit, CellRange.parseChars_cornerChars hr]
    · rw [isRangeReference, hsplit]
      exact decide_eq_true (List.mem_append_right _ List.mem_cons_self)

/-- Behind the written name of a sheet and an exclamation mark, references lead to that sheet. -/
theorem leadsTo_of_sheetName {written name : String} (h : sheetName written.toList = name.toList) :
    LeadsTo (written ++ "!") (some name) := by
  refine leadsTo_of_splitSheet fun rest hmark htrim => ?_
  have hlead : (written ++ "!").toList ++ rest = written.toList ++ '!' :: rest := by simp
  rw [hlead, splitSheet_behind hmark htrim, h, String.ofList_toList]

/-- Each name of a sheet in quotes, with its own quotes doubled, leads coordinates and ranges to that sheet,
and so does each trimmed name as it stands, unless it looks as if it were in quotes. Without a name no sheet
is named, and whatever reference holds no exclamation mark names none. -/
theorem leadsTo_sheet :
    (∀ name : String, LeadsTo (quotedName name ++ "!") (some name)) ∧
    (∀ name : String, Text.trim name.toList = name.toList → ¬ LooksQuoted name →
      LeadsTo (name ++ "!") (some name)) ∧
    LeadsTo "" none ∧
    ∀ reference : String, '!' ∉ reference.toList →
      (∀ address, CellAddress.parse reference = .ok address → address.sheet = none) ∧
      ∀ address, RangeAddress.parse reference = .ok address → address.sheet = none := by
  refine ⟨fun name => leadsTo_of_sheetName (sheetName_quotedName name),
    fun name htrim h => leadsTo_of_sheetName (sheetName_of_not_looksQuoted htrim h), ?_, ?_⟩
  · refine leadsTo_of_splitSheet fun rest hmark htrim => ?_
    rw [String.toList_empty, List.nil_append, splitSheet_eq_of_not_mem hmark, htrim]
  · intro reference hmark
    have hsplit := splitSheet_eq_of_not_mem hmark
    constructor
    · intro address h
      simp only [CellAddress.parse, hsplit] at h
      split at h
      · cases h
        rfl
      · cases h
    · intro address h
      simp only [RangeAddress.parse, hsplit] at h
      split at h
      · cases h
        rfl
      · cases h

/-- A name with blanks, quotes, an exclamation mark and a colon, in quotes; the name of one quote and the
empty name as they stand; and the last cell and all cells of a sheet that is not named. -/
theorem leadsTo_sheet_odd_names :
    let all : CellRange := ⟨⟨0, 0⟩, ⟨1048575, 16383⟩, by decide, by decide⟩
    CellAddress.parse "' ''a!'':'!B7" = .ok ⟨some " 'a!':", ⟨6, 1⟩⟩ ∧
      isRangeReference "' ''a!'':'!B7" = false ∧
      Text.trim "'".toList = "'".toList ∧ ¬ LooksQuoted "'" ∧
      RangeAddress.parse "'!A1:XFD1048576" = .ok ⟨some "'", all⟩ ∧ isRangeReference "'!A1:XFD1048576" = true ∧
      Text.trim "".toList = "".toList ∧ ¬ LooksQuoted "" ∧ CellAddress.parse "!B7" = .ok ⟨some "", ⟨6, 1⟩⟩ ∧
      RangeAddress.parse "A1:XFD1048576" = .ok ⟨none, all⟩ := by
  intro all
  have hcell : (⟨6, 1⟩ : Coordinate).text = "B7" := by decide +kernel
  have hall : all.text = "A1:XFD1048576" := by decide +kernel
  have hquoted := (leadsTo_sheet.1 " 'a!':").cell ⟨6, 1⟩ (by decide)
  have hquote := (leadsTo_sheet.2.1 "'" (by decide) (by decide)).range all (by decide)
  have hempty := (leadsTo_sheet.2.1 "" (by decide) (by decide)).cell ⟨6, 1⟩ (by decide)
  have hnone := leadsTo_sheet.2.2.1.range all (by decide)
  rw [hcell] at hquoted hempty
  rw [hall] at hquote hnone
  exact ⟨hquoted.1, hquoted.2, by decide, by decide, hquote.1, hquote.2, by decide, by decide, hempty.1, hnone.1⟩

end SheetFill
