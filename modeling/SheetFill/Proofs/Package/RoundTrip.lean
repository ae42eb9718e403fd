import Mathlib.Data.List.Forall2
import SheetFill.Proofs.Package.Loading
import SheetFill.Proofs.Package.Storing
import SheetFill.Proofs.Sheet.Coverage
import SheetFill.Proofs.Text.Trim

/-!
# Loading what was stored

Of a stored sheet the cells that no region suppresses come back, each by itself, and the merged regions
of more than one cell. Such regions are disjoint, so in the loaded sheet a cell is suppressed exactly if
the old one hid it: a region of one cell hides nothing.

Main statement: a workbook with disjoint regions, whose texts are not empty and whose formulas are
trimmed and have no equality sign in front, is loaded with the same names, the same regions of more than
one cell, and the same content in every cell that is not hidden; only a number that is infinite or none
has become a text.
-/

namespace SheetFill

namespace Package

/-! ## Formulas -/

section Formulas

variable {f g : String}

/-- What is left of a formula. -/
theorem formulaText?_eq_some_iff :
    formulaText? f = some g ↔ g.toList ≠ [] ∧ (Text.trim f.toList).dropWhile (· = '=') = g.toList := by
  unfold formulaText?
  split
  · next hnil =>
    refine iff_of_false (by simp) ?_
    rintro ⟨hne, hrest⟩
    exact hne (hrest.symm.trans hnil)
  · next cs hne =>
    rw [Option.some_inj, ← String.toList_inj, String.toList_ofList]
    constructor
    · intro h
      exact ⟨fun hnil => hne (h.trans hnil), h⟩
    · exact fun h => h.2

/-- When nothing is left of a formula. -/
theorem formulaText?_eq_none_iff :
    formulaText? f = none ↔ (Text.trim f.toList).dropWhile (· = '=') = [] := by
  unfold formulaText?
  split
  · next hnil => exact iff_of_true rfl hnil
  · next cs hne => exact iff_of_false (by simp) hne

/-- What is left of a formula has no equality sign in front. -/
theorem head?_ne_of_formulaText? (h : formulaText? f = some g) : g.toList.head? ≠ some '=' := by
  intro hhead
  have hnot := List.head?_dropWhile_not (· = '=') (Text.trim f.toList)
  rw [(formulaText?_eq_some_iff.mp h).2, hhead] at hnot
  simp at hnot

/-- A formula is left as it is exactly if it is a text without blanks around it and without an equality
sign in front. -/
theorem formulaText?_eq_self_iff :
    formulaText? f = some f ↔
      f.toList ≠ [] ∧ Text.trim f.toList = f.toList ∧ f.toList.head? ≠ some '=' := by
  constructor
  · intro h
    obtain ⟨hne, hrest⟩ := formulaText?_eq_some_iff.mp h
    -- What is left is part of the trimmed text, and that is part of the text itself.
    have hpart := List.dropWhile_sublist (l := Text.trim f.toList) (· = '=')
    rw [hrest] at hpart
    exact ⟨hne, (Text.trim_sublist f.toList).antisymm hpart, head?_ne_of_formulaText? h⟩
  · rintro ⟨hne, htrim, hhead⟩
    refine formulaText?_eq_some_iff.mpr ⟨hne, ?_⟩
    rw [htrim]
    cases hcs : f.toList with
    | nil => rfl
    | cons c rest =>
      rw [hcs] at hhead
      exact List.dropWhile_cons_of_neg (by simpa using hhead)

end Formulas

end Package

/-! ## Contents -/

namespace CellValue

/-- A content that a file can hold: in the place of a number that is infinite or none, its name. -/
def filed : CellValue → CellValue
  | .number d =>
    if d.isFinite then .number d
    else if d.isNaN then .text "NAN"
    else if d.isNegative then .text "-INF"
    else .text "INF"
  | v => v

/-- What is loaded of a content that was stored. -/
def reloaded : CellValue → CellValue
  | .empty => .empty
  | .text s => if s = "" then .empty else .text s
  | .number d => (number d).filed
  | .boolean b => .boolean b
  | .formula f => ((Package.formulaText? f).map .formula).getD (.number (Double.ofNat 0))

/-- A text that is not empty, a formula without blanks around it and without an equality sign in front,
or a content of another kind. -/
def IsPlain : CellValue → Prop
  | .text s => s ≠ ""
  | .formula f => f.toList ≠ [] ∧ Text.trim f.toList = f.toList ∧ f.toList.head? ≠ some '='
  | _ => True

instance (v : CellValue) : Decidable v.IsPlain :=
  match v with
  | .text _ => inferInstanceAs (Decidable (_ ≠ _))
  | .formula _ => inferInstanceAs (Decidable (_ ∧ _ ∧ _))
  | .empty | .number _ | .boolean _ => inferInstanceAs (Decidable True)

/-- A formula is loaded as what is left of it. -/
theorem reloaded_formula_iff {f g : String} :
    (formula f).reloaded = .formula g ↔ Package.formulaText? f = some g := by
  cases hf : Package.formulaText? f <;> simp [reloaded, hf]

/-- Of plain contents only numbers that are infinite or none change. -/
theorem reloaded_eq_filed {v : CellValue} (h : v.IsPlain) : v.reloaded = v.filed := by
  cases v with
  | empty => rfl
  | text s => exact if_neg h
  | number d => rfl
  | boolean b => rfl
  | formula f => exact reloaded_formula_iff.mpr (Package.formulaText?_eq_self_iff.mpr h)

/-- What is loaded of a number: the number itself, or a name in its place. -/
theorem reloaded_number (d : Double) :
    (number d).reloaded = .number d ∨
      ∃ name ∈ ["NAN", "-INF", "INF"], (number d).reloaded = .text name := by
  rw [reloaded, filed]
  split
  · exact .inl rfl
  · split
    · exact .inr ⟨"NAN", by decide, rfl⟩
    · split
      · exact .inr ⟨"-INF", by decide, rfl⟩
      · exact .inr ⟨"INF", by decide, rfl⟩

/-- A content of which nothing is loaded was empty, or an empty text. -/
theorem reloaded_eq_empty_iff {v : CellValue} : v.reloaded = .empty ↔ v = .empty ∨ v = .text "" := by
  cases v with
  | empty => simp [reloaded]
  | text s => by_cases hs : s = "" <;> simp [reloaded, hs]
  | number d => obtain hd | ⟨name, -, hd⟩ := reloaded_number d <;> simp [hd]
  | boolean b => simp [reloaded]
  | formula f => cases hf : Package.formulaText? f <;> simp [reloaded, hf]

end CellValue

namespace Package

variable {rules : Rules} {c : Coordinate} {v : CellValue} {sheet : Sheet}

/-- What is stored for a number makes the content that a file can hold in its place. -/
theorem content_numberValue (hrules : rules.Standard) (d : Double) :
    (rules.numberValue d).content = (CellValue.number d).filed := by
  rw [CellValue.filed]
  split
  · next hfinite =>
    rw [hrules.numberValue_of_isFinite d hfinite]
    rfl
  · next hother =>
    rw [hrules.numberValue_of_not_isFinite d (Bool.eq_false_of_not_eq_true hother), numberName]
    split
    · rfl
    · split <;> rfl

/-- A stored cell makes what is loaded of its content. -/
theorem content_of_storeCell (hrules : rules.Standard) {cell : StoredCell} (h : rules.storeCell c v = some cell) :
    cell.content = v.reloaded := by
  cases v with
  | empty => cases h
  | text s =>
    rw [Rules.storeCell, hrules.textValue?_eq] at h
    split at h
    · cases h
    · next hs =>
      cases h
      rfl
  | number d =>
    cases h
    exact content_numberValue hrules d
  | boolean b => cases h; rfl
  | formula f =>
    cases h
    rw [StoredCell.content, hrules.formulaResult_eq]
    rfl

/-- Where nothing is stored there is nothing to load. -/
theorem storeCell_eq_none_iff (hrules : rules.Standard) : rules.storeCell c v = none ↔ v.reloaded = .empty := by
  rw [CellValue.reloaded_eq_empty_iff]
  cases v with
  | text s => simp [Rules.storeCell, hrules.textValue?_eq]
  | _ => simp [Rules.storeCell]

/-! ## Sheets -/

/-- The sheet that is loaded where a sheet was stored. -/
def Rules.reload (rules : Rules) (sheet : Sheet) : Sheet :=
  loadSheet (rules.storeSheet sheet)

section Storable

variable (hrules : rules.Standard) (h : rules.isStorableSheet sheet = true)

include hrules h

theorem nodup_realMerges : (realMerges sheet).Nodup :=
  nodup_of_pairwise_not_overlaps ((isStorableSheet_iff hrules).mp h).2.2.1

theorem name_reload : (rules.reload sheet).name = sheet.name := by
  rw [Rules.reload, loadSheet_eq (nodup_realMerges hrules h)]
  rfl

theorem merges_reload : (rules.reload sheet).merges = realMerges sheet := by
  rw [Rules.reload, loadSheet_eq (nodup_realMerges hrules h)]
  rfl

/-- What is not suppressed is loaded again. -/
theorem content_reload (c : Coordinate) :
    (rules.reload sheet).content c = if sheet.Suppressed c then .empty else (sheet.content c).reloaded := by
  cases hcell : rules.storeCell c (sheet.content c) with
  | some cell =>
    obtain rfl := position_of_storeCell hcell
    split
    · next hsuppressed =>
      refine content_loadSheet_of_not_mem (nodup_realMerges hrules h) fun other hother heq => ?_
      exact (mem_cells_storeSheet_iff.mp hother).1 (heq ▸ hsuppressed)
    · next hseen =>
      have hmem := mem_cells_storeSheet_iff.mpr ⟨hseen, hcell⟩
      rw [Rules.reload, content_loadSheet_of_mem (nodup_realMerges hrules h) (nodup_positions_storeSheet rules sheet)
        hmem, content_of_storeCell hrules hcell]
  | none =>
    rw [(storeCell_eq_none_iff hrules).mp hcell, ite_self]
    refine content_loadSheet_of_not_mem (nodup_realMerges hrules h) fun other hother heq => ?_
    have hstored := (mem_cells_storeSheet_iff.mp hother).2
    rw [heq, hcell] at hstored
    cases hstored

end Storable

/-- A region of one cell hides nothing, so the others hide the same cells. -/
theorem hidden_iff_exists_realMerges :
    sheet.Hidden c ↔ ∃ region ∈ realMerges sheet, c ∈ region ∧ region.anchor ≠ c := by
  constructor
  · rintro ⟨region, hregion, hmem, hne⟩
    refine ⟨region, List.mem_filter.mpr ⟨hregion, ?_⟩, hmem, hne⟩
    rw [Bool.not_eq_true', decide_eq_false_iff_not]
    exact fun hsingle => hne (hsingle.eq_of_mem hmem).symm
  · rintro ⟨region, hregion, hmem, hne⟩
    exact ⟨region, (List.mem_filter.mp hregion).1, hmem, hne⟩

/-- The loaded sheet suppresses what the stored one hid. -/
theorem suppressed_reload (hrules : rules.Standard) (h : rules.isStorableSheet sheet = true) :
    (rules.reload sheet).Suppressed c ↔ sheet.Hidden c := by
  have hdisjoint := ((isStorableSheet_iff hrules).mp h).2.2.1
  rw [← merges_reload hrules h] at hdisjoint
  rw [Sheet.suppressed_iff_hidden (anchorsShown_of_pairwise hdisjoint), Sheet.Hidden, merges_reload hrules h,
    hidden_iff_exists_realMerges]

/-! ## Workbooks -/

namespace Format

variable {Bytes : Type}

/-- Whatever is stored of a workbook is read as it was written. -/
def HandsBack (format : Format Bytes) : Prop :=
  ∀ workbook package, format.rules.store workbook = .ok package → format.read (format.write package) = .ok package

variable {format : Format Bytes} {workbook : Workbook} {bytes : Bytes}

/-- When a workbook is saved, and as what. -/
theorem save_eq_ok_iff (hrules : format.rules.Standard) :
    format.save workbook = .ok bytes ↔
      (∀ sheet ∈ storedSheets workbook, format.rules.isStorableSheet sheet = true) ∧
        format.rules.takesNames ((storedSheets workbook).map (·.name)) = true ∧
        bytes = format.write ((storedSheets workbook).map format.rules.storeSheet) := by
  rw [save]
  constructor
  · intro hsave
    cases hstore : format.rules.store workbook with
    | error fault => rw [hstore] at hsave; cases hsave
    | ok package =>
      rw [hstore] at hsave
      cases hsave
      obtain ⟨hstorable, hdistinct, rfl⟩ := (store_eq_ok_iff hrules).mp hstore
      exact ⟨hstorable, hdistinct, rfl⟩
  · rintro ⟨hstorable, hdistinct, rfl⟩
    rw [(store_eq_ok_iff hrules).mpr ⟨hstorable, hdistinct, rfl⟩]
    rfl

/-- A saved workbook is loaded sheet by sheet. -/
theorem load_of_save (hrules : format.rules.Standard) (hformat : format.HandsBack)
    (hsave : format.save workbook = .ok bytes) :
    format.load bytes = .ok ⟨(storedSheets workbook).map format.rules.reload⟩ := by
  obtain ⟨hstorable, hdistinct, rfl⟩ := (save_eq_ok_iff hrules).mp hsave
  have hstore := (store_eq_ok_iff hrules).mpr ⟨hstorable, hdistinct, rfl⟩
  rw [load, hformat workbook _ hstore]
  exact congrArg (fun sheets => Except.ok (Workbook.mk sheets)) (List.map_map ..)

end Format

end Package

/-- A sheet shows what another showed: all of its cells that are not hidden, and its merged regions of
more than one cell. -/
structure Sheet.ShowsAgain (again sheet : Sheet) : Prop where
  name : again.name = sheet.name
  merges : again.merges = sheet.merges.filter fun region => ¬ region.IsSingle
  content : ∀ c, again.content c = if sheet.Hidden c then .empty else (sheet.content c).filed

namespace Package

/-- A sheet with disjoint regions and plain contents is shown again. -/
theorem showsAgain_reload {rules : Rules} (hrules : rules.Standard) {sheet : Sheet}
    (h : rules.isStorableSheet sheet = true) (hdisjoint : sheet.merges.Pairwise fun a b => ¬ a.Overlaps b)
    (hplain : ∀ c, (sheet.content c).IsPlain) : (rules.reload sheet).ShowsAgain sheet where
  name := name_reload hrules h
  merges := (merges_reload hrules h).trans (by simp [realMerges])
  content c := by
    simp only [content_reload hrules h, Sheet.suppressed_iff_hidden (anchorsShown_of_pairwise hdisjoint),
      CellValue.reloaded_eq_filed (hplain c)]

/-- A workbook that was saved by standard rules is loaded, if it has a sheet: with the same names in the
same order, the merged regions of more than one cell, and all cells that no region hides. Their contents
are the same, but for numbers that are infinite or none, which have become texts. -/
theorem Format.load_save {Bytes : Type} {format : Format Bytes} (hrules : format.rules.Standard)
    (hformat : format.HandsBack) {workbook : Workbook} {bytes : Bytes} (hsheets : workbook.sheets ≠ [])
    (hdisjoint : ∀ sheet ∈ workbook.sheets, sheet.merges.Pairwise fun a b => ¬ a.Overlaps b)
    (hplain : ∀ sheet ∈ workbook.sheets, ∀ c, (sheet.content c).IsPlain)
    (hsave : format.save workbook = .ok bytes) :
    ∃ loaded, format.load bytes = .ok loaded ∧
      List.Forall₂ Sheet.ShowsAgain loaded.sheets workbook.sheets := by
  have hstorable := ((save_eq_ok_iff hrules).mp hsave).1
  refine ⟨_, load_of_save hrules hformat hsave, ?_⟩
  rw [storedSheets, if_neg hsheets] at hstorable ⊢
  rw [List.forall₂_map_left_iff, List.forall₂_same]
  exact fun sheet hmem => showsAgain_reload hrules (hstorable sheet hmem) (hdisjoint sheet hmem) (hplain sheet hmem)

/-- The contents of a sheet are plain if those of the cells are that hold something. -/
theorem isPlain_content {sheet : Sheet} (h : ∀ e ∈ sheet.cells.entries, e.2.IsPlain) (c : Coordinate) :
    (sheet.content c).IsPlain := by
  by_cases hempty : sheet.content c = .empty
  · rw [hempty]
    trivial
  · exact h (c, sheet.content c) (Cells.mem_entries_iff.mpr ⟨rfl, hempty⟩)

/-- A region with a text under it, a region of one cell, and a cell of each kind. -/
theorem Format.load_save_region :
    let format : Format Package := ⟨.spreadsheet, id, .ok⟩
    let region : CellRange := ⟨⟨2, 0⟩, ⟨3, 1⟩, by decide, by decide⟩
    let single : CellRange := ⟨⟨0, 1⟩, ⟨0, 1⟩, by decide, by decide⟩
    let cells := ((((Sheet.new "S").set ⟨0, 0⟩ (.text "a")).set ⟨0, 1⟩ (.number (Double.ofNat 2))).set
      ⟨2, 0⟩ (.formula "A1+B1")).set ⟨3, 1⟩ (.text "under")
    let sheet := (cells.merge region).merge single
    let workbook : Workbook := ⟨[sheet, .new "T"]⟩
    format.rules.Standard ∧ format.HandsBack ∧ workbook.sheets ≠ [] ∧
      (∀ sheet ∈ workbook.sheets, sheet.merges.Pairwise fun a b => ¬ a.Overlaps b) ∧
      (∀ sheet ∈ workbook.sheets, ∀ c, (sheet.content c).IsPlain) ∧
      ∃ package loaded, format.save workbook = .ok package ∧ format.load package = .ok loaded ∧
        List.Forall₂ Sheet.ShowsAgain loaded.sheets workbook.sheets := by
  intro format region single cells sheet workbook
  have hformat : format.HandsBack := fun _ _ _ => rfl
  have hdisjoint : ∀ sheet ∈ workbook.sheets, sheet.merges.Pairwise fun a b => ¬ a.Overlaps b := by
    decide +kernel
  have hentries : ∀ sheet ∈ workbook.sheets, ∀ e ∈ sheet.cells.entries, e.2.IsPlain := by decide +kernel
  have hplain : ∀ sheet ∈ workbook.sheets, ∀ c, (sheet.content c).IsPlain := fun sheet hsheet =>
    isPlain_content (hentries sheet hsheet)
  have hsave : format.save workbook = .ok (workbook.sheets.map format.rules.storeSheet) := by decide +kernel
  have hrules : format.rules.Standard := Rules.standard_spreadsheet
  obtain ⟨loaded, hload, hshows⟩ := Format.load_save hrules hformat (by decide) hdisjoint hplain hsave
  exact ⟨hrules, hformat, by decide, hdisjoint, hplain, _, loaded, hsave, hload, hshows⟩

/-- A number that is none: it is saved, and loaded as a text. -/
theorem Format.load_save_not_a_number :
    let format : Format Package := ⟨.spreadsheet, id, .ok⟩
    let number : Double := ⟨0x7FF8000000000000⟩
    let sheet := (Sheet.new "S").set ⟨0, 0⟩ (.number number)
    let workbook : Workbook := ⟨[sheet]⟩
    format.rules.Standard ∧ format.HandsBack ∧
      (∀ sheet ∈ workbook.sheets, sheet.merges.Pairwise fun a b => ¬ a.Overlaps b) ∧
      (∀ sheet ∈ workbook.sheets, ∀ c, (sheet.content c).IsPlain) ∧
      ∃ package loaded, format.save workbook = .ok package ∧ format.load package = .ok loaded ∧
        ¬ sheet.Suppressed ⟨0, 0⟩ ∧ workbook.content 0 ⟨0, 0⟩ = .number number ∧
        loaded.content 0 ⟨0, 0⟩ = .text "NAN" := by
  intro format number sheet workbook
  have hentries : ∀ sheet ∈ workbook.sheets, ∀ e ∈ sheet.cells.entries, e.2.IsPlain := by decide +kernel
  refine ⟨Rules.standard_spreadsheet, fun _ _ _ => rfl, by decide +kernel,
    fun sheet hsheet => isPlain_content (hentries sheet hsheet),
    workbook.sheets.map format.rules.storeSheet, Package.load (workbook.sheets.map format.rules.storeSheet), ?_⟩
  decide +kernel

end Package

end SheetFill
