import SheetFill.Proofs.Package.RoundTrip

/-!
# Storing and loading again

The second pass finds other things than the first. Its regions are disjoint, so it suppresses whatever
is hidden, also the anchors that the first pass stored because a region of their own came first. And a
blank behind the equality signs of a formula stands in front once they are gone, where the second pass
drops it, with the equality signs behind it.

Main statement: what was saved and loaded can be saved and loaded once more, and this gives the same
workbook exactly if on each sheet no hidden cell was stored and no stored formula had a blank behind its
equality signs.
-/

namespace SheetFill

/-! ## Contents -/

/-- What is left of a formula is left as it is exactly if it does not start with a blank. -/
theorem Package.formulaText?_formulaText? {f g : String} (h : formulaText? f = some g) :
    formulaText? g = some g ↔ ∀ c ∈ g.toList.head?, Text.isBlank c = false := by
  obtain ⟨hne, hrest⟩ := formulaText?_eq_some_iff.mp h
  rw [formulaText?_eq_self_iff]
  constructor
  · rintro ⟨-, htrim, -⟩ c hc
    rw [← htrim] at hc
    exact Text.not_blank_of_mem_head?_trim hc
  · intro hfirst
    refine ⟨hne, Text.trim_eq_self hfirst fun c hc => ?_, head?_ne_of_formulaText? h⟩
    obtain ⟨front, hfront⟩ := List.dropWhile_suffix (l := Text.trim f.toList) (· = '=')
    have hlast : c ∈ (Text.trim f.toList).getLast? := by
      rw [← hfront, hrest, List.getLast?_append, Option.mem_def.mp hc]
      rfl
    exact Text.not_blank_of_mem_getLast?_trim hlast

namespace CellValue

/-- A formula with a blank behind the equality signs in front. -/
def HasInnerBlank : CellValue → Prop
  | .formula f => ∃ c ∈ ((Text.trim f.toList).dropWhile (· = '=')).head?, Text.isBlank c = true
  | _ => False

/-- Loading again changes nothing exactly if no formula had an inner blank. -/
theorem reloaded_reloaded_iff {v : CellValue} : v.reloaded.reloaded = v.reloaded ↔ ¬ v.HasInnerBlank := by
  cases v with
  | empty => simp [reloaded, HasInnerBlank]
  | text s => by_cases hs : s = "" <;> simp [reloaded, HasInnerBlank, hs]
  | number d =>
    refine iff_of_true ?_ id
    obtain hd | ⟨name, hname, hd⟩ := reloaded_number d
    · rw [hd, hd]
    · have hne : name ≠ "" := by
        rintro rfl
        exact absurd hname (by decide)
      rw [hd]
      exact if_neg hne
  | boolean b => simp [reloaded, HasInnerBlank]
  | formula f =>
    cases hf : Package.formulaText? f with
    | none =>
      have hzero : (formula f).reloaded = .number (Double.ofNat 0) := by simp only [reloaded, hf]; rfl
      simp only [hzero, HasInnerBlank, Package.formulaText?_eq_none_iff.mp hf]
      exact iff_of_true (by decide) (by simp)
    | some g =>
      have hrest := (Package.formulaText?_eq_some_iff.mp hf).2
      rw [reloaded_formula_iff.mpr hf, reloaded_formula_iff, Package.formulaText?_formulaText? hf]
      simp [HasInnerBlank, hrest]

/-- What can be stored can be stored after it was loaded. -/
theorem isStorable_reloaded {v : CellValue} (h : Package.isStorable v = true) :
    Package.isStorable v.reloaded = true := by
  cases v with
  | empty => rfl
  | text s =>
    rw [reloaded]
    split
    · rfl
    · exact h
  | number d =>
    have hshort : ∀ name ∈ ["NAN", "-INF", "INF"], Package.isStorable (.text name) = true := by decide
    obtain hd | ⟨name, hname, hd⟩ := reloaded_number d
    · rw [hd]
      rfl
    · rw [hd]
      exact hshort name hname
  | boolean b => rfl
  | formula f => cases hf : Package.formulaText? f <;> simp [reloaded, hf, Package.isStorable]

end CellValue

/-! ## Sheets -/

/-- One pass suffices for a sheet: of what its regions hide nothing is stored, and no stored formula has
an inner blank. -/
structure Sheet.Settles (sheet : Sheet) : Prop where
  hidden : ∀ c, sheet.Hidden c → ¬ sheet.Suppressed c → sheet.content c = .empty ∨ sheet.content c = .text ""
  formula : ∀ c, ¬ sheet.Suppressed c → ¬ (sheet.content c).HasInnerBlank

namespace Package

variable {rules : Rules} {sheet : Sheet}

section Reload

variable (hrules : rules.Standard) (h : rules.isStorableSheet sheet = true)

include hrules h

/-- The loaded regions are those of more than one cell already. -/
theorem realMerges_reload : realMerges (rules.reload sheet) = realMerges sheet := by
  rw [realMerges, merges_reload hrules h, realMerges, List.filter_filter]
  simp

/-- A loaded sheet can be stored. -/
theorem isStorableSheet_reload : rules.isStorableSheet (rules.reload sheet) = true := by
  obtain ⟨hname, hinside, hdisjoint, hcells⟩ := (isStorableSheet_iff hrules).mp h
  rw [isStorableSheet_iff hrules, name_reload hrules h, realMerges_reload hrules h]
  refine ⟨hname, hinside, hdisjoint, fun ⟨c, v⟩ he => ?_⟩
  obtain ⟨rfl, hne, -⟩ := mem_visibleCells_iff.mp he
  -- A cell that was loaded was seen before, and so it was checked.
  rw [content_reload hrules h] at hne ⊢
  have hseen : ¬ sheet.Suppressed c := fun hsuppressed => hne (if_pos hsuppressed)
  rw [if_neg hseen] at hne ⊢
  have hfilled : sheet.content c ≠ .empty := fun hempty => hne (by rw [hempty]; rfl)
  obtain ⟨hc, hv⟩ := hcells _ (mem_visibleCells_iff.mpr ⟨rfl, hfilled, hseen⟩)
  exact ⟨hc, CellValue.isStorable_reloaded hv⟩

/-- The second pass loads the content of a cell unless the region of another cell hides it. -/
theorem content_reload_reload (c : Coordinate) :
    (rules.reload (rules.reload sheet)).content c =
      if sheet.Hidden c then .empty else (sheet.content c).reloaded.reloaded := by
  simp only [content_reload hrules (isStorableSheet_reload hrules h), suppressed_reload hrules h,
    content_reload hrules h]
  split
  · rfl
  · next hshown =>
    rw [if_neg fun hsuppressed => hshown (Sheet.suppressed_iff.mp hsuppressed).1]

/-- When the second pass leaves a cell as it is. -/
theorem content_reload_reload_eq_iff (c : Coordinate) :
    (rules.reload (rules.reload sheet)).content c = (rules.reload sheet).content c ↔
      (sheet.Hidden c → ¬ sheet.Suppressed c → sheet.content c = .empty ∨ sheet.content c = .text "") ∧
        (¬ sheet.Suppressed c → ¬ (sheet.content c).HasInnerBlank) := by
  rw [content_reload_reload hrules h, content_reload hrules h]
  by_cases hsuppressed : sheet.Suppressed c
  · rw [if_pos (Sheet.suppressed_iff.mp hsuppressed).1, if_pos hsuppressed]
    exact iff_of_true rfl ⟨fun _ hseen => absurd hsuppressed hseen, fun hseen => absurd hsuppressed hseen⟩
  rw [if_neg hsuppressed]
  by_cases hhidden : sheet.Hidden c
  · -- Nothing may have been loaded, and then there was no formula either.
    rw [if_pos hhidden, eq_comm, CellValue.reloaded_eq_empty_iff]
    constructor
    · intro hnothing
      refine ⟨fun _ _ => hnothing, fun _ => ?_⟩
      rcases hnothing with hv | hv <;> rw [hv] <;> exact id
    · exact fun hsettled => hsettled.1 hhidden hsuppressed
  · rw [if_neg hhidden, CellValue.reloaded_reloaded_iff]
    constructor
    · exact fun hplain => ⟨fun hyes => absurd hyes hhidden, fun _ => hplain⟩
    · exact fun hsettled => hsettled.2 hsuppressed

/-- The second pass changes nothing exactly if the first sufficed. -/
theorem reload_reload_iff : rules.reload (rules.reload sheet) = rules.reload sheet ↔ sheet.Settles := by
  have hcells : rules.reload (rules.reload sheet) = rules.reload sheet ↔
      ∀ c, (rules.reload (rules.reload sheet)).content c = (rules.reload sheet).content c := by
    constructor
    · exact fun heq c => by rw [heq]
    · refine fun hcontent => Sheet.ext_content ?_ ?_ hcontent
      · rw [name_reload hrules (isStorableSheet_reload hrules h)]
      · rw [merges_reload hrules (isStorableSheet_reload hrules h), realMerges_reload hrules h,
          merges_reload hrules h]
  simp only [hcells, content_reload_reload_eq_iff hrules h, forall_and]
  exact ⟨fun hsettled => ⟨hsettled.1, hsettled.2⟩, fun hsettles => ⟨hsettles.hidden, hsettles.formula⟩⟩

end Reload

/-! ## Workbooks -/

variable {workbook : Workbook}

/-- A workbook that was loaded is stored as it is, for it has a sheet. -/
theorem storedSheets_reload (rules : Rules) (workbook : Workbook) :
    storedSheets ⟨(storedSheets workbook).map rules.reload⟩ = (storedSheets workbook).map rules.reload := by
  refine if_neg fun hnil => ?_
  rw [List.map_eq_nil_iff, storedSheets] at hnil
  split at hnil
  · cases hnil
  · next hne => exact hne hnil

/-- The sheet that is stored where there is none needs no second pass. -/
theorem forall_storedSheets_settles_iff :
    (∀ sheet ∈ storedSheets workbook, sheet.Settles) ↔ ∀ sheet ∈ workbook.sheets, sheet.Settles := by
  rw [storedSheets]
  split
  · next hnil =>
    have hnew : (Sheet.new "Sheet1").Settles := by
      refine ⟨fun c _ _ => .inl rfl, fun c _ => ?_⟩
      change ¬ CellValue.empty.HasInnerBlank
      exact id
    simp [hnil, hnew]
  · rfl

/-- What was saved by standard rules and loaded can be saved and loaded once more. This gives the same
workbook exactly if one pass suffices for each sheet. -/
theorem Format.load_save_load_save {Bytes : Type} {format : Format Bytes} (hrules : format.rules.Standard)
    (hformat : format.HandsBack) {bytes : Bytes} (hsave : format.save workbook = .ok bytes) :
    ∃ once again twice, format.load bytes = .ok once ∧ format.save once = .ok again ∧
      format.load again = .ok twice ∧
      (twice = once ↔ ∀ sheet ∈ workbook.sheets, sheet.Settles) := by
  let rules := format.rules
  obtain ⟨hstorable, hdistinct, -⟩ := (save_eq_ok_iff hrules).mp hsave
  have hagain : format.save ⟨(storedSheets workbook).map rules.reload⟩ =
      .ok (format.write (((storedSheets workbook).map rules.reload).map rules.storeSheet)) := by
    rw [save_eq_ok_iff hrules, storedSheets_reload]
    refine ⟨List.forall_mem_map.mpr fun sheet hmem => isStorableSheet_reload hrules (hstorable sheet hmem), ?_, rfl⟩
    have hnames :
        ((storedSheets workbook).map rules.reload).map (·.name) = (storedSheets workbook).map (·.name) := by
      rw [List.map_map]
      exact List.map_congr_left fun sheet hmem => name_reload hrules (hstorable sheet hmem)
    rwa [hnames]
  have htwice := load_of_save hrules hformat hagain
  rw [storedSheets_reload] at htwice
  refine ⟨_, _, _, load_of_save hrules hformat hsave, hagain, htwice, ?_⟩
  rw [← forall_storedSheets_settles_iff, Workbook.mk.injEq, List.map_map, List.map_inj_left]
  exact forall₂_congr fun sheet hmem => reload_reload_iff hrules (hstorable sheet hmem)

/-- A formula with no blank behind its equality sign, an empty text, and a text under a
region: the second pass changes nothing, so one sufficed. -/
theorem Format.load_save_load_save_settled :
    let format : Format Package := ⟨.spreadsheet, id, .ok⟩
    let region : CellRange := ⟨⟨0, 0⟩, ⟨0, 1⟩, by decide, by decide⟩
    let sheet := ((((Sheet.new "S").set ⟨0, 0⟩ (.formula " =A2 ")).set ⟨0, 1⟩ (.text "under")).set
      ⟨1, 0⟩ (.text "")).merge region
    let workbook : Workbook := ⟨[sheet]⟩
    format.rules.Standard ∧ format.HandsBack ∧ sheet.Settles ∧
      ∃ package once again, format.save workbook = .ok package ∧ format.load package = .ok once ∧
        format.save once = .ok again ∧ format.load again = .ok once ∧
        once.content 0 ⟨0, 0⟩ = .formula "A2" := by
  intro format region sheet workbook
  have hrules : format.rules.Standard := Rules.standard_spreadsheet
  have hformat : format.HandsBack := fun _ _ _ => rfl
  let stored := workbook.sheets.map format.rules.storeSheet
  let loaded := Package.load stored
  have hsave : format.save workbook = .ok stored := by decide +kernel
  obtain ⟨once, again, twice, hload, hagain, htwice, hsettles⟩ := Format.load_save_load_save hrules hformat hsave
  obtain rfl : once = loaded := Except.ok.inj hload.symm
  have hstored : format.save loaded = .ok (loaded.sheets.map format.rules.storeSheet) := by decide +kernel
  obtain rfl := Except.ok.inj (hagain.symm.trans hstored)
  have hsame : twice = loaded := by
    have heq : Package.load (loaded.sheets.map format.rules.storeSheet) = loaded := by decide +kernel
    exact (Except.ok.inj htwice).symm.trans heq
  refine ⟨hrules, hformat, hsettles.mp hsame sheet List.mem_cons_self, _, _, _, hsave, hload, hstored, ?_, ?_⟩
  · rw [htwice, hsame]
  · decide +kernel

/-- A formula with a blank behind its equality sign loses that blank in the second pass only. An anchor
inside a region that was merged later keeps its content in the first pass and loses it in the second. -/
theorem Format.load_save_load_save_unsettled :
    let format : Format Package := ⟨.spreadsheet, id, .ok⟩
    let single : CellRange := ⟨⟨1, 1⟩, ⟨1, 1⟩, by decide, by decide⟩
    let region : CellRange := ⟨⟨0, 0⟩, ⟨2, 2⟩, by decide, by decide⟩
    let formulas := (Sheet.new "F").set ⟨0, 0⟩ (.formula " = B1")
    let merges := (((Sheet.new "M").set ⟨1, 1⟩ (.text "kept")).merge single).merge region
    let workbook : Workbook := ⟨[formulas, merges]⟩
    format.rules.Standard ∧ format.HandsBack ∧
      ∃ package once again twice, format.save workbook = .ok package ∧ format.load package = .ok once ∧
        format.save once = .ok again ∧ format.load again = .ok twice ∧ twice ≠ once ∧
        once.content 0 ⟨0, 0⟩ = .formula " B1" ∧ twice.content 0 ⟨0, 0⟩ = .formula "B1" ∧
        once.content 1 ⟨1, 1⟩ = .text "kept" ∧ twice.content 1 ⟨1, 1⟩ = .empty := by
  intro format single region formulas merges workbook
  let stored := workbook.sheets.map format.rules.storeSheet
  let loaded := Package.load stored
  let storedAgain := loaded.sheets.map format.rules.storeSheet
  refine ⟨Rules.standard_spreadsheet, fun _ _ _ => rfl, stored, loaded, storedAgain, Package.load storedAgain, ?_⟩
  decide +kernel

end Package

end SheetFill
