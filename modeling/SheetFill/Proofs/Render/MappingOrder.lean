import SheetFill.Proofs.Fill.WriteOrder
import SheetFill.Proofs.Render.Addresses
import SheetFill.Proofs.Render.FaultIsolation

/-!
# The order of the mappings of a section

A mapping is one step at most: a cell or a range to fill, or a warning. The cells of that step are
covered by the target of the mapping, so that mappings without a covered cell in common place their
data in different cells, however their targets are spelled. Such data can be written in any order.
The groups of the section then find the same workbook.

Main statement: a section whose mappings cover no cell in common can have them in any order; the
workbook, the counts and the flat fields are the same, and so are the warnings up to their order.
-/

namespace SheetFill

namespace Step

/-- The data that a step places in its cell or range. -/
def placements : Step → List Placement
  | cell sheet c datum => [⟨sheet, c, datum⟩]
  | range _ sheet target value => (target.assign value).map fun (c, datum) => ⟨sheet, c, datum⟩
  | table _ _ _ _ _ | field _ _ | warn _ => []

/-- A step covers the cells that it places data in. -/
theorem covers_of_mem_placements {step : Step} {p : Placement} (h : p ∈ step.placements) :
    step.Covers p.sheet p.cell := by
  cases step with
  | cell sheet c datum =>
    cases List.mem_singleton.mp h
    exact ⟨rfl, rfl⟩
  | range target sheet range value =>
    obtain ⟨⟨c, datum⟩, hassigned, rfl⟩ := List.mem_map.mp h
    exact ⟨rfl, CellRange.mem_of_mem_assign hassigned⟩
  | table | field | warn => cases h

/-- A step places one datum in a cell at most. -/
theorem oneDatumEach_placements (step : Step) : Workbook.OneDatumEach step.placements := by
  intro p hp q hq hsheet hcell
  cases step with
  | cell sheet c datum => rw [List.mem_singleton.mp hp, List.mem_singleton.mp hq]
  | range target sheet range value =>
    obtain ⟨⟨c, datum⟩, hassigned, rfl⟩ := List.mem_map.mp hp
    obtain ⟨⟨k, other⟩, hother, rfl⟩ := List.mem_map.mp hq
    obtain rfl : c = k := hcell
    rw [CellRange.eq_of_mem_assign hassigned hother]
  | table | field | warn => cases hp

/-- What can become of a mapping: a cell or a range to fill, or a warning. -/
def IsMapping : Step → Prop
  | cell _ _ _ | range _ _ _ _ | warn _ => True
  | table _ _ _ _ _ | field _ _ => False

end Step

namespace Rendering

/-- The workbook and the counts so far. -/
def counted (r : Rendering) : Workbook × Tally := (r.workbook, r.report.tally)

/-- The step of a mapping writes what it places, and sets no field. -/
theorem perform_mapping (overwrite : Bool) (r : Rendering) {step : Step} (h : step.IsMapping) :
    (r.perform overwrite step).counted = Workbook.putAll overwrite r.counted step.placements ∧
      (r.perform overwrite step).report.flatFields = r.report.flatFields := by
  cases step with
  | cell sheet c datum =>
    have hcount := r.report.tally.add_count .zero (r.workbook.outcome sheet overwrite c)
    exact ⟨congrArg (Prod.mk _) hcount, rfl⟩
  | range target sheet range value =>
    have hadd := Workbook.putAll_add overwrite r.workbook r.report.tally .zero
      (Step.range target sheet range value).placements
    rw [Step.placements, ← Workbook.writeAll_eq_putAll sheet _ (r.workbook, .zero)] at hadd
    exact ⟨hadd.symm, rfl⟩
  | warn warning => exact ⟨rfl, rfl⟩
  | table | field => cases h

/-- The steps of mappings write what they place, and set no field. -/
theorem performAll_mappings (overwrite : Bool) (r : Rendering) {steps : List Step}
    (h : ∀ step ∈ steps, step.IsMapping) :
    (r.performAll overwrite steps).counted =
        Workbook.putAll overwrite r.counted (steps.flatMap Step.placements) ∧
      (r.performAll overwrite steps).report.flatFields = r.report.flatFields := by
  induction steps generalizing r with
  | nil => exact ⟨rfl, rfl⟩
  | cons step rest ih =>
    obtain ⟨hstep, hrest⟩ := List.forall_mem_cons.mp h
    obtain ⟨hcounted, hfields⟩ := r.perform_mapping overwrite hstep
    obtain ⟨ihcounted, ihfields⟩ := ih (r.perform overwrite step) hrest
    rw [List.flatMap_cons, Workbook.putAll_append, ← hcounted, ← hfields]
    exact ⟨ihcounted, ihfields⟩

end Rendering

namespace Surroundings

variable {s : Surroundings} {dialect : Dialect} {data : Tree} {target : String} {step : Step}
  {entries : List (String × String)}

/-- The ranges that a target can be read as, with their sheets; a cell is a range by itself. -/
def areas (s : Surroundings) (target : String) : List (Nat × CellRange) :=
  let range? (address : RangeAddress) := (s.sheet address.sheet).toOption.map (·, address.range)
  let cell? (address : CellAddress) := (s.sheet address.sheet).toOption.map
    (·, (⟨address.cell, address.cell, Nat.le_refl _, Nat.le_refl _⟩ : CellRange))
  ((RangeAddress.parse target).toOption.bind range?).toList ++
    ((CellAddress.parse target).toOption.bind cell?).toList

/-- A target covers the cells of the ranges that it can be read as. -/
theorem covers_iff {i : Nat} {c : Coordinate} :
    s.Covers target i c ↔ ∃ area ∈ s.areas target, area.1 = i ∧ c ∈ area.2 := by
  have hsingle (cell : Coordinate) : c ∈ CellRange.mk cell cell (Nat.le_refl _) (Nat.le_refl _) ↔ c = cell := by
    change CellRange.Mem _ c ↔ _
    simp only [CellRange.Mem, Coordinate.ext_iff]
    omega
  have hok {α : Type} (x : Except Fault α) (a : α) : x.toOption = some a ↔ x = .ok a := by
    cases x <;> simp [Except.toOption]
  simp only [Covers, areas, List.mem_append, Option.mem_toList, Option.bind_eq_some_iff,
    Option.map_eq_some_iff, hok]
  constructor
  · rintro (⟨address, hparse, hsheet, hmem⟩ | ⟨address, hparse, hsheet, hcell⟩)
    · exact ⟨_, .inl ⟨address, hparse, i, hsheet, rfl⟩, rfl, hmem⟩
    · exact ⟨_, .inr ⟨address, hparse, i, hsheet, rfl⟩, rfl, (hsingle _).mpr hcell⟩
  · rintro ⟨_, ⟨address, hparse, j, hsheet, rfl⟩ | ⟨address, hparse, j, hsheet, rfl⟩, rfl, hmem⟩
    · exact .inl ⟨address, hparse, hsheet, hmem⟩
    · exact .inr ⟨address, hparse, hsheet, (hsingle _).mp hmem⟩

/-- Different mappings cover no cell in common. -/
def Apart (s : Surroundings) (entries : List (String × String)) : Prop :=
  ∀ a ∈ entries, ∀ b ∈ entries, a ≠ b → ∀ i c, s.Covers a.1 i c → ¬ s.Covers b.1 i c

/-- Mappings cover no cell in common exactly if none of their ranges on one sheet overlap. -/
theorem apart_iff :
    s.Apart entries ↔
      ∀ a ∈ entries, ∀ b ∈ entries, a ≠ b → ∀ area ∈ s.areas a.1, ∀ other ∈ s.areas b.1,
        area.1 = other.1 → ¬ area.2.Overlaps other.2 := by
  refine forall₄_congr fun a _ b _ => imp_congr_right fun _ => ?_
  simp only [covers_iff, CellRange.overlaps_iff]
  constructor
  · rintro h area harea other hother hsheet ⟨c, hc, hc'⟩
    exact h area.1 c ⟨area, harea, rfl, hc⟩ ⟨other, hother, hsheet.symm, hc'⟩
  · rintro h i c ⟨area, harea, rfl, hc⟩ ⟨other, hother, hsheet, hc'⟩
    exact h area harea other hother hsheet.symm ⟨c, hc, hc'⟩

instance (s : Surroundings) (entries : List (String × String)) : Decidable (s.Apart entries) :=
  decidable_of_iff _ apart_iff.symm

/-- A value is placed by one step at most. -/
theorem of_mem_placeSelection {selection : Selection} (h : step ∈ s.placeSelection target selection) :
    step.IsMapping ∧ s.placeSelection target selection = [step] := by
  unfold placeSelection at h ⊢
  split at h
  · cases h
  · rw [if_neg ‹_›]
    split at h
    · next hplace =>
      cases List.mem_singleton.mp h
      refine ⟨?_, rfl⟩
      rcases place_eq_ok hplace with ⟨_, _, -, -, rfl⟩ | ⟨_, _, -, -, rfl⟩ <;> exact True.intro
    · cases List.mem_singleton.mp h
      exact ⟨True.intro, rfl⟩

/-- A mapping is one step at most. -/
theorem of_mem_mappingSteps {path : String} (h : step ∈ s.mappingSteps dialect data target path) :
    step.IsMapping ∧ s.mappingSteps dialect data target path = [step] := by
  unfold mappingSteps at h ⊢
  split at h
  · exact of_mem_placeSelection h
  · cases List.mem_singleton.mp h
    exact ⟨True.intro, rfl⟩

/-- The steps of a list of mappings. -/
def mappingsSteps (s : Surroundings) (dialect : Dialect) (data : Tree) (entries : List (String × String)) :
    List Step :=
  entries.flatMap fun e => s.mappingSteps dialect data e.1 e.2

/-- The steps of mappings fill cells and ranges, or warn. -/
theorem isMapping_of_mem_mappingsSteps (h : step ∈ s.mappingsSteps dialect data entries) :
    step.IsMapping := by
  obtain ⟨e, -, hmem⟩ := List.mem_flatMap.mp h
  exact (of_mem_mappingSteps hmem).1

/-- Mappings that cover no cell in common place one datum in a cell at most. -/
theorem Apart.oneDatumEach (h : s.Apart entries) :
    Workbook.OneDatumEach ((s.mappingsSteps dialect data entries).flatMap Step.placements) := by
  intro p hp q hq hsheet hcell
  obtain ⟨first, hfirst, hp⟩ := List.mem_flatMap.mp hp
  obtain ⟨second, hsecond, hq⟩ := List.mem_flatMap.mp hq
  obtain ⟨a, ha, hfirst⟩ := List.mem_flatMap.mp hfirst
  obtain ⟨b, hb, hsecond⟩ := List.mem_flatMap.mp hsecond
  by_cases hab : a = b
  · -- Both data come from the one step of the mapping.
    subst hab
    rw [(of_mem_mappingSteps hfirst).2] at hsecond
    obtain rfl := List.mem_singleton.mp hsecond
    exact second.oneDatumEach_placements p hp q hq hsheet hcell
  · have hcovered := covers_of_mem_mappingSteps hfirst (Step.covers_of_mem_placements hp)
    have hother := covers_of_mem_mappingSteps hsecond (Step.covers_of_mem_placements hq)
    rw [← hsheet, ← hcell] at hother
    exact absurd hother (h a ha b hb hab _ _ hcovered)

end Surroundings

namespace Workbook

variable {workbook : Workbook} {desc : Section} {data : Tree} {rendering : Rendering}

/-- Different mappings of the section cover no cell of the workbook in common. -/
def MappingsApart (workbook : Workbook) (desc : Section) : Prop :=
  ∀ defaultSheet, workbook.resolve desc.sheet = .ok defaultSheet →
    Surroundings.Apart ⟨workbook, defaultSheet⟩ desc.mappings.entries

/-- The order of mappings that cover no cell in common does not matter: with its mappings in another
order the section is rendered to the same workbook, with the same counts and flat fields, and with the
same warnings up to their order. -/
theorem render_permuted_mappings (hrender : workbook.render desc data = .ok rendering)
    (hapart : workbook.MappingsApart desc) {mappings : TextMap}
    (hperm : mappings.entries.Perm desc.mappings.entries) :
    ∃ permuted, workbook.render { desc with mappings := mappings } data = .ok permuted ∧
      permuted.workbook = rendering.workbook ∧
      permuted.report.tally = rendering.report.tally ∧
      permuted.report.flatFields = rendering.report.flatFields ∧
      permuted.report.warnings.Perm rendering.report.warnings := by
  obtain ⟨defaultSheet, hresolve, rfl⟩ := render_eq_ok_iff.mp hrender
  refine ⟨_, render_eq_ok_iff.mpr ⟨defaultSheet, hresolve, rfl⟩, ?_⟩
  let s : Surroundings := ⟨workbook, defaultSheet⟩
  let start : Rendering := ⟨workbook, { id := desc.id, template := desc.template }⟩
  let before := s.mappingsSteps desc.dialect data desc.mappings.entries
  let after := s.mappingsSteps desc.dialect data mappings.entries
  let groups := desc.groups.flatMap (s.groupSteps desc.dialect data)
  have hsteps : after.Perm before := hperm.flatMap_right _
  obtain ⟨hbefore, hbeforeFields⟩ := start.performAll_mappings desc.overwrite
    fun step (h : step ∈ before) => Surroundings.isMapping_of_mem_mappingsSteps h
  obtain ⟨hafter, hafterFields⟩ := start.performAll_mappings desc.overwrite
    fun step (h : step ∈ after) => Surroundings.isMapping_of_mem_mappingsSteps h
  have hcounted : (start.performAll desc.overwrite after).counted =
      (start.performAll desc.overwrite before).counted := by
    rw [hbefore, hafter]
    exact (putAll_perm (hsteps.symm.flatMap_right _) (hapart defaultSheet hresolve).oneDatumEach _).symm
  obtain ⟨hworkbook, htally⟩ := Prod.mk.inj hcounted
  have hagree : Rendering.Agree (start.performAll desc.overwrite after)
      (start.performAll desc.overwrite before) :=
    ⟨hworkbook, htally, hafterFields.trans hbeforeFields.symm⟩
  have hgroups := hagree.performAll desc.overwrite groups
  rw [← Rendering.performAll_append, ← Rendering.performAll_append] at hgroups
  refine ⟨hgroups.workbook, hgroups.tally, hgroups.flatFields, ?_⟩
  rw [Rendering.warnings_performAll, Rendering.warnings_performAll]
  exact ((hsteps.append_right groups).flatMap_right Step.warnings).append_left _

/-- Cells and ranges of two sheets, one of them spelled with its sheet and dollars, some of them
occupied or merged or without room, and a table that finds them filled. -/
theorem render_permuted_mappings_two_sheets :
    let mappings : TextMap :=
      ⟨[("A1", "title"), ("'S'!$B$1:C2", "ages"), ("D1:D2", "names"), ("Other!A1", "title"), ("A0", "title"),
        ("E1", "a..b")], by decide⟩
    let reversed : TextMap :=
      ⟨[("E1", "a..b"), ("A0", "title"), ("Other!A1", "title"), ("D1:D2", "names"), ("'S'!$B$1:C2", "ages"),
        ("A1", "title")], by decide⟩
    let table : RepeatingGroup := { startCell := some "A2", fields := ⟨[("A", "@"), ("B", "@")], by decide⟩ }
    let desc : Section :=
      { template := "t.xlsx", mappings := mappings
        groups := [{ basePath := some "names", repeating := some table }] }
    let data : Tree :=
      .record [("ages", .list [.list [.text "1", .text "2", .text "3"], .text "4", .null]),
        ("names", .list [.text "Ann", .text "Bob", .text "Cid"]), ("title", .text "Staff")]
    let workbook : Workbook :=
      ⟨[((Sheet.new "S").set ⟨0, 0⟩ (.text "kept")).merge ⟨⟨0, 1⟩, ⟨0, 2⟩, by decide, by decide⟩, .new "Other"]⟩
    workbook.MappingsApart desc ∧ reversed.entries.Perm mappings.entries ∧
      ∃ rendering, workbook.render desc data = .ok rendering ∧
        ∃ permuted, workbook.render { desc with mappings := reversed } data = .ok permuted ∧
          permuted.workbook = rendering.workbook ∧
          permuted.report.tally = rendering.report.tally ∧
          permuted.report.flatFields = rendering.report.flatFields ∧
          permuted.report.warnings.Perm rendering.report.warnings := by
  intro mappings reversed table desc data workbook
  have hapart : workbook.MappingsApart desc := by
    intro defaultSheet hresolve
    cases hresolve
    decide +kernel
  have hperm : reversed.entries.Perm mappings.entries := List.reverse_perm mappings.entries
  exact ⟨hapart, hperm, _, rfl, render_permuted_mappings rfl hapart hperm⟩

end Workbook

end SheetFill
