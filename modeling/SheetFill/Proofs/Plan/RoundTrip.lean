import SheetFill.Proofs.Plan.Bounds
import SheetFill.Proofs.Text.Trim

/-!
# Plans are read back

A plan that was read has a section, and each of its sections has a name that is not blank: a section
without one was named after its position. Such a plan is not changed by reading its content once
more. Its content in turn is read back from its JSON text.

Main statement: a plan with at least one section and no blank section name is read back from its JSON
text, every plan that is read from JSON or YAML is such a plan, and so reading, printing and reading
gives the plan of the first reading.
-/

namespace SheetFill

open Text (maxNat64)

/-- The name of the section is not blank. -/
def Section.IsNamed (desc : Section) : Prop :=
  Text.trim desc.id.toList ≠ []

instance (desc : Section) : Decidable desc.IsNamed :=
  inferInstanceAs (Decidable (_ ≠ _))

/-- A text that starts with a character is not blank if the character is not. -/
theorem Text.trim_ne_nil {c : Char} {cs : List Char} (h : isBlank c = false) : trim (c :: cs) ≠ [] := by
  intro hnil
  have hhead := head?_trim (c :: cs)
  rw [hnil, trimStart_cons_of_not_blank h] at hhead
  cases hhead

namespace Plan

/-- The name of a position is not blank. -/
theorem trim_sectionName_ne_nil (position : Nat) : Text.trim (sectionName position).toList ≠ [] := by
  rw [sectionName, String.toList_append]
  exact Text.trim_ne_nil (by decide : Text.isBlank 's' = false)

/-- The sections of a plan are those that were read, up to their names. -/
theorem exists_of_mem_nameSections {plan : Plan} {desc : Section} (h : desc ∈ plan.nameSections.sections) :
    ∃ read ∈ plan.sections, desc.groups = read.groups ∧ desc.IsNamed := by
  obtain ⟨⟨read, position⟩, hread, rfl⟩ := List.mem_map.mp h
  refine ⟨read, List.fst_mem_of_mem_zipIdx hread, ?_⟩
  dsimp only
  split
  · exact ⟨rfl, trim_sectionName_ne_nil position⟩
  · next hnamed => exact ⟨rfl, hnamed⟩

/-- Sections that have names keep them. -/
theorem nameSections_eq_self {plan : Plan} (h : ∀ desc ∈ plan.sections, desc.IsNamed) :
    plan.nameSections = plan := by
  have hsections : plan.nameSections.sections = plan.sections := by
    calc plan.nameSections.sections = plan.sections.zipIdx.map Prod.fst := by
          refine List.map_congr_left fun e he => ?_
          exact if_neg (h e.1 (List.fst_mem_of_mem_zipIdx he))
      _ = plan.sections := List.zipIdx_map_fst 0 plan.sections
  cases plan
  simpa only [nameSections, mk.injEq, true_and] using hsections

/-- A text is read as the plan that its content describes, with names for all sections. -/
theorem read_eq_ok_iff {format : TextFormat} {source : String} {plan : Plan} :
    read format source = .ok plan ↔
      ∃ found, (format.content? source).bind orSection? = some found ∧ found.sections ≠ [] ∧
        plan = found.nameSections := by
  unfold read
  cases (format.content? source).bind orSection? with
  | none => simp
  | some found =>
    dsimp only
    rw [checked]
    constructor
    · intro h
      split at h
      · cases h
      · next hsections => exact ⟨found, rfl, hsections, (Except.ok.inj h).symm⟩
    · rintro ⟨_, hfound, hsections, rfl⟩
      cases hfound
      rw [if_neg hsections]

/-- A plan with sections that have names is read back from its JSON text. -/
theorem read_compact {plan : Plan} (hfits : plan.Fits) (hsections : plan.sections ≠ [])
    (hnamed : ∀ desc ∈ plan.sections, desc.IsNamed) : read .json plan.content.compact = .ok plan := by
  have hcontent : Json.content? plan.content.compact = some plan.content :=
    Json.content?_compact (plan.isPlain_content hfits)
  have hplan : orSection? plan.content = some plan := by
    rw [orSection?, ofContent?_content hfits]
    rfl
  exact read_eq_ok_iff.mpr ⟨plan, Option.bind_eq_some_iff.mpr ⟨_, hcontent, hplan⟩, hsections,
    (nameSections_eq_self hnamed).symm⟩

/-- A plan that was read has sections with names, and integers of 64 bits. -/
theorem of_read {format : TextFormat} {source : String} {plan : Plan} (h : read format source = .ok plan) :
    plan.Fits ∧ plan.sections ≠ [] ∧ ∀ desc ∈ plan.sections, desc.IsNamed := by
  obtain ⟨found, hread, hsections, rfl⟩ := read_eq_ok_iff.mp h
  obtain ⟨c, hcontent, hfound⟩ := Option.bind_eq_some_iff.mp hread
  have hfits := fits_of_orSection? (TextFormat.isBounded_of_content? hcontent) hfound
  refine ⟨⟨hfits.matrices, fun desc hdesc => ?_⟩, ?_, fun desc hdesc => ?_⟩
  · obtain ⟨read, hread, hgroups, -⟩ := exists_of_mem_nameSections hdesc
    rw [Section.Fits, hgroups]
    exact hfits.sections read hread
  · simpa [nameSections] using hsections
  · obtain ⟨_, -, -, hnamed⟩ := exists_of_mem_nameSections hdesc
    exact hnamed

/-- A plan with at least one section and no blank section name is read back from its JSON text. Every
plan that is read, from JSON or YAML, is such a plan, and is read back from its own JSON text. -/
theorem read_compact_roundTrip :
    (∀ plan : Plan, plan.Fits → plan.sections ≠ [] → (∀ desc ∈ plan.sections, desc.IsNamed) →
      read .json plan.content.compact = .ok plan) ∧
    ∀ format source plan, read format source = .ok plan →
      plan.sections ≠ [] ∧ (∀ desc ∈ plan.sections, desc.IsNamed) ∧
        read .json plan.content.compact = .ok plan := by
  refine ⟨fun plan hfits hsections hnamed => read_compact hfits hsections hnamed, fun format source plan h => ?_⟩
  obtain ⟨hfits, hsections, hnamed⟩ := of_read h
  exact ⟨hsections, hnamed, read_compact hfits hsections hnamed⟩

/-- A plan with all parts, with quotes, backslashes and control characters in its texts; and a section
without a name that is written in YAML. -/
theorem read_compact_roundTrip_odd_texts :
    let table : RepeatingGroup :=
      { startCell := some "A2", startIndex := -1, indexPosition := .afterField, maxItems := some maxNat64
        fields := ⟨[("B", "a"), ("A", "'b\"'"), ("", "\\")], by decide⟩ }
    let desc : Section :=
      { id := "\u00a0\u0001one\n", template := "{x}.xlsx", dialect := .jsonPath
        mappings := ⟨[("Sheet\t!A1", "$"), ("A1", "\"\u007f")], by decide⟩
        groups := [{ dialect := some .dotted, repeating := some table }, {}] }
    let plan : Plan :=
      { bindings := ⟨[("z", "1"), ("a", "2")], by decide⟩
        matrices := [{ source := "rows", options := { rowSpacing := maxNat64 } }]
        sections := [desc, { id := "two", template := "" }] }
    plan.Fits ∧ plan.sections ≠ [] ∧ (∀ desc ∈ plan.sections, desc.IsNamed) ∧
      read .json plan.content.compact = .ok plan ∧
      let found := Plan.single { id := "section-1", template := "t.xlsx" }
      read .yaml "templateRef: t.xlsx" = .ok found ∧ found.sections ≠ [] ∧
        (∀ desc ∈ found.sections, desc.IsNamed) ∧ read .json found.content.compact = .ok found := by
  intro table desc plan
  have htable : table.Fits := ⟨by decide, by decide, fun n hn => Nat.le_of_eq (Option.some.inj hn).symm⟩
  have hdesc : desc.Fits := by
    intro group hgroup repeating hrepeating
    simp only [desc, List.mem_cons, List.not_mem_nil, or_false] at hgroup
    rcases hgroup with rfl | rfl <;> cases hrepeating
    exact htable
  have hother : ({ id := "two", template := "" } : Section).Fits := List.forall_mem_nil _
  have hfits : plan.Fits := by
    constructor
    · exact List.forall_mem_singleton.mpr ⟨by decide, Nat.le_refl _⟩
    · exact List.forall_mem_cons.mpr ⟨hdesc, List.forall_mem_singleton.mpr hother⟩
  have hnamed : ∀ desc ∈ plan.sections, desc.IsNamed := by decide
  have hyaml : read .yaml "templateRef: t.xlsx" = .ok (single { id := "section-1", template := "t.xlsx" }) := by
    decide +kernel
  exact ⟨hfits, List.cons_ne_nil _ _, hnamed,
    read_compact_roundTrip.1 plan hfits (List.cons_ne_nil _ _) hnamed, hyaml,
    read_compact_roundTrip.2 _ _ _ hyaml⟩

end Plan

end SheetFill
