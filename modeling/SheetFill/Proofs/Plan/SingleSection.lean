import SheetFill.Proofs.Json.Nested
import SheetFill.Proofs.Plan.RoundTrip

/-!
# A section by itself is the plan of one section

A text that describes a section may stand by itself, or as the one section of a plan that says nothing else. Both are
read in the same way: the text inside is read as it is alone, the fields that are missing around it have the values
that they have in the plan of one section, and the name that a blank one gets is the first in both.

Main statement: where a text is no plan, it is read as the plan that has it for its one section, and it is refused
where that plan is. A plan without sections is a plan all the same: it is refused, and never read as a section.
-/

namespace SheetFill

namespace Plan

open Content (fieldsOf? asList?)

/-- The text of the plan that says nothing but its one section. -/
def onlySection (text : String) : String :=
  "\x7b\"sections\":[" ++ text ++ "]\x7d"

/-- The content of the plan that says nothing but its one section. -/
def onlyContent (c : Content) : Content :=
  .entries [(.text "sections", .list [c])]

/-- The text inside is read as it is alone. -/
theorem content?_onlySection {text : String} {c : Content} (hcontent : Json.content? text = some c)
    (hroom : 2 + c.depth ≤ Json.maxDepth) : Json.content? (onlySection text) = some (onlyContent c) := by
  have hchars : (onlySection text).toList =
      '\x7b' :: (Json.quote "sections" ++ ':' :: '[' :: (text.toList ++ [']', '\x7d'])) := by
    rw [onlySection, String.toList_append, String.toList_append, List.append_assoc]
    rfl
  apply Json.Yields.content?_eq
  rw [hchars]
  refine .step (by decide) rfl (Nat.le_refl _) rfl (.quote "sections" rfl ?_)
  refine .step (by decide) rfl (Nat.le_refl _) rfl (.step (by decide) rfl (Nat.le_refl _) rfl (.firstItem ?_))
  refine .text hcontent hroom (.cons (by decide) _) ?_
  refine .step (by decide) rfl (Nat.le_refl _) rfl (.step (by decide) rfl (Nat.le_refl _) rfl ?_)
  exact ⟨[], ⟨0, Nat.le_refl _, rfl⟩, rfl⟩

/-- The plan that says nothing but its one section is the plan of that section. -/
theorem ofContent?_onlyContent (c : Content) : ofContent? (onlyContent c) = (Section.ofContent? c).map single := by
  have hfields : fieldsOf? names (onlyContent c) = some [none, none, none, some (.list [c])] := rfl
  rw [ofContent?, hfields]
  cases hdesc : Section.ofContent? c with
  | none => simp [optional?, required?, asList?, hdesc]
  | some desc => simp [optional?, required?, asList?, hdesc, single]

/-- The plan that says nothing but its one section is no section: it names no template. -/
theorem section_ofContent?_onlyContent (c : Content) : Section.ofContent? (onlyContent c) = none := by
  have hfields : fieldsOf? Section.names (onlyContent c) = some [none, none, none, none, none, none, none] := rfl
  rw [Section.ofContent?, hfields]
  rfl

/-- The plan that says nothing but its one section is read through the section. -/
theorem orSection?_onlyContent (c : Content) : orSection? (onlyContent c) = (Section.ofContent? c).map single := by
  rw [orSection?, ofContent?_onlyContent, section_ofContent?_onlyContent]
  cases Section.ofContent? c <;> rfl

/-- Where a JSON text is no plan, it is read as the plan that has it for its one section, with the same fault if it
is refused. It is accepted exactly if it describes a section, and gives the plan of that section. -/
theorem read_section_alone {text : String} {c : Content} (hcontent : Json.content? text = some c)
    (hdepth : c.depth ≤ 100) (hplan : ofContent? c = none) :
    read .json (onlySection text) = read .json text ∧
      ∀ plan, read .json text = .ok plan ↔
        ∃ desc, Section.ofContent? c = some desc ∧ plan = (single desc).nameSections := by
  have hroom : 2 + c.depth ≤ Json.maxDepth := Nat.le_trans (Nat.add_le_add_left hdepth 2) (by decide)
  have halone : (TextFormat.json.content? text).bind orSection? = (Section.ofContent? c).map single := by
    change (Json.content? text).bind orSection? = _
    rw [hcontent, Option.bind_some, orSection?, hplan]
    rfl
  have hwithin : (TextFormat.json.content? (onlySection text)).bind orSection? =
      (Section.ofContent? c).map single := by
    change (Json.content? (onlySection text)).bind orSection? = _
    rw [content?_onlySection hcontent hroom, Option.bind_some, orSection?_onlyContent]
  refine ⟨by rw [read, read, halone, hwithin], fun plan => ?_⟩
  rw [read_eq_ok_iff, halone]
  constructor
  · rintro ⟨found, hfound, -, rfl⟩
    obtain ⟨desc, hdesc, rfl⟩ := Option.map_eq_some_iff.mp hfound
    exact ⟨desc, hdesc, rfl⟩
  · rintro ⟨desc, hdesc, rfl⟩
    exact ⟨single desc, Option.map_eq_some_iff.mpr ⟨desc, hdesc, rfl⟩, List.cons_ne_nil _ _, rfl⟩

/-- A section without a name that is written as a list; and a record that gives the template by both of its names,
which is refused by itself and in a plan. -/
theorem read_section_alone_list_and_alias :
    let listed : Content := .list [.text "", .text "t.xlsx", .null]
    let twice : Content := .entries [(.text "templateRef", .text "a"), (.text "templatePath", .text "b")]
    (Json.content? "[\"\",\"t.xlsx\", null]\n" = some listed ∧ listed.depth ≤ 100 ∧ ofContent? listed = none ∧
        read .json (onlySection "[\"\",\"t.xlsx\", null]\n") = read .json "[\"\",\"t.xlsx\", null]\n" ∧
        read .json "[\"\",\"t.xlsx\", null]\n" = .ok (single { id := "section-1", template := "t.xlsx" })) ∧
      Json.content? "\x7b\"templateRef\":\"a\",\"templatePath\":\"b\"\x7d" = some twice ∧ twice.depth ≤ 100 ∧
        ofContent? twice = none ∧
        read .json (onlySection "\x7b\"templateRef\":\"a\",\"templatePath\":\"b\"\x7d") = .error .malformedJson := by
  intro listed twice
  have hlisted : Json.content? "[\"\",\"t.xlsx\", null]\n" = some listed := rfl
  have htwice : Json.content? "\x7b\"templateRef\":\"a\",\"templatePath\":\"b\"\x7d" = some twice := rfl
  have hdepth : listed.depth ≤ 100 ∧ twice.depth ≤ 100 := by decide
  have hplans : ofContent? listed = none ∧ ofContent? twice = none := by decide +kernel
  have hfirst := read_section_alone hlisted hdepth.1 hplans.1
  have hsecond := read_section_alone htwice hdepth.2 hplans.2
  have hdesc : Section.ofContent? listed = some { id := "", template := "t.xlsx" } := by decide +kernel
  have hnamed : single { id := "section-1", template := "t.xlsx" } =
      (single { id := "", template := "t.xlsx" }).nameSections := by decide +kernel
  have hrefused : read .json "\x7b\"templateRef\":\"a\",\"templatePath\":\"b\"\x7d" = .error .malformedJson := by
    decide +kernel
  exact ⟨⟨hlisted, hdepth.1, hplans.1, hfirst.1, (hfirst.2 _).mpr ⟨_, hdesc, hnamed⟩⟩, htwice, hdepth.2, hplans.2,
    hsecond.1.trans hrefused⟩

end Plan

end SheetFill
