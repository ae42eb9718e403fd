import Mathlib.Data.List.Basic
import SheetFill.Text.Cut

/-!
# Cut texts

A text is cut where the separator stands first, or where it stands last: in front of the first one, and
behind the last one, there is none. A text without the separator is not cut.
-/

namespace SheetFill.Text

variable {separator : Char} {cs before behind : List Char}

/-- A text without the separator is not cut. -/
theorem cutLast_eq_none (h : separator ∉ cs) : cutLast separator cs = none := by
  induction cs with
  | nil => rfl
  | cons c rest ih =>
    obtain ⟨hc, hrest⟩ := not_or.mp (mt List.mem_cons.mpr h)
    rw [cutLast, ih hrest]
    exact if_neg (Ne.symm hc)

/-- A text that is cut holds the separator. -/
theorem mem_of_cut_eq_some {parts : List Char × List Char} (h : cut separator cs = some parts) :
    separator ∈ cs := by
  obtain ⟨before, behind⟩ := parts
  rw [append_of_cut h]
  simp

/-- A text is cut at the separator behind which the last part stands. -/
theorem cutLast_append (h : separator ∉ behind) :
    cutLast separator (before ++ separator :: behind) = some (before, behind) := by
  induction before with
  | nil => rw [List.nil_append, cutLast, cutLast_eq_none h, if_pos rfl]
  | cons c before ih => rw [List.cons_append, cutLast, ih]

/-- A text is cut at the first separator. -/
theorem cut_eq_some_iff :
    cut separator cs = some (before, behind) ↔ cs = before ++ separator :: behind ∧ separator ∉ before := by
  constructor
  · intro h
    refine ⟨append_of_cut h, ?_⟩
    induction cs generalizing before with
    | nil => cases h
    | cons c cs ih =>
      rw [cut] at h
      split at h
      · cases h
        exact List.not_mem_nil
      · next hc =>
        obtain ⟨⟨front, back⟩, hcut, heq⟩ := Option.map_eq_some_iff.mp h
        cases heq
        exact List.not_mem_cons_of_ne_of_not_mem (Ne.symm hc) (ih hcut)
  · rintro ⟨rfl, h⟩
    induction before with
    | nil => rw [List.nil_append, cut, if_pos rfl]
    | cons c before ih =>
      obtain ⟨hc, hbefore⟩ := not_or.mp (mt List.mem_cons.mpr h)
      rw [List.cons_append, cut, if_neg (Ne.symm hc), ih hbefore]
      rfl

end SheetFill.Text
