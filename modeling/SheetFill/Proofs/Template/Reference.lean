import Mathlib.Data.List.Basic
import SheetFill.Template.Reference

/-!
# References without placeholders

A reference in which no placeholder is found is the template's name as it stands, whatever the
variables are.
-/

namespace SheetFill.Template

/-- No placeholder is found in the reference. -/
def IsPlain (reference : String) : Prop :=
  ∀ name, Piece.placeholder name ∉ pieces reference.toList

/-- Without placeholders the pieces are the characters. -/
theorem pieces_eq_map_literal {cs : List Char} (h : ∀ name, Piece.placeholder name ∉ pieces cs) :
    pieces cs = cs.map .literal := by
  fun_induction pieces cs with
  | case1 => rfl
  | case2 cs name rest hfound ih => exact absurd (List.mem_cons_self ..) (h name)
  | case3 cs hnone ih =>
    rw [List.map_cons, ih fun name hmem => h name (List.mem_cons_of_mem _ hmem)]
  | case4 c cs hbrace ih =>
    rw [List.map_cons, ih fun name hmem => h name (List.mem_cons_of_mem _ hmem)]

/-- Where there is no opening brace, the pieces are the characters. -/
theorem pieces_of_not_mem {cs : List Char} (h : '\x7b' ∉ cs) : pieces cs = cs.map .literal := by
  induction cs with
  | nil => rw [pieces, List.map_nil]
  | cons c rest ih =>
    obtain ⟨hc, hrest⟩ := not_or.mp (mt List.mem_cons.mpr h)
    rw [pieces, if_neg (Ne.symm hc), ih hrest, List.map_cons]

/-- A reference without an opening brace holds no placeholder. -/
theorem isPlain_of_not_mem {reference : String} (h : '\x7b' ∉ reference.toList) : IsPlain reference := by
  intro name hmem
  rw [pieces_of_not_mem h] at hmem
  simp at hmem

/-- A reference without placeholders stays as it is. -/
theorem resolve_of_isPlain {reference : String} (h : IsPlain reference) (bindings : TextMap) :
    resolve reference bindings = .ok reference := by
  have hpieces := pieces_eq_map_literal h
  have hmissing : (reference.toList.map Piece.literal).filterMap (Piece.missing? bindings) = [] := by
    simp [List.filterMap_map, Piece.missing?, Function.comp_def]
  have hfilled : (reference.toList.map Piece.literal).flatMap (Piece.filled bindings) = reference.toList := by
    simp [List.flatMap_map, Piece.filled]
  rw [resolve, hpieces]
  simp only [hmissing, hfilled, String.ofList_toList]

end SheetFill.Template
