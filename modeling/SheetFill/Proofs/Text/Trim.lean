import Mathlib.Data.List.Basic
import SheetFill.Text.Blank

/-!
# Trimmed texts

Trimming leaves a text that neither starts nor ends with a blank, and it leaves such a text alone.
Hence trimming twice is trimming once.
-/

namespace SheetFill.Text

variable {cs : List Char}

/-- Nothing is dropped in front of a character that is not blank. -/
theorem trimStart_eq_self (h : ∀ c ∈ cs.head?, isBlank c = false) : trimStart cs = cs := by
  cases cs with
  | nil => rfl
  | cons c rest => exact trimStart_cons_of_not_blank (h c rfl) rest

/-- What is left does not start with a blank. -/
theorem not_blank_of_mem_head?_trimStart {c : Char} (h : c ∈ (trimStart cs).head?) : isBlank c = false := by
  induction cs with
  | nil => cases h
  | cons first rest ih =>
    cases hfirst : isBlank first with
    | true =>
      rw [trimStart_cons_of_blank hfirst] at h
      exact ih h
    | false =>
      rw [trimStart_cons_of_not_blank hfirst] at h
      cases h
      exact hfirst

/-- Dropping behind is dropping in front of the reversed text. -/
theorem trimEnd_eq_reverse (cs : List Char) : trimEnd cs = (trimStart cs.reverse).reverse := rfl

theorem trimEnd_prefix (cs : List Char) : trimEnd cs <+: cs := by
  have h := List.dropWhile_suffix (l := cs.reverse) isBlank
  rw [← List.reverse_prefix, List.reverse_reverse] at h
  exact h

/-- Trimming only drops characters. -/
theorem trim_sublist (cs : List Char) : (trim cs).Sublist cs := by
  have h := trimEnd_prefix (trimStart cs)
  exact h.sublist.trans (List.dropWhile_sublist isBlank)

/-- A text that neither starts nor ends with a blank stays as it is. -/
theorem trim_eq_self (hfirst : ∀ c ∈ cs.head?, isBlank c = false)
    (hlast : ∀ c ∈ cs.getLast?, isBlank c = false) : trim cs = cs := by
  rw [trim, trimStart_eq_self hfirst, trimEnd_eq_reverse, trimStart_eq_self, List.reverse_reverse]
  rwa [List.head?_reverse]

/-- Dropping the blanks behind leaves the first character that is not blank. -/
theorem head?_trim (cs : List Char) : (trim cs).head? = (trimStart cs).head? := by
  rw [trim]
  cases hstart : trimStart cs with
  | nil => rfl
  | cons c rest =>
    have hfirst : c ∈ (trimStart cs).head? := by
      rw [hstart]
      rfl
    have hc := not_blank_of_mem_head?_trimStart hfirst
    rw [trimEnd, List.reverse_cons, List.dropWhile_append, List.dropWhile_cons_of_neg (by simp [hc])]
    split <;> simp

/-- A trimmed text does not start with a blank. -/
theorem not_blank_of_mem_head?_trim {c : Char} (h : c ∈ (trim cs).head?) : isBlank c = false := by
  rw [head?_trim] at h
  exact not_blank_of_mem_head?_trimStart h

/-- A trimmed text does not end with a blank. -/
theorem not_blank_of_mem_getLast?_trim {c : Char} (h : c ∈ (trim cs).getLast?) : isBlank c = false := by
  rw [trim, trimEnd_eq_reverse, List.getLast?_reverse] at h
  exact not_blank_of_mem_head?_trimStart h

@[simp] theorem trim_trim (cs : List Char) : trim (trim cs) = trim cs :=
  trim_eq_self (fun _ => not_blank_of_mem_head?_trim) fun _ => not_blank_of_mem_getLast?_trim

/-- A text is trimmed if its characters are. -/
theorem trimmed_eq_self_iff {s : String} : trimmed s = s ↔ trim s.toList = s.toList := by
  rw [← String.toList_inj, trimmed, String.toList_ofList]

/-- A text that starts with a trimmed text and does not end with a blank is trimmed. -/
theorem trim_append {front back : List Char} (hfront : trim front = front) (hne : front ≠ [])
    (hback : ∀ c ∈ back.getLast?, isBlank c = false) : trim (front ++ back) = front ++ back := by
  apply trim_eq_self
  · intro c hc
    rw [List.head?_append_of_ne_nil _ hne, ← hfront] at hc
    exact not_blank_of_mem_head?_trim hc
  · intro c hc
    cases back with
    | nil =>
      rw [List.append_nil, ← hfront] at hc
      exact not_blank_of_mem_getLast?_trim hc
    | cons d rest =>
      rw [List.getLast?_append_of_ne_nil _ (List.cons_ne_nil d rest)] at hc
      exact hback c hc

end SheetFill.Text
