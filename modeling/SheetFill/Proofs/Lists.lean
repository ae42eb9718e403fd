import Mathlib.Data.List.Basic
import Mathlib.Data.List.TakeWhile

/-!
# Runs, blocks and lookups

Facts about lists that several parts of the library need: a run of characters of one class ends where another class
starts, blocks of one length are found by division, and where the keys of entries are in an order, a key finds every
entry that has it.
-/

namespace SheetFill

section

variable {α : Type} {p : α → Bool} {run rest : List α}

/-- A run of elements of a class ends where the next one is of another class. -/
theorem takeWhile_run (hrun : ∀ a ∈ run, p a = true) (hrest : ∀ a ∈ rest.head?, p a = false) :
    (run ++ rest).takeWhile p = run := by
  have hstop : rest.takeWhile p = [] := by
    cases rest with
    | nil => rfl
    | cons a rest => exact List.takeWhile_cons_of_neg (by simp [hrest a rfl])
  rw [List.takeWhile_append_of_pos hrun, hstop, List.append_nil]

/-- What follows a run of elements of a class is left. -/
theorem dropWhile_run (hrun : ∀ a ∈ run, p a = true) (hrest : ∀ a ∈ rest.head?, p a = false) :
    (run ++ rest).dropWhile p = rest := by
  have hstop : rest.dropWhile p = rest := by
    cases rest with
    | nil => rfl
    | cons a rest => exact List.dropWhile_cons_of_neg (by simp [hrest a rfl])
  rw [List.dropWhile_append_of_pos hrun, hstop]

/-- Where a run of a class ends is determined by the elements. -/
theorem run_append_inj {run' rest' : List α} (hrun : ∀ a ∈ run, p a = true) (hrest : ∀ a ∈ rest.head?, p a = false)
    (hrun' : ∀ a ∈ run', p a = true) (hrest' : ∀ a ∈ rest'.head?, p a = false) (h : run ++ rest = run' ++ rest') :
    run = run' ∧ rest = rest' := by
  have htake := takeWhile_run hrun hrest
  have hdrop := dropWhile_run hrun hrest
  rw [h] at htake hdrop
  exact ⟨htake.symm.trans (takeWhile_run hrun' hrest'), hdrop.symm.trans (dropWhile_run hrun' hrest')⟩

end

section

variable {α β : Type} {n : Nat} {f : α → List β}

/-- Blocks of one length in a row have a length that is a multiple of it. -/
theorem length_flatMap_blocks (h : ∀ a, (f a).length = n) (l : List α) : (l.flatMap f).length = l.length * n := by
  induction l with
  | nil => simp
  | cons a l ih => rw [List.flatMap_cons, List.length_append, h, ih, List.length_cons, Nat.succ_mul, Nat.add_comm]

/-- In blocks that each have as many elements with a property, those elements are a multiple of that number. -/
theorem countP_flatMap_blocks {p : β → Bool} (h : ∀ a, (f a).countP p = n) (l : List α) :
    (l.flatMap f).countP p = l.length * n := by
  simp only [List.countP_eq_length_filter, List.filter_flatMap] at h ⊢
  exact length_flatMap_blocks h l

/-- In blocks of one length a place is a block and a place in it. -/
theorem getElem?_flatMap_blocks (h : ∀ a, (f a).length = n) (l : List α) (i : Nat) {k : Nat} (hk : k < n) :
    (l.flatMap f)[i * n + k]? = l[i]?.bind fun a => (f a)[k]? := by
  induction l generalizing i with
  | nil => simp
  | cons a l ih =>
    rw [List.flatMap_cons]
    cases i with
    | zero =>
      rw [Nat.zero_mul, Nat.zero_add, List.getElem?_append_left (by rwa [h])]
      rfl
    | succ i =>
      have hplace : (i + 1) * n + k - (f a).length = i * n + k := by
        rw [h, Nat.succ_mul]
        omega
      rw [List.getElem?_append_right (by rw [h, Nat.succ_mul]; omega), hplace, ih, List.getElem?_cons_succ]

end

/-- Keeping the first of equal elements commutes with leaving elements out. -/
theorem eraseDups_filter {α : Type} [BEq α] [LawfulBEq α] (p : α → Bool) (l : List α) :
    (l.filter p).eraseDups = l.eraseDups.filter p := by
  match l with
  | [] => rfl
  | a :: rest =>
    have ih := eraseDups_filter p (rest.filter fun b => !b == a)
    rw [List.eraseDups_cons]
    by_cases ha : p a = true
    · rw [List.filter_cons_of_pos ha, List.eraseDups_cons, List.filter_cons_of_pos ha, ← ih, List.filter_comm]
    · have hkept : (rest.filter fun b => !b == a).filter p = rest.filter p := by
        rw [List.filter_filter]
        refine List.filter_congr fun b _ => ?_
        by_cases hb : b = a
        · rw [hb, Bool.eq_false_iff.mpr ha]
          rfl
        · simp [hb]
      rw [List.filter_cons_of_neg ha, List.filter_cons_of_neg ha, ← ih, hkept]
termination_by l.length
decreasing_by
  rw [List.length_cons]
  exact Nat.lt_succ_of_le (List.length_filter_le _ _)

/-- Among entries in the order of their keys, looking a key up finds every entry it has. -/
theorem lookup_eq_some_iff_mem {κ ν : Type} [BEq κ] [LawfulBEq κ] {before : κ → κ → Prop}
    (hirrefl : ∀ k, ¬ before k k) {entries : List (κ × ν)} (hsorted : entries.Pairwise fun a b => before a.1 b.1)
    {k : κ} {v : ν} : entries.lookup k = some v ↔ (k, v) ∈ entries := by
  induction entries with
  | nil => simp
  | cons e rest ih =>
    obtain ⟨first, w⟩ := e
    obtain ⟨hfirst, hrest⟩ := List.pairwise_cons.mp hsorted
    by_cases hk : k = first
    · subst hk
      have hnot : (k, v) ∉ rest := fun hmem => hirrefl k (hfirst _ hmem)
      simp [hnot, eq_comm]
    · rw [List.lookup_cons, beq_false_of_ne hk]
      simp [ih hrest, hk]

end SheetFill
