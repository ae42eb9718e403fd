import SheetFill.Path.Selection

/-!
# How many nodes a path selects

A step of a path goes from nodes to nodes strictly below them, and to each of those once. What a path selects, with the
list that a projection puts around it, therefore has no more nodes than the tree has.
-/

namespace SheetFill

namespace Tree

mutual

/-- How many nodes a tree has, the tree itself included. -/
def size : Tree → Nat
  | .list items => sizeItems items + 1
  | .record fields => sizeFields fields + 1
  | .null | .boolean _ | .number _ | .text _ => 1

/-- How many nodes several trees have together. -/
def sizeItems : List Tree → Nat
  | [] => 0
  | t :: rest => t.size + sizeItems rest

/-- How many nodes the values of fields have together. -/
def sizeFields : List (String × Tree) → Nat
  | [] => 0
  | (_, t) :: rest => t.size + sizeFields rest

end

theorem size_pos (t : Tree) : 0 < t.size := by
  cases t <;> simp [size]

@[simp] theorem sizeItems_nil : sizeItems [] = 0 := rfl

@[simp] theorem sizeItems_cons (t : Tree) (rest : List Tree) : sizeItems (t :: rest) = t.size + sizeItems rest := rfl

theorem sizeItems_append (first second : List Tree) :
    sizeItems (first ++ second) = sizeItems first + sizeItems second := by
  induction first with
  | nil => simp
  | cons t rest ih => rw [List.cons_append, sizeItems_cons, sizeItems_cons, ih, Nat.add_assoc]

theorem sizeItems_map_snd (fields : List (String × Tree)) : sizeItems (fields.map Prod.snd) = sizeFields fields := by
  induction fields with
  | nil => rfl
  | cons e rest ih => rw [List.map_cons, sizeItems_cons, ih, sizeFields]

/-- Every tree has a node. -/
theorem length_le_sizeItems (items : List Tree) : items.length ≤ sizeItems items := by
  induction items with
  | nil => exact Nat.le_refl _
  | cons t rest ih =>
    have := t.size_pos
    rw [List.length_cons, sizeItems_cons]
    omega

/-- One of several trees has no more nodes than they have together. -/
theorem size_le_sizeItems {t : Tree} {items : List Tree} (h : t ∈ items) : t.size ≤ sizeItems items := by
  obtain ⟨before, behind, rfl⟩ := List.append_of_mem h
  rw [sizeItems_append, sizeItems_cons]
  omega

/-- At most one of several trees has no more nodes than they have together. -/
theorem sizeItems_toList_le {found : Option Tree} {items : List Tree} (h : ∀ t, found = some t → t ∈ items) :
    sizeItems found.toList ≤ sizeItems items := by
  cases found with
  | none => exact Nat.zero_le _
  | some t => exact size_le_sizeItems (h t rfl)

end Tree

/-- The item at a position is one of the items. -/
theorem mem_of_itemAt?_eq_some {items : List Tree} {position : Int} {t : Tree}
    (h : itemAt? items position = some t) : t ∈ items := by
  unfold itemAt? at h
  split at h
  · split at h
    · exact List.mem_of_getElem? h
    · cases h
  · exact List.mem_of_getElem? h

/-- A segment selects nodes strictly below a node. -/
theorem Segment.sizeItems_select_lt (segment : Segment) (node : Tree) :
    Tree.sizeItems (segment.select node) < node.size := by
  cases node with
  | list items =>
    refine Nat.lt_succ_of_le ?_
    cases segment with
    | field name =>
      refine Tree.sizeItems_toList_le fun t h => ?_
      obtain ⟨position, -, hitem⟩ := Option.bind_eq_some_iff.mp h
      exact mem_of_itemAt?_eq_some hitem
    | index i => exact Tree.sizeItems_toList_le fun t h => mem_of_itemAt?_eq_some h
    | wildcard => exact Nat.le_refl _
  | record fields =>
    refine Nat.lt_succ_of_le ?_
    rw [← Tree.sizeItems_map_snd]
    cases segment with
    | field name =>
      refine Tree.sizeItems_toList_le fun t h => ?_
      obtain ⟨before, behind, hfields, -⟩ := List.lookup_eq_some_iff.mp h
      simp [hfields]
    | index i => exact Nat.zero_le _
    | wildcard => exact Nat.le_refl _
  | null | boolean | number | text => cases segment <;> exact Nat.zero_lt_one

/-- A segment selects fewer nodes below several nodes than these have. -/
theorem Segment.sizeItems_flatMap_select (segment : Segment) (nodes : List Tree) :
    Tree.sizeItems (nodes.flatMap segment.select) + nodes.length ≤ Tree.sizeItems nodes := by
  induction nodes with
  | nil => exact Nat.le_refl _
  | cons node rest ih =>
    have := segment.sizeItems_select_lt node
    rw [List.flatMap_cons, Tree.sizeItems_append, List.length_cons, Tree.sizeItems_cons]
    omega

/-- A walk from nodes selects no more nodes than they have; a projection counts as a node of its own. -/
theorem size_tree_walkFrom {most : Nat} (hmost : 0 < most) (segments : List Segment) {projected : Bool}
    {current : List Tree} (hcurrent : Tree.sizeItems current + projected.toNat ≤ most) :
    (walkFrom projected current segments).tree.size ≤ most := by
  induction segments generalizing projected current with
  | nil =>
    cases projected with
    | true => exact hcurrent
    | false =>
      cases current with
      | nil => exact hmost
      | cons node rest => exact Nat.le_trans (Nat.le_add_right _ _) hcurrent
  | cons segment rest ih =>
    -- A list around what is found is paid for by the nodes that are left behind.
    have hnext : ∀ projected : Bool, Tree.sizeItems (current.flatMap segment.select) + projected.toNat ≤ most := by
      intro projected
      have hbelow := segment.sizeItems_flatMap_select current
      have hlist := projected.toNat_le
      cases current with
      | nil =>
        rw [List.flatMap_nil, Tree.sizeItems_nil]
        omega
      | cons node nodes =>
        rw [List.length_cons] at hbelow
        omega
    unfold walkFrom
    dsimp only
    split
    · next hnone =>
      split
      · exact ih (by simpa [hnone] using hnext _)
      · exact hmost
    · exact ih (hnext _)

/-- What an expression selects in a tree has no more nodes than the tree. -/
theorem Dialect.size_tree_evaluate {dialect : Dialect} {tree : Tree} {expression : String} {selection : Selection}
    (h : dialect.evaluate tree expression = .ok selection) : selection.tree.size ≤ tree.size := by
  unfold evaluate at h
  cases hparse : dialect.parse expression with
  | error fault =>
    rw [hparse] at h
    cases h
  | ok segments =>
    rw [hparse] at h
    cases h
    exact size_tree_walkFrom tree.size_pos segments (Nat.le_refl _)

end SheetFill
