import Mathlib.Data.List.Basic
import SheetFill.Content.TextFormat
import SheetFill.Proofs.Lists

/-!
# Records in the order of their keys

A record holds its fields in the ascending order of their keys by code point, so that no key stands
twice and a key finds the field that has it. A tree is ordered if all records in it are.

Main statement: data that was read from a text, in either format, is an ordered tree.
-/

namespace SheetFill

namespace Tree

/-- The keys of the fields ascend. -/
def Ascending (fields : List (String × Tree)) : Prop :=
  fields.Pairwise fun a b => a.1 < b.1

/-- In every record of the tree the keys ascend. -/
inductive Ordered : Tree → Prop where
  | null : Ordered .null
  | boolean (b : Bool) : Ordered (.boolean b)
  | number (n : Number) : Ordered (.number n)
  | text (s : String) : Ordered (.text s)
  | list {items : List Tree} (h : ∀ item ∈ items, Ordered item) : Ordered (.list items)
  | record {fields : List (String × Tree)} (hkeys : Ascending fields)
    (hvalues : ∀ field ∈ fields, Ordered field.2) : Ordered (.record fields)

variable {key : String} {value : Tree} {fields : List (String × Tree)}

/-- A key finds the field that has it. -/
theorem Ascending.lookup_eq_some_iff (h : Ascending fields) :
    fields.lookup key = some value ↔ (key, value) ∈ fields :=
  lookup_eq_some_iff_mem String.lt_irrefl h

/-- A field that is given to fields is among them, and the others were there before. -/
theorem eq_or_mem_of_mem_insertField {field : String × Tree} (h : field ∈ insertField key value fields) :
    field = (key, value) ∨ field ∈ fields := by
  induction fields with
  | nil => exact .inl (List.mem_singleton.mp h)
  | cons first rest ih =>
    simp only [insertField] at h
    split at h
    · exact (List.mem_cons.mp h).imp_right (List.mem_cons_of_mem _)
    · split at h
      · exact List.mem_cons.mp h
      · rcases List.mem_cons.mp h with rfl | hmem
        · exact .inr List.mem_cons_self
        · exact (ih hmem).imp_right (List.mem_cons_of_mem _)

/-- Giving a key its value keeps the keys ascending. -/
theorem Ascending.insertField (key : String) (value : Tree) (h : Ascending fields) :
    Ascending (insertField key value fields) := by
  induction fields with
  | nil => exact List.pairwise_singleton _ _
  | cons first rest ih =>
    obtain ⟨name, node⟩ := first
    obtain ⟨hfirst, hrest⟩ := List.pairwise_cons.mp h
    simp only [Tree.insertField]
    split
    · next heq =>
      subst heq
      exact List.pairwise_cons.mpr ⟨hfirst, hrest⟩
    · next hne =>
      split
      · next hlt =>
        refine List.pairwise_cons.mpr ⟨fun field hmem => ?_, h⟩
        rcases List.mem_cons.mp hmem with rfl | hmem
        · exact hlt
        · exact String.lt_trans hlt (hfirst field hmem)
      · next hnot =>
        refine List.pairwise_cons.mpr ⟨fun field hmem => ?_, ih hrest⟩
        rcases eq_or_mem_of_mem_insertField hmem with rfl | hmem
        · exact Std.lt_of_le_of_ne hnot hne
        · exact hfirst field hmem

/-- Ordered values under keys in any order make an ordered record. -/
theorem ordered_ofFields (h : ∀ field ∈ fields, field.2.Ordered) : (ofFields fields).Ordered := by
  suffices hfold : ∀ made : List (String × Tree), Ascending made → (∀ field ∈ made, field.2.Ordered) →
      Ordered (.record (fields.foldl (fun made field => insertField field.1 field.2 made) made)) by
    exact hfold [] List.Pairwise.nil fun _ hmem => nomatch hmem
  induction fields with
  | nil => exact fun made => Ordered.record
  | cons first rest ih =>
    intro made hkeys hvalues
    obtain ⟨hfirst, hrest⟩ := List.forall_mem_cons.mp h
    refine ih hrest _ (hkeys.insertField first.1 first.2) fun field hmem => ?_
    rcases eq_or_mem_of_mem_insertField hmem with rfl | hmem
    · exact hfirst
    · exact hvalues field hmem

end Tree

namespace Content

mutual

/-- The tree of a content is ordered. -/
theorem ordered_of_tree? : ∀ (c : Content) (t : Tree), c.tree? = some t → t.Ordered
  | null, t, h => by
    cases h
    exact .null
  | boolean b, t, h => by
    cases h
    exact .boolean b
  | natural n, t, h => by
    cases h
    exact .number _
  | integer i, t, h => by
    cases h
    exact .number _
  | double d, t, h => by
    cases h
    exact .number _
  | text s, t, h => by
    cases h
    exact .text s
  | list items, t, h => by
    rw [tree?] at h
    obtain ⟨trees, htrees, rfl⟩ := Option.map_eq_some_iff.mp h
    exact .list (ordered_of_trees? items trees htrees)
  | entries es, t, h => by
    rw [tree?] at h
    obtain ⟨fields, hfields, rfl⟩ := Option.map_eq_some_iff.mp h
    exact Tree.ordered_ofFields (ordered_of_fields? es fields hfields)

/-- The trees of items are ordered. -/
theorem ordered_of_trees? : ∀ (items : List Content) (trees : List Tree),
    trees? items = some trees → ∀ t ∈ trees, t.Ordered
  | [], trees, h => by
    cases h
    exact List.forall_mem_nil _
  | c :: rest, trees, h => by
    rw [trees?] at h
    obtain ⟨first, hfirst, h⟩ := Option.bind_eq_some_iff.mp h
    obtain ⟨others, hothers, h⟩ := Option.bind_eq_some_iff.mp h
    cases h
    exact List.forall_mem_cons.mpr ⟨ordered_of_tree? c first hfirst, ordered_of_trees? rest others hothers⟩

/-- The values of entries are ordered. -/
theorem ordered_of_fields? : ∀ (es : List (Content × Content)) (fields : List (String × Tree)),
    fields? es = some fields → ∀ field ∈ fields, field.2.Ordered
  | [], fields, h => by
    cases h
    exact List.forall_mem_nil _
  | (k, c) :: rest, fields, h => by
    rw [fields?] at h
    obtain ⟨name, -, h⟩ := Option.bind_eq_some_iff.mp h
    obtain ⟨first, hfirst, h⟩ := Option.bind_eq_some_iff.mp h
    obtain ⟨others, hothers, h⟩ := Option.bind_eq_some_iff.mp h
    cases h
    exact List.forall_mem_cons.mpr ⟨ordered_of_tree? c first hfirst, ordered_of_fields? rest others hothers⟩

end

end Content

namespace Yaml.Node

/-- The tree of a scalar is ordered. -/
theorem ordered_of_scalarTree? {tag : Option String} {text : String} {plain : Bool} {t : Tree}
    (h : scalarTree? tag text plain = some t) : t.Ordered := by
  unfold scalarTree? at h
  split at h
  · cases h
    split
    · exact .number _
    · exact .null
  · next c _ _ => exact c.ordered_of_tree? t h
  · cases h

mutual

/-- The tree of a node is ordered. -/
theorem ordered_of_tree? : ∀ (node : Node) (t : Tree), node.tree? = some t → t.Ordered
  | scalar tag text plain, t, h => ordered_of_scalarTree? h
  | list tag items, t, h => by
    rw [tree?] at h
    split at h
    · cases h
    · obtain ⟨trees, htrees, rfl⟩ := Option.map_eq_some_iff.mp h
      exact .list (ordered_of_trees? items trees htrees)
  | record tag es, t, h => by
    rw [tree?] at h
    split at h
    · cases h
    · obtain ⟨fields, hfields, rfl⟩ := Option.map_eq_some_iff.mp h
      exact Tree.ordered_ofFields (ordered_of_fields? es fields hfields)

/-- The trees of items are ordered. -/
theorem ordered_of_trees? : ∀ (items : List Node) (trees : List Tree),
    trees? items = some trees → ∀ t ∈ trees, t.Ordered
  | [], trees, h => by
    cases h
    exact List.forall_mem_nil _
  | node :: rest, trees, h => by
    rw [trees?] at h
    obtain ⟨first, hfirst, h⟩ := Option.bind_eq_some_iff.mp h
    obtain ⟨others, hothers, h⟩ := Option.bind_eq_some_iff.mp h
    cases h
    exact List.forall_mem_cons.mpr
      ⟨ordered_of_tree? node first hfirst, ordered_of_trees? rest others hothers⟩

/-- The values of keys are ordered. -/
theorem ordered_of_fields? : ∀ (es : List (Node × Node)) (fields : List (String × Tree)),
    fields? es = some fields → ∀ field ∈ fields, field.2.Ordered
  | [], fields, h => by
    cases h
    exact List.forall_mem_nil _
  | (k, node) :: rest, fields, h => by
    rw [fields?] at h
    obtain ⟨name, -, h⟩ := Option.bind_eq_some_iff.mp h
    obtain ⟨first, hfirst, h⟩ := Option.bind_eq_some_iff.mp h
    obtain ⟨others, hothers, h⟩ := Option.bind_eq_some_iff.mp h
    cases h
    exact List.forall_mem_cons.mpr
      ⟨ordered_of_tree? node first hfirst, ordered_of_fields? rest others hothers⟩

end

end Yaml.Node

/-- Data that was read is ordered. -/
theorem TextFormat.ordered_of_readData {format : TextFormat} {source : String} {t : Tree}
    (h : format.readData source = .ok t) : t.Ordered := by
  unfold readData at h
  split at h
  · next found hfound =>
    cases h
    cases format with
    | json =>
      obtain ⟨c, -, hc⟩ := Option.bind_eq_some_iff.mp hfound
      exact c.ordered_of_tree? t hc
    | yaml =>
      obtain ⟨node, -, hnode⟩ := Option.bind_eq_some_iff.mp hfound
      exact node.ordered_of_tree? t hnode
  · cases h

end SheetFill
