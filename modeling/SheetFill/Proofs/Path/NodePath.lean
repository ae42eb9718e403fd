import SheetFill.Proofs.Path.Quoted
import SheetFill.Proofs.Text.Digits

/-!
# Every node has a path

A node of a tree is found by the edges that lead to it from the root: keys of records and positions
in lists. Written in brackets one behind the other, the edges are a path of the node, whatever
characters the keys hold.

Main statement: in both dialects the path of a node selects this one node.
-/

namespace SheetFill

namespace Tree

/-- The way from a node to one of its children. -/
inductive Edge where
  /-- To the value of a key of a record. -/
  | key (name : String)
  /-- To the item at a position of a list. -/
  | position (i : Nat)

/-- The child that an edge leads to. -/
def child? : Tree → Edge → Option Tree
  | record fields, .key name => fields.lookup name
  | list items, .position i => items[i]?
  | _, _ => none

/-- The node at an address, which is the edges from the root to the node. -/
def node? : Tree → List Edge → Option Tree
  | tree, [] => some tree
  | tree, edge :: rest => (tree.child? edge).bind fun child => child.node? rest

namespace Edge

/-- The segment that selects the child. -/
def segment : Edge → Segment
  | key name => .field name
  | position i => .index i

/-- The edge in brackets: a key in single quotes, or a position. -/
def chars : Edge → List Char
  | key name => Path.bracketed '\'' name.toList
  | position i => '[' :: (Text.ofNat i ++ [']'])

/-- The position of an edge is an integer of 64 bits, as every position in a stored list is. -/
def IsRead : Edge → Prop
  | key _ => True
  | position i => (i : Int) ≤ Text.maxInt64

/-- Every edge starts with a bracket. -/
theorem exists_chars_eq_cons (edge : Edge) : ∃ rest, edge.chars = '[' :: rest := by
  cases edge with
  | key name => exact ⟨_, rfl⟩
  | position i => exact ⟨_, rfl⟩

/-- Every edge ends with a bracket. -/
theorem getLast?_chars (edge : Edge) : edge.chars.getLast? = some ']' := by
  cases edge with
  | key name => simp [chars, Path.bracketed, List.getLast?_cons, List.getLast?_append]
  | position i => simp [chars, List.getLast?_cons, List.getLast?_append]

end Edge

end Tree

namespace Path

open SheetFill.Tree (Edge)

/-- An edge in front of a tail is a step of its segment. -/
theorem isTail_chars {edge : Edge} (h : edge.IsRead) {rest : List Char} {segments : List Segment}
    (hrest : IsTail rest segments) : IsTail (edge.chars ++ rest) (edge.segment :: segments) := by
  cases edge with
  | key name =>
    have hkey := isTail_bracketed (.inl rfl) name.toList hrest
    rwa [String.ofList_toList] at hkey
  | position i =>
    have hdigits : ∀ c ∈ Text.ofNat i, inIndex c = true := by
      intro c hc
      have hdigit := List.all_eq_true.mp (Text.all_isDigit_ofNat i) c hc
      rw [inIndex, hdigit, Bool.or_true]
    exact .bracket (IsBody.index hdigits (Text.int64?_ofNat h)).isBracket hrest

/-- The edges of an address are a tail of their segments. -/
theorem isTail_address {address : List Edge} (h : ∀ edge ∈ address, edge.IsRead) :
    IsTail (address.flatMap Edge.chars) (address.map Edge.segment) := by
  induction address with
  | nil => exact .nil
  | cons edge rest ih =>
    obtain ⟨hfirst, hrest⟩ := List.forall_mem_cons.mp h
    rw [List.flatMap_cons, List.map_cons]
    exact isTail_chars hfirst (ih hrest)

end Path

namespace Dialect

open SheetFill.Tree (Edge)

/-- The path of the node at an address. -/
def nodePath (dialect : Dialect) (address : List Edge) : String :=
  String.ofList (dialect.root ++ address.flatMap Edge.chars)

/-- The path of a node neither starts nor ends with a blank. -/
theorem trim_nodePath (dialect : Dialect) (address : List Edge) :
    Text.trim (dialect.root ++ address.flatMap Edge.chars) = dialect.root ++ address.flatMap Edge.chars := by
  apply Text.trim_eq_self
  · intro c hc
    cases address with
    | nil =>
      cases dialect with
      | dotted => cases hc
      | jsonPath =>
        cases hc
        decide
    | cons edge rest =>
      obtain ⟨body, hbody⟩ := edge.exists_chars_eq_cons
      rw [List.flatMap_cons, hbody] at hc
      cases dialect <;> cases hc <;> decide
  · intro c hc
    rcases List.eq_nil_or_concat address with rfl | ⟨front, last, rfl⟩
    · cases dialect with
      | dotted => cases hc
      | jsonPath =>
        cases hc
        decide
    · have hlast : (dialect.root ++ (front.concat last).flatMap Edge.chars).getLast? = some ']' := by
        simp [List.concat_eq_append, List.getLast?_append, Edge.getLast?_chars]
      rw [hlast] at hc
      cases hc
      decide

/-- The path of a node is read as the segments of its address. -/
theorem parse_nodePath (dialect : Dialect) {address : List Edge} (h : ∀ edge ∈ address, edge.IsRead) :
    dialect.parse (dialect.nodePath address) = .ok (address.map Edge.segment) := by
  have htail := Path.isTail_address h
  rw [parse_eq_ok_iff, nodePath, String.toList_ofList, trim_nodePath]
  cases dialect with
  | jsonPath => exact .dollar htail
  | dotted =>
    cases address with
    | nil => exact .empty
    | cons edge rest =>
      obtain ⟨body, hbody⟩ := edge.exists_chars_eq_cons
      rw [List.flatMap_cons, hbody] at htail ⊢
      exact .bracket htail

end Dialect

/-- The segments of an edge select its child and nothing else. -/
theorem Segment.select_segment {tree child : Tree} {edge : Tree.Edge} (h : tree.child? edge = some child) :
    edge.segment.select tree = [child] := by
  unfold Tree.child? at h
  split at h
  · simp [Tree.Edge.segment, select, h]
  · next items i =>
    have hforward : ¬ ((i : Int) < 0) := Int.not_lt.mpr (Int.natCast_nonneg i)
    simp only [Tree.Edge.segment, select, itemAt?, if_neg hforward, Int.toNat_natCast, h, Option.toList_some]
  · cases h

/-- The segments of an address select the node there. -/
theorem walk_address {tree node : Tree} {address : List Tree.Edge} (h : tree.node? address = some node) :
    walk tree (address.map Tree.Edge.segment) = .one node := by
  unfold walk
  induction address generalizing tree with
  | nil =>
    cases h
    rfl
  | cons edge rest ih =>
    obtain ⟨child, hchild, hnode⟩ := Option.bind_eq_some_iff.mp h
    have hprojects : (edge.segment == .wildcard) = false := by cases edge <;> rfl
    rw [List.map_cons, walkFrom, List.flatMap_singleton, Segment.select_segment hchild, hprojects]
    exact ih hnode

/-- The path of a node, in either dialect, selects this node and no other. -/
theorem Dialect.evaluate_nodePath (dialect : Dialect) {tree node : Tree} {address : List Tree.Edge}
    (hnode : tree.node? address = some node) (hread : ∀ edge ∈ address, edge.IsRead) :
    dialect.evaluate tree (dialect.nodePath address) = .ok (.one node) := by
  rw [evaluate, dialect.parse_nodePath hread, Except.map, walk_address hnode]

/-- A key with blanks, a quote, a backslash and brackets, a position, and an empty key. -/
theorem Dialect.evaluate_nodePath_odd_keys :
    let tree : Tree := .record [(" it's [0].\\ ", .list [.null, .record [("", .text "found")]])]
    let address : List Tree.Edge := [.key " it's [0].\\ ", .position 1, .key ""]
    tree.node? address = some (.text "found") ∧ (∀ edge ∈ address, edge.IsRead) ∧
      dotted.nodePath address = "[' it\\'s [0].\\\\ '][1]['']" ∧
      dotted.evaluate tree (dotted.nodePath address) = .ok (.one (.text "found")) ∧
      jsonPath.evaluate tree (jsonPath.nodePath address) = .ok (.one (.text "found")) := by
  intro tree address
  have hnode : tree.node? address = some (.text "found") := by decide +kernel
  have hread : ∀ edge ∈ address, edge.IsRead := by
    simp [address, Tree.Edge.IsRead, Text.maxInt64]
  exact ⟨hnode, hread, by decide +kernel, dotted.evaluate_nodePath hnode hread,
    jsonPath.evaluate_nodePath hnode hread⟩

end SheetFill
