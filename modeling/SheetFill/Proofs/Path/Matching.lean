import Mathlib.Data.List.Forall2
import SheetFill.Proofs.Path.NodePath
import SheetFill.Proofs.Tree.Ordered

/-!
# What a path selects

An address matches a path if each of its edges fits the segment at the same place: a field is the way
to the value of its key, or in a list the way to the item that its numeral counts to; an index counts to
an item; a wildcard is the way to any child. The edges that fit a segment are listed by
`Segment.branches` in the order of the children, and the addresses that match a path by `Tree.found`, in
lexicographic order. A walk keeps the nodes of such a list and nothing else.

Main statement: a path without a wildcard selects the node at the one address that matches, if there is
one. A path with a wildcard selects the nodes at all matching addresses, each once and in lexicographic
order, unless nothing matches what stands in front of the first wildcard.
-/

namespace SheetFill

/-- A number counts to a position in a list of so many items; a negative number counts from the end. -/
def CountsTo (length : Nat) (i : Int) (p : Nat) : Prop :=
  (p : Int) = if i < 0 then length + i else i

/-- The segment fits the way from a node to a child. -/
inductive Segment.Fits : Segment → Tree → Tree.Edge → Prop where
  | key {name : String} {fields : List (String × Tree)} : Fits (.field name) (.record fields) (.key name)
  | numeral {name : String} {i : Int} {items : List Tree} {p : Nat} (hread : Text.int64? name.toList = some i)
    (hcount : CountsTo items.length i p) : Fits (.field name) (.list items) (.position p)
  | index {i : Int} {items : List Tree} {p : Nat} (hcount : CountsTo items.length i p) :
    Fits (.index i) (.list items) (.position p)
  | child {tree : Tree} {edge : Tree.Edge} : Fits .wildcard tree edge

namespace Tree

/-- The segments match the address of a node below a node. -/
def Matches : Tree → List Segment → List Edge → Prop
  | _, [], [] => True
  | tree, segment :: segments, edge :: rest =>
    segment.Fits tree edge ∧ ∃ child, tree.child? edge = some child ∧ child.Matches segments rest
  | _, _, _ => False

/-- The order of the children of a node: items by their positions, fields by their keys. -/
def Edge.Before : Edge → Edge → Prop
  | key a, key b => a < b
  | position i, position j => i < j
  | _, _ => False

/-- No child comes before itself. -/
theorem Edge.Before.irrefl (edge : Edge) : ¬ edge.Before edge := by
  cases edge with
  | key name => exact String.lt_irrefl name
  | position p => exact Nat.lt_irrefl p

/-- The selection is what the segments say: without a wildcard the node at the one address that matches,
and missing if there is none; with a wildcard missing if nothing matches what stands in front of the
first one, and otherwise the nodes at all addresses that match, each once and in lexicographic order. -/
structure Selects (tree : Tree) (segments : List Segment) (selection : Selection) : Prop where
  one : .wildcard ∉ segments →
    (selection = .missing ∧ ∀ address, ¬ tree.Matches segments address) ∨
      ∃ address node, selection = .one node ∧ tree.node? address = some node ∧
        ∀ other, tree.Matches segments other ↔ other = address
  missing : .wildcard ∈ segments →
    (selection = .missing ↔ ∀ address, ¬ tree.Matches (segments.takeWhile (· != .wildcard)) address)
  many : .wildcard ∈ segments → selection ≠ .missing →
    ∃ addresses nodes, selection = .many nodes ∧
      List.Forall₂ (fun address node => tree.node? address = some node) addresses nodes ∧
      addresses.Pairwise (List.Lex Edge.Before) ∧ addresses.Nodup ∧
      ∀ address, address ∈ addresses ↔ tree.Matches segments address

end Tree

/-- The position in a list of so many items to which a number counts. -/
def position? (length : Nat) (i : Int) : Option Nat :=
  if i < 0 then if i.natAbs ≤ length then some (length - i.natAbs) else none else some i.toNat

/-- A number counts to one position at most. -/
theorem position?_eq_some_iff {length p : Nat} {i : Int} : position? length i = some p ↔ CountsTo length i p := by
  unfold position? CountsTo
  split
  · split
    · rw [Option.some.injEq]
      omega
    · simp only [reduceCtorEq, false_iff]
      omega
  · rw [Option.some.injEq]
    omega

/-- The item at a position is the item to which the number counts. -/
theorem itemAt?_eq_bind (items : List Tree) (i : Int) :
    itemAt? items i = (position? items.length i).bind (items[·]?) := by
  unfold itemAt? position?
  split
  · split <;> rfl
  · rfl

namespace Segment

open SheetFill.Tree (Edge)

/-- The children that a segment selects, with the edges that lead to them, in the order of the children. -/
def branches : Segment → Tree → List (Edge × Tree)
  | .field name, .record fields => ((fields.lookup name).map (Edge.key name, ·)).toList
  | .field name, .list items => ((Text.int64? name.toList).bind (item? items)).toList
  | .index i, .list items => (item? items i).toList
  | .wildcard, .list items => items.zipIdx.map fun item => (.position item.2, item.1)
  | .wildcard, .record fields => fields.map fun field => (.key field.1, field.2)
  | _, _ => []
where
  /-- The item to which a number counts, with the edge that leads to it. -/
  item? (items : List Tree) (i : Int) : Option (Edge × Tree) :=
    (position? items.length i).bind fun p => items[p]?.map (Edge.position p, ·)

variable {segment : Segment} {tree child : Tree} {edge : Edge}

/-- A number leads to the item to which it counts. -/
theorem mem_item?_iff {items : List Tree} {i : Int} :
    (edge, child) ∈ branches.item? items i ↔
      ∃ p, CountsTo items.length i p ∧ edge = .position p ∧ items[p]? = some child := by
  simp only [branches.item?, Option.mem_def, Option.bind_eq_some_iff, position?_eq_some_iff,
    Option.map_eq_some_iff, Prod.mk.injEq]
  constructor
  · rintro ⟨p, hcount, _, hitem, rfl, rfl⟩
    exact ⟨p, hcount, rfl, hitem⟩
  · rintro ⟨p, hcount, rfl, hitem⟩
    exact ⟨p, hcount, child, hitem, rfl, rfl⟩

/-- The item to which a number counts is the node of the branch. -/
theorem map_snd_item? (items : List Tree) (i : Int) :
    (branches.item? items i).map Prod.snd = itemAt? items i := by
  rw [itemAt?_eq_bind, branches.item?]
  cases position? items.length i with
  | none => rfl
  | some p =>
    simp only [Option.bind_some]
    cases items[p]? <;> rfl

/-- A segment selects the nodes of its branches. -/
theorem select_eq_map_branches (segment : Segment) (tree : Tree) :
    segment.select tree = (segment.branches tree).map Prod.snd := by
  cases segment with
  | field name =>
    cases tree with
    | list items =>
      rw [select, branches]
      cases Text.int64? name.toList with
      | none => rfl
      | some i => rw [Option.bind_some, Option.bind_some, ← map_snd_item?, Option.toList_map]
    | record fields =>
      rw [select, branches]
      cases fields.lookup name <;> rfl
    | null | boolean | number | text => rfl
  | index i =>
    cases tree with
    | list items => rw [select, branches, ← map_snd_item?, Option.toList_map]
    | null | boolean | number | text | record => rfl
  | wildcard =>
    cases tree with
    | list items =>
      rw [select, branches, List.map_map]
      exact (List.zipIdx_map_fst 0 items).symm
    | record fields =>
      rw [select, branches, List.map_map]
      rfl
    | null | boolean | number | text => rfl

/-- The branches of a segment are the edges that fit it. -/
theorem mem_branches_iff (h : tree.Ordered) :
    (edge, child) ∈ segment.branches tree ↔ segment.Fits tree edge ∧ tree.child? edge = some child := by
  cases segment with
  | field name =>
    cases tree with
    | list items =>
      simp only [branches, Option.mem_toList, Option.bind_eq_some_iff]
      constructor
      · rintro ⟨i, hread, hitem⟩
        obtain ⟨p, hcount, rfl, hchild⟩ := mem_item?_iff.mp hitem
        exact ⟨.numeral hread hcount, hchild⟩
      · rintro ⟨hfits, hchild⟩
        cases hfits with
        | numeral hread hcount => exact ⟨_, hread, mem_item?_iff.mpr ⟨_, hcount, rfl, hchild⟩⟩
    | record fields =>
      simp only [branches, Option.mem_toList, Option.map_eq_some_iff, Prod.mk.injEq]
      constructor
      · rintro ⟨_, hvalue, rfl, rfl⟩
        exact ⟨.key, hvalue⟩
      · rintro ⟨hfits, hchild⟩
        cases hfits with
        | key => exact ⟨child, hchild, rfl, rfl⟩
    | null | boolean | number | text => simp [branches, Tree.child?]
  | index i =>
    cases tree with
    | list items =>
      simp only [branches, Option.mem_toList]
      constructor
      · intro hitem
        obtain ⟨p, hcount, rfl, hchild⟩ := mem_item?_iff.mp hitem
        exact ⟨.index hcount, hchild⟩
      · rintro ⟨hfits, hchild⟩
        cases hfits with
        | index hcount => exact mem_item?_iff.mpr ⟨_, hcount, rfl, hchild⟩
    | null | boolean | number | text => simp [branches, Tree.child?]
    | record fields =>
      simp only [branches, List.not_mem_nil, false_iff]
      rintro ⟨hfits, -⟩
      cases hfits
  | wildcard =>
    have hfits : Fits .wildcard tree edge := .child
    simp only [hfits, true_and]
    cases tree with
    | list items =>
      simp only [branches, List.mem_map, Prod.exists, List.mem_zipIdx_iff_getElem?, Prod.mk.injEq]
      constructor
      · rintro ⟨_, p, hitem, rfl, rfl⟩
        exact hitem
      · intro hchild
        cases edge with
        | key name => cases hchild
        | position p => exact ⟨child, p, hchild, rfl, rfl⟩
    | record fields =>
      cases h with
      | record hkeys =>
        simp only [branches, List.mem_map, Prod.exists, Prod.mk.injEq]
        constructor
        · rintro ⟨name, _, hmem, rfl, rfl⟩
          exact hkeys.lookup_eq_some_iff.mpr hmem
        · intro hchild
          cases edge with
          | key name => exact ⟨name, child, hkeys.lookup_eq_some_iff.mp hchild, rfl, rfl⟩
          | position p => cases hchild
    | null | boolean | number | text => simp [branches, Tree.child?]

/-- Only a wildcard has more than one branch. -/
theorem length_branches_le (h : segment ≠ .wildcard) (tree : Tree) : (segment.branches tree).length ≤ 1 := by
  have hoption (o : Option (Edge × Tree)) : o.toList.length ≤ 1 := by
    cases o <;> simp
  cases segment with
  | field name =>
    cases tree with
    | list | record => exact hoption _
    | null | boolean | number | text => exact Nat.zero_le 1
  | index i =>
    cases tree with
    | list => exact hoption _
    | null | boolean | number | text | record => exact Nat.zero_le 1
  | wildcard => exact absurd rfl h

/-- The branches of a segment are in the order of the children. -/
theorem pairwise_branches (segment : Segment) (h : tree.Ordered) :
    (segment.branches tree).Pairwise fun a b => a.1.Before b.1 := by
  by_cases hwildcard : segment = .wildcard
  · subst hwildcard
    cases tree with
    | list items =>
      have hnumbers : (items.zipIdx.map Prod.snd).Pairwise (· < ·) := by
        rw [List.zipIdx_map_snd]
        exact List.pairwise_lt_range'
      have hitems : items.zipIdx.Pairwise fun a b => a.2 < b.2 := List.pairwise_map.mp hnumbers
      exact List.pairwise_map.mpr hitems
    | record fields =>
      cases h with
      | record hkeys => exact List.pairwise_map.mpr hkeys
    | null | boolean | number | text => exact List.Pairwise.nil
  · have hlength := length_branches_le hwildcard tree
    match segment.branches tree, hlength with
    | [], _ => exact List.Pairwise.nil
    | [branch], _ => exact List.pairwise_singleton _ branch

end Segment

namespace Tree

/-- The nodes that segments select below a node, with their addresses, in the order of a walk. -/
def found (tree : Tree) : List Segment → List (List Edge × Tree)
  | [] => [([], tree)]
  | segment :: rest =>
    (segment.branches tree).flatMap fun branch => (branch.2.found rest).map fun f => (branch.1 :: f.1, f.2)

variable {tree node : Tree} {address : List Edge} {segments : List Segment}

/-- The children of an ordered tree are ordered. -/
theorem Ordered.child {edge : Edge} {child : Tree} (h : tree.Ordered) (hchild : tree.child? edge = some child) :
    child.Ordered := by
  cases h with
  | list hitems =>
    cases edge with
    | key name => cases hchild
    | position p => exact hitems child (List.mem_of_getElem? hchild)
  | record hkeys hvalues =>
    cases edge with
    | key name => exact hvalues (name, child) (hkeys.lookup_eq_some_iff.mp hchild)
    | position p => cases hchild
  | null | boolean | number | text => cases hchild

/-- What is found stands at an address that matches, and every such node is found. -/
theorem mem_found_iff (h : tree.Ordered) :
    (address, node) ∈ tree.found segments ↔ tree.Matches segments address ∧ tree.node? address = some node := by
  induction segments generalizing tree address with
  | nil =>
    cases address with
    | nil => simp [found, Matches, node?, eq_comm]
    | cons => simp [found, Matches]
  | cons segment rest ih =>
    simp only [found, List.mem_flatMap, List.mem_map, Prod.exists, Prod.mk.injEq]
    constructor
    · rintro ⟨edge, child, hbranch, address, _, hfound, rfl, rfl⟩
      obtain ⟨hfits, hchild⟩ := (Segment.mem_branches_iff h).mp hbranch
      obtain ⟨hmatches, hnode⟩ := (ih (h.child hchild)).mp hfound
      exact ⟨⟨hfits, child, hchild, hmatches⟩, by rw [node?, hchild, Option.bind_some, hnode]⟩
    · rintro ⟨hmatches, hnode⟩
      cases address with
      | nil => cases hmatches
      | cons edge address =>
        obtain ⟨hfits, child, hchild, hmatches⟩ := hmatches
        rw [node?, hchild, Option.bind_some] at hnode
        exact ⟨edge, child, (Segment.mem_branches_iff h).mpr ⟨hfits, hchild⟩, address, node,
          (ih (h.child hchild)).mpr ⟨hmatches, hnode⟩, rfl, rfl⟩

/-- At every address that matches there is a node. -/
theorem exists_node_of_matches (h : tree.Matches segments address) : ∃ node, tree.node? address = some node := by
  induction segments generalizing tree address with
  | nil =>
    cases address with
    | nil => exact ⟨tree, rfl⟩
    | cons => cases h
  | cons segment rest ih =>
    cases address with
    | nil => cases h
    | cons edge address =>
      obtain ⟨-, child, hchild, hmatches⟩ := h
      rw [node?, hchild]
      exact ih hmatches

/-- The addresses that match are those of what is found. -/
theorem matches_iff (h : tree.Ordered) :
    tree.Matches segments address ↔ address ∈ (tree.found segments).map Prod.fst := by
  rw [List.mem_map]
  constructor
  · intro hmatches
    obtain ⟨node, hnode⟩ := exists_node_of_matches hmatches
    exact ⟨(address, node), (mem_found_iff h).mpr ⟨hmatches, hnode⟩, rfl⟩
  · rintro ⟨⟨_, node⟩, hfound, rfl⟩
    exact ((mem_found_iff h).mp hfound).1

/-- What is found stands in the lexicographic order of the addresses. -/
theorem pairwise_found (h : tree.Ordered) (segments : List Segment) :
    ((tree.found segments).map Prod.fst).Pairwise (List.Lex Edge.Before) := by
  induction segments generalizing tree with
  | nil => exact List.pairwise_singleton _ _
  | cons segment rest ih =>
    rw [found, List.map_flatMap, List.pairwise_flatMap]
    constructor
    · -- Below one child the first edge is the same.
      rintro ⟨edge, child⟩ hbranch
      have hbelow := ih (h.child ((Segment.mem_branches_iff h).mp hbranch).2)
      rw [List.map_map]
      exact List.pairwise_map.mpr ((List.pairwise_map.mp hbelow).imp fun hlex => .cons hlex)
    · refine (segment.pairwise_branches h).imp fun {first second} hbefore => ?_
      simp only [List.mem_map]
      rintro _ ⟨_, ⟨_, -, rfl⟩, rfl⟩ _ ⟨_, ⟨_, -, rfl⟩, rfl⟩
      exact .rel hbefore

/-- No address is found twice. -/
theorem nodup_found (h : tree.Ordered) (segments : List Segment) : ((tree.found segments).map Prod.fst).Nodup := by
  refine (pairwise_found h segments).imp fun {first second} hbefore heq => ?_
  subst heq
  exact List.lex_irrefl Edge.Before.irrefl first hbefore

/-- Without a wildcard no more than one node is found. -/
theorem length_found_le (h : .wildcard ∉ segments) (tree : Tree) : (tree.found segments).length ≤ 1 := by
  induction segments generalizing tree with
  | nil => exact Nat.le_refl 1
  | cons segment rest ih =>
    obtain ⟨hsegment, hrest⟩ := not_or.mp (mt List.mem_cons.mpr h)
    have hbranches := Segment.length_branches_le (Ne.symm hsegment) tree
    rw [found]
    match segment.branches tree, hbranches with
    | [], _ => exact Nat.zero_le 1
    | [branch], _ =>
      rw [List.flatMap_singleton, List.length_map]
      exact ih hrest branch.2

/-- The nodes that segments select below a node, in the order of a walk. -/
def nodes (tree : Tree) (segments : List Segment) : List Tree :=
  (tree.found segments).map Prod.snd

/-- The nodes stand at the addresses that are found. -/
theorem forall₂_found (h : tree.Ordered) (segments : List Segment) :
    List.Forall₂ (fun address node => tree.node? address = some node) ((tree.found segments).map Prod.fst)
      (tree.nodes segments) := by
  rw [nodes, List.forall₂_map_left_iff, List.forall₂_map_right_iff, List.forall₂_same]
  exact fun found hmem => ((mem_found_iff h).mp hmem).2

/-- Segments select what the later ones select below the nodes of the first one. -/
theorem nodes_cons (tree : Tree) (segment : Segment) (rest : List Segment) :
    tree.nodes (segment :: rest) = (segment.select tree).flatMap (·.nodes rest) := by
  rw [nodes, found, List.map_flatMap, Segment.select_eq_map_branches, List.flatMap_map]
  simp only [List.map_map, nodes]
  rfl

/-- A walk goes from the current nodes to those that the next segment selects. -/
theorem flatMap_nodes_cons (current : List Tree) (segment : Segment) (rest : List Segment) :
    current.flatMap (·.nodes (segment :: rest)) = (current.flatMap segment.select).flatMap (·.nodes rest) := by
  rw [List.flatMap_assoc]
  simp only [nodes_cons]

/-- Nothing is selected below a node exactly if no address matches. -/
theorem nodes_eq_nil_iff (h : tree.Ordered) :
    tree.nodes segments = [] ↔ ∀ address, ¬ tree.Matches segments address := by
  simp only [matches_iff h, nodes, List.map_eq_nil_iff, ← List.eq_nil_iff_forall_not_mem]

end Tree

/-- Behind a wildcard the walk keeps all nodes. -/
theorem walkFrom_true (current : List Tree) (segments : List Segment) :
    walkFrom true current segments = .many (current.flatMap (·.nodes segments)) := by
  induction segments generalizing current with
  | nil =>
    change Selection.many current = .many (current.flatMap fun node => [node])
    rw [List.flatMap_singleton']
  | cons segment rest ih =>
    rw [Tree.flatMap_nodes_cons, ← ih, walkFrom]
    split
    · next hnone => rw [hnone]; rfl
    · rfl

/-- A segment that is no wildcard ends the walk where it selects nothing. -/
theorem walkFrom_false_cons {segment : Segment} (h : segment ≠ .wildcard) (current : List Tree)
    (rest : List Segment) :
    walkFrom false current (segment :: rest) =
      if current.flatMap segment.select = [] then .missing
      else walkFrom false (current.flatMap segment.select) rest := by
  have hprojects : (segment == .wildcard) = false := beq_false_of_ne h
  rw [walkFrom, hprojects]
  split
  · next hnone => rw [if_pos hnone]; rfl
  · next hsome => rw [if_neg hsome]; rfl

/-- Without a wildcard the first of the nodes is selected. -/
theorem walkFrom_false_of_not_mem {segments : List Segment} (h : .wildcard ∉ segments) (current : List Tree) :
    walkFrom false current segments = (current.flatMap (·.nodes segments)).head?.elim .missing .one := by
  induction segments generalizing current with
  | nil => cases current <;> rfl
  | cons segment rest ih =>
    obtain ⟨hsegment, hrest⟩ := not_or.mp (mt List.mem_cons.mpr h)
    rw [walkFrom_false_cons (Ne.symm hsegment), Tree.flatMap_nodes_cons]
    split
    · next hnone => rw [hnone]; rfl
    · exact ih hrest _

/-- With a wildcard all nodes are selected, if there are any in front of the first one. -/
theorem walkFrom_false_of_mem {segments : List Segment} (h : .wildcard ∈ segments) {current : List Tree}
    (hcurrent : current ≠ []) :
    walkFrom false current segments =
      if current.flatMap (·.nodes (segments.takeWhile (· != .wildcard))) = [] then .missing
      else .many (current.flatMap (·.nodes segments)) := by
  induction segments generalizing current with
  | nil => cases h
  | cons segment rest ih =>
    by_cases hsegment : segment = .wildcard
    · subst hsegment
      have hfront : current.flatMap (·.nodes []) = current := List.flatMap_singleton' current
      rw [List.takeWhile_cons_of_neg (by decide), hfront, if_neg hcurrent, Tree.flatMap_nodes_cons,
        ← walkFrom_true, walkFrom]
      split
      · next hnone => rw [hnone]; rfl
      · rfl
    · have hrest : .wildcard ∈ rest := (List.mem_cons.mp h).resolve_left (Ne.symm hsegment)
      rw [walkFrom_false_cons hsegment, List.takeWhile_cons_of_pos (by simp [hsegment]),
        Tree.flatMap_nodes_cons, Tree.flatMap_nodes_cons]
      split
      · next hnone => rw [hnone]; rfl
      · next hsome => exact ih hrest hsome

/-- A path with a wildcard selects its nodes, if there are any in front of the first wildcard. -/
theorem walk_of_mem {segments : List Segment} (h : .wildcard ∈ segments) (tree : Tree) :
    walk tree segments =
      if tree.nodes (segments.takeWhile (· != .wildcard)) = [] then .missing else .many (tree.nodes segments) := by
  rw [walk, walkFrom_false_of_mem h (List.cons_ne_nil tree []), List.flatMap_singleton, List.flatMap_singleton]

/-- A path selects exactly the nodes at the addresses that match it, in their order. -/
theorem walk_selects {tree : Tree} (h : tree.Ordered) (segments : List Segment) :
    tree.Selects segments (walk tree segments) := by
  refine ⟨fun hwildcard => ?one, fun hwildcard => ?missing, fun hwildcard hselected => ?many⟩
  case one =>
    rw [walk, walkFrom_false_of_not_mem hwildcard, List.flatMap_singleton]
    cases hfound : tree.found segments with
    | nil =>
      have hnodes : tree.nodes segments = [] := by rw [Tree.nodes, hfound, List.map_nil]
      rw [hnodes]
      exact .inl ⟨rfl, (Tree.nodes_eq_nil_iff h).mp hnodes⟩
    | cons first rest =>
      have hlength := Tree.length_found_le hwildcard tree
      rw [hfound, List.length_cons] at hlength
      obtain rfl : rest = [] := List.eq_nil_of_length_eq_zero (by omega)
      have hmem : (first.1, first.2) ∈ tree.found segments := by
        rw [hfound]
        exact List.mem_singleton.mpr rfl
      refine .inr ⟨first.1, first.2, by rw [Tree.nodes, hfound]; rfl, ((Tree.mem_found_iff h).mp hmem).2, ?_⟩
      intro other
      rw [Tree.matches_iff h, hfound, List.map_singleton, List.mem_singleton]
  case missing =>
    rw [walk_of_mem hwildcard, ← Tree.nodes_eq_nil_iff h]
    split
    · next hnone => simp [hnone]
    · next hsome => simp [hsome]
  case many =>
    rw [walk_of_mem hwildcard] at hselected ⊢
    split at hselected
    · exact absurd rfl hselected
    · next hsome =>
      exact ⟨(tree.found segments).map Prod.fst, tree.nodes segments, if_neg hsome, Tree.forall₂_found h segments,
        Tree.pairwise_found h segments, Tree.nodup_found h segments, fun address => (Tree.matches_iff h).symm⟩

/-- Data with keys that are not in their order: some plans have prices and others do not, and the last
price is asked for; then a position that no list has. -/
theorem walk_selects_last_prices :
    let source := "\x7b\"b\":\x7b\"prices\":[1,2,3]\x7d,\"c\":7,\"a\":\x7b\"prices\":[4]\x7d\x7d"
    let tree : Tree :=
      .record [("a", .record [("prices", .list [.number (.integer 4)])]),
        ("b", .record [("prices", .list [.number (.integer 1), .number (.integer 2), .number (.integer 3)])]),
        ("c", .number (.integer 7))]
    let last : List Segment := [.wildcard, .field "prices", .field "-1"]
    let absent : List Segment := [.field "b", .field "prices", .index Text.minInt64]
    TextFormat.readData .json source = .ok tree ∧ tree.Ordered ∧
      tree.Selects last (walk tree last) ∧ walk tree last = .many [.number (.integer 4), .number (.integer 3)] ∧
      tree.Selects absent (walk tree absent) ∧ walk tree absent = .missing := by
  intro source tree last absent
  have hread : TextFormat.readData .json source = .ok tree := by decide +kernel
  have hordered : tree.Ordered := TextFormat.ordered_of_readData hread
  exact ⟨hread, hordered, walk_selects hordered last, by decide +kernel, walk_selects hordered absent,
    by decide +kernel⟩

end SheetFill
