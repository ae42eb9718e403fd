import SheetFill.Proofs.Path.Grammar
import SheetFill.Proofs.Path.Matching

/-!
# Joined paths

A path relative to a node, put behind the path of the node, is a path from the root. In the dialect with a dollar sign
the sign of the second path goes; in the dotted one a point comes between the two, unless the second path starts with
a bracket or one of the two is the root.

Main statement: the joined expression selects in the whole tree what the second one selects below the node. The
characters join because two tails in a row are a tail, and the walks because the first one ends at one node.
-/

namespace SheetFill

/-- Two paths in a row: where the first ends at a node, the second goes on from there. -/
theorem walk_append {tree node : Tree} {first : List Segment} (h : walk tree first = .one node)
    (second : List Segment) : walk tree (first ++ second) = walk node second := by
  induction first generalizing tree with
  | nil =>
    cases h
    rfl
  | cons segment rest ih =>
    have hsegment : segment ≠ .wildcard := by
      rintro rfl
      rw [walk_of_mem List.mem_cons_self] at h
      split at h <;> cases h
    have hlength := Segment.length_branches_le hsegment tree
    rw [walk, walkFrom_false_cons hsegment, List.flatMap_singleton, Segment.select_eq_map_branches] at h
    rw [List.cons_append, walk, walkFrom_false_cons hsegment, List.flatMap_singleton,
      Segment.select_eq_map_branches]
    cases hbranches : segment.branches tree with
    | nil =>
      rw [hbranches, List.map_nil, if_pos rfl] at h
      cases h
    | cons branch others =>
      rw [hbranches, List.length_cons] at hlength
      obtain rfl : others = [] := List.eq_nil_of_length_eq_zero (by omega)
      rw [hbranches, List.map_singleton, if_neg (List.cons_ne_nil _ _)] at h
      rw [List.map_singleton, if_neg (List.cons_ne_nil _ _)]
      exact ih h

namespace Path

/-- The dotted expression selects the root. -/
def IsRoot (cs : List Char) : Prop :=
  cs = [] ∨ cs = ['.']

instance : DecidablePred IsRoot := fun _ => inferInstanceAs (Decidable (_ ∨ _))

/-- A dotted path as a tail: a point goes in front, unless a bracket stands there. -/
def stepped (cs : List Char) : List Char :=
  if cs.head? = some '[' then cs else '.' :: cs

/-- A path and its tail end alike. -/
theorem getLast?_stepped {cs : List Char} (h : cs ≠ []) : (stepped cs).getLast? = cs.getLast? := by
  unfold stepped
  split
  · rfl
  · exact List.getLast?_cons_of_ne_nil h

end Path

namespace Dialect

/-- A path relative to a base as one path. -/
def joined : Dialect → List Char → List Char → List Char
  | jsonPath, base, field => base ++ field.tail
  | dotted, base, field =>
    if Path.IsRoot base then field
    else if Path.IsRoot field then base
    else base ++ Path.stepped field

/-- An expression relative to a base as one expression. -/
def join (dialect : Dialect) (base field : String) : String :=
  String.ofList (dialect.joined base.toList field.toList)

variable {dialect : Dialect} {base field more : List Char} {first second : List Segment}

/-- Only the root has no segments of its own. -/
theorem Derives.eq_nil_of_isRoot (h : dotted.Derives base first) (hroot : Path.IsRoot base) : first = [] := by
  have hread := read_eq_ok_iff.mpr h
  rcases hroot with rfl | rfl <;> exact (Except.ok.inj hread).symm

/-- A path that is not the root, with a tail behind it, is a path. -/
theorem Derives.append (h : dotted.Derives base first) (hroot : ¬ Path.IsRoot base)
    (hmore : Path.IsTail more second) : dotted.Derives (base ++ more) (first ++ second) := by
  cases h with
  | empty => exact absurd (.inl rfl) hroot
  | point => exact absurd (.inr rfl) hroot
  | bracket htail => exact .bracket (htail.append hmore)
  | name hname hdollar hrest =>
    rw [List.append_assoc]
    exact .name hname hdollar (hrest.append hmore)

/-- A path that is not the root is a tail, with a point in front of a name. -/
theorem Derives.isTail_stepped (h : dotted.Derives field second) (hroot : ¬ Path.IsRoot field) :
    Path.IsTail (Path.stepped field) second := by
  cases h with
  | empty => exact absurd (.inl rfl) hroot
  | point => exact absurd (.inr rfl) hroot
  | bracket htail => exact htail
  | @name name rest segment segments hname hdollar hrest =>
    have hstep : Path.stepped (name ++ rest) = '.' :: (name ++ rest) := by
      obtain ⟨c, cs, rfl, hc⟩ := hname.exists_cons
      refine if_neg fun hbracket => ?_
      cases hbracket
      cases hc
    rw [hstep]
    exact .name hname hrest

/-- The joined path has the segments of the base, then those of the field. -/
theorem Derives.joined (hbase : dialect.Derives base first) (hfield : dialect.Derives field second) :
    dialect.Derives (dialect.joined base field) (first ++ second) := by
  cases dialect with
  | jsonPath =>
    cases hbase with
    | dollar hfirst =>
      cases hfield with
      | dollar hsecond => exact .dollar (hfirst.append hsecond)
  | dotted =>
    rw [Dialect.joined]
    split
    · next hroot =>
      rw [hbase.eq_nil_of_isRoot hroot]
      exact hfield
    · next hbaseRoot =>
      split
      · next hroot =>
        rw [hfield.eq_nil_of_isRoot hroot, List.append_nil]
        exact hbase
      · next hfieldRoot => exact hbase.append hbaseRoot (hfield.isTail_stepped hfieldRoot)

/-- Joined paths have no blanks around them if their parts have none. -/
theorem Derives.trim_joined (hderives : dialect.Derives base first) (hbase : Text.trim base = base)
    (hfield : Text.trim field = field) : Text.trim (dialect.joined base field) = dialect.joined base field := by
  have hlast : ∀ c ∈ field.getLast?, Text.isBlank c = false := by
    intro c hc
    rw [← hfield] at hc
    exact Text.not_blank_of_mem_getLast?_trim hc
  cases dialect with
  | jsonPath =>
    cases hderives with
    | dollar =>
      refine Text.trim_append hbase (List.cons_ne_nil _ _) fun c hc => hlast c ?_
      cases field with
      | nil => cases hc
      | cons => exact List.mem_getLast?_cons hc
  | dotted =>
    rw [Dialect.joined]
    split
    · exact hfield
    · next hbaseRoot =>
      split
      · exact hbase
      · next hfieldRoot =>
        refine Text.trim_append hbase (fun hnil => hbaseRoot (.inl hnil)) fun c hc => hlast c ?_
        rwa [Path.getLast?_stepped fun hnil => hfieldRoot (.inl hnil)] at hc

/-- A joined expression has the segments of the base, then those of the field. -/
theorem parse_join {base field : String} (hbase : Text.trimmed base = base) (hfield : Text.trimmed field = field)
    (hfirst : dialect.parse base = .ok first) (hsecond : dialect.parse field = .ok second) :
    dialect.parse (dialect.join base field) = .ok (first ++ second) := by
  have hbaseTrim := Text.trimmed_eq_self_iff.mp hbase
  have hfieldTrim := Text.trimmed_eq_self_iff.mp hfield
  rw [parse_eq_ok_iff, hbaseTrim] at hfirst
  rw [parse_eq_ok_iff, hfieldTrim] at hsecond
  rw [parse_eq_ok_iff, join, String.toList_ofList, hfirst.trim_joined hbaseTrim hfieldTrim]
  exact hfirst.joined hsecond

/-- Below the node that the base selects, a field selects what the joined expression selects in the whole tree. -/
theorem evaluate_eq_evaluate_join {tree node : Tree} {base field : String} (hbase : Text.trimmed base = base)
    (hfield : Text.trimmed field = field) (hnode : dialect.evaluate tree base = .ok (.one node))
    (hsecond : dialect.parse field = .ok second) :
    dialect.evaluate node field = dialect.evaluate tree (dialect.join base field) := by
  obtain ⟨first, hfirst, hwalk⟩ := map_eq_ok_iff.mp hnode
  rw [evaluate, evaluate, parse_join hbase hfield hfirst hsecond, hsecond, Except.map, Except.map,
    walk_append hwalk]

end Dialect

end SheetFill
