import SheetFill.Proofs.Path.Join

/-!
# The two dialects

The dialects share all but the start of an expression. A dotted expression that is not the root becomes one of the
other dialect by a dollar sign in front, and a point unless it starts with a bracket; and no dotted expression starts
with a dollar sign.

Main statement: an expression and its form with a dollar sign are accepted alike, no text is accepted in both dialects,
and the dialect that is told by the first character is the one that accepts a text, if any does. This holds of
malformed expressions as well, as it is shown of derivations in both directions.
-/

namespace SheetFill

/-- A dotted expression as it stands behind a base: without blanks around it, not empty, and starting neither with a
dollar sign nor with a point. -/
structure Path.IsRelative (expression : String) : Prop where
  trimmed : Text.trimmed expression = expression
  nonempty : expression ≠ ""
  dollar : expression.toList.head? ≠ some '$'
  point : expression.toList.head? ≠ some '.'

namespace Dialect

/-- A dotted expression in the other dialect. -/
def dollared (expression : String) : String :=
  String.ofList ('$' :: Path.stepped expression.toList)

variable {dialect : Dialect} {cs : List Char} {segments : List Segment} {expression : String}

/-- A tail that starts with a name is a dotted path without its point. -/
theorem derives_of_isTail_point (h : Path.IsTail ('.' :: cs) segments) (hdollar : cs.head? ≠ some '$') :
    dotted.Derives cs segments := by
  cases h with
  | name hname hrest =>
    refine .name hname (fun hhead => hdollar ?_) hrest
    rw [List.head?_append, hhead]
    rfl

/-- A dotted path that is not the root is a tail, and nothing else makes a tail in this way. -/
theorem derives_iff_isTail_stepped (hroot : ¬ Path.IsRoot cs) (hdollar : cs.head? ≠ some '$') :
    dotted.Derives cs segments ↔ Path.IsTail (Path.stepped cs) segments := by
  refine ⟨fun h => h.isTail_stepped hroot, fun h => ?_⟩
  unfold Path.stepped at h
  split at h
  · next hbracket =>
    obtain ⟨rest, rfl⟩ := List.head?_eq_some_iff.mp hbracket
    exact .bracket h
  · exact derives_of_isTail_point h hdollar

/-- An expression and its form with a dollar sign have the same segments. -/
theorem parse_dotted_iff_parse_dollared (h : Path.IsRelative expression) :
    dotted.parse expression = .ok segments ↔ jsonPath.parse (dollared expression) = .ok segments := by
  have htrim := Text.trimmed_eq_self_iff.mp h.trimmed
  have hne : expression.toList ≠ [] := fun hnil => h.nonempty (String.toList_eq_nil_iff.mp hnil)
  have hroot : ¬ Path.IsRoot expression.toList := by
    rintro (hnil | hpoint)
    · exact hne hnil
    · exact h.point (by rw [hpoint]; rfl)
  have hlast : ∀ c ∈ (Path.stepped expression.toList).getLast?, Text.isBlank c = false := by
    intro c hc
    rw [Path.getLast?_stepped hne, ← htrim] at hc
    exact Text.not_blank_of_mem_getLast?_trim hc
  have hdollared : Text.trim ('$' :: Path.stepped expression.toList) = '$' :: Path.stepped expression.toList :=
    Text.trim_append (by decide : Text.trim ['$'] = ['$']) (List.cons_ne_nil _ _) hlast
  rw [parse_eq_ok_iff, parse_eq_ok_iff, dollared, String.toList_ofList, hdollared, htrim,
    derives_iff_isTail_stepped hroot h.dollar]
  constructor
  · exact .dollar
  · rintro ⟨htail⟩
    exact htail

/-- The dialect is told by the first character of the trimmed text. -/
theorem of_eq_jsonPath_iff : of expression = jsonPath ↔ (Text.trim expression.toList).head? = some '$' := by
  rw [of, Text.head?_trim]
  split <;> simp [*]

/-- Only paths of the dialect with a dollar sign start with one. -/
theorem Derives.head?_eq_iff (h : dialect.Derives cs segments) : cs.head? = some '$' ↔ dialect = jsonPath := by
  cases h with
  | dollar => exact iff_of_true rfl rfl
  | empty | point | bracket => exact iff_of_false (by simp) (by simp)
  | name hname hdollar =>
    obtain ⟨c, rest, rfl, -⟩ := hname.exists_cons
    exact iff_of_false hdollar (by simp)

/-- The dialect told by the first character is the one that accepts a text. -/
theorem of_eq_of_parse (h : dialect.parse expression = .ok segments) : of expression = dialect := by
  have hiff := (parse_eq_ok_iff.mp h).head?_eq_iff
  rw [← of_eq_jsonPath_iff] at hiff
  cases dialect with
  | jsonPath => exact hiff.mpr rfl
  | dotted =>
    cases hof : of expression with
    | dotted => rfl
    | jsonPath => exact (hiff.mp hof).symm

/-- A relative expression is accepted in the dotted dialect exactly if its form with a dollar sign is accepted in the
other one, with the same segments. No text is accepted in both dialects, and a text that is accepted in one is accepted
in the one told by its first character. -/
theorem dialects_agree :
    (∀ expression, Path.IsRelative expression → ∀ segments,
      dotted.parse expression = .ok segments ↔ jsonPath.parse (dollared expression) = .ok segments) ∧
    (∀ text first second, ¬ (dotted.parse text = .ok first ∧ jsonPath.parse text = .ok second)) ∧
    ∀ (dialect : Dialect) text segments, dialect.parse text = .ok segments → (of text).parse text = .ok segments := by
  refine ⟨fun _ h _ => parse_dotted_iff_parse_dollared h, ?_, ?_⟩
  · rintro text first second ⟨hdotted, hjson⟩
    cases (of_eq_of_parse hdotted).symm.trans (of_eq_of_parse hjson)
  · intro dialect text segments h
    rwa [of_eq_of_parse h]

/-- A name with a quote, a blank and a dollar sign, in front of a position with blanks around it. -/
theorem dialects_agree_odd_name :
    let expression := "it's $ [ -1 ].*"
    let segments : List Segment := [.field "it's $", .index (-1), .wildcard]
    Path.IsRelative expression ∧ dollared expression = "$.it's $ [ -1 ].*" ∧
      dotted.parse expression = .ok segments ∧ jsonPath.parse (dollared expression) = .ok segments ∧
      of expression = dotted ∧ of (dollared expression) = jsonPath := by
  intro expression segments
  have hrelative : Path.IsRelative expression :=
    ⟨by decide +kernel, by decide +kernel, by decide +kernel, by decide +kernel⟩
  have hdotted : dotted.parse expression = .ok segments := by decide +kernel
  have hjson := (dialects_agree.1 expression hrelative segments).mp hdotted
  exact ⟨hrelative, by decide +kernel, hdotted, hjson, of_eq_of_parse hdotted, of_eq_of_parse hjson⟩

end Dialect

end SheetFill
