import SheetFill.Proofs.Path.Grammar

/-!
# Derivations

A derivation says how an expression is made of the parts of the grammar: which characters are names, blanks, quotes,
escaped characters and digits. Its fields carry what the grammar asks of each part, so that there is no derivation of
anything else. From a derivation both the characters and the segments are read off.

Main statement: the characters determine the derivation, and a reader of a dialect accepts the expressions that have
one, with the segments of the derivation. All other expressions are refused as paths. Uniqueness goes by what follows
each part: a name, blanks and a number each end where a character of another class stands, and a key ends at the first
quote that is not escaped.
-/

namespace SheetFill

namespace Path

/-- A name: neither points nor brackets, and not only blanks. -/
@[ext] structure Name where
  chars : List Char
  plain : ∀ c ∈ chars, c ≠ '.' ∧ c ≠ '[' ∧ c ≠ ']'
  nonempty : Text.trim chars ≠ []

/-- A name selects the field of this name, without the blanks around it; an asterisk selects every child. -/
def Name.segment (name : Name) : Segment :=
  if Text.trim name.chars = ['*'] then .wildcard else .field (String.ofList (Text.trim name.chars))

/-- Blanks, or nothing. -/
@[ext] structure Blanks where
  chars : List Char
  blank : ∀ c ∈ chars, Text.isBlank c = true

/-- A character of a key as it is written between quotes. -/
inductive KeyChar (quote : Char) where
  /-- A character that stands for itself. -/
  | plain (c : Char) (hquote : c ≠ quote) (hbackslash : c ≠ '\\')
  /-- Any character behind a backslash. -/
  | escaped (c : Char)

namespace KeyChar

variable {quote : Char}

/-- What is written. -/
def chars : KeyChar quote → List Char
  | plain c _ _ => [c]
  | escaped c => ['\\', c]

/-- The character of the key. -/
def char : KeyChar quote → Char
  | plain c _ _ => c
  | escaped c => c

end KeyChar

/-- The integer that digits write, behind a minus sign or without one. -/
def signedValue (negative : Bool) (digits : List Char) : Int :=
  if negative then -(Text.digitsValue 0 digits : Int) else Text.digitsValue 0 digits

/-- An integer of 64 bits in decimal digits, of which at least one is there. -/
@[ext] structure Numeral where
  negative : Bool
  digits : List Char
  nonempty : digits ≠ []
  decimal : ∀ c ∈ digits, Text.isDigit c = true
  least : Text.minInt64 ≤ signedValue negative digits
  most : signedValue negative digits ≤ Text.maxInt64

namespace Numeral

/-- The sign, if there is one, and the digits. -/
def chars (n : Numeral) : List Char :=
  if n.negative then '-' :: n.digits else n.digits

/-- The integer. -/
def value (n : Numeral) : Int :=
  signedValue n.negative n.digits

end Numeral

/-- What stands in brackets. -/
inductive Body where
  | wildcard
  | key (quote : Char) (hquote : IsQuote quote) (content : List (KeyChar quote))
  | index (numeral : Numeral)

namespace Body

/-- The characters of a body, with the quotes of a key. -/
def chars : Body → List Char
  | wildcard => ['*']
  | key quote _ content => quote :: (content.flatMap KeyChar.chars ++ [quote])
  | index numeral => numeral.chars

/-- What a body selects. -/
def segment : Body → Segment
  | wildcard => .wildcard
  | key _ _ content => .field (String.ofList (content.map KeyChar.char))
  | index numeral => .index numeral.value

end Body

/-- A body in brackets, with blanks around it. -/
@[ext] structure Bracket where
  front : Blanks
  body : Body
  back : Blanks

/-- The characters behind the opening bracket. -/
def Bracket.chars (bracket : Bracket) : List Char :=
  bracket.front.chars ++ (bracket.body.chars ++ (bracket.back.chars ++ [']']))

/-- A name behind a point, or a bracket. -/
inductive Step where
  | name (name : Name)
  | bracket (bracket : Bracket)

namespace Step

/-- The characters of a step. -/
def chars : Step → List Char
  | .name n => '.' :: n.chars
  | .bracket b => '[' :: b.chars

/-- What a step selects. -/
def segment : Step → Segment
  | .name n => n.segment
  | .bracket b => b.body.segment

end Step

end Path

/-- How an expression of a dialect is made: of steps behind a dollar sign; or of nothing, a point alone, or a first step
and more, where the first step is a bracket or a name without a point in front. -/
inductive Dialect.Derivation : Dialect → Type where
  | dollar (steps : List Path.Step) : Derivation .jsonPath
  | empty : Derivation .dotted
  | point : Derivation .dotted
  | bracket (bracket : Path.Bracket) (steps : List Path.Step) : Derivation .dotted
  | name (name : Path.Name) (hdollar : name.chars.head? ≠ some '$') (steps : List Path.Step) : Derivation .dotted

namespace Dialect.Derivation

/-- The expression. -/
def chars : {dialect : Dialect} → dialect.Derivation → List Char
  | _, .dollar steps => '$' :: steps.flatMap Path.Step.chars
  | _, .empty => []
  | _, .point => ['.']
  | _, .bracket b steps => '[' :: (b.chars ++ steps.flatMap Path.Step.chars)
  | _, .name n _ steps => n.chars ++ steps.flatMap Path.Step.chars

/-- What the expression selects. -/
def segments : {dialect : Dialect} → dialect.Derivation → List Segment
  | _, .dollar steps => steps.map Path.Step.segment
  | _, .empty => []
  | _, .point => []
  | _, .bracket b steps => b.body.segment :: steps.map Path.Step.segment
  | _, .name n _ steps => n.segment :: steps.map Path.Step.segment

end Dialect.Derivation

namespace Path

section Grammar

variable {cs body key : List Char} {quote : Char} {i : Int} {segment : Segment} {segments : List Segment}

/-- A character ends no name if it is neither a point nor a bracket. -/
theorem endsName_eq_false_iff {c : Char} : endsName c = false ↔ c ≠ '.' ∧ c ≠ '[' ∧ c ≠ ']' := by
  simp [endsName, and_assoc]

/-- The names of the grammar are those of derivations. -/
theorem isName_iff : IsName cs segment ↔ ∃ name : Name, name.chars = cs ∧ name.segment = segment := by
  constructor
  · rintro ⟨hplain, hnonempty, rfl⟩
    exact ⟨⟨cs, fun c hc => endsName_eq_false_iff.mp (hplain c hc), hnonempty⟩, rfl, rfl⟩
  · rintro ⟨name, rfl, rfl⟩
    exact ⟨fun c hc => endsName_eq_false_iff.mpr (name.plain c hc), name.nonempty, rfl⟩

/-- The keys of the grammar are those of derivations. -/
theorem isQuoted_iff :
    IsQuoted quote body key ↔
      ∃ content : List (KeyChar quote), content.flatMap KeyChar.chars = body ∧ content.map KeyChar.char = key := by
  constructor
  · intro h
    induction h with
    | nil => exact ⟨[], rfl, rfl⟩
    | @plain c _ _ hquote hbackslash _ ih =>
      obtain ⟨content, rfl, rfl⟩ := ih
      exact ⟨.plain c hquote hbackslash :: content, rfl, rfl⟩
    | @escaped c _ _ _ ih =>
      obtain ⟨content, rfl, rfl⟩ := ih
      exact ⟨.escaped c :: content, rfl, rfl⟩
  · rintro ⟨content, rfl, rfl⟩
    induction content with
    | nil => exact .nil
    | cons written content ih =>
      cases written with
      | plain c hquote hbackslash => exact .plain hquote hbackslash ih
      | escaped c => exact .escaped ih

/-- A numeral is made of characters of numbers. -/
theorem Numeral.inIndex_of_mem (n : Numeral) {c : Char} (hc : c ∈ n.chars) : inIndex c = true := by
  have hdigits : ∀ c ∈ n.digits, inIndex c = true := fun c hc => by
    rw [inIndex, n.decimal c hc, Bool.or_true]
  unfold Numeral.chars at hc
  split at hc
  · rcases List.mem_cons.mp hc with rfl | hc
    · rfl
    · exact hdigits c hc
  · exact hdigits c hc

/-- A numeral is read as its value. -/
theorem Numeral.int64?_chars (n : Numeral) : Text.int64? n.chars = some n.value := by
  refine Text.int64?_eq_some_iff.mpr ⟨?_, n.least, n.most⟩
  obtain ⟨negative, digits, hnonempty, hdecimal, -, -⟩ := n
  have hread : Text.nat? digits = some (Text.digitsValue 0 digits) :=
    Text.nat?_eq_some_iff.mpr ⟨hnonempty, hdecimal, rfl⟩
  cases negative with
  | true =>
    change Text.int? ('-' :: digits) = _
    rw [Text.int?_minus, hread]
    rfl
  | false =>
    change Text.int? digits = _
    cases digits with
    | nil => exact absurd rfl hnonempty
    | cons c rest =>
      rw [Text.int?_of_isDigit (hdecimal c List.mem_cons_self), hread]
      rfl

/-- What is read as an index is a numeral with that value. -/
theorem Numeral.exists_of_int64? (hindex : ∀ c ∈ cs, inIndex c = true) (h : Text.int64? cs = some i) :
    ∃ n : Numeral, n.chars = cs ∧ n.value = i := by
  obtain ⟨hread, hleast, hmost⟩ := Text.int64?_eq_some_iff.mp h
  cases cs with
  | nil => cases hread
  | cons c digits =>
    rcases (Bool.or_eq_true _ _).mp (hindex c List.mem_cons_self) with hminus | hdigit
    · obtain rfl := beq_iff_eq.mp hminus
      rw [Text.int?_minus] at hread
      obtain ⟨value, hvalue, rfl⟩ := Option.map_eq_some_iff.mp hread
      obtain ⟨hnonempty, hdecimal, rfl⟩ := Text.nat?_eq_some_iff.mp hvalue
      exact ⟨⟨true, digits, hnonempty, hdecimal, hleast, hmost⟩, rfl, rfl⟩
    · rw [Text.int?_of_isDigit hdigit] at hread
      obtain ⟨value, hvalue, rfl⟩ := Option.map_eq_some_iff.mp hread
      obtain ⟨hnonempty, hdecimal, rfl⟩ := Text.nat?_eq_some_iff.mp hvalue
      exact ⟨⟨false, c :: digits, hnonempty, hdecimal, hleast, hmost⟩, rfl, rfl⟩

/-- The bodies of the grammar are those of derivations. -/
theorem isBody_iff : IsBody cs segment ↔ ∃ body : Body, body.chars = cs ∧ body.segment = segment := by
  constructor
  · intro h
    cases h with
    | wildcard => exact ⟨.wildcard, rfl, rfl⟩
    | @key quote _ _ hquote h =>
      obtain ⟨content, rfl, rfl⟩ := isQuoted_iff.mp h
      exact ⟨.key quote hquote content, rfl, rfl⟩
    | index hdigits hread =>
      obtain ⟨n, rfl, rfl⟩ := Numeral.exists_of_int64? hdigits hread
      exact ⟨.index n, rfl, rfl⟩
  · rintro ⟨body, rfl, rfl⟩
    cases body with
    | wildcard => exact .wildcard
    | key quote hquote content => exact .key hquote (isQuoted_iff.mpr ⟨content, rfl, rfl⟩)
    | index n => exact .index (fun _ => n.inIndex_of_mem) n.int64?_chars

/-- The brackets of the grammar are those of derivations. -/
theorem isBracket_iff :
    IsBracket cs segment ↔ ∃ bracket : Bracket, bracket.chars = cs ∧ bracket.body.segment = segment := by
  constructor
  · rintro ⟨hfront, hbody, hback⟩
    obtain ⟨body, rfl, rfl⟩ := isBody_iff.mp hbody
    exact ⟨⟨⟨_, hfront⟩, body, ⟨_, hback⟩⟩, rfl, rfl⟩
  · rintro ⟨⟨front, body, back⟩, rfl, rfl⟩
    exact .intro front.blank (isBody_iff.mpr ⟨body, rfl, rfl⟩) back.blank

/-- The tails of the grammar are the steps of derivations. -/
theorem isTail_iff :
    IsTail cs segments ↔ ∃ steps : List Step, steps.flatMap Step.chars = cs ∧ steps.map Step.segment = segments := by
  constructor
  · intro h
    induction h with
    | nil => exact ⟨[], rfl, rfl⟩
    | name hname _ ih =>
      obtain ⟨name, rfl, rfl⟩ := isName_iff.mp hname
      obtain ⟨steps, rfl, rfl⟩ := ih
      exact ⟨.name name :: steps, rfl, rfl⟩
    | bracket hbracket _ ih =>
      obtain ⟨bracket, rfl, rfl⟩ := isBracket_iff.mp hbracket
      obtain ⟨steps, rfl, rfl⟩ := ih
      exact ⟨.bracket bracket :: steps, rfl, rfl⟩
  · rintro ⟨steps, rfl, rfl⟩
    induction steps with
    | nil => exact .nil
    | cons step steps ih =>
      cases step with
      | name name => exact .name (isName_iff.mpr ⟨name, rfl, rfl⟩) ih
      | bracket bracket => exact .bracket (isBracket_iff.mpr ⟨bracket, rfl, rfl⟩) ih

end Grammar

section Uniqueness

variable {rest rest' : List Char}

/-- The characters of two keys up to their closing quotes are the same only if the keys are. -/
theorem KeyChar.append_inj {quote : Char} (hquote : quote ≠ '\\') {content content' : List (KeyChar quote)}
    (h : content.flatMap chars ++ quote :: rest = content'.flatMap chars ++ quote :: rest') :
    content = content' ∧ rest = rest' := by
  induction content generalizing content' with
  | nil =>
    cases content' with
    | nil =>
      cases h
      exact ⟨rfl, rfl⟩
    | cons written _ =>
      cases written with
      | plain c hne => exact absurd (List.cons.inj h).1.symm hne
      | escaped c => exact absurd (List.cons.inj h).1 hquote
  | cons written content ih =>
    cases written with
    | plain c hne hbackslash =>
      cases content' with
      | nil => exact absurd (List.cons.inj h).1 hne
      | cons written' content' =>
        cases written' with
        | plain c' hne' hbackslash' =>
          obtain ⟨rfl, htail⟩ := List.cons.inj h
          obtain ⟨rfl, rfl⟩ := ih htail
          exact ⟨rfl, rfl⟩
        | escaped c' => exact absurd (List.cons.inj h).1 hbackslash
    | escaped c =>
      cases content' with
      | nil => exact absurd (List.cons.inj h).1.symm hquote
      | cons written' content' =>
        cases written' with
        | plain c' hne' hbackslash' => exact absurd (List.cons.inj h).1.symm hbackslash'
        | escaped c' =>
          obtain ⟨rfl, htail⟩ := List.cons.inj (List.cons.inj h).2
          obtain ⟨rfl, rfl⟩ := ih htail
          exact ⟨rfl, rfl⟩

/-- Only a negative numeral starts with a minus sign. -/
theorem Numeral.head?_chars_eq_iff (n : Numeral) : n.chars.head? = some '-' ↔ n.negative = true := by
  unfold Numeral.chars
  split
  · next hnegative => simp [hnegative]
  · next hnegative =>
    refine iff_of_false (fun hhead => ?_) hnegative
    have hdigit := n.decimal '-' (List.mem_of_mem_head? hhead)
    cases hdigit

/-- Numerals with the same characters are the same. -/
theorem Numeral.eq_of_chars_eq {n n' : Numeral} (h : n.chars = n'.chars) : n = n' := by
  have hnegative : n.negative = n'.negative := by
    rw [Bool.eq_iff_iff, ← n.head?_chars_eq_iff, ← n'.head?_chars_eq_iff, h]
  unfold Numeral.chars at h
  rw [← hnegative] at h
  split at h
  · exact Numeral.ext hnegative (List.cons.inj h).2
  · exact Numeral.ext hnegative h

/-- A numeral starts with no other character than one of a number. -/
theorem Numeral.append_ne_cons (n : Numeral) {c : Char} (hc : inIndex c = false) :
    n.chars ++ rest ≠ c :: rest' := by
  intro h
  cases hchars : n.chars with
  | nil =>
    have hread := n.int64?_chars
    rw [hchars] at hread
    cases hread
  | cons first others =>
    have hfirst := n.inIndex_of_mem (hchars ▸ List.mem_cons_self)
    rw [hchars] at h
    rw [(List.cons.inj h).1, hc] at hfirst
    cases hfirst

/-- A quote is no character of a number. -/
theorem IsQuote.inIndex_eq_false {quote : Char} (h : IsQuote quote) : inIndex quote = false := by
  rcases h with rfl | rfl <;> decide

/-- A quote is no asterisk. -/
theorem IsQuote.ne_star {quote : Char} (h : IsQuote quote) : quote ≠ '*' := by
  rcases h with rfl | rfl <;> decide

/-- What stands in brackets is determined by its characters, if no number goes on behind it. -/
theorem Body.append_inj {body body' : Body} (hrest : ∀ c ∈ rest.head?, inIndex c = false)
    (hrest' : ∀ c ∈ rest'.head?, inIndex c = false) (h : body.chars ++ rest = body'.chars ++ rest') :
    body = body' ∧ rest = rest' := by
  cases body with
  | wildcard =>
    cases body' with
    | wildcard => exact ⟨rfl, (List.cons.inj h).2⟩
    | key quote' hquote' => exact absurd (List.cons.inj h).1.symm hquote'.ne_star
    | index n' => exact absurd h.symm (n'.append_ne_cons (by decide))
  | key quote hquote content =>
    cases body' with
    | wildcard => exact absurd (List.cons.inj h).1 hquote.ne_star
    | key quote' hquote' content' =>
      obtain ⟨rfl, htail⟩ := List.cons.inj h
      rw [List.append_eq, List.append_eq, List.append_assoc, List.append_assoc] at htail
      obtain ⟨rfl, rfl⟩ := KeyChar.append_inj hquote.ne_backslash htail
      exact ⟨rfl, rfl⟩
    | index n' => exact absurd h.symm (n'.append_ne_cons hquote.inIndex_eq_false)
  | index n =>
    cases body' with
    | wildcard => exact absurd h (n.append_ne_cons (by decide))
    | key quote' hquote' => exact absurd h (n.append_ne_cons hquote'.inIndex_eq_false)
    | index n' =>
      obtain ⟨hchars, rfl⟩ :=
        run_append_inj (fun _ => n.inIndex_of_mem) hrest (fun _ => n'.inIndex_of_mem) hrest' h
      rw [Numeral.eq_of_chars_eq hchars]
      exact ⟨rfl, rfl⟩

/-- Brackets are determined by their characters. -/
theorem Bracket.append_inj {bracket bracket' : Bracket} (h : bracket.chars ++ rest = bracket'.chars ++ rest') :
    bracket = bracket' ∧ rest = rest' := by
  obtain ⟨front, body, back⟩ := bracket
  obtain ⟨front', body', back'⟩ := bracket'
  simp only [Bracket.chars, List.append_assoc, List.singleton_append] at h
  have hbody (body : Body) (behind : List Char) :
      ∀ c ∈ (body.chars ++ behind).head?, Text.isBlank c = false := fun _ =>
    (isBody_iff.mpr ⟨body, rfl, rfl⟩).not_blank_of_mem_head?
  have hclosing (behind : List Char) : ∀ c ∈ (']' :: behind).head?, Text.isBlank c = false := by
    intro c hc
    cases hc
    decide
  obtain ⟨hfront, hinner⟩ := run_append_inj front.blank (hbody body _) front'.blank (hbody body' _) h
  obtain ⟨rfl, hbehind⟩ :=
    Body.append_inj (not_inIndex_behind_body back.blank) (not_inIndex_behind_body back'.blank) hinner
  obtain ⟨hback, hclosed⟩ := run_append_inj back.blank (hclosing rest) back'.blank (hclosing rest') hbehind
  rw [Blanks.ext hfront, Blanks.ext hback]
  exact ⟨rfl, (List.cons.inj hclosed).2⟩

/-- A name is determined by its characters, up to one that ends a name. -/
theorem Name.append_inj {name name' : Name} (hrest : ∀ c ∈ rest.head?, endsName c = true)
    (hrest' : ∀ c ∈ rest'.head?, endsName c = true) (h : name.chars ++ rest = name'.chars ++ rest') :
    name = name' ∧ rest = rest' := by
  have hplain (name : Name) : ∀ c ∈ name.chars, (!endsName c) = true := fun c hc => by
    rw [endsName_eq_false_iff.mpr (name.plain c hc)]
    rfl
  obtain ⟨hchars, rfl⟩ := run_append_inj (hplain name) (fun c hc => by rw [hrest c hc]; rfl) (hplain name')
    (fun c hc => by rw [hrest' c hc]; rfl) h
  exact ⟨Name.ext hchars, rfl⟩

/-- A name has a first character, which ends no name. -/
theorem Name.exists_cons (name : Name) : ∃ c cs, name.chars = c :: cs ∧ endsName c = false :=
  (isName_iff.mpr ⟨name, rfl, rfl⟩).exists_cons

/-- A name is not nothing. -/
theorem Name.append_ne_nil (name : Name) : name.chars ++ rest ≠ [] := by
  obtain ⟨c, cs, hchars, -⟩ := name.exists_cons
  rw [hchars]
  exact List.cons_ne_nil _ _

/-- A name does not start with a character that ends one. -/
theorem Name.append_ne_cons (name : Name) {c : Char} (hc : endsName c = true) : name.chars ++ rest ≠ c :: rest' := by
  obtain ⟨first, others, hchars, hfirst⟩ := name.exists_cons
  rw [hchars]
  intro h
  rw [(List.cons.inj h).1, hc] at hfirst
  cases hfirst

/-- A step that is not the first starts with a character that ends a name. -/
theorem endsName_of_mem_head?_steps {steps : List Step} {c : Char} (hc : c ∈ (steps.flatMap Step.chars).head?) :
    endsName c = true :=
  (isTail_iff.mpr ⟨steps, rfl, rfl⟩).endsName_of_mem_head? hc

/-- Steps are determined by their characters. -/
theorem Step.flatMap_chars_injective : Function.Injective fun steps : List Step => steps.flatMap Step.chars := by
  intro steps steps' h
  dsimp only at h
  induction steps generalizing steps' with
  | nil =>
    cases steps' with
    | nil => rfl
    | cons step' => cases step' <;> cases h
  | cons step steps ih =>
    cases steps' with
    | nil => cases step <;> cases h
    | cons step' steps' =>
      rw [List.flatMap_cons, List.flatMap_cons] at h
      cases step with
      | name name =>
        cases step' with
        | name name' =>
          obtain ⟨rfl, htail⟩ := Name.append_inj (fun _ => endsName_of_mem_head?_steps)
            (fun _ => endsName_of_mem_head?_steps) (List.cons.inj h).2
          rw [ih htail]
        | bracket bracket' => cases h
      | bracket bracket =>
        cases step' with
        | name name' => cases h
        | bracket bracket' =>
          obtain ⟨rfl, htail⟩ := Bracket.append_inj (List.cons.inj h).2
          rw [ih htail]

end Uniqueness

end Path

namespace Dialect

variable {dialect : Dialect} {cs : List Char} {segments : List Segment}

/-- The paths of a dialect are those that have a derivation, with its segments. -/
theorem derives_iff :
    dialect.Derives cs segments ↔ ∃ d : dialect.Derivation, d.chars = cs ∧ d.segments = segments := by
  constructor
  · intro h
    cases h with
    | dollar h =>
      obtain ⟨steps, rfl, rfl⟩ := Path.isTail_iff.mp h
      exact ⟨.dollar steps, rfl, rfl⟩
    | empty => exact ⟨.empty, rfl, rfl⟩
    | point => exact ⟨.point, rfl, rfl⟩
    | bracket h =>
      cases h with
      | bracket hbracket hrest =>
        obtain ⟨bracket, rfl, rfl⟩ := Path.isBracket_iff.mp hbracket
        obtain ⟨steps, rfl, rfl⟩ := Path.isTail_iff.mp hrest
        exact ⟨.bracket bracket steps, rfl, rfl⟩
    | name hname hdollar h =>
      obtain ⟨name, rfl, rfl⟩ := Path.isName_iff.mp hname
      obtain ⟨steps, rfl, rfl⟩ := Path.isTail_iff.mp h
      exact ⟨.name name hdollar steps, rfl, rfl⟩
  · rintro ⟨d, rfl, rfl⟩
    cases d with
    | dollar steps => exact .dollar (Path.isTail_iff.mpr ⟨steps, rfl, rfl⟩)
    | empty => exact .empty
    | point => exact .point
    | bracket bracket steps =>
      exact .bracket (.bracket (Path.isBracket_iff.mpr ⟨bracket, rfl, rfl⟩) (Path.isTail_iff.mpr ⟨steps, rfl, rfl⟩))
    | name name hdollar steps =>
      exact .name (Path.isName_iff.mpr ⟨name, rfl, rfl⟩) hdollar (Path.isTail_iff.mpr ⟨steps, rfl, rfl⟩)

/-- The characters determine the derivation. -/
theorem Derivation.chars_injective : Function.Injective (chars : dialect.Derivation → List Char) := by
  intro d d' h
  -- What an expression starts with says by which rule it is made.
  cases d with
  | dollar steps =>
    cases d' with
    | dollar steps' => rw [Path.Step.flatMap_chars_injective (List.cons.inj h).2]
  | empty =>
    cases d' with
    | empty => rfl
    | point | bracket => cases h
    | name name' => exact absurd h.symm name'.append_ne_nil
  | point =>
    cases d' with
    | point => rfl
    | empty | bracket => cases h
    | name name' => exact absurd h.symm (name'.append_ne_cons (by decide))
  | bracket bracket steps =>
    cases d' with
    | empty | point => cases h
    | bracket bracket' steps' =>
      obtain ⟨rfl, hsteps⟩ := Path.Bracket.append_inj (List.cons.inj h).2
      rw [Path.Step.flatMap_chars_injective hsteps]
    | name name' => exact absurd h.symm (name'.append_ne_cons (by decide))
  | name name hdollar steps =>
    cases d' with
    | empty => exact absurd h name.append_ne_nil
    | point | bracket => exact absurd h (name.append_ne_cons (by decide))
    | name name' hdollar' steps' =>
      obtain ⟨rfl, hsteps⟩ := Path.Name.append_inj (fun _ => Path.endsName_of_mem_head?_steps)
        (fun _ => Path.endsName_of_mem_head?_steps) h
      rw [Path.Step.flatMap_chars_injective hsteps]

/-- An expression is accepted with the segments of its derivation. -/
theorem parse_eq_ok_iff_exists_derivation {expression : String} :
    dialect.parse expression = .ok segments ↔
      ∃ d : dialect.Derivation, d.chars = Text.trim expression.toList ∧ d.segments = segments := by
  rw [parse_eq_ok_iff, derives_iff]

/-- An expression that is not accepted is refused as a path. -/
theorem exists_parse_eq_error_iff {expression : String} :
    (∃ cause position, dialect.parse expression = .error (.pathSyntax (Text.trimmed expression) cause position)) ↔
      ∀ segments, dialect.parse expression ≠ .ok segments := by
  rw [parse]
  cases dialect.read (Text.trim expression.toList) with
  | ok segments => simp
  | error stop => simp [Text.trimmed]

/-- An expression is accepted by a dialect exactly if it has a derivation there, without the blanks around it, and then
the result is the segments of the derivation, of which there is but one. Any other expression is refused as a path. -/
theorem parse_iff_derivation (dialect : Dialect) (expression : String) :
    Function.Injective (Derivation.chars : dialect.Derivation → List Char) ∧
      (∀ segments, dialect.parse expression = .ok segments ↔
        ∃ d : dialect.Derivation, d.chars = Text.trim expression.toList ∧ d.segments = segments) ∧
      ((∃ cause position, dialect.parse expression =
          .error (.pathSyntax (Text.trimmed expression) cause position)) ↔
        ¬ ∃ d : dialect.Derivation, d.chars = Text.trim expression.toList) := by
  refine ⟨Derivation.chars_injective, fun _ => parse_eq_ok_iff_exists_derivation, ?_⟩
  rw [exists_parse_eq_error_iff]
  constructor
  · rintro hrefused ⟨d, hd⟩
    exact hrefused d.segments (parse_eq_ok_iff_exists_derivation.mpr ⟨d, hd, rfl⟩)
  · intro hnone segments hparse
    obtain ⟨d, hd, -⟩ := parse_eq_ok_iff_exists_derivation.mp hparse
    exact hnone ⟨d, hd⟩

example : dotted.parse " it's $5 [ \"a].\\\"\" ].* " = .ok [.field "it's $5", .field "a].\"", .wildcard] := by
  decide +kernel

end Dialect

end SheetFill
