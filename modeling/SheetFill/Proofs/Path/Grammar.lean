import SheetFill.Path.Segment
import SheetFill.Proofs.Lists
import SheetFill.Proofs.Text.Digits

/-!
# The grammar of paths

A tail is a sequence of steps: a name behind a point, or an index, a wildcard or a quoted key in brackets. The
grammar says which characters write which segments, without a reader: a name ends where a point or a bracket stands,
and a key at the first quote that no backslash stands in front of.

Main statement: the readers of both dialects accept what the grammar derives and nothing else, and what they return
are the segments of the derivation. So whatever is shown of derivations, such as that two tails in a row are a tail,
holds of what is read.
-/

namespace SheetFill

namespace Path

/-- A name and the segment that it writes; blanks around a name do not count. -/
structure IsName (name : List Char) (segment : Segment) : Prop where
  plain : ∀ c ∈ name, endsName c = false
  nonempty : Text.trim name ≠ []
  writes : segment =
    if Text.trim name = ['*'] then .wildcard else .field (String.ofList (Text.trim name))

/-- What stands between quotes, and the key that it writes: a backslash takes the next character as it is. -/
inductive IsQuoted (quote : Char) : List Char → List Char → Prop where
  | nil : IsQuoted quote [] []
  | plain {c : Char} {body key : List Char} (hquote : c ≠ quote) (hbackslash : c ≠ '\\')
    (h : IsQuoted quote body key) : IsQuoted quote (c :: body) (c :: key)
  | escaped {c : Char} {body key : List Char} (h : IsQuoted quote body key) :
    IsQuoted quote ('\\' :: c :: body) (c :: key)

/-- The characters that quote a key. -/
def IsQuote (c : Char) : Prop :=
  c = '\'' ∨ c = '"'

/-- What stands in brackets, and the segment that it writes. -/
inductive IsBody : List Char → Segment → Prop where
  | wildcard : IsBody ['*'] .wildcard
  | key {quote : Char} {body key : List Char} (hquote : IsQuote quote) (h : IsQuoted quote body key) :
    IsBody (quote :: (body ++ [quote])) (.field (String.ofList key))
  | index {digits : List Char} {i : Int} (hdigits : ∀ c ∈ digits, inIndex c = true)
    (hread : Text.int64? digits = some i) : IsBody digits (.index i)

/-- The characters are blank. -/
def AllBlank (cs : List Char) : Prop :=
  ∀ c ∈ cs, Text.isBlank c = true

/-- A body between brackets, with blanks around it. -/
inductive IsBracket : List Char → Segment → Prop where
  | intro {front body back : List Char} {segment : Segment} (hfront : AllBlank front) (h : IsBody body segment)
    (hback : AllBlank back) : IsBracket (front ++ (body ++ (back ++ [']']))) segment

/-- A sequence of steps, and the segments that they write. -/
inductive IsTail : List Char → List Segment → Prop where
  | nil : IsTail [] []
  | name {name rest : List Char} {segment : Segment} {segments : List Segment} (hname : IsName name segment)
    (hrest : IsTail rest segments) : IsTail ('.' :: (name ++ rest)) (segment :: segments)
  | bracket {body rest : List Char} {segment : Segment} {segments : List Segment} (hbody : IsBracket body segment)
    (hrest : IsTail rest segments) : IsTail ('[' :: (body ++ rest)) (segment :: segments)

end Path

/-- A path of a dialect, and the segments that it writes: a tail behind a dollar sign; or the root, a tail that starts
with a bracket, or a name and a tail, where the name does not start with a dollar sign. -/
inductive Dialect.Derives : Dialect → List Char → List Segment → Prop where
  | dollar {tail : List Char} {segments : List Segment} (h : Path.IsTail tail segments) :
    Derives .jsonPath ('$' :: tail) segments
  | empty : Derives .dotted [] []
  | point : Derives .dotted ['.'] []
  | bracket {cs : List Char} {segments : List Segment} (h : Path.IsTail ('[' :: cs) segments) :
    Derives .dotted ('[' :: cs) segments
  | name {name rest : List Char} {segment : Segment} {segments : List Segment} (hname : Path.IsName name segment)
    (hdollar : name.head? ≠ some '$') (hrest : Path.IsTail rest segments) :
    Derives .dotted (name ++ rest) (segment :: segments)

namespace Path

variable {cs name body digits rest key : List Char} {quote : Char} {segment : Segment} {segments : List Segment}

/-- A name has a first character, which ends no name. -/
theorem IsName.exists_cons (h : IsName name segment) : ∃ c cs, name = c :: cs ∧ endsName c = false := by
  cases name with
  | nil => exact absurd rfl h.nonempty
  | cons c cs => exact ⟨c, cs, rfl, h.plain c List.mem_cons_self⟩

/-- Every tail starts with a character that ends a name. -/
theorem IsTail.endsName_of_mem_head? (h : IsTail cs segments) {c : Char} (hc : c ∈ cs.head?) :
    endsName c = true := by
  cases h with
  | nil => cases hc
  | name | bracket =>
    cases hc
    decide

/-- A body with nothing around it is closed by a bracket. -/
theorem IsBody.isBracket (h : IsBody body segment) : IsBracket (body ++ [']']) segment :=
  have hblank : AllBlank [] := fun _ hc => nomatch hc
  .intro hblank h hblank

/-- Two tails in a row are a tail. -/
theorem IsTail.append {more : List Char} {others : List Segment} (h : IsTail cs segments)
    (hmore : IsTail more others) : IsTail (cs ++ more) (segments ++ others) := by
  induction h with
  | nil => exact hmore
  | name hname _ ih =>
    rw [List.cons_append, List.append_assoc]
    exact .name hname ih
  | bracket hbody _ ih =>
    rw [List.cons_append, List.append_assoc]
    exact .bracket hbody ih

/-- The blanks in front of a text that does not start with one are dropped. -/
theorem trimStart_blanks {front : List Char} (hfront : AllBlank front)
    (hrest : ∀ c ∈ rest.head?, Text.isBlank c = false) : Text.trimStart (front ++ rest) = rest :=
  dropWhile_run hfront hrest

/-- In front of what is left are blanks. -/
theorem exists_blanks (cs : List Char) : ∃ front, AllBlank front ∧ cs = front ++ Text.trimStart cs :=
  ⟨cs.takeWhile Text.isBlank, fun _ => List.mem_takeWhile_imp, List.takeWhile_append_dropWhile.symm⟩

/-- The reader of names accepts a name up to the character that ends it. -/
theorem readName_eq_ok_iff :
    readName cs = .ok (segment, rest) ↔
      ∃ name, cs = name ++ rest ∧ IsName name segment ∧ ∀ c ∈ rest.head?, endsName c = true := by
  constructor
  · intro h
    have hsplit : cs = cs.takeWhile (!endsName ·) ++ cs.dropWhile (!endsName ·) :=
      List.takeWhile_append_dropWhile.symm
    have hplain : ∀ c ∈ cs.takeWhile (!endsName ·), endsName c = false := by
      intro c hc
      have hnot := List.mem_takeWhile_imp (p := fun c => !endsName c) hc
      exact (Bool.not_eq_true' _).mp hnot
    have hend : ∀ c ∈ (cs.dropWhile (!endsName ·)).head?, endsName c = true := by
      intro c hc
      have hnot := List.head?_dropWhile_not (!endsName ·) cs
      rw [hc] at hnot
      exact (Bool.not_eq_false' _).mp hnot
    unfold readName at h
    dsimp only at h
    split at h
    · cases h
    · next hstar =>
      cases h
      exact ⟨_, hsplit, ⟨hplain, by simp [hstar], by rw [if_pos hstar]⟩, hend⟩
    · next hnonempty hstar =>
      cases h
      exact ⟨_, hsplit, ⟨hplain, hnonempty, by rw [if_neg hstar]⟩, hend⟩
  · rintro ⟨name, rfl, ⟨hplain, hnonempty, rfl⟩, hend⟩
    have hrun : ∀ c ∈ name, (!endsName c) = true := fun c hc => by simp [hplain c hc]
    have hstop : ∀ c ∈ rest.head?, (!endsName c) = false := fun c hc => by simp [hend c hc]
    rw [readName, takeWhile_run hrun hstop, dropWhile_run hrun hstop]
    split
    · next hnone => exact absurd hnone hnonempty
    · next hstar => rw [if_pos hstar]
    · next hstar => rw [if_neg hstar]

/-- A character that is no backslash ends the key or belongs to it. -/
theorem readQuoted_cons_of_ne {c : Char} (h : c ≠ '\\') (cs : List Char) :
    readQuoted quote (c :: cs) =
      if c = quote then .ok ([], cs)
      else (readQuoted quote cs).map fun (key, rest) => (c :: key, rest) :=
  readQuoted.eq_4 quote c cs (fun hc _ => h hc) fun _ _ hc _ => h hc

/-- The reader of keys accepts what stands in front of the first quote that is not escaped. -/
theorem readQuoted_eq_ok_iff (hquote : quote ≠ '\\') :
    readQuoted quote cs = .ok (key, rest) ↔ ∃ body, cs = body ++ quote :: rest ∧ IsQuoted quote body key := by
  constructor
  · intro h
    fun_induction readQuoted quote cs generalizing key with
    | case1 => cases h
    | case2 => cases h
    | case3 c cs ih =>
      obtain ⟨⟨key, _⟩, hread, heq⟩ := map_eq_ok_iff.mp h
      cases heq
      obtain ⟨body, rfl, hbody⟩ := ih hread
      exact ⟨'\\' :: c :: body, rfl, .escaped hbody⟩
    | case4 c cs =>
      cases h
      exact ⟨[], rfl, .nil⟩
    | case5 c cs hend hescape hne ih =>
      obtain ⟨⟨key, _⟩, hread, heq⟩ := map_eq_ok_iff.mp h
      cases heq
      obtain ⟨body, rfl, hbody⟩ := ih hread
      have hbackslash : c ≠ '\\' := by
        rintro rfl
        cases body with
        | nil => exact hescape _ _ rfl rfl
        | cons => exact hescape _ _ rfl rfl
      exact ⟨c :: body, rfl, .plain hne hbackslash hbody⟩
  · rintro ⟨body, rfl, hbody⟩
    induction hbody with
    | nil => rw [List.nil_append, readQuoted_cons_of_ne hquote, if_pos rfl]
    | plain hne hbackslash _ ih =>
      rw [List.cons_append, readQuoted_cons_of_ne hbackslash, if_neg hne, ih]
      rfl
    | escaped _ ih =>
      rw [List.cons_append, List.cons_append, readQuoted, ih]
      rfl

/-- A quote is no backslash. -/
theorem IsQuote.ne_backslash (h : IsQuote quote) : quote ≠ '\\' := by
  rcases h with rfl | rfl <;> decide

/-- A key that is read and the quotes around it are a body. -/
theorem exists_isBody_of_readQuoted (hquote : IsQuote quote) (h : readQuoted quote cs = .ok (key, rest)) :
    ∃ body, quote :: cs = body ++ rest ∧ IsBody body (.field (String.ofList key)) := by
  obtain ⟨body, rfl, hbody⟩ := (readQuoted_eq_ok_iff hquote.ne_backslash).mp h
  exact ⟨quote :: (body ++ [quote]), by simp, .key hquote hbody⟩

/-- What the reader takes as a body is one. -/
theorem exists_isBody (h : readBody cs = .ok (segment, rest)) :
    ∃ body, cs = body ++ rest ∧ IsBody body segment := by
  unfold readBody at h
  split at h
  · cases h
    exact ⟨['*'], rfl, .wildcard⟩
  · obtain ⟨_, hread, heq⟩ := map_eq_ok_iff.mp h
    cases heq
    exact exists_isBody_of_readQuoted (.inl rfl) hread
  · obtain ⟨_, hread, heq⟩ := map_eq_ok_iff.mp h
    cases heq
    exact exists_isBody_of_readQuoted (.inr rfl) hread
  · dsimp only at h
    split at h
    · cases h
    · split at h
      · next hread =>
        cases h
        exact ⟨_, List.takeWhile_append_dropWhile.symm, .index (fun _ => List.mem_takeWhile_imp) hread⟩
      · cases h

/-- A body is read up to a character that continues no number. -/
theorem readBody_append (h : IsBody body segment) (hrest : ∀ c ∈ rest.head?, inIndex c = false) :
    readBody (body ++ rest) = .ok (segment, rest) := by
  cases h with
  | wildcard => rfl
  | @key quote body key hquote h =>
    have hread : readQuoted quote (body ++ quote :: rest) = .ok (key, rest) :=
      (readQuoted_eq_ok_iff hquote.ne_backslash).mpr ⟨body, rfl, h⟩
    rw [List.cons_append, List.append_assoc, List.singleton_append]
    rcases hquote with rfl | rfl
    · rw [readBody, hread]
      rfl
    · rw [readBody, hread]
      rfl
  | index hdigits hread =>
    cases body with
    | nil => cases hread
    | cons c cs =>
      have hc : inIndex c = true := hdigits c List.mem_cons_self
      have hstar : c ≠ '*' := by
        rintro rfl
        cases hc
      have hsingle : c ≠ '\'' := by
        rintro rfl
        cases hc
      have hdouble : c ≠ '"' := by
        rintro rfl
        cases hc
      rw [readBody.eq_4 _ (by simp [hstar]) (by simp [hsingle]) (by simp [hdouble]),
        takeWhile_run hdigits hrest, dropWhile_run hdigits hrest, if_neg (List.cons_ne_nil c cs), hread]

/-- No character of a number is blank. -/
theorem not_blank_of_inIndex {c : Char} (h : inIndex c = true) : Text.isBlank c = false := by
  rcases (Bool.or_eq_true _ _).mp h with hminus | hdigit
  · rw [beq_iff_eq.mp hminus]
    decide
  · exact Text.isBlank_of_isDigit hdigit

/-- A body does not start with a blank. -/
theorem IsBody.not_blank_of_mem_head? (h : IsBody body segment) {c : Char} (hc : c ∈ (body ++ rest).head?) :
    Text.isBlank c = false := by
  cases h with
  | wildcard =>
    cases hc
    decide
  | key hquote =>
    cases hc
    rcases hquote with rfl | rfl <;> decide
  | index hdigits hread =>
    cases body with
    | nil => cases hread
    | cons first =>
      cases hc
      exact not_blank_of_inIndex (hdigits c List.mem_cons_self)

/-- An index is read as far as it goes: no character of a number follows a body. -/
theorem not_inIndex_behind_body {back : List Char} (hback : AllBlank back) :
    ∀ c ∈ (back ++ ']' :: rest).head?, inIndex c = false := by
  intro c hc
  cases back with
  | nil =>
    cases hc
    decide
  | cons first =>
    cases hc
    refine Bool.eq_false_iff.mpr fun hindex => ?_
    have hblank := hback c List.mem_cons_self
    rw [not_blank_of_inIndex hindex] at hblank
    cases hblank

/-- The reader of brackets accepts a body with blanks around it and the closing bracket. -/
theorem readBracket_eq_ok_iff :
    readBracket cs = .ok (segment, rest) ↔ ∃ bracket, cs = bracket ++ rest ∧ IsBracket bracket segment := by
  constructor
  · intro h
    obtain ⟨⟨segment, back⟩, hread, hclose⟩ := bind_eq_ok_iff.mp h
    obtain ⟨body, hstart, hbody⟩ := exists_isBody hread
    obtain ⟨front, hfront, hcs⟩ := exists_blanks cs
    obtain ⟨blanks, hblanks, hback⟩ := exists_blanks back
    dsimp only at hclose
    split at hclose
    · next hend =>
      cases hclose
      refine ⟨_, ?_, .intro hfront hbody hblanks⟩
      rw [hcs, hstart, hback, hend]
      simp
    · cases hclose
    · cases hclose
  · rintro ⟨_, rfl, @⟨front, body, back, _, hfront, hbody, hback⟩⟩
    have hclose : Text.trimStart (back ++ ']' :: rest) = ']' :: rest := by
      refine trimStart_blanks hback fun c hc => ?_
      cases hc
      decide
    have hsplit : front ++ (body ++ (back ++ [']'])) ++ rest = front ++ (body ++ (back ++ ']' :: rest)) := by
      simp
    rw [hsplit, readBracket, trimStart_blanks hfront fun _ => hbody.not_blank_of_mem_head?]
    refine bind_eq_ok_iff.mpr ⟨_, readBody_append hbody (not_inIndex_behind_body hback), ?_⟩
    dsimp only
    rw [hclose]
    rfl

/-- Names behind points and brackets are read to the end, if there is a step for each character. -/
theorem readTail_eq_ok_iff {fuel : Nat} (hfuel : cs.length ≤ fuel) :
    readTail fuel cs = .ok segments ↔ IsTail cs segments := by
  constructor
  · intro h
    -- What is accepted is a tail however many steps there are; the bound is for the other direction alone.
    clear hfuel
    fun_induction readTail fuel cs generalizing segments with
    | case1 =>
      cases h
      exact .nil
    | case2 => cases h
    | case3 => cases h
    | case4 fuel cs hpoint ih =>
      obtain ⟨⟨segment, rest⟩, hread, hnext⟩ := bind_eq_ok_iff.mp h
      obtain ⟨others, htail, heq⟩ := bind_eq_ok_iff.mp hnext
      cases heq
      obtain ⟨name, rfl, hname, -⟩ := readName_eq_ok_iff.mp hread
      exact .name hname (ih rest htail)
    | case5 fuel cs ih =>
      obtain ⟨⟨segment, rest⟩, hread, hnext⟩ := bind_eq_ok_iff.mp h
      obtain ⟨others, htail, heq⟩ := bind_eq_ok_iff.mp hnext
      cases heq
      obtain ⟨bracket, rfl, hbracket⟩ := readBracket_eq_ok_iff.mp hread
      exact .bracket hbracket (ih rest htail)
    | case6 => cases h
  · intro h
    induction h generalizing fuel with
    | nil => cases fuel <;> rfl
    | @name name rest segment segments hname hrest ih =>
      have hread : readName (name ++ rest) = .ok (segment, rest) :=
        readName_eq_ok_iff.mpr ⟨name, rfl, hname, fun _ => hrest.endsName_of_mem_head?⟩
      obtain ⟨c, cs, rfl, hc⟩ := hname.exists_cons
      have hpoint : ∀ tail, (c :: cs) ++ rest = '.' :: tail → False := by
        rintro tail heq
        cases heq
        cases hc
      cases fuel with
      | zero => exact absurd hfuel (Nat.not_succ_le_zero _)
      | succ fuel =>
        have hlength : rest.length ≤ fuel := by
          rw [List.length_cons, List.length_append] at hfuel
          omega
        rw [readTail.eq_4 fuel _ hpoint]
        exact bind_eq_ok_iff.mpr ⟨_, hread, bind_eq_ok_iff.mpr ⟨segments, ih hlength, rfl⟩⟩
    | @bracket bracket rest segment segments hbracket hrest ih =>
      have hread : readBracket (bracket ++ rest) = .ok (segment, rest) :=
        readBracket_eq_ok_iff.mpr ⟨bracket, rfl, hbracket⟩
      cases fuel with
      | zero => exact absurd hfuel (Nat.not_succ_le_zero _)
      | succ fuel =>
        have hlength : rest.length ≤ fuel := by
          rw [List.length_cons, List.length_append] at hfuel
          omega
        rw [readTail]
        exact bind_eq_ok_iff.mpr ⟨_, hread, bind_eq_ok_iff.mpr ⟨segments, ih hlength, rfl⟩⟩

/-- A path of the dialect with a dollar sign is the sign and a tail. -/
theorem readJsonPath_eq_ok_iff :
    readJsonPath cs = .ok segments ↔ ∃ tail, cs = '$' :: tail ∧ IsTail tail segments := by
  cases cs with
  | nil => simp [readJsonPath]
  | cons c tail =>
    by_cases hc : c = '$'
    · subst hc
      rw [readJsonPath, readTail_eq_ok_iff (Nat.le_refl _)]
      simp
    · rw [readJsonPath.eq_2 _ (by simp [hc])]
      simp [hc]

/-- What the dotted reader accepts is a dotted path. -/
theorem derives_of_readDotted (h : readDotted cs = .ok segments) : Dialect.dotted.Derives cs segments := by
  unfold readDotted at h
  split at h
  · cases h
    exact .empty
  · cases h
  · cases h
    exact .point
  · cases h
  · exact .bracket ((readTail_eq_ok_iff (Nat.le_refl _)).mp h)
  · next hdollar _ _ _ =>
    obtain ⟨⟨segment, rest⟩, hread, hnext⟩ := bind_eq_ok_iff.mp h
    obtain ⟨others, htail, heq⟩ := bind_eq_ok_iff.mp hnext
    cases heq
    obtain ⟨name, rfl, hname, -⟩ := readName_eq_ok_iff.mp hread
    refine .name hname (fun hhead => ?_) ((readTail_eq_ok_iff (Nat.le_refl _)).mp htail)
    obtain ⟨c, cs, rfl, -⟩ := hname.exists_cons
    exact hdollar (cs ++ rest) (by rw [Option.some.inj hhead, List.cons_append])

/-- A dotted path is accepted with the segments that it writes. -/
theorem readDotted_of_derives (h : Dialect.dotted.Derives cs segments) : readDotted cs = .ok segments := by
  cases h with
  | empty => rfl
  | point => rfl
  | bracket htail =>
    rw [readDotted]
    exact (readTail_eq_ok_iff (Nat.le_refl _)).mpr htail
  | @name name rest segment segments hname hdollar hrest =>
    have hread : readName (name ++ rest) = .ok (segment, rest) :=
      readName_eq_ok_iff.mpr ⟨name, rfl, hname, fun _ => hrest.endsName_of_mem_head?⟩
    obtain ⟨c, cs, rfl, hc⟩ := hname.exists_cons
    have hpoint : c ≠ '.' := by
      rintro rfl
      cases hc
    have hbracket : c ≠ '[' := by
      rintro rfl
      cases hc
    have hsign : c ≠ '$' := fun hc => hdollar (by rw [hc]; rfl)
    rw [readDotted.eq_6 _ (by simp) (by simp [hsign]) (by simp [hpoint]) (by simp [hpoint]) (by simp [hbracket])]
    exact bind_eq_ok_iff.mpr ⟨_, hread, bind_eq_ok_iff.mpr
      ⟨segments, (readTail_eq_ok_iff (Nat.le_refl _)).mpr hrest, rfl⟩⟩

end Path

namespace Dialect

variable {dialect : Dialect} {cs : List Char} {segments : List Segment}

/-- A reader accepts the paths of its dialect and nothing else, with the segments that they write. -/
theorem read_eq_ok_iff : dialect.read cs = .ok segments ↔ dialect.Derives cs segments := by
  cases dialect with
  | dotted => exact ⟨Path.derives_of_readDotted, Path.readDotted_of_derives⟩
  | jsonPath =>
    rw [read, Path.readJsonPath_eq_ok_iff]
    constructor
    · rintro ⟨tail, rfl, htail⟩
      exact .dollar htail
    · rintro ⟨htail⟩
      exact ⟨_, rfl, htail⟩

/-- An expression has the segments that it writes without the blanks around it. -/
theorem parse_eq_ok_iff {expression : String} :
    dialect.parse expression = .ok segments ↔ dialect.Derives (Text.trim expression.toList) segments := by
  rw [← read_eq_ok_iff, parse]
  cases dialect.read (Text.trim expression.toList) <;> simp

end Dialect

end SheetFill
