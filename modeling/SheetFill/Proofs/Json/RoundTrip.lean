import Mathlib.Data.List.TakeWhile
import SheetFill.Content.Printer
import SheetFill.Json.Reader
import SheetFill.Proofs.Json.Numeral
import SheetFill.Proofs.Json.Quoted

/-!
# Printed contents are read back

A content without doubles is read back from its JSON text, as long as its integers fit 64 bits, its
keys are texts, and not too many lists and records stand inside each other. The proof follows the
reader: in front of the text of a value the reader goes on as it would behind that text with the value
delivered, whatever lists and records are open. The induction is on the content, and inside it on the
items of a list or the entries of a record.
-/

namespace SheetFill

namespace Content

open Text (maxNat64 minInt64)

/-- The content can be read back from its JSON text: it holds no doubles, its integers fit 64 bits and
have a sign if they are negative, its keys are texts, and at most `depth` lists and records stand
inside each other. -/
inductive IsPlain : (depth : Nat) → Content → Prop where
  | null {depth : Nat} : IsPlain depth null
  | boolean {depth : Nat} (b : Bool) : IsPlain depth (boolean b)
  | natural {depth n : Nat} (h : n ≤ maxNat64) : IsPlain depth (natural n)
  | integer {depth : Nat} {i : Int} (hmin : minInt64 ≤ i) (hneg : i < 0) : IsPlain depth (integer i)
  | text {depth : Nat} (s : String) : IsPlain depth (text s)
  | list {depth : Nat} {items : List Content} (h : ∀ c ∈ items, IsPlain depth c) :
    IsPlain (depth + 1) (list items)
  | entries {depth : Nat} {es : List (Content × Content)} (hkeys : ∀ e ∈ es, ∃ name, e.1 = .text name)
    (hvalues : ∀ e ∈ es, IsPlain depth e.2) : IsPlain (depth + 1) (entries es)

end Content

namespace Json

/-- The tokens of a text, found within its length. -/
def Reads (cs : List Char) (tokens : List Token) : Prop :=
  ∃ fuel ≤ cs.length, tokensWithin fuel cs = some tokens

/-- With more room the same tokens are found. -/
theorem tokensWithin_mono {fuel more : Nat} {cs : List Char} {tokens : List Token}
    (h : tokensWithin fuel cs = some tokens) (hle : fuel ≤ more) : tokensWithin more cs = some tokens := by
  induction fuel generalizing more cs tokens with
  | zero =>
    rw [tokensWithin] at h
    split at h
    · next hspace =>
      obtain rfl := Option.some.inj h
      cases more with
      | zero => rw [tokensWithin, if_pos hspace]
      | succ more =>
        have hdrop : cs.dropWhile isSpace = [] :=
          List.dropWhile_eq_nil_iff.mpr (List.all_eq_true.mp hspace)
        rw [tokensWithin, hdrop]
    · cases h
  | succ fuel ih =>
    obtain ⟨more, rfl⟩ : ∃ n, more = n + 1 := ⟨more - 1, by omega⟩
    rw [tokensWithin] at h ⊢
    split at h
    · exact h
    · obtain ⟨⟨token, rest⟩, htoken, h⟩ := Option.bind_eq_some_iff.mp h
      obtain ⟨found, hfound, h⟩ := Option.bind_eq_some_iff.mp h
      simp only [htoken, ih hfound (Nat.le_of_succ_le_succ hle), Option.bind_eq_bind, Option.bind_some]
      exact h

/-- What is found within the length of a text are its tokens. -/
theorem Reads.tokens?_eq {cs : List Char} {tokens : List Token} (h : Reads cs tokens) :
    tokens? cs = some tokens := by
  obtain ⟨fuel, hle, htokens⟩ := h
  exact tokensWithin_mono htokens hle

/-- A token and the tokens behind it. -/
theorem Reads.cons {c : Char} {cs rest : List Char} {token : Token} {tokens : List Token}
    (hspace : isSpace c = false) (htoken : Token.read (c :: cs) = some (token, rest))
    (hlength : rest.length ≤ cs.length) (h : Reads rest tokens) : Reads (c :: cs) (token :: tokens) := by
  obtain ⟨fuel, hle, htokens⟩ := h
  refine ⟨fuel + 1, by simp only [List.length_cons]; omega, ?_⟩
  rw [tokensWithin, List.dropWhile_cons_of_neg (by simp [hspace])]
  simp only [htoken, htokens, Option.bind_eq_bind, Option.bind_some]

/-- Reading a text from a state completes the document. -/
def Yields (s : State) (cs : List Char) (document : Content) : Prop :=
  ∃ tokens, Reads cs tokens ∧ s.run tokens = some (.done document)

variable {document : Content} {rest : List Char} {stack : List Frame}

/-- A token takes a state to the next one. -/
theorem Yields.step {s next : State} {c : Char} {cs : List Char} {token : Token}
    (hspace : isSpace c = false) (htoken : Token.read (c :: cs) = some (token, rest))
    (hlength : rest.length ≤ cs.length) (hstep : s.step token = some next) (h : Yields next rest document) :
    Yields s (c :: cs) document := by
  obtain ⟨tokens, hreads, hrun⟩ := h
  exact ⟨token :: tokens, hreads.cons hspace htoken hlength, by rw [State.run, hstep]; exact hrun⟩

/-- Where a list starts, its first item is read like any other. -/
theorem Yields.firstItem {cs : List Char} (h : Yields (.value (.list [] :: stack)) cs document) :
    Yields (.firstItem stack) cs document := by
  obtain ⟨tokens, hreads, hrun⟩ := h
  refine ⟨tokens, hreads, ?_⟩
  cases tokens with
  | nil => cases hrun
  | cons token tokens =>
    cases token with
    | closeList => cases hrun
    | openList | openRecord | closeRecord | comma | colon | scalar => exact hrun

/-- A complete document is the content of the text. -/
theorem Yields.content?_eq {s : String} (h : Yields (.value []) s.toList document) :
    content? s = some document := by
  obtain ⟨tokens, hreads, hrun⟩ := h
  simp only [content?, hreads.tokens?_eq, hrun, Option.bind_eq_bind, Option.bind_some]
  rfl

/-- A character with which a numeral starts is no blank, and starts no other token. -/
theorem Token.read_numeral {c : Char} (h : Text.isDigit c = true ∨ c = '-') (cs : List Char) :
    isSpace c = false ∧
      Token.read (c :: cs) = (readNumber (c :: cs)).map fun (c, rest) => (.scalar c, rest) := by
  constructor
  · cases hspace : isSpace c with
    | false => rfl
    | true =>
      simp only [isSpace, Bool.or_eq_true, beq_iff_eq, or_assoc] at hspace
      rcases hspace with rfl | rfl | rfl | rfl <;> revert h <;> decide
  · apply Token.read.eq_11 <;>
    · intro _ hcons
      cases hcons
      revert h
      decide

/-- Digits, perhaps behind a minus sign, are read as one token. -/
theorem Yields.number {s next : State} {cs : List Char} {value : Content}
    (hstart : ∃ c more, cs = c :: more ∧ (Text.isDigit c = true ∨ c = '-'))
    (hread : readNumber (cs ++ rest) = some (value, rest)) (hstep : s.step (.scalar value) = some next)
    (h : Yields next rest document) : Yields s (cs ++ rest) document := by
  obtain ⟨c, more, rfl, hc⟩ := hstart
  obtain ⟨hspace, htoken⟩ := Token.read_numeral hc (more ++ rest)
  rw [List.cons_append] at hread ⊢
  refine .step hspace ?_ (by simp) hstep h
  rw [htoken, hread]
  rfl

/-- A quoted text is read as one token. -/
theorem Yields.quote {s next : State} (text : String) (hstep : s.step (.scalar (.text text)) = some next)
    (h : Yields next rest document) : Yields s (quote text ++ rest) document := by
  rw [Json.quote, List.cons_append, List.append_assoc, List.singleton_append]
  refine .step (by decide) ?_ (by simp; omega) hstep h
  rw [Token.read, readText_flatMap_escape]
  rfl

open State (deliver)

/-- In front of the text of the value the reader goes on as behind it with the value delivered, wherever
there is room for `depth` more lists and records. -/
def ReadsBack (c : Content) (depth : Nat) (document : Content) : Prop :=
  ∀ stack : List Frame, stack.length + depth ≤ maxDepth → ∀ rest, EndsNumeral rest →
    Yields (deliver c stack) rest document → Yields (.value stack) (c.compactChars ++ rest) document

/-- Items are read back up to the end of their list. -/
theorem Yields.items {depth : Nat} {c : Content} {items : List Content}
    (hitems : ∀ item ∈ c :: items, ReadsBack item depth document) (before : List Content)
    (hdepth : stack.length + (depth + 1) ≤ maxDepth)
    (h : Yields (deliver (.list (before.reverse ++ c :: items)) stack) rest document) :
    Yields (.value (.list before :: stack)) (Content.compactItems (c :: items) ++ ']' :: rest) document := by
  have hinner : (Frame.list before :: stack).length + depth ≤ maxDepth := by
    rw [List.length_cons]
    omega
  induction items generalizing c before with
  | nil =>
    refine hitems c List.mem_cons_self _ hinner _ (.cons (by decide) _) ?_
    refine .step (by decide) rfl (Nat.le_refl _) rfl ?_
    rwa [List.reverse_cons]
  | cons next items ih =>
    obtain ⟨hfirst, hrest⟩ := List.forall_mem_cons.mp hitems
    rw [Content.compactItems, List.append_assoc, List.cons_append]
    · refine hfirst _ hinner _ (.cons (by decide) _) ?_
      refine .step (by decide) rfl (Nat.le_refl _) rfl ?_
      refine ih hrest (c :: before) ?_ hinner
      rwa [List.reverse_cons, List.append_assoc, List.singleton_append]
    · exact List.cons_ne_nil _ _

/-- One entry is read back, from where a key may come next. -/
theorem Yields.entry {depth : Nat} {name : String} {value : Content} {before : List (Content × Content)}
    {s : State} (hvalue : ReadsBack value depth document)
    (hkey : s.step (.scalar (.text name)) = some (.colon before name stack))
    (hdepth : stack.length + (depth + 1) ≤ maxDepth) (hrest : EndsNumeral rest)
    (h : Yields (.nextEntry ((.text name, value) :: before) stack) rest document) :
    Yields s ((Content.text name).compactChars ++ ':' :: (value.compactChars ++ rest)) document := by
  have hinner : (Frame.record before name :: stack).length + depth ≤ maxDepth := by
    rw [List.length_cons]
    omega
  have hbehind : Yields (.value (.record before name :: stack)) (value.compactChars ++ rest) document :=
    hvalue _ hinner rest hrest h
  exact .quote name hkey (.step (by decide) rfl (Nat.le_refl _) rfl hbehind)

/-- Entries are read back up to the end of their record, from where a key may come next. -/
theorem Yields.entries {depth : Nat} {e : Content × Content} {es : List (Content × Content)} {s : State}
    (hkeys : ∀ entry ∈ e :: es, ∃ name, entry.1 = .text name)
    (hvalues : ∀ entry ∈ e :: es, ReadsBack entry.2 depth document)
    (before : List (Content × Content))
    (hkey : ∀ name, s.step (.scalar (.text name)) = some (.colon before name stack))
    (hdepth : stack.length + (depth + 1) ≤ maxDepth)
    (h : Yields (deliver (.entries (before.reverse ++ e :: es)) stack) rest document) :
    Yields s (Content.compactEntries (e :: es) ++ '\x7d' :: rest) document := by
  induction es generalizing e before s with
  | nil =>
    obtain ⟨name, hname⟩ := hkeys e List.mem_cons_self
    obtain ⟨key, value⟩ := e
    obtain rfl : key = .text name := hname
    rw [Content.compactEntries, List.append_assoc, List.cons_append]
    refine .entry (hvalues _ List.mem_cons_self) (hkey name) hdepth (.cons (by decide) _) ?_
    refine .step (by decide) rfl (Nat.le_refl _) rfl ?_
    rwa [List.reverse_cons]
  | cons next es ih =>
    obtain ⟨⟨name, hname⟩, hnames⟩ := List.forall_mem_cons.mp hkeys
    obtain ⟨hvalue, hothers⟩ := List.forall_mem_cons.mp hvalues
    obtain ⟨key, value⟩ := e
    obtain rfl : key = .text name := hname
    rw [Content.compactEntries, List.append_assoc, List.cons_append, List.append_assoc, List.cons_append]
    · refine .entry hvalue (hkey name) hdepth (.cons (by decide) _) ?_
      refine .step (by decide) rfl (Nat.le_refl _) rfl ?_
      refine ih hnames hothers ((.text name, value) :: before) (fun _ => rfl) ?_
      rwa [List.reverse_cons, List.append_assoc, List.singleton_append]
    · exact List.cons_ne_nil _ _

/-- A content is read back in front of everything that does not go on with a numeral. -/
theorem readsBack {depth : Nat} {c : Content} (h : c.IsPlain depth) : ReadsBack c depth document := by
  induction h with
  | null => exact fun stack _ rest _ hbehind => .step (by decide) rfl (by simp; omega) rfl hbehind
  | boolean b =>
    intro stack _ rest _ hbehind
    cases b <;> exact .step (by decide) rfl (by simp; omega) rfl hbehind
  | @natural _ n hn =>
    intro stack _ rest hrest hbehind
    obtain ⟨c, cs, hcons, hdigit⟩ := Text.exists_ofNat_eq_cons n
    exact .number ⟨c, cs, hcons, .inl hdigit⟩ (readNumber_ofNat hn hrest) rfl hbehind
  | @integer _ i hmin hneg =>
    intro stack _ rest hrest hbehind
    exact .number ⟨'-', Text.ofNat i.natAbs, if_pos hneg, .inr rfl⟩ (readNumber_ofInt hneg hmin hrest) rfl
      hbehind
  | text s => exact fun stack _ rest _ hbehind => .quote s rfl hbehind
  | @list depth items hitems ih =>
    intro stack hdepth rest _ hbehind
    have hopen : stack.length < maxDepth := by omega
    rw [Content.compactChars, List.cons_append, List.append_assoc, List.singleton_append]
    refine .step (by decide) rfl (Nat.le_refl _) (if_pos hopen) ?_
    cases items with
    | nil => exact .step (by decide) rfl (Nat.le_refl _) rfl hbehind
    | cons first items => exact (Yields.items ih [] hdepth hbehind).firstItem
  | @entries depth es hkeys hvalues ih =>
    intro stack hdepth rest _ hbehind
    have hopen : stack.length < maxDepth := by omega
    rw [Content.compactChars, List.cons_append, List.append_assoc, List.singleton_append]
    refine .step (by decide) rfl (Nat.le_refl _) (if_pos hopen) ?_
    cases es with
    | nil => exact .step (by decide) rfl (Nat.le_refl _) rfl hbehind
    | cons first es => exact .entries hkeys ih [] (fun _ => rfl) hdepth hbehind

/-- A content is read back from its JSON text. -/
theorem content?_compact {c : Content} (h : c.IsPlain maxDepth) : content? c.compact = some c := by
  apply Yields.content?_eq
  have hdone : Yields (deliver c []) [] c := ⟨[], ⟨0, Nat.le_refl _, rfl⟩, rfl⟩
  have hread := readsBack h [] (Nat.le_of_eq (Nat.zero_add _)) [] True.intro hdone
  rwa [Content.compact, String.toList_ofList, ← List.append_nil c.compactChars]

end Json

end SheetFill
