import SheetFill.Proofs.Json.RoundTrip

/-!
# A JSON text inside another

Where a value is due, the reader may meet the text of a whole document. Its tokens are those that it has alone,
unless something stands behind it that goes on with a numeral; and the reader goes through the same states, above
the frames that are open already. At its end the document is delivered to them as a value.

Only the room for open lists and records may become scarce. A bound for it is the depth of the document: with every
token the depth that is reached grows or stays, and it never falls short of what is open.
-/

namespace SheetFill

namespace Content

mutual

/-- How many lists and records stand inside each other. -/
def depth : Content → Nat
  | list items => depthItems items + 1
  | entries es => depthEntries es + 1
  | null | boolean _ | natural _ | integer _ | double _ | text _ => 0

/-- The greatest depth of items. -/
def depthItems : List Content → Nat
  | [] => 0
  | c :: rest => max c.depth (depthItems rest)

/-- The greatest depth of keys and values. -/
def depthEntries : List (Content × Content) → Nat
  | [] => 0
  | (k, c) :: rest => max (max k.depth c.depth) (depthEntries rest)

end

/-- Items in two parts are as deep as the deeper part. -/
theorem depthItems_append (before behind : List Content) :
    depthItems (before ++ behind) = max (depthItems before) (depthItems behind) := by
  induction before with
  | nil => rw [List.nil_append, depthItems, Nat.zero_max]
  | cons c rest ih => rw [List.cons_append, depthItems, depthItems, ih, Nat.max_assoc]

/-- The order of items does not matter for their depth. -/
theorem depthItems_reverse (items : List Content) : depthItems items.reverse = depthItems items := by
  induction items with
  | nil => rfl
  | cons c rest ih =>
    rw [List.reverse_cons, depthItems_append, ih, depthItems, depthItems, depthItems, Nat.max_zero, Nat.max_comm]

/-- Entries in two parts are as deep as the deeper part. -/
theorem depthEntries_append (before behind : List (Content × Content)) :
    depthEntries (before ++ behind) = max (depthEntries before) (depthEntries behind) := by
  induction before with
  | nil => rw [List.nil_append, depthEntries, Nat.zero_max]
  | cons e rest ih =>
    obtain ⟨k, c⟩ := e
    rw [List.cons_append, depthEntries, depthEntries, ih, ← Nat.max_assoc]

/-- The order of entries does not matter for their depth. -/
theorem depthEntries_reverse (es : List (Content × Content)) : depthEntries es.reverse = depthEntries es := by
  induction es with
  | nil => rfl
  | cons e rest ih =>
    obtain ⟨k, c⟩ := e
    rw [List.reverse_cons, depthEntries_append, ih, depthEntries, depthEntries, depthEntries, Nat.max_zero,
      Nat.max_comm]

end Content

namespace Json

open Content (depthItems depthEntries depthItems_reverse depthEntries_reverse)

section

variable {cs rest more : List Char}

/-- A token is read as before when more is put behind it. -/
theorem Token.read_append {token : Token} (hmore : EndsNumeral more) (h : Token.read cs = some (token, rest)) :
    Token.read (cs ++ more) = some (token, rest ++ more) := by
  unfold Token.read at h
  split at h
  case h_7 =>
    obtain ⟨⟨c, behind⟩, htext, heq⟩ := Option.map_eq_some_iff.mp h
    cases heq
    rw [List.cons_append, Token.read, readText_append htext]
    rfl
  case h_11 =>
    obtain ⟨⟨c, behind⟩, hnumber, heq⟩ := Option.map_eq_some_iff.mp h
    cases heq
    obtain ⟨first, tail, rfl, hfirst⟩ := of_readNumber hnumber
    rw [List.cons_append, (Token.read_numeral hfirst (tail ++ more)).2, ← List.cons_append,
      readNumber_append hmore hnumber]
    rfl
  all_goals
    cases h
    rfl

/-- Blanks in front of a text do not matter. -/
theorem tokensWithin_blank_append {fuel : Nat} (h : cs.all isSpace = true) (more : List Char) :
    tokensWithin fuel (cs ++ more) = tokensWithin fuel more := by
  cases fuel with
  | zero => rw [tokensWithin, tokensWithin, List.all_append, h, Bool.true_and]
  | succ fuel => rw [tokensWithin, tokensWithin, List.dropWhile_append_of_pos (List.all_eq_true.mp h)]

/-- The tokens of two texts in a row, of which the second does not go on with a numeral. -/
theorem tokensWithin_append {fuel others : Nat} {tokens behind : List Token} (hmore : EndsNumeral more)
    (h : tokensWithin fuel cs = some tokens) (hbehind : tokensWithin others more = some behind) :
    tokensWithin (fuel + others) (cs ++ more) = some (tokens ++ behind) := by
  induction fuel generalizing cs tokens with
  | zero =>
    rw [tokensWithin] at h
    split at h
    · next hspace =>
      cases h
      rw [Nat.zero_add, tokensWithin_blank_append hspace, hbehind, List.nil_append]
    · cases h
  | succ fuel ih =>
    rw [tokensWithin] at h
    split at h
    · next hspace =>
      cases h
      have hall : cs.all isSpace = true := List.all_eq_true.mpr (List.dropWhile_eq_nil_iff.mp hspace)
      rw [tokensWithin_blank_append hall]
      exact tokensWithin_mono hbehind (Nat.le_add_left _ _)
    · next hne =>
      obtain ⟨⟨token, rest⟩, htoken, h⟩ := Option.bind_eq_some_iff.mp h
      obtain ⟨found, hfound, h⟩ := Option.bind_eq_some_iff.mp h
      cases h
      obtain ⟨first, tail, hcons⟩ := List.exists_cons_of_ne_nil hne
      have hdrop : (cs ++ more).dropWhile isSpace = first :: (tail ++ more) := by
        rw [List.dropWhile_append, hcons]
        rfl
      rw [hcons] at htoken
      have hread : Token.read (first :: (tail ++ more)) = some (token, rest ++ more) :=
        Token.read_append hmore htoken
      rw [Nat.add_right_comm, tokensWithin, hdrop]
      simp only [hread, ih hfound, Option.bind_eq_bind, Option.bind_some]
      rfl

/-- The tokens of two texts in a row. -/
theorem Reads.append {tokens behind : List Token} (hmore : EndsNumeral more) (h : Reads cs tokens)
    (hbehind : Reads more behind) : Reads (cs ++ more) (tokens ++ behind) := by
  obtain ⟨fuel, hle, htokens⟩ := h
  obtain ⟨others, hothers, hfound⟩ := hbehind
  refine ⟨fuel + others, ?_, tokensWithin_append hmore htokens hfound⟩
  rw [List.length_append]
  exact Nat.add_le_add hle hothers

end

/-- The depth of the document so far, if a value of a certain depth comes next and closes everything. -/
def reach : List Frame → Nat → Nat
  | [], inner => inner
  | .list items :: stack, inner => reach stack (max inner (depthItems items) + 1)
  | .record es _ :: stack, inner => reach stack (max inner (depthEntries es) + 1)

/-- A deeper value makes the document no less deep. -/
theorem reach_mono (stack : List Frame) {inner outer : Nat} (h : inner ≤ outer) :
    reach stack inner ≤ reach stack outer := by
  induction stack generalizing inner outer with
  | nil => exact h
  | cons frame stack ih =>
    cases frame with
    | list items => exact ih (Nat.succ_le_succ (max_le_max_right _ h))
    | record es name => exact ih (Nat.succ_le_succ (max_le_max_right _ h))

/-- Everything that is open counts. -/
theorem length_add_le_reach (stack : List Frame) (inner : Nat) : stack.length + inner ≤ reach stack inner := by
  induction stack generalizing inner with
  | nil => exact Nat.le_of_eq (Nat.zero_add inner)
  | cons frame stack ih =>
    rw [List.length_cons, Nat.succ_add, ← Nat.add_succ]
    cases frame with
    | list items => exact Nat.le_trans (Nat.add_le_add_left (Nat.succ_le_succ (Nat.le_max_left ..)) _) (ih _)
    | record es name => exact Nat.le_trans (Nat.add_le_add_left (Nat.succ_le_succ (Nat.le_max_left ..)) _) (ih _)

namespace State

/-- The depth that the document has at least. -/
def reach : State → Nat
  | value stack => Json.reach stack 0
  | firstItem stack | firstKey stack => Json.reach stack 1
  | key es stack | colon es _ stack | nextEntry es stack => Json.reach stack (depthEntries es + 1)
  | nextItem items stack => Json.reach stack (depthItems items + 1)
  | done document => document.depth

/-- The state with frames below what is open: a complete document is delivered to them. -/
def onto (base : List Frame) : State → State
  | value stack => value (stack ++ base)
  | firstItem stack => firstItem (stack ++ base)
  | firstKey stack => firstKey (stack ++ base)
  | key es stack => key es (stack ++ base)
  | colon es name stack => colon es name (stack ++ base)
  | nextItem items stack => nextItem items (stack ++ base)
  | nextEntry es stack => nextEntry es (stack ++ base)
  | done document => deliver document base

variable {s next : State} {token : Token} {base stack : List Frame}

/-- A value is delivered to the same frame, or to the frames below when everything is closed. -/
theorem onto_deliver (c : Content) (stack base : List Frame) :
    (deliver c stack).onto base = deliver c (stack ++ base) := by
  cases stack with
  | nil => rfl
  | cons frame stack => cases frame <;> rfl

/-- The value that is delivered has its own depth inside what is open. -/
theorem reach_deliver (c : Content) (stack : List Frame) : (deliver c stack).reach = Json.reach stack c.depth := by
  cases stack with
  | nil => rfl
  | cons frame stack =>
    cases frame with
    | list items => rfl
    | record es name =>
      rw [deliver, reach, depthEntries, Content.depth, Nat.zero_max]
      rfl

/-- A token where a value is due makes the document no less deep. -/
theorem reach_le_begin (h : begin stack token = some next) : Json.reach stack 0 ≤ next.reach := by
  unfold begin at h
  split at h
  case h_1 =>
    cases h
    rw [reach_deliver]
    exact reach_mono stack (Nat.zero_le _)
  case h_2 | h_3 =>
    obtain ⟨-, heq⟩ := Option.ite_none_right_eq_some.mp h
    cases heq
    exact reach_mono stack (Nat.zero_le _)
  case h_4 => cases h

/-- A token makes the document no less deep. -/
theorem reach_le_step (h : s.step token = some next) : s.reach ≤ next.reach := by
  unfold step at h
  split at h
  case h_1 stack => exact reach_le_begin h
  case h_3 stack _ => exact reach_le_begin h
  case h_2 | h_4 | h_9 | h_11 =>
    -- a list or a record is closed, whose parts were gathered from the last one on
    cases h
    rw [reach_deliver]
    simp only [Content.depth, depthItems_reverse, depthEntries_reverse]
    exact Nat.le_refl _
  case h_7 | h_8 =>
    -- a frame is put on the stack for the value to come
    cases h
    rw [reach, reach, Json.reach, Nat.zero_max]
  case h_5 | h_6 | h_10 =>
    cases h
    exact Nat.le_refl _
  case h_12 => cases h

/-- Tokens make the document no less deep. -/
theorem reach_le_run {tokens : List Token} (h : s.run tokens = some next) : s.reach ≤ next.reach := by
  induction tokens generalizing s with
  | nil =>
    cases h
    exact Nat.le_refl _
  | cons token tokens ih =>
    obtain ⟨between, hstep, hrun⟩ := Option.bind_eq_some_iff.mp h
    exact Nat.le_trans (reach_le_step hstep) (ih hrun)

/-- A token where a value is due, above other frames. -/
theorem begin_append (h : begin stack token = some next) (hroom : base.length + next.reach ≤ maxDepth) :
    begin (stack ++ base) token = some (next.onto base) := by
  unfold begin at h
  split at h
  case h_1 =>
    cases h
    rw [onto_deliver]
    rfl
  case h_2 | h_3 =>
    obtain ⟨-, heq⟩ := Option.ite_none_right_eq_some.mp h
    cases heq
    -- the list or record that is opened is part of the depth for which there is room
    have hopen : (stack ++ base).length < maxDepth := by
      have hlength := length_add_le_reach stack 1
      rw [reach] at hroom
      rw [List.length_append]
      omega
    exact if_pos hopen
  case h_4 => cases h

/-- A token takes a state to the same state above other frames, if there is room. -/
theorem step_onto (h : s.step token = some next) (hroom : base.length + next.reach ≤ maxDepth) :
    (s.onto base).step token = some (next.onto base) := by
  unfold step at h
  split at h
  case h_1 stack => exact begin_append h hroom
  case h_3 stack hclose =>
    rw [onto, step.eq_3 _ _ hclose]
    exact begin_append h hroom
  case h_2 | h_4 | h_9 | h_11 =>
    cases h
    rw [onto_deliver]
    rfl
  case h_5 | h_6 | h_7 | h_8 | h_10 =>
    cases h
    rfl
  case h_12 => cases h

/-- Tokens take a state to the same state above other frames, if there is room for the document. -/
theorem run_onto {tokens : List Token} (h : s.run tokens = some next)
    (hroom : base.length + next.reach ≤ maxDepth) : (s.onto base).run tokens = some (next.onto base) := by
  induction tokens generalizing s with
  | nil =>
    cases h
    rfl
  | cons token tokens ih =>
    obtain ⟨between, hstep, hrun⟩ := Option.bind_eq_some_iff.mp h
    have hbetween := reach_le_run hrun
    rw [run, step_onto hstep (by omega)]
    exact ih hrun

/-- Tokens in two parts are read one part after the other. -/
theorem run_append (s : State) (tokens more : List Token) :
    s.run (tokens ++ more) = (s.run tokens).bind fun next => next.run more := by
  induction tokens generalizing s with
  | nil => rfl
  | cons token tokens ih =>
    rw [List.cons_append, run, run, Option.bind_assoc]
    exact congrArg _ (funext ih)

end State

/-- Where a value is due, a whole JSON text is read as its content, if there is room for its depth and nothing behind
it goes on with a numeral. -/
theorem Yields.text {text : String} {c document : Content} {stack : List Frame} {rest : List Char}
    (hcontent : content? text = some c) (hroom : stack.length + c.depth ≤ maxDepth) (hrest : EndsNumeral rest)
    (h : Yields (State.deliver c stack) rest document) : Yields (.value stack) (text.toList ++ rest) document := by
  obtain ⟨tokens, htokens, hcontent⟩ := Option.bind_eq_some_iff.mp hcontent
  obtain ⟨last, hrun, hlast⟩ := Option.bind_eq_some_iff.mp hcontent
  obtain ⟨behind, hreads, hrest'⟩ := h
  cases last with
  | done found =>
    cases hlast
    have honto : (State.value stack).run tokens = some (State.deliver c stack) := State.run_onto hrun hroom
    refine ⟨tokens ++ behind, .append hrest ⟨_, Nat.le_refl _, htokens⟩ hreads, ?_⟩
    rw [State.run_append, honto]
    exact hrest'
  | value | firstItem | firstKey | key | colon | nextItem | nextEntry => cases hlast

end Json

end SheetFill
