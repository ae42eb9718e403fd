import Mathlib.Data.List.Basic
import SheetFill.Content.TextFormat
import SheetFill.Proofs.Json.Numeral

/-!
# Contents that were read hold integers of 64 bits

Whatever a JSON or YAML text says, its content holds no integer of more than 64 bits: a larger one is
a double, or the text is refused. For JSON this is kept by every token, for all values that stand on
the stack; for YAML it holds of every plain scalar, and hence of the nodes made of them.
-/

namespace SheetFill

open Text (maxNat64 maxInt64 minInt64)

/-- All integers of the content fit 64 bits. -/
inductive Content.IsBounded : Content → Prop where
  | null : IsBounded .null
  | boolean (b : Bool) : IsBounded (.boolean b)
  | natural {n : Nat} (h : n ≤ maxNat64) : IsBounded (.natural n)
  | integer {i : Int} (hmin : minInt64 ≤ i) (hmax : i ≤ maxInt64) : IsBounded (.integer i)
  | double (d : Double) : IsBounded (.double d)
  | text (s : String) : IsBounded (.text s)
  | list {items : List Content} (h : ∀ c ∈ items, IsBounded c) : IsBounded (.list items)
  | entries {es : List (Content × Content)} (hkeys : ∀ e ∈ es, IsBounded e.1)
    (hvalues : ∀ e ∈ es, IsBounded e.2) : IsBounded (.entries es)

/-- A magnitude of at most `2 ^ 63` with a minus sign fits 64 bits. -/
theorem Content.IsBounded.negated {n : Nat} (h : n ≤ pow2 63) : IsBounded (.integer (-(n : Int))) := by
  have hpow : pow2 63 = 9223372036854775808 := by decide
  rw [hpow] at h
  refine .integer ?_ ?_
  · simp only [minInt64]
    omega
  · simp only [maxInt64]
    omega

namespace Json

/-- A significand that was gathered gives an integer of 64 bits, or a double. -/
theorem isBounded_integral (negative : Bool) {significand : Nat} (h : significand ≤ maxNat64) :
    (integral negative significand).IsBounded := by
  unfold integral
  split
  · exact .natural h
  · split
    · next hfits => exact .negated hfits.2
    · exact .double _

/-- A numeral is an integer of 64 bits, or a double. -/
theorem isBounded_of_value? {n : Numeral} {c : Content} (h : n.value? = some c) : c.IsBounded := by
  unfold Numeral.value? at h
  dsimp only at h
  split at h
  · cases h
    exact isBounded_integral n.negative (gather_le (Nat.zero_le _) n.whole)
  · obtain ⟨magnitude, -, rfl⟩ := Option.map_eq_some_iff.mp h
    exact .double _

/-- The scalar of the token holds no larger integers. -/
def Token.IsBounded : Token → Prop
  | scalar c => c.IsBounded
  | _ => True

/-- Every token that is read is bounded. -/
theorem Token.isBounded_of_read {cs rest : List Char} {token : Token} (h : Token.read cs = some (token, rest)) :
    token.IsBounded := by
  unfold Token.read at h
  split at h
  case h_7 =>
    obtain ⟨⟨c, behind⟩, hread, heq⟩ := Option.map_eq_some_iff.mp h
    cases heq
    obtain ⟨⟨body, tail⟩, -, hread⟩ := Option.bind_eq_some_iff.mp hread
    obtain ⟨text, -, hread⟩ := Option.bind_eq_some_iff.mp hread
    cases hread
    exact .text _
  case h_11 =>
    obtain ⟨⟨c, behind⟩, hread, heq⟩ := Option.map_eq_some_iff.mp h
    cases heq
    obtain ⟨⟨numeral, tail⟩, -, hread⟩ := Option.bind_eq_some_iff.mp hread
    obtain ⟨value, hvalue, hread⟩ := Option.bind_eq_some_iff.mp hread
    cases hread
    exact isBounded_of_value? hvalue
  case h_8 => cases h; exact .null
  case h_9 => cases h; exact .boolean _
  case h_10 => cases h; exact .boolean _
  all_goals cases h; exact True.intro

/-- The tokens of a text are bounded. -/
theorem isBounded_of_tokensWithin {fuel : Nat} {cs : List Char} {tokens : List Token}
    (h : tokensWithin fuel cs = some tokens) : ∀ token ∈ tokens, token.IsBounded := by
  induction fuel generalizing cs tokens with
  | zero =>
    rw [tokensWithin] at h
    split at h
    · cases h
      exact List.forall_mem_nil _
    · cases h
  | succ fuel ih =>
    rw [tokensWithin] at h
    split at h
    · cases h
      exact List.forall_mem_nil _
    · obtain ⟨⟨token, rest⟩, htoken, h⟩ := Option.bind_eq_some_iff.mp h
      obtain ⟨found, hfound, h⟩ := Option.bind_eq_some_iff.mp h
      cases h
      exact List.forall_mem_cons.mpr ⟨Token.isBounded_of_read htoken, ih hfound⟩

/-- What is open holds no larger integers. -/
def Frame.IsBounded : Frame → Prop
  | list items => ∀ c ∈ items, c.IsBounded
  | record entries _ => ∀ e ∈ entries, e.1.IsBounded ∧ e.2.IsBounded

namespace State

/-- What was read so far, as frames. -/
def frames : State → List Frame
  | value stack | firstItem stack | firstKey stack => stack
  | key entries stack | nextEntry entries stack => .record entries "" :: stack
  | colon entries name stack => .record entries name :: stack
  | nextItem items stack => .list items :: stack
  | done document => [.list [document]]

/-- What was read so far holds no larger integers. -/
def IsBounded (s : State) : Prop :=
  ∀ frame ∈ s.frames, frame.IsBounded

variable {stack : List Frame} {c : Content} {s next : State}

/-- A bounded value is delivered to what is open. -/
theorem isBounded_deliver (hc : c.IsBounded) (hstack : ∀ frame ∈ stack, frame.IsBounded) :
    (deliver c stack).IsBounded := by
  cases stack with
  | nil => exact List.forall_mem_singleton.mpr (List.forall_mem_singleton.mpr hc)
  | cons frame stack =>
    obtain ⟨hframe, hrest⟩ := List.forall_mem_cons.mp hstack
    cases frame with
    | list items => exact List.forall_mem_cons.mpr ⟨List.forall_mem_cons.mpr ⟨hc, hframe⟩, hrest⟩
    | record entries name =>
      exact List.forall_mem_cons.mpr ⟨List.forall_mem_cons.mpr ⟨⟨.text name, hc⟩, hframe⟩, hrest⟩

/-- A bounded token where a value is due. -/
theorem isBounded_begin {token : Token} (htoken : token.IsBounded) (hstack : ∀ frame ∈ stack, frame.IsBounded)
    (h : begin stack token = some next) : next.IsBounded := by
  unfold begin at h
  split at h
  · cases h
    exact isBounded_deliver htoken hstack
  · split at h
    · cases h
      exact hstack
    · cases h
  · split at h
    · cases h
      exact hstack
    · cases h
  · cases h

/-- A bounded token keeps what was read bounded. -/
theorem IsBounded.step {token : Token} (hs : s.IsBounded) (htoken : token.IsBounded)
    (h : s.step token = some next) : next.IsBounded := by
  unfold State.step at h
  split at h
  case h_1 stack => exact isBounded_begin htoken hs h
  case h_2 stack =>
    cases h
    exact isBounded_deliver (.list (List.forall_mem_nil _)) hs
  case h_3 stack _ =>
    have hnone : (Frame.list []).IsBounded := List.forall_mem_nil _
    exact isBounded_begin htoken (List.forall_mem_cons.mpr ⟨hnone, hs⟩) h
  case h_4 stack =>
    cases h
    exact isBounded_deliver (.entries (List.forall_mem_nil _) (List.forall_mem_nil _)) hs
  case h_5 stack name =>
    cases h
    have hnone : (Frame.record [] name).IsBounded := List.forall_mem_nil _
    exact List.forall_mem_cons.mpr ⟨hnone, hs⟩
  case h_6 entries stack name =>
    cases h
    obtain ⟨hentries, hstack⟩ := List.forall_mem_cons.mp hs
    exact List.forall_mem_cons.mpr ⟨hentries, hstack⟩
  case h_7 | h_8 | h_10 =>
    cases h
    exact hs
  case h_9 items stack =>
    cases h
    obtain ⟨hitems, hstack⟩ := List.forall_mem_cons.mp hs
    exact isBounded_deliver (.list fun c hmem => hitems c (List.mem_reverse.mp hmem)) hstack
  case h_11 entries stack =>
    cases h
    obtain ⟨hentries, hstack⟩ := List.forall_mem_cons.mp hs
    exact isBounded_deliver (.entries (fun e hmem => (hentries e (List.mem_reverse.mp hmem)).1)
      fun e hmem => (hentries e (List.mem_reverse.mp hmem)).2) hstack
  case h_12 => cases h

/-- Bounded tokens keep what was read bounded. -/
theorem IsBounded.run {tokens : List Token} (hs : s.IsBounded) (htokens : ∀ token ∈ tokens, token.IsBounded)
    (h : s.run tokens = some next) : next.IsBounded := by
  induction tokens generalizing s with
  | nil =>
    cases h
    exact hs
  | cons token rest ih =>
    obtain ⟨hfirst, hrest⟩ := List.forall_mem_cons.mp htokens
    obtain ⟨between, hstep, hrun⟩ := Option.bind_eq_some_iff.mp h
    exact ih (hs.step hfirst hstep) hrest hrun

end State

/-- The content of a JSON text is bounded. -/
theorem isBounded_of_content? {text : String} {c : Content} (h : content? text = some c) : c.IsBounded := by
  obtain ⟨tokens, htokens, h⟩ := Option.bind_eq_some_iff.mp h
  obtain ⟨last, hrun, hlast⟩ := Option.bind_eq_some_iff.mp h
  have hstart : (State.value []).IsBounded := List.forall_mem_nil _
  have hbounded := hstart.run (isBounded_of_tokensWithin htokens) hrun
  cases last with
  | done document =>
    cases hlast
    exact hbounded _ List.mem_cons_self _ List.mem_cons_self
  | value | firstItem | firstKey | key | colon | nextItem | nextEntry => cases hlast

end Json

namespace Yaml

/-- An integer that is spelled out fits 64 bits, or is refused. -/
theorem isBounded_of_resolveInteger? {cs : List Char} {text : String} {resolved : Resolved} {c : Content}
    (hresolved : resolveInteger? cs = some resolved) (hc : resolved.content? text = some c) : c.IsBounded := by
  unfold resolveInteger? at hresolved
  split at hresolved
  · split_ifs at hresolved with hfits
    · cases hresolved
      cases hc
      exact .natural hfits
    · cases hresolved
      cases hc
  · split_ifs at hresolved with hfits
    · cases hresolved
      cases hc
      exact .negated hfits
    · cases hresolved
      cases hc
  · cases hresolved

/-- What a plain scalar stands for is bounded. -/
theorem isBounded_of_resolve {cs : List Char} {text : String} {c : Content}
    (h : (resolve cs).content? text = some c) : c.IsBounded := by
  unfold resolve at h
  split at h
  · cases h
    exact .null
  · split at h
    · cases h
      exact .boolean _
    · split at h
      · next hresolved => exact isBounded_of_resolveInteger? hresolved h
      · split at h
        · cases h
          exact .text _
        · split at h
          · cases h
            exact .double _
          · cases h
            exact .text _

/-- The content of a scalar is bounded. -/
theorem isBounded_of_scalarContent? {tag : Option String} {text : String} {plain : Bool} {c : Content}
    (h : scalarContent? tag text plain = some c) : c.IsBounded := by
  unfold scalarContent? at h
  dsimp only at h
  split at h
  · split at h
    · exact isBounded_of_resolve h
    · cases h
      exact .text _
  · split_ifs at h
    · obtain ⟨b, -, rfl⟩ := Option.map_eq_some_iff.mp h
      exact .boolean b
    · obtain ⟨resolved, hresolved, hc⟩ := Option.bind_eq_some_iff.mp h
      exact isBounded_of_resolveInteger? hresolved hc
    · obtain ⟨d, -, rfl⟩ := Option.map_eq_some_iff.mp h
      exact .double d
    · cases h
      exact .null
    · cases h
      exact .text _

namespace Node

mutual

/-- The content of a node is bounded. -/
theorem isBounded_of_content? : ∀ (node : Node) (c : Content), node.content? = some c → c.IsBounded
  | scalar tag text plain, c, h => isBounded_of_scalarContent? h
  | list tag items, c, h => by
    rw [content?] at h
    split at h
    · cases h
    · obtain ⟨contents, hitems, rfl⟩ := Option.map_eq_some_iff.mp h
      exact .list (isBounded_of_contents? items contents hitems)
  | record tag es, c, h => by
    rw [content?] at h
    split at h
    · cases h
    · obtain ⟨contents, hentries, rfl⟩ := Option.map_eq_some_iff.mp h
      have hbounded := isBounded_of_entryContents? es contents hentries
      exact .entries (fun e hmem => (hbounded e hmem).1) fun e hmem => (hbounded e hmem).2

/-- The contents of items are bounded. -/
theorem isBounded_of_contents? : ∀ (items : List Node) (contents : List Content),
    contents? items = some contents → ∀ c ∈ contents, c.IsBounded
  | [], contents, h => by
    cases h
    exact List.forall_mem_nil _
  | node :: rest, contents, h => by
    rw [contents?] at h
    obtain ⟨first, hfirst, h⟩ := Option.bind_eq_some_iff.mp h
    obtain ⟨others, hothers, h⟩ := Option.bind_eq_some_iff.mp h
    cases h
    exact List.forall_mem_cons.mpr
      ⟨isBounded_of_content? node first hfirst, isBounded_of_contents? rest others hothers⟩

/-- The contents of keys and values are bounded. -/
theorem isBounded_of_entryContents? : ∀ (es : List (Node × Node)) (contents : List (Content × Content)),
    entryContents? es = some contents → ∀ e ∈ contents, e.1.IsBounded ∧ e.2.IsBounded
  | [], contents, h => by
    cases h
    exact List.forall_mem_nil _
  | (key, value) :: rest, contents, h => by
    rw [entryContents?] at h
    obtain ⟨first, hfirst, h⟩ := Option.bind_eq_some_iff.mp h
    obtain ⟨second, hsecond, h⟩ := Option.bind_eq_some_iff.mp h
    obtain ⟨others, hothers, h⟩ := Option.bind_eq_some_iff.mp h
    cases h
    exact List.forall_mem_cons.mpr
      ⟨⟨isBounded_of_content? key first hfirst, isBounded_of_content? value second hsecond⟩,
        isBounded_of_entryContents? rest others hothers⟩

end

end Node

end Yaml

/-- The content of a text is bounded. -/
theorem TextFormat.isBounded_of_content? {format : TextFormat} {source : String} {c : Content}
    (h : format.content? source = some c) : c.IsBounded := by
  cases format with
  | json => exact Json.isBounded_of_content? h
  | yaml =>
    obtain ⟨node, -, hnode⟩ := Option.bind_eq_some_iff.mp h
    exact node.isBounded_of_content? c hnode

end SheetFill
