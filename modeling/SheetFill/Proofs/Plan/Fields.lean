import Mathlib.Data.List.Basic
import SheetFill.Plan.Printer
import SheetFill.Plan.Reader
import SheetFill.Proofs.Text.TextMap

/-!
# Fields are read back

Every reader of a field has a writer whose contents it reads: null for absence, texts, integers of 64
bits, choices by name, lists, and records of texts, which keep the order of their keys. A part that is
written as a record with each field under its first name gives these fields back in order, provided
that the first names lead to different fields.
-/

namespace SheetFill

namespace Content

open Text (maxInt64 minInt64)

/-- A value that may be absent is read back. -/
theorem asOption?_ofOption {α : Type} {read : Content → Option α} {write : α → Content} {value : Option α}
    (hread : ∀ a ∈ value, read (write a) = some a) (hnull : ∀ a, write a ≠ null) :
    asOption? read (ofOption write value) = some value := by
  cases value with
  | none => rfl
  | some a => rw [ofOption, asOption?.eq_2 _ _ (hnull a), hread a rfl, Option.map_some]

/-- A text that may be absent is read back. -/
theorem asOption?_asText? (value : Option String) :
    asOption? asText? (ofOption text value) = some value :=
  asOption?_ofOption (fun _ _ => rfl) fun _ h => Content.noConfusion h

/-- An integer of 64 bits is read back. -/
theorem asInteger?_ofInt {i : Int} (h : i ≤ maxInt64) : asInteger? (ofInt i) = some i := by
  unfold ofInt
  split
  · next hsign =>
    have hvalue : ((i.toNat : Nat) : Int) = i := Int.toNat_of_nonneg hsign
    rw [asInteger?, hvalue, if_pos h]
  · rfl

/-- Items that are read back one by one are read back together. -/
theorem mapM_map {α β : Type} {read : β → Option α} (write : α → β) {items : List α}
    (hread : ∀ a ∈ items, read (write a) = some a) : (items.map write).mapM read = some items := by
  induction items with
  | nil => rfl
  | cons a rest ih =>
    obtain ⟨hfirst, hrest⟩ := List.forall_mem_cons.mp hread
    rw [List.map_cons, List.mapM_cons, hfirst, ih hrest]
    rfl

/-- A record of texts is read back with its keys in order. -/
theorem asTextMap?_ofTextMap (m : TextMap) : asTextMap? (ofTextMap m) = some m := by
  have hwritten : ofTextMap m = entries (m.entries.map fun e => (text e.1, text e.2)) := by
    simp only [ofTextMap, ofFields, List.map_map]
    rfl
  have hpairs : (m.entries.map fun e => (text e.1, text e.2)).mapM asPair? = some m.entries :=
    mapM_map _ fun _ _ => rfl
  rw [hwritten, asTextMap?, hpairs, Option.map_some, TextMap.ofList_entries]

/-- Items that are read back make a list that is read back. -/
theorem asList?_map {α : Type} {read : Content → Option α} {write : α → Content} {items : List α}
    (hread : ∀ a ∈ items, read (write a) = some a) : asList? read (list (items.map write)) = some items :=
  mapM_map write hread

/-- The name under which a field is written. -/
def written (names : List (List String)) : List String :=
  names.map fun known => known.headD ""

/-- The names under which fields are written lead to the fields in order. -/
def Leads (names : List (List String)) : Prop :=
  (written names).map (fun key => names.findIdx fun known => key ∈ known) = List.range names.length

instance (names : List (List String)) : Decidable (Leads names) :=
  inferInstanceAs (Decidable (_ = _))

/-- Fields are collected in order behind those that were collected before. -/
theorem collect_zip {names : List (List String)} {keys : List String} {contents : List Content}
    (before : List Content)
    (hkeys : keys.map (fun key => names.findIdx fun known => key ∈ known) =
      List.range' before.length keys.length)
    (hlength : contents.length = keys.length) :
    collect names ((keys.zip contents).map fun (k, c) => (text k, c))
        (before.map some ++ List.replicate keys.length none) =
      some ((before ++ contents).map some) := by
  induction keys generalizing contents before with
  | nil =>
    obtain rfl := List.length_eq_zero_iff.mp hlength
    simp [collect]
  | cons key keys ih =>
    cases contents with
    | nil => cases hlength
    | cons c contents =>
      rw [List.map_cons, List.length_cons, List.range'_succ, List.cons.injEq] at hkeys
      obtain ⟨hkey, hkeys⟩ := hkeys
      have hfree : (before.map some ++ List.replicate (key :: keys).length (none : Option Content))[before.length]? =
          some none := by
        simp
      have hset : (before.map some ++ List.replicate (key :: keys).length none).set before.length (some c) =
          (before ++ [c]).map some ++ List.replicate keys.length none := by
        simp [List.replicate_succ]
      rw [List.zip_cons_cons, List.map_cons, collect]
      simp only [fieldIndex?, hkey, Option.bind_eq_bind, Option.bind_some, hfree, hset]
      rw [ih (before ++ [c]) (by simpa using hkeys) (Nat.succ.inj hlength), List.append_assoc, List.singleton_append]

/-- A record with each field under its first name gives the fields back in order. -/
theorem collect_written {names : List (List String)} {contents : List Content} (hnames : Leads names)
    (hlength : contents.length = names.length) :
    collect names (((written names).zip contents).map fun (k, c) => (text k, c))
      (List.replicate names.length none) = some (contents.map some) := by
  have hwritten : (written names).length = names.length := List.length_map ..
  rw [← hwritten] at hlength ⊢
  refine collect_zip [] (hnames.trans ?_) hlength
  rw [List.range_eq_range', ← hwritten]
  rfl

/-- A part gives back the fields of its record. -/
theorem fieldsOf?_ofFields {names : List (List String)} {part : Content} (contents : List Content)
    (hnames : Leads names) (hlength : contents.length = names.length)
    (hpart : part = ofFields ((written names).zip contents)) :
    fieldsOf? names part = some (contents.map some) :=
  hpart ▸ collect_written hnames hlength

/-- A part that is always written as a record gives back the fields of its record. -/
theorem namedFields?_ofFields {names : List (List String)} {part : Content} (contents : List Content)
    (hnames : Leads names) (hlength : contents.length = names.length)
    (hpart : part = ofFields ((written names).zip contents)) :
    namedFields? names part = some (contents.map some) := by
  subst hpart
  let es : List (Content × Content) := ((written names).zip contents).map fun (k, c) => (text k, c)
  have htext : ∀ e ∈ es, ∃ name, e.1 = text name := List.forall_mem_map.mpr fun e _ => ⟨e.1, rfl⟩
  have hknown : es.mapM (fun e => (fieldIndex? names e.1).map fun _ => e) = some es := by
    have hread : ∀ e ∈ es, (fieldIndex? names e.1).map (fun _ => e) = some e := by
      intro e hmem
      obtain ⟨name, hname⟩ := htext e hmem
      rw [hname]
      rfl
    simpa using mapM_map id hread
  have hnamed : es.filter (fun e => (asText? e.1).isSome) = es := by
    refine List.filter_eq_self.mpr fun e hmem => ?_
    obtain ⟨name, hname⟩ := htext e hmem
    rw [hname]
    rfl
  have hfields : namedFields? names (entries es) =
      collect names (es.filter fun e => (asText? e.1).isSome) (List.replicate names.length none) := by
    rw [namedFields?, hknown]
    rfl
  rw [hnamed] at hfields
  exact hfields.trans (collect_written hnames hlength)

end Content

end SheetFill
