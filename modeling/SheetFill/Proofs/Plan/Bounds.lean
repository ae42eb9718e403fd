import SheetFill.Proofs.Content.Bounds
import SheetFill.Proofs.Plan.Parts

/-!
# The integers of a plan that was read fit 64 bits

The fields of a part are contents of the document that it was read from, and so are the items of its
lists. The document holds integers of 64 bits only, and so do the parts, from the repeating groups up
to the whole plan.
-/

namespace SheetFill

open Text (maxInt64 minInt64 maxNat64)

namespace Content

variable {c : Content}

/-- An integer that is read from a bounded content fits 64 bits. -/
theorem within_of_asInteger? (hc : c.IsBounded) {i : Int} (h : asInteger? c = some i) :
    minInt64 ≤ i ∧ i ≤ maxInt64 := by
  cases hc with
  | @natural n _ =>
    rw [asInteger?] at h
    split at h
    · next hmax =>
      obtain rfl := Option.some.inj h
      exact ⟨Int.le_trans (by decide) (Int.natCast_nonneg n), hmax⟩
    · cases h
  | integer hmin hmax =>
    obtain rfl := Option.some.inj h
    exact ⟨hmin, hmax⟩
  | null | boolean | double | text | list | entries => cases h

/-- A number that is read from a bounded content fits 64 bits. -/
theorem le_of_asNatural? (hc : c.IsBounded) {n : Nat} (h : asNatural? c = some n) : n ≤ maxNat64 := by
  cases hc with
  | natural hmax =>
    obtain rfl := Option.some.inj h
    exact hmax
  | @integer i _ hmax =>
    rw [asNatural?] at h
    split at h
    · obtain rfl := Option.some.inj h
      simp only [maxInt64, maxNat64] at *
      omega
    · cases h
  | null | boolean | double | text | list | entries => cases h

/-- What is read where it may be absent is absent, or is read. -/
theorem read_of_asOption? {α : Type} {read : Content → Option α} {value : Option α}
    (h : asOption? read c = some value) {a : α} (ha : a ∈ value) : read c = some a := by
  unfold asOption? at h
  split at h
  · cases h
    cases ha
  · obtain ⟨found, hread, rfl⟩ := Option.map_eq_some_iff.mp h
    rwa [← Option.some.inj ha]

/-- What a list is turned into comes from its items. -/
theorem exists_of_mem_mapM {α β : Type} {read : α → Option β} {items : List α} {found : List β}
    (h : items.mapM read = some found) {b : β} (hb : b ∈ found) : ∃ a ∈ items, read a = some b := by
  induction items generalizing found with
  | nil =>
    cases h
    cases hb
  | cons item rest ih =>
    rw [List.mapM_cons] at h
    obtain ⟨first, hfirst, h⟩ := Option.bind_eq_some_iff.mp h
    obtain ⟨others, hothers, h⟩ := Option.bind_eq_some_iff.mp h
    cases h
    rcases List.mem_cons.mp hb with rfl | hmem
    · exact ⟨item, List.mem_cons_self, hfirst⟩
    · obtain ⟨a, ha, hread⟩ := ih hothers hmem
      exact ⟨a, List.mem_cons_of_mem item ha, hread⟩

/-- What is read from a list is read from one of its items. -/
theorem exists_of_mem_asList? {α : Type} {read : Content → Option α} {found : List α} (hc : c.IsBounded)
    (h : asList? read c = some found) {a : α} (ha : a ∈ found) :
    ∃ item : Content, item.IsBounded ∧ read item = some a := by
  cases hc with
  | list hitems =>
    obtain ⟨item, hitem, hread⟩ := exists_of_mem_mapM h ha
    exact ⟨item, hitems item hitem, hread⟩
  | null | boolean | natural | integer | double | text | entries => cases h

/-- The fields that are there are bounded. -/
def AllBounded (fields : List (Option Content)) : Prop :=
  ∀ field ∈ fields, ∀ c ∈ field, c.IsBounded

/-- Collecting bounded fields keeps all fields bounded. -/
theorem AllBounded.collect {names : List (List String)} {es : List (Content × Content)}
    {fields collected : List (Option Content)} (hfields : AllBounded fields) (hes : ∀ e ∈ es, e.2.IsBounded)
    (h : Content.collect names es fields = some collected) : AllBounded collected := by
  induction es generalizing fields with
  | nil =>
    cases h
    exact hfields
  | cons e rest ih =>
    obtain ⟨key, value⟩ := e
    obtain ⟨hvalue, hrest⟩ := List.forall_mem_cons.mp hes
    obtain ⟨i, -, h⟩ := Option.bind_eq_some_iff.mp h
    split at h
    · refine ih (fun field hmem c hfield => ?_) hrest h
      rcases List.mem_or_eq_of_mem_set hmem with hold | rfl
      · exact hfields field hold c hfield
      · rwa [← Option.some.inj hfield]
    · cases h
    · exact ih hfields hrest h

/-- No field is there before fields are collected. -/
theorem allBounded_replicate (n : Nat) : AllBounded (List.replicate n none) := by
  intro field hmem c hfield
  rw [List.eq_of_mem_replicate hmem] at hfield
  cases hfield

/-- The fields of a part are bounded with the part. -/
theorem allBounded_of_fieldsOf? {names : List (List String)} {fields : List (Option Content)}
    (hc : c.IsBounded) (h : fieldsOf? names c = some fields) : AllBounded fields := by
  cases hc with
  | entries _ hvalues => exact (allBounded_replicate names.length).collect hvalues h
  | @list items hitems =>
    rw [fieldsOf?] at h
    split at h
    · cases h
      intro field hmem c hfield
      rcases List.mem_append.mp hmem with hitem | hmissing
      · obtain ⟨item, hpresent, rfl⟩ := List.mem_map.mp hitem
        rw [← Option.some.inj hfield]
        exact hitems item hpresent
      · exact allBounded_replicate _ field hmissing c hfield
    · cases h
  | null | boolean | natural | integer | double | text => cases h

/-- The fields of a part that is always written as a record are bounded with the part. -/
theorem allBounded_of_namedFields? {names : List (List String)} {fields : List (Option Content)}
    (hc : c.IsBounded) (h : namedFields? names c = some fields) : AllBounded fields := by
  cases hc with
  | entries _ hvalues =>
    obtain ⟨known, hknown, h⟩ := Option.bind_eq_some_iff.mp h
    refine (allBounded_replicate names.length).collect (fun e hmem => ?_) h
    obtain ⟨entry, hentry, hsame⟩ := exists_of_mem_mapM hknown (List.mem_filter.mp hmem).1
    obtain ⟨_, -, rfl⟩ := Option.map_eq_some_iff.mp hsame
    exact hvalues entry hentry
  | null | boolean | natural | integer | double | text | list => cases h

end Content

section Fields

open Content

variable {α : Type} {read : Content → Option α} {field : Option Content} (hfield : ∀ c ∈ field, c.IsBounded)

include hfield

/-- A field with a default holds the default, or what is read from a bounded content. -/
theorem of_optional? {fallback value : α} (h : optional? fallback read field = some value) :
    value = fallback ∨ ∃ c : Content, c.IsBounded ∧ read c = some value := by
  cases field with
  | none => exact .inl (Option.some.inj h).symm
  | some c => exact .inr ⟨c, hfield c rfl, h⟩

/-- A number with a default fits 64 bits. -/
theorem le_of_optional? {fallback n : Nat} (hfallback : fallback ≤ maxNat64)
    (h : optional? fallback asNatural? field = some n) : n ≤ maxNat64 := by
  rcases of_optional? hfield h with rfl | ⟨c, hc, hread⟩
  · exact hfallback
  · exact le_of_asNatural? hc hread

/-- A value that is not absent is read from a bounded content. -/
theorem exists_of_mem_option {value : Option α} (h : optional? none (asOption? read) field = some value) {a : α}
    (ha : a ∈ value) : ∃ c : Content, c.IsBounded ∧ read c = some a := by
  rcases of_optional? hfield h with rfl | ⟨c, hc, hread⟩
  · cases ha
  · exact ⟨c, hc, read_of_asOption? hread ha⟩

/-- What is in a list is read from a bounded content. -/
theorem exists_of_mem_list {found : List α} (h : optional? [] (asList? read) field = some found) {a : α}
    (ha : a ∈ found) : ∃ item : Content, item.IsBounded ∧ read item = some a := by
  rcases of_optional? hfield h with rfl | ⟨c, hc, hread⟩
  · cases ha
  · exact exists_of_mem_asList? hc hread ha

end Fields

open Content

/-- A repeating group that is read fits 64 bits. -/
theorem RepeatingGroup.fits_of_ofContent? {c : Content} {group : RepeatingGroup} (hc : c.IsBounded)
    (h : ofContent? c = some group) : group.Fits := by
  obtain ⟨fields, hfields, h⟩ := Option.bind_eq_some_iff.mp h
  have hbounded := allBounded_of_fieldsOf? hc hfields
  split at h
  · simp only [Option.bind_eq_bind, Option.bind_eq_some_iff] at h
    obtain ⟨_, -, _, -, _, -, i, hindex, _, -, _, -, most, hmost, _, -, _, -, _, -, hgroup⟩ := h
    cases hgroup
    have hstart : minInt64 ≤ i ∧ i ≤ maxInt64 := by
      rcases of_optional? (hbounded _ (by simp)) hindex with rfl | ⟨c, hc, hread⟩
      · decide
      · exact within_of_asInteger? hc hread
    refine ⟨hstart.1, hstart.2, fun n hn => ?_⟩
    obtain ⟨c, hc, hread⟩ := exists_of_mem_option (hbounded _ (by simp)) hmost hn
    exact le_of_asNatural? hc hread
  · cases h

/-- A group of mappings that is read fits 64 bits. -/
theorem FieldGroup.fits_of_ofContent? {c : Content} {group : FieldGroup} (hc : c.IsBounded)
    (h : ofContent? c = some group) : group.Fits := by
  obtain ⟨fields, hfields, h⟩ := Option.bind_eq_some_iff.mp h
  have hbounded := allBounded_of_fieldsOf? hc hfields
  split at h
  · simp only [Option.bind_eq_bind, Option.bind_eq_some_iff] at h
    obtain ⟨_, -, _, -, _, -, repeating, hrepeating, hgroup⟩ := h
    cases hgroup
    intro table htable
    obtain ⟨c, hc, hread⟩ := exists_of_mem_option (hbounded _ (by simp)) hrepeating htable
    exact RepeatingGroup.fits_of_ofContent? hc hread
  · cases h

/-- A section that is read fits 64 bits. -/
theorem Section.fits_of_ofContent? {c : Content} {desc : Section} (hc : c.IsBounded)
    (h : ofContent? c = some desc) : desc.Fits := by
  obtain ⟨fields, hfields, h⟩ := Option.bind_eq_some_iff.mp h
  have hbounded := allBounded_of_fieldsOf? hc hfields
  split at h
  · simp only [Option.bind_eq_bind, Option.bind_eq_some_iff] at h
    obtain ⟨_, -, _, -, _, -, _, -, _, -, _, -, groups, hgroups, hdesc⟩ := h
    cases hdesc
    intro group hgroup
    obtain ⟨item, hitem, hread⟩ := exists_of_mem_list (hbounded _ (by simp)) hgroups hgroup
    exact FieldGroup.fits_of_ofContent? hitem hread
  · cases h

/-- A matrix that is read fits 64 bits. -/
theorem MatrixInjection.fits_of_ofContent? {c : Content} {injection : MatrixInjection} (hc : c.IsBounded)
    (h : ofContent? c = some injection) : injection.Fits := by
  obtain ⟨fields, hfields, h⟩ := Option.bind_eq_some_iff.mp h
  have hbounded := allBounded_of_namedFields? hc hfields
  split at h
  · simp only [Option.bind_eq_bind, Option.bind_eq_some_iff] at h
    obtain ⟨_, -, _, -, _, -, options, hoptions, hinjection⟩ := h
    cases hinjection
    unfold MatrixOptions.ofFields? at hoptions
    split at hoptions
    · simp only [Option.bind_eq_bind, Option.bind_eq_some_iff] at hoptions
      obtain ⟨_, -, _, -, _, -, _, -, _, -, columns, hcolumns, rows, hrows, hoptions⟩ := hoptions
      cases hoptions
      exact ⟨le_of_optional? (hbounded _ (by simp)) (by decide) hcolumns,
        le_of_optional? (hbounded _ (by simp)) (by decide) hrows⟩
    · cases hoptions
  · cases h

/-- A plan that is read fits 64 bits. -/
theorem Plan.fits_of_ofContent? {c : Content} {plan : Plan} (hc : c.IsBounded)
    (h : ofContent? c = some plan) : plan.Fits := by
  obtain ⟨fields, hfields, h⟩ := Option.bind_eq_some_iff.mp h
  have hbounded := allBounded_of_fieldsOf? hc hfields
  split at h
  · simp only [Option.bind_eq_bind, Option.bind_eq_some_iff] at h
    obtain ⟨_, -, _, -, matrices, hmatrices, sections, hsections, hplan⟩ := h
    cases hplan
    constructor
    · intro injection hinjection
      obtain ⟨item, hitem, hread⟩ := exists_of_mem_list (hbounded _ (by simp)) hmatrices hinjection
      exact MatrixInjection.fits_of_ofContent? hitem hread
    · intro desc hdesc
      obtain ⟨c, hfield, hread⟩ := Option.bind_eq_some_iff.mp hsections
      obtain ⟨item, hitem, hread⟩ := exists_of_mem_asList? (hbounded _ (by simp) c hfield) hread hdesc
      exact Section.fits_of_ofContent? hitem hread
  · cases h

/-- A plan, or the plan of one section, that is read fits 64 bits. -/
theorem Plan.fits_of_orSection? {c : Content} {plan : Plan} (hc : c.IsBounded)
    (h : orSection? c = some plan) : plan.Fits := by
  unfold orSection? at h
  cases hplan : ofContent? c with
  | some found =>
    rw [hplan] at h
    cases h
    exact fits_of_ofContent? hc hplan
  | none =>
    rw [hplan] at h
    obtain ⟨desc, hdesc, rfl⟩ := Option.map_eq_some_iff.mp h
    exact ⟨List.forall_mem_nil _, List.forall_mem_singleton.mpr (Section.fits_of_ofContent? hc hdesc)⟩

end SheetFill
