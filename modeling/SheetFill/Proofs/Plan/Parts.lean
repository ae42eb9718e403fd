import SheetFill.Proofs.Json.RoundTrip
import SheetFill.Proofs.Plan.Fields

/-!
# Parts of plans are read back

Each part of a plan is written as a record with one field under each of its names, and reading the
record gives the part back. The only condition is that the integers fit 64 bits, as those of every
plan that was read do. The contents hold no doubles and are not deep, so that they are read back from
their JSON text as well.
-/

namespace SheetFill

open Text (maxInt64 minInt64 maxNat64)

open Content

/-- The integers of the group fit 64 bits. -/
structure RepeatingGroup.Fits (group : RepeatingGroup) : Prop where
  min_le_startIndex : minInt64 ≤ group.startIndex
  startIndex_le_max : group.startIndex ≤ maxInt64
  maxItems_le : ∀ n ∈ group.maxItems, n ≤ maxNat64

/-- The integers of the group fit 64 bits. -/
def FieldGroup.Fits (group : FieldGroup) : Prop :=
  ∀ repeating ∈ group.repeating, repeating.Fits

/-- The integers of the section fit 64 bits. -/
def Section.Fits (desc : Section) : Prop :=
  ∀ group ∈ desc.groups, group.Fits

/-- The integers of the matrix fit 64 bits. -/
structure MatrixInjection.Fits (injection : MatrixInjection) : Prop where
  columnSpacing_le : injection.options.columnSpacing ≤ maxNat64
  rowSpacing_le : injection.options.rowSpacing ≤ maxNat64

/-- The integers of the plan fit 64 bits. -/
structure Plan.Fits (plan : Plan) : Prop where
  matrices : ∀ injection ∈ plan.matrices, injection.Fits
  sections : ∀ desc ∈ plan.sections, desc.Fits

/-- A dialect is read back from its name. -/
theorem Dialect.asChoice?_name (dialect : Dialect) : asChoice? choices (text dialect.name) = some dialect := by
  cases dialect <;> decide

/-- A position is read back from its name. -/
theorem IndexPosition.asChoice?_name (position : IndexPosition) :
    asChoice? choices (text position.name) = some position := by
  cases position <;> decide

/-- A repeating group is read back from its content. -/
theorem RepeatingGroup.ofContent?_content {group : RepeatingGroup} (h : group.Fits) :
    ofContent? group.content = some group := by
  have hfields : fieldsOf? names group.content = some _ :=
    fieldsOf?_ofFields
      [ofOption text group.startCell, ofOption text group.namePrefix, ofOption text group.nameSuffix,
        ofInt group.startIndex, ofOption text group.indexSeparator, text group.indexPosition.name,
        ofOption natural group.maxItems, boolean group.insertRows, boolean group.overwrite,
        ofTextMap group.fields]
      (by decide) rfl rfl
  have hmost : asOption? asNatural? (ofOption natural group.maxItems) = some group.maxItems :=
    asOption?_ofOption (fun _ _ => rfl) fun _ h => Content.noConfusion h
  simp only [ofContent?, hfields, List.map_cons, List.map_nil, optional?, asOption?_asText?,
    asInteger?_ofInt h.startIndex_le_max, IndexPosition.asChoice?_name, hmost, asBoolean?, asTextMap?_ofTextMap,
    Option.bind_eq_bind, Option.bind_some]

/-- A group of mappings is read back from its content. -/
theorem FieldGroup.ofContent?_content {group : FieldGroup} (h : group.Fits) :
    ofContent? group.content = some group := by
  have hfields : fieldsOf? names group.content = some _ :=
    fieldsOf?_ofFields
      [ofOption text group.basePath, ofOption (fun d => text d.name) group.dialect, ofTextMap group.fields,
        ofOption RepeatingGroup.content group.repeating]
      (by decide) rfl rfl
  have hdialect : asOption? (asChoice? Dialect.choices) (ofOption (fun d => text d.name) group.dialect) =
      some group.dialect :=
    asOption?_ofOption (fun d _ => d.asChoice?_name) fun _ h => Content.noConfusion h
  have hrepeating : asOption? RepeatingGroup.ofContent? (ofOption RepeatingGroup.content group.repeating) =
      some group.repeating :=
    asOption?_ofOption (fun repeating hmem => RepeatingGroup.ofContent?_content (h repeating hmem))
      fun _ h => Content.noConfusion h
  simp only [ofContent?, hfields, List.map_cons, List.map_nil, optional?, asOption?_asText?, hdialect, hrepeating,
    asTextMap?_ofTextMap, Option.bind_eq_bind, Option.bind_some]

/-- A section is read back from its content. -/
theorem Section.ofContent?_content {desc : Section} (h : desc.Fits) : ofContent? desc.content = some desc := by
  have hfields : fieldsOf? names desc.content = some _ :=
    fieldsOf?_ofFields
      [text desc.id, text desc.template, ofOption text desc.sheet, boolean desc.overwrite,
        text desc.dialect.name, ofTextMap desc.mappings, list (desc.groups.map FieldGroup.content)]
      (by decide) rfl rfl
  have hgroups : asList? FieldGroup.ofContent? (list (desc.groups.map FieldGroup.content)) = some desc.groups :=
    asList?_map fun group hmem => FieldGroup.ofContent?_content (h group hmem)
  simp only [ofContent?, hfields, List.map_cons, List.map_nil, optional?, required?, asText?, asOption?_asText?,
    asBoolean?, Dialect.asChoice?_name, asTextMap?_ofTextMap, hgroups, Option.bind_eq_bind, Option.bind_some]

/-- A matrix is read back from its content. -/
theorem MatrixInjection.ofContent?_content (injection : MatrixInjection) :
    ofContent? injection.content = some injection := by
  have hfields : namedFields? (names ++ MatrixOptions.names) injection.content = some _ :=
    namedFields?_ofFields
      [text injection.source, ofOption text injection.target, boolean injection.valuesOnly,
        text injection.options.keyField, text injection.options.valueField,
        text injection.options.labelField, text injection.options.entriesField,
        text injection.options.headerLabel, natural injection.options.columnSpacing,
        natural injection.options.rowSpacing]
      (by decide) rfl rfl
  simp only [ofContent?, hfields, List.map_cons, List.map_nil, optional?, required?, asText?, asOption?_asText?,
    asBoolean?, asNatural?, MatrixOptions.ofFields?, Option.bind_eq_bind, Option.bind_some]

/-- A plan is read back from its content. -/
theorem Plan.ofContent?_content {plan : Plan} (h : plan.Fits) : ofContent? plan.content = some plan := by
  have hfields : fieldsOf? names plan.content = some _ :=
    fieldsOf?_ofFields
      [ofOption text plan.space, ofTextMap plan.bindings, list (plan.matrices.map MatrixInjection.content),
        list (plan.sections.map Section.content)]
      (by decide) rfl rfl
  have hmatrices : asList? MatrixInjection.ofContent? (list (plan.matrices.map MatrixInjection.content)) =
      some plan.matrices :=
    asList?_map fun injection _ => injection.ofContent?_content
  have hsections : asList? Section.ofContent? (list (plan.sections.map Section.content)) = some plan.sections :=
    asList?_map fun desc hmem => Section.ofContent?_content (h.sections desc hmem)
  simp only [ofContent?, hfields, List.map_cons, List.map_nil, optional?, required?, asOption?_asText?,
    asTextMap?_ofTextMap, hmatrices, hsections, Option.bind_eq_bind, Option.bind_some]

namespace Content

variable {depth : Nat}

/-- A record of contents that can be printed can be printed. -/
theorem isPlain_ofFields {fields : List (String × Content)} (h : ∀ e ∈ fields, e.2.IsPlain depth) :
    (ofFields fields).IsPlain (depth + 1) := by
  refine .entries ?_ ?_
  · exact List.forall_mem_map.mpr fun e _ => ⟨e.1, rfl⟩
  · exact List.forall_mem_map.mpr fun e hmem => h e hmem

/-- A record of texts can be printed. -/
theorem isPlain_ofTextMap (m : TextMap) : (ofTextMap m).IsPlain (depth + 1) :=
  isPlain_ofFields (List.forall_mem_map.mpr fun e _ => .text e.2)

/-- A value that may be absent can be printed. -/
theorem isPlain_ofOption {α : Type} {write : α → Content} {value : Option α}
    (h : ∀ a ∈ value, (write a).IsPlain depth) : (ofOption write value).IsPlain depth := by
  cases value with
  | none => exact .null
  | some a => exact h a rfl

/-- An integer of 64 bits can be printed. -/
theorem isPlain_ofInt {i : Int} (hmin : minInt64 ≤ i) (hmax : i ≤ maxInt64) : (ofInt i).IsPlain depth := by
  unfold ofInt
  split
  · refine .natural ?_
    simp only [maxInt64, maxNat64] at *
    omega
  · exact .integer hmin (by omega)

/-- A list of contents that can be printed can be printed. -/
theorem isPlain_list {α : Type} {write : α → Content} {items : List α}
    (h : ∀ a ∈ items, (write a).IsPlain depth) : (list (items.map write)).IsPlain (depth + 1) :=
  .list (List.forall_mem_map.mpr h)

end Content

/-- A repeating group can be printed. -/
theorem RepeatingGroup.isPlain_content {depth : Nat} {group : RepeatingGroup} (h : group.Fits) :
    group.content.IsPlain (depth + 2) := by
  refine isPlain_ofFields ?_
  simp only [List.forall_mem_cons, List.not_mem_nil, false_imp_iff, implies_true, and_true]
  exact ⟨isPlain_ofOption fun _ _ => .text _, isPlain_ofOption fun _ _ => .text _,
    isPlain_ofOption fun _ _ => .text _, isPlain_ofInt h.min_le_startIndex h.startIndex_le_max,
    isPlain_ofOption fun _ _ => .text _, .text _, isPlain_ofOption fun n hn => .natural (h.maxItems_le n hn),
    .boolean _, .boolean _, isPlain_ofTextMap _⟩

/-- A group of mappings can be printed. -/
theorem FieldGroup.isPlain_content {depth : Nat} {group : FieldGroup} (h : group.Fits) :
    group.content.IsPlain (depth + 3) := by
  refine isPlain_ofFields ?_
  simp only [List.forall_mem_cons, List.not_mem_nil, false_imp_iff, implies_true, and_true]
  exact ⟨isPlain_ofOption fun _ _ => .text _, isPlain_ofOption fun _ _ => .text _, isPlain_ofTextMap _,
    isPlain_ofOption fun repeating hmem => RepeatingGroup.isPlain_content (h repeating hmem)⟩

/-- A section can be printed. -/
theorem Section.isPlain_content {depth : Nat} {desc : Section} (h : desc.Fits) :
    desc.content.IsPlain (depth + 5) := by
  refine isPlain_ofFields ?_
  simp only [List.forall_mem_cons, List.not_mem_nil, false_imp_iff, implies_true, and_true]
  exact ⟨.text _, .text _, isPlain_ofOption fun _ _ => .text _, .boolean _, .text _, isPlain_ofTextMap _,
    isPlain_list fun group hmem => FieldGroup.isPlain_content (h group hmem)⟩

/-- A matrix can be printed. -/
theorem MatrixInjection.isPlain_content {depth : Nat} {injection : MatrixInjection} (h : injection.Fits) :
    injection.content.IsPlain (depth + 1) := by
  refine isPlain_ofFields ?_
  simp only [List.forall_mem_cons, List.not_mem_nil, false_imp_iff, implies_true, and_true]
  exact ⟨.text _, isPlain_ofOption fun _ _ => .text _, .boolean _, .text _, .text _, .text _, .text _, .text _,
    .natural h.columnSpacing_le, .natural h.rowSpacing_le⟩

/-- A plan can be printed. -/
theorem Plan.isPlain_content {depth : Nat} {plan : Plan} (h : plan.Fits) : plan.content.IsPlain (depth + 7) := by
  refine isPlain_ofFields ?_
  simp only [List.forall_mem_cons, List.not_mem_nil, false_imp_iff, implies_true, and_true]
  exact ⟨isPlain_ofOption fun _ _ => .text _, isPlain_ofTextMap _,
    isPlain_list fun injection hmem => MatrixInjection.isPlain_content (h.matrices injection hmem),
    isPlain_list fun desc hmem => Section.isPlain_content (h.sections desc hmem)⟩

end SheetFill
