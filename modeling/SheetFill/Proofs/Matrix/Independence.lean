import Mathlib.Data.List.Nodup
import SheetFill.Proofs.Matrix.Placement
import SheetFill.Proofs.Tree.Ordered

/-!
# Matrices that do not see each other

Every matrix is built from data in which the matrices before it are stored already. It sees none of them if its source
starts with a field that is none of their keys, and then it is the matrix of the data as it was. Matrices under distinct
keys take distinct fields, so that their order does not matter.

Main statement: a plan whose matrices have distinct keys and see none of them prepares the same data in every order of
the matrices. Each key holds the matrix of the data as it was, and every other field is as it was. Any plan fails to
prepare any data exactly if one of its sources cannot be read.
-/

namespace SheetFill

namespace Tree

/-- The fields with entries stored among them, one after the other. -/
def insertFields (entries fields : List (String × Tree)) : List (String × Tree) :=
  entries.foldl (fun fields entry => insertField entry.1 entry.2 fields) fields

variable {key : String} {value : Tree} {entries others fields : List (String × Tree)}

/-- Different keys take their values in either order. -/
theorem insertField_comm {other : String} (h : key ≠ other) (value value' : Tree) (fields : List (String × Tree)) :
    insertField key value (insertField other value' fields) =
      insertField other value' (insertField key value fields) := by
  induction fields with
  | nil => grind [insertField]
  | cons first rest ih => grind [insertField]

/-- Entries with distinct keys are stored in any order. -/
theorem insertFields_perm (hkeys : (entries.map Prod.fst).Nodup) (h : entries.Perm others)
    (fields : List (String × Tree)) : insertFields entries fields = insertFields others fields := by
  refine h.foldl_eq' (fun a ha b hb fields => ?_) fields
  by_cases hsame : a.1 = b.1
  · rw [List.inj_on_of_nodup_map hkeys ha hb hsame]
  · exact insertField_comm (Ne.symm hsame) b.2 a.2 fields

/-- A key that is not among the entries keeps its value. -/
theorem lookup_insertFields_of_not_mem (h : key ∉ entries.map Prod.fst) (fields : List (String × Tree)) :
    (insertFields entries fields).lookup key = fields.lookup key := by
  induction entries generalizing fields with
  | nil => rfl
  | cons entry rest ih =>
    rw [List.map_cons, List.mem_cons, not_or] at h
    change (insertFields rest (insertField entry.1 entry.2 fields)).lookup key = _
    rw [ih h.2, lookup_insertField, if_neg h.1]

/-- A key among entries with distinct keys takes its value. -/
theorem lookup_insertFields_of_mem (hkeys : (entries.map Prod.fst).Nodup) (h : (key, value) ∈ entries)
    (fields : List (String × Tree)) : (insertFields entries fields).lookup key = some value := by
  induction entries generalizing fields with
  | nil => cases h
  | cons entry rest ih =>
    obtain ⟨hfirst, hrest⟩ := List.nodup_cons.mp hkeys
    change (insertFields rest (insertField entry.1 entry.2 fields)).lookup key = _
    rcases List.mem_cons.mp h with rfl | hmem
    · rw [lookup_insertFields_of_not_mem hfirst, lookup_insertField, if_pos rfl]
    · exact ih hrest hmem _

/-- Storing entries keeps the keys ascending. -/
theorem Ascending.insertFields (entries : List (String × Tree)) (h : Ascending fields) :
    Ascending (insertFields entries fields) := by
  induction entries generalizing fields with
  | nil => exact h
  | cons entry rest ih => exact ih (h.insertField entry.1 entry.2)

end Tree

/-- A path that starts with a field sees nothing else of a record. -/
theorem walk_record_congr {name : String} {fields others : List (String × Tree)}
    (h : fields.lookup name = others.lookup name) (rest : List Segment) :
    walk (.record fields) (.field name :: rest) = walk (.record others) (.field name :: rest) := by
  simp only [walk, walkFrom, List.flatMap_singleton, Segment.select, h]

namespace MatrixInjection

/-- The source can be read, and its path starts with a field that is none of the keys. -/
def ReadsOutside (injection : MatrixInjection) (keys : List String) : Prop :=
  ∃ name rest, (Dialect.of injection.source).parse injection.source = .ok (.field name :: rest) ∧ name ∉ keys

/-- The matrix that an injection builds from data; an empty one if its source cannot be read. -/
def matrixFrom (injection : MatrixInjection) (data : Tree) : Matrix :=
  (Matrix.select injection.options injection.valuesOnly injection.source data).toOption.getD []

/-- What an injection stores. -/
def entryFrom (data : Tree) (injection : MatrixInjection) : String × Tree :=
  (injection.key, (injection.matrixFrom data).tree)

variable {injection : MatrixInjection} {injections : List MatrixInjection} {keys : List String}
  {original fields : List (String × Tree)} {data : Tree} {fault : Fault}

/-- A source that reads outside keys has the same matrix in records that differ in these keys only. -/
theorem ReadsOutside.select_eq_ok (h : injection.ReadsOutside keys)
    (hagree : ∀ name, name ∉ keys → fields.lookup name = original.lookup name) :
    Matrix.select injection.options injection.valuesOnly injection.source (.record fields) =
      .ok (injection.matrixFrom (.record original)) := by
  obtain ⟨name, rest, hparse, hname⟩ := h
  rw [matrixFrom, MatrixInjection.select_eq_ok hparse, MatrixInjection.select_eq_ok hparse, matrix, matrix,
    walk_record_congr (hagree name hname)]
  rfl

/-- One injection stores the matrix of the data as it was. -/
theorem ReadsOutside.apply_eq_ok (h : injection.ReadsOutside keys)
    (hagree : ∀ name, name ∉ keys → fields.lookup name = original.lookup name) :
    injection.apply (.record fields) =
      .ok (.record (Tree.insertField injection.key (injection.matrixFrom (.record original)).tree fields)) := by
  rw [apply, h.select_eq_ok hagree]
  rfl

/-- Several injections store the matrices of the data as it was. What is preserved from one to the next is that the data
differs from the original in keys only that none of the sources reads. -/
theorem injectAll_eq_ok (h : ∀ injection ∈ injections, injection.ReadsOutside keys ∧ injection.key ∈ keys)
    (hagree : ∀ name, name ∉ keys → fields.lookup name = original.lookup name) :
    injectAll injections (.record fields) =
      .ok (.record (Tree.insertFields (injections.map (entryFrom (.record original))) fields)) := by
  induction injections generalizing fields with
  | nil => rfl
  | cons injection rest ih =>
    obtain ⟨⟨hreads, hkey⟩, hrest⟩ := List.forall_mem_cons.mp h
    have hagreeNext : ∀ name, name ∉ keys →
        (Tree.insertField injection.key (injection.matrixFrom (.record original)).tree fields).lookup name =
          original.lookup name := by
      intro name hname
      have hother : name ≠ injection.key := fun hsame => hname (hsame ▸ hkey)
      rw [Tree.lookup_insertField, if_neg hother, hagree name hname]
    rw [injectAll, hreads.apply_eq_ok hagree]
    exact ih hrest hagreeNext

/-- An injection fails exactly if its source cannot be read. -/
theorem apply_eq_error_iff (data : Tree) :
    injection.apply data = .error fault ↔
      (Dialect.of injection.source).parse injection.source = .error fault := by
  cases hparse : (Dialect.of injection.source).parse injection.source with
  | ok segments => simp [apply_eq_ok hparse]
  | error other =>
    have hfails : injection.apply data = .error other := by
      simp only [apply, Matrix.select, Dialect.evaluate, hparse]
      rfl
    simp [hfails]

/-- Several injections fail exactly if the source of one of them cannot be read. -/
theorem exists_injectAll_eq_error_iff (injections : List MatrixInjection) (data : Tree) :
    (∃ fault, injectAll injections data = .error fault) ↔
      ∃ injection ∈ injections, ∃ fault,
        (Dialect.of injection.source).parse injection.source = .error fault := by
  induction injections generalizing data with
  | nil => simp [injectAll]
  | cons injection rest ih =>
    rw [injectAll, List.exists_mem_cons_iff]
    cases happly : injection.apply data with
    | error fault =>
      exact ⟨fun _ => .inl ⟨fault, (apply_eq_error_iff data).mp happly⟩, fun _ => ⟨fault, rfl⟩⟩
    | ok next =>
      have hreads : ¬ ∃ fault, (Dialect.of injection.source).parse injection.source = .error fault := by
        rintro ⟨fault, hparse⟩
        rw [(apply_eq_error_iff data).mpr hparse] at happly
        cases happly
      exact (ih next).trans (or_iff_right hreads).symm

end MatrixInjection

namespace Plan

open MatrixInjection (entryFrom injectAll_eq_ok)

/-- If the matrices of a plan have distinct keys, and each source starts with a field that is none of them, the prepared
data does not depend on the order of the matrices: each key holds the matrix of the data as it was, and every other
field is as it was. Whatever the plan and the data, preparing fails exactly if a source cannot be read. -/
theorem prepare_in_any_order (plan : Plan) :
    (∀ fields, (plan.matrices.map (·.key)).Nodup →
      (∀ injection ∈ plan.matrices, injection.ReadsOutside (plan.matrices.map (·.key))) →
      ∃ prepared,
        (∀ injections, injections.Perm plan.matrices →
          { plan with matrices := injections }.prepare (.record fields) = .ok (.record prepared)) ∧
        (∀ injection ∈ plan.matrices, ∃ m,
          Matrix.select injection.options injection.valuesOnly injection.source (.record fields) = .ok m ∧
            prepared.lookup injection.key = some m.tree) ∧
        (∀ key, key ∉ plan.matrices.map (·.key) → prepared.lookup key = fields.lookup key) ∧
        (Tree.Ascending fields → Tree.Ascending prepared)) ∧
    ∀ data, (∃ fault, plan.prepare data = .error fault) ↔
      ∃ injection ∈ plan.matrices, ∃ fault,
        (Dialect.of injection.source).parse injection.source = .error fault := by
  refine ⟨fun fields hkeys hreads => ?_, MatrixInjection.exists_injectAll_eq_error_iff plan.matrices⟩
  let entries := plan.matrices.map (entryFrom (.record fields))
  have hnames : entries.map Prod.fst = plan.matrices.map (·.key) := by
    rw [List.map_map]
    rfl
  have hdistinct : (entries.map Prod.fst).Nodup := hnames ▸ hkeys
  refine ⟨Tree.insertFields entries fields, fun injections hperm => ?_, fun injection hmem => ?_, fun key hkey => ?_,
    fun hascending => hascending.insertFields entries⟩
  · have hsources : ∀ injection ∈ injections, injection.ReadsOutside (plan.matrices.map (·.key)) ∧
        injection.key ∈ plan.matrices.map (·.key) := fun injection hmem =>
      ⟨hreads injection (hperm.mem_iff.mp hmem), List.mem_map_of_mem (hperm.mem_iff.mp hmem)⟩
    have hentries : (injections.map (entryFrom (.record fields))).Perm entries := hperm.map _
    have hsame := Tree.insertFields_perm hdistinct hentries.symm fields
    rw [prepare, injectAll_eq_ok hsources (fun _ _ => rfl), ← hsame]
  · have hentry : (injection.key, (injection.matrixFrom (.record fields)).tree) ∈ entries :=
      List.mem_map.mpr ⟨injection, hmem, rfl⟩
    exact ⟨injection.matrixFrom (.record fields), (hreads injection hmem).select_eq_ok fun _ _ => rfl,
      Tree.lookup_insertFields_of_mem hdistinct hentry fields⟩
  · exact Tree.lookup_insertFields_of_not_mem (hnames ▸ hkey) fields

/-- Two sources in different dialects and a target with a dot, and a plan with a source that cannot be read. -/
theorem prepare_in_any_order_two_dialects :
    let plans : Tree := .list [.record
      [("benefits", .list [.record [("name", .text "Dental"), ("value", .boolean true)]]), ("planName", .text "Basic")]]
    let fields : List (String × Tree) := [("matrix.values", .text "replaced"), ("plans", plans)]
    let table : MatrixInjection := { source := " $['plans'] ", options := { columnSpacing := 0 } }
    let values : MatrixInjection :=
      { source := "plans[*]", target := some "matrix.values", valuesOnly := true, options := { columnSpacing := 0 } }
    let plan : Plan := { matrices := [table, values], sections := [] }
    let broken : Plan := { matrices := [table, { source := "plans..name" }], sections := [] }
    (plan.matrices.map (·.key)).Nodup ∧
      (∀ injection ∈ plan.matrices, injection.ReadsOutside (plan.matrices.map (·.key))) ∧
      (∃ prepared,
        plan.prepare (.record fields) = .ok (.record prepared) ∧
        { plan with matrices := [values, table] }.prepare (.record fields) = .ok (.record prepared) ∧
        prepared.lookup "plans" = some plans ∧
        prepared.lookup "matrix.values" =
          some (Matrix.tree [[.text "Basic"], [.boolean true]])) ∧
      ∃ fault, broken.prepare .null = .error fault := by
  intro plans fields table values plan broken
  have hkeys : (plan.matrices.map (·.key)).Nodup := by decide +kernel
  have hreads : ∀ injection ∈ plan.matrices, injection.ReadsOutside (plan.matrices.map (·.key)) := by
    refine List.forall_mem_cons.mpr ⟨⟨"plans", [], by decide +kernel, by decide +kernel⟩, ?_⟩
    exact List.forall_mem_singleton.mpr ⟨"plans", [.wildcard], by decide +kernel, by decide +kernel⟩
  obtain ⟨hindependent, -⟩ := plan.prepare_in_any_order
  obtain ⟨prepared, horders, hmatrices, hothers, -⟩ := hindependent fields hkeys hreads
  obtain ⟨m, hselect, hlookup⟩ := hmatrices values (by decide +kernel)
  have hmatrix : Matrix.select values.options values.valuesOnly values.source (.record fields) =
      .ok [[.text "Basic"], [.boolean true]] := by decide +kernel
  obtain rfl : m = [[.text "Basic"], [.boolean true]] := Except.ok.inj (hselect.symm.trans hmatrix)
  have hunreadable : (Dialect.of "plans..name").parse "plans..name" =
      .error (.pathSyntax "plans..name" .recursiveDescent 6) := by decide +kernel
  exact ⟨hkeys, hreads,
    ⟨prepared, horders _ (List.Perm.refl _), horders _ (List.Perm.swap _ _ _),
      hothers "plans" (by decide +kernel), hlookup⟩,
    (broken.prepare_in_any_order.2 .null).mpr ⟨{ source := "plans..name" }, by decide +kernel, _, hunreadable⟩⟩

end Plan

end SheetFill
