/-!
# Ordered maps from texts to texts

Mappings, variables and flat fields keep the order in which their keys were first given. Giving a key again changes its
value and leaves its place, so that a key occurs once; the type carries that fact.

The laws describe `insert` through `get?`, the value of a key, and through the list of keys.
-/

namespace SheetFill

/-- A map from texts to texts that remembers the order of its keys. -/
structure TextMap where
  entries : List (String × String)
  nodup : (entries.map Prod.fst).Nodup
deriving DecidableEq

namespace TextMap

/-- Gives a key its value in a list of entries: in its old place, or at the end. -/
def put (key value : String) : List (String × String) → List (String × String)
  | [] => [(key, value)]
  | (k, v) :: rest => if k = key then (key, value) :: rest else (k, v) :: put key value rest

theorem mem_keys_put {key value k : String} {entries : List (String × String)} :
    k ∈ (put key value entries).map Prod.fst ↔ k = key ∨ k ∈ entries.map Prod.fst := by
  induction entries with
  | nil => simp [put]
  | cons e rest ih =>
    obtain ⟨k', v'⟩ := e
    simp only [put]
    split
    · next h => subst h; simp
    · simp only [List.map_cons, List.mem_cons, ih]
      constructor
      · rintro (h | h | h) <;> simp [h]
      · rintro (h | h | h) <;> simp [h]

theorem nodup_keys_put {key value : String} {entries : List (String × String)}
    (h : (entries.map Prod.fst).Nodup) : ((put key value entries).map Prod.fst).Nodup := by
  induction entries with
  | nil => simp [put]
  | cons e rest ih =>
    obtain ⟨k, v⟩ := e
    simp only [List.map_cons, List.nodup_cons] at h
    simp only [put]
    split
    · next hk =>
      subst hk
      simpa using h
    · next hk =>
      simp only [List.map_cons, List.nodup_cons]
      refine ⟨fun hm => ?_, ih h.2⟩
      rcases mem_keys_put.1 hm with heq | hmem
      · exact hk heq
      · exact h.1 hmem

/-- The map without entries. -/
def empty : TextMap := ⟨[], by simp⟩

instance : Inhabited TextMap := ⟨empty⟩

/-- Gives a key its value: a new key comes last, a known one keeps its place. -/
def insert (m : TextMap) (key value : String) : TextMap :=
  ⟨put key value m.entries, nodup_keys_put m.nodup⟩

/-- Gives several keys their values, one after the other. -/
def insertAll (m : TextMap) (entries : List (String × String)) : TextMap :=
  entries.foldl (fun m e => m.insert e.1 e.2) m

/-- The map that a list of entries makes. -/
def ofList (entries : List (String × String)) : TextMap :=
  empty.insertAll entries

/-- The value of a key. -/
def get? (m : TextMap) (key : String) : Option String :=
  m.entries.lookup key

/-- How many keys there are. -/
def size (m : TextMap) : Nat :=
  m.entries.length

@[simp] theorem entries_empty : empty.entries = [] := rfl

@[simp] theorem get?_empty (key : String) : empty.get? key = none := rfl

theorem lookup_put (key value k : String) (entries : List (String × String)) :
    (put key value entries).lookup k = if k = key then some value else entries.lookup k := by
  induction entries with
  | nil => by_cases h : k = key <;> simp [put, h]
  | cons e rest ih =>
    obtain ⟨k', v'⟩ := e
    by_cases hk : k' = key
    · subst hk
      by_cases h : k = k'
      · simp [put, h]
      · have hb : (k == k') = false := by simp [h]
        simp [put, List.lookup_cons, h, hb]
    · by_cases h : k = k'
      · subst h
        simp [put, hk]
      · simp [put, hk, List.lookup_cons, beq_false_of_ne h, ih]

@[simp] theorem get?_insert (m : TextMap) (key value k : String) :
    (m.insert key value).get? k = if k = key then some value else m.get? k :=
  lookup_put key value k m.entries

end TextMap

end SheetFill
