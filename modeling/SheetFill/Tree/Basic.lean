import SheetFill.Number.Double

/-!
# Data trees

The data that fills a template is a tree: scalars, lists, and records whose fields are kept in the order of their keys
by code point. That order decides how a wildcard runs through a record and how a record is printed.

A number without point and exponent stays an integer as long as it fits 64 bits; every other number is a double.
-/

namespace SheetFill

/-- A number of a data tree. -/
inductive Number where
  | integer (value : Int)
  | double (value : Double)
deriving DecidableEq

/-- The double nearest to a number. -/
def Number.toDouble : Number → Double
  | .integer i => Double.ofInt i
  | .double d => d

/-- A data tree. -/
inductive Tree where
  | null
  | boolean (value : Bool)
  | number (value : Number)
  | text (value : String)
  | list (items : List Tree)
  | record (fields : List (String × Tree))
deriving Inhabited

namespace Tree

mutual

/-- Equality of trees is decidable. -/
def decEq : (a b : Tree) → Decidable (a = b)
  | .null, b => match b with
    | .null => isTrue rfl
    | .boolean _ | .number _ | .text _ | .list _ | .record _ => isFalse (by simp)
  | .boolean x, b => match b with
    | .boolean y => decidable_of_iff (x = y) (by simp)
    | .null | .number _ | .text _ | .list _ | .record _ => isFalse (by simp)
  | .number x, b => match b with
    | .number y => decidable_of_iff (x = y) (by simp)
    | .null | .boolean _ | .text _ | .list _ | .record _ => isFalse (by simp)
  | .text x, b => match b with
    | .text y => decidable_of_iff (x = y) (by simp)
    | .null | .boolean _ | .number _ | .list _ | .record _ => isFalse (by simp)
  | .list xs, b => match b with
    | .list ys => match decEqItems xs ys with
      | isTrue h => isTrue (by rw [h])
      | isFalse h => isFalse (by simpa using h)
    | .null | .boolean _ | .number _ | .text _ | .record _ => isFalse (by simp)
  | .record xs, b => match b with
    | .record ys => match decEqFields xs ys with
      | isTrue h => isTrue (by rw [h])
      | isFalse h => isFalse (by simpa using h)
    | .null | .boolean _ | .number _ | .text _ | .list _ => isFalse (by simp)

/-- Equality of lists of trees is decidable. -/
def decEqItems : (a b : List Tree) → Decidable (a = b)
  | [], b => match b with
    | [] => isTrue rfl
    | _ :: _ => isFalse (by simp)
  | x :: xs, b => match b with
    | [] => isFalse (by simp)
    | y :: ys => match decEq x y, decEqItems xs ys with
      | isTrue h, isTrue h' => isTrue (by rw [h, h'])
      | isFalse h, _ => isFalse (by simp [h])
      | _, isFalse h => isFalse (by simp [h])

/-- Equality of lists of fields is decidable. -/
def decEqFields : (a b : List (String × Tree)) → Decidable (a = b)
  | [], b => match b with
    | [] => isTrue rfl
    | _ :: _ => isFalse (by simp)
  | (k, x) :: xs, b => match b with
    | [] => isFalse (by simp)
    | (l, y) :: ys =>
      if hk : k = l then
        match decEq x y, decEqFields xs ys with
        | isTrue h, isTrue h' => isTrue (by rw [hk, h, h'])
        | isFalse h, _ => isFalse (by simp [h])
        | _, isFalse h => isFalse (by simp [h])
      else isFalse (by simp [hk])

end

instance : DecidableEq Tree := decEq

/-- Gives a key its value among fields in the order of their keys. -/
def insertField (key : String) (value : Tree) : List (String × Tree) → List (String × Tree)
  | [] => [(key, value)]
  | (k, v) :: rest =>
    if k = key then (key, value) :: rest
    else if key < k then (key, value) :: (k, v) :: rest
    else (k, v) :: insertField key value rest

/-- The record that fields given in any order make; a key given again takes its last value. -/
def ofFields (fields : List (String × Tree)) : Tree :=
  .record (fields.foldl (fun acc e => insertField e.1 e.2 acc) [])

/-- The value of a field of a record. -/
def field? : Tree → String → Option Tree
  | .record fields, key => fields.lookup key
  | _, _ => none

/-- The items of a list; anything else has none. -/
def items : Tree → List Tree
  | .list items => items
  | _ => []

theorem lookup_insertField (key k : String) (value : Tree) (fields : List (String × Tree)) :
    (insertField key value fields).lookup k = if k = key then some value else fields.lookup k := by
  induction fields with
  | nil =>
    by_cases h : k = key
    · simp [insertField, h]
    · have hb : (k == key) = false := by simp [h]
      simp [insertField, List.lookup_cons, h, hb]
  | cons e rest ih =>
    obtain ⟨k', v'⟩ := e
    simp only [insertField]
    split
    · next hk =>
      subst hk
      by_cases h : k = k'
      · simp [h]
      · have hb : (k == k') = false := by simp [h]
        simp [List.lookup_cons, h, hb]
    · next hk =>
      split
      · by_cases h : k = key
        · simp [h]
        · have hb : (k == key) = false := by simp [h]
          simp [List.lookup_cons, h, hb]
      · by_cases h : k = k'
        · subst h
          simp [hk]
        · have hb : (k == k') = false := by simp [h]
          simp [List.lookup_cons, hb, ih]

end Tree

end SheetFill
