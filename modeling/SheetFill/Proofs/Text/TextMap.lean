import Mathlib.Data.List.Basic
import SheetFill.Text.TextMap

/-!
# Maps from entries with new keys

As long as every key is new, a map keeps its entries as they come. A map is therefore made of its own entries.
-/

namespace SheetFill

namespace TextMap

/-- A new key comes last. -/
theorem put_of_not_mem {key value : String} {entries : List (String × String)}
    (h : key ∉ entries.map Prod.fst) : put key value entries = entries ++ [(key, value)] := by
  induction entries with
  | nil => rfl
  | cons e rest ih =>
    obtain ⟨k, v⟩ := e
    obtain ⟨hkey, hrest⟩ := not_or.mp (mt List.mem_cons.mpr h)
    rw [put, if_neg (Ne.symm hkey), ih hrest, List.cons_append]

/-- Entries with new keys come behind those that are there, in order. -/
theorem entries_insertAll {m : TextMap} {entries : List (String × String)}
    (h : ((m.entries ++ entries).map Prod.fst).Nodup) : (m.insertAll entries).entries = m.entries ++ entries := by
  induction entries generalizing m with
  | nil => exact (List.append_nil _).symm
  | cons e rest ih =>
    have hnew : e.1 ∉ m.entries.map Prod.fst := by
      rw [List.map_append, List.map_cons] at h
      exact fun hmem => (List.nodup_append.mp h).2.2 _ hmem _ List.mem_cons_self rfl
    have hput : (m.insert e.1 e.2).entries = m.entries ++ [e] := put_of_not_mem hnew
    change ((m.insert e.1 e.2).insertAll rest).entries = _
    rw [ih (by rwa [hput, List.append_assoc, List.singleton_append]), hput, List.append_assoc,
      List.singleton_append]

/-- A map is made of its entries. -/
theorem ofList_entries (m : TextMap) : ofList m.entries = m := by
  have hentries : (ofList m.entries).entries = m.entries := entries_insertAll m.nodup
  cases m
  exact TextMap.mk.injEq .. ▸ hentries

end TextMap

end SheetFill
