import SorobanDevkit.Library.FileTree

/-!
# Hash maps that are collected

A map to which entries are added one after the other: a later entry of a key replaces an earlier
one. A list of entries with distinct keys is collected as it is.

## Main results

* `UnorderedMap.entries_collect` — the entries with distinct keys.
-/

namespace UnorderedMap

variable {κ α : Type} [DecidableEq κ]

/-- The map without entries. -/
def empty : UnorderedMap κ α := ⟨[], List.nodup_nil⟩

/-- The map of a list of entries. -/
def collect (l : List (κ × α)) : UnorderedMap κ α := l.foldl (fun m e => m.insert e.1 e.2) empty

/-- A new key is added behind the others. -/
theorem entries_insert_of_notMem {m : UnorderedMap κ α} {k : κ} (h : k ∉ m.keys) (a : α) :
    (m.insert k a).entries = m.entries ++ [(k, a)] := by
  have hkeep : m.entries.filter (fun e => e.1 ≠ k) = m.entries := by
    refine List.filter_eq_self.mpr fun e he => decide_eq_true ?_
    rintro rfl
    exact h (List.mem_map_of_mem he)
  have hinsert : (m.insert k a).entries = m.entries.filter (fun e => e.1 ≠ k) ++ [(k, a)] := rfl
  rw [hinsert, hkeep]

theorem entries_foldl_insert (m : UnorderedMap κ α) {l : List (κ × α)}
    (h : ((m.entries ++ l).map Prod.fst).Nodup) :
    (l.foldl (fun m e => m.insert e.1 e.2) m).entries = m.entries ++ l := by
  induction l generalizing m with
  | nil => exact (List.append_nil _).symm
  | cons e l ih =>
    have hkey : e.1 ∉ m.keys := by
      rw [List.map_append, List.map_cons] at h
      exact fun hmem => (List.nodup_append.mp h).2.2 e.1 hmem e.1 List.mem_cons_self rfl
    have hinsert : (m.insert e.1 e.2).entries = m.entries ++ [e] :=
      entries_insert_of_notMem hkey e.2
    rw [List.foldl_cons, ih _ (by rw [hinsert, List.append_assoc]; exact h), hinsert,
      List.append_assoc]
    rfl

/-- Entries with distinct keys are collected as they are. -/
theorem entries_collect {l : List (κ × α)} (h : (l.map Prod.fst).Nodup) : (collect l).entries = l :=
  entries_foldl_insert empty h

end UnorderedMap
