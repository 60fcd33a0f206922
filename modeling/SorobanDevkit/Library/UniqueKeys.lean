import SorobanDevkit.Library.Fallible
import Std.Data.ExtTreeMap

/-!
# Maps that are collected without overwriting

The rows of a list are put into an ordered map. A row is refused if it has no key, if its key is in
the map already, or if it has no value.

## Main results

* `UniqueKeys.collect_eq_ok_iff` — the rows that are collected have different keys, and all of them
  are in the map.
-/

namespace UniqueKeys

open Except

variable {α δ ε κ β : Type} [Ord κ] [Std.TransOrd κ]

section

variable (item : α → Except ε (κ × δ)) (value : δ → Except ε β) (duplicate : ε)

/-- The map with a row, whose value is looked at only if its key is new. -/
def add (m : Std.ExtTreeMap κ β) (a : α) : Except ε (Std.ExtTreeMap κ β) := do
  let (k, d) ← item a
  ensure (k ∉ m) duplicate
  let v ← value d
  return m.insert k v

/-- The map of the rows of a list. -/
def collect (rows : List α) : Except ε (Std.ExtTreeMap κ β) :=
  rows.foldlM (add item value duplicate) ∅

/-- A row has an entry. -/
def HasEntry (a : α) (e : κ × β) : Prop := ∃ d, item a = .ok (e.1, d) ∧ value d = .ok e.2

end

/-- The entries of a map are those of a list. -/
def Holds (m : Std.ExtTreeMap κ β) (entries : List (κ × β)) : Prop :=
  ∀ k v, m[k]? = some v ↔ (k, v) ∈ entries

variable {item : α → Except ε (κ × δ)} {value : δ → Except ε β} {duplicate : ε}
  {m m' : Std.ExtTreeMap κ β} {entries : List (κ × β)} {k : κ} {v : β}

theorem Holds.mem_iff (h : Holds m entries) : k ∈ m ↔ k ∈ entries.map Prod.fst := by
  rw [Std.ExtTreeMap.mem_iff_isSome_getElem?, Option.isSome_iff_exists, List.mem_map]
  constructor
  · rintro ⟨v, hv⟩
    exact ⟨(k, v), (h k v).mp hv, rfl⟩
  · rintro ⟨⟨k', v⟩, hmem, rfl⟩
    exact ⟨v, (h k' v).mpr hmem⟩

theorem add_eq_ok_iff {a : α} : add item value duplicate m a = .ok m' ↔
    ∃ e, HasEntry item value a e ∧ e.1 ∉ m ∧ m' = m.insert e.1 e.2 := by
  simp only [add, bind_eq_ok_iff, ensure_eq_ok_iff, HasEntry]
  constructor
  · rintro ⟨⟨k, d⟩, hitem, -, hnew, v, hvalue, heq⟩
    cases heq
    exact ⟨(k, v), ⟨d, hitem, hvalue⟩, hnew, rfl⟩
  · rintro ⟨⟨k, v⟩, ⟨d, hitem, hvalue⟩, hnew, rfl⟩
    exact ⟨(k, d), hitem, (), hnew, v, hvalue, rfl⟩

theorem holds_empty : Holds (∅ : Std.ExtTreeMap κ β) [] := by
  intro k v
  rw [Std.ExtTreeMap.getElem?_empty]
  exact iff_of_false nofun List.not_mem_nil

variable [Std.LawfulEqOrd κ]

theorem Holds.mem_toList_iff (h : Holds m entries) {e : κ × β} : e ∈ m.toList ↔ e ∈ entries :=
  Std.ExtTreeMap.mem_toList_iff_getElem?_eq_some.trans (h e.1 e.2)

/-- An entry with a new key. -/
theorem Holds.insert (h : Holds m entries) (hnew : k ∉ m) (v : β) :
    Holds (m.insert k v) (entries ++ [(k, v)]) := by
  intro k' v'
  rw [Std.ExtTreeMap.getElem?_insert, List.mem_append, List.mem_singleton, Prod.mk.injEq]
  by_cases hk : k = k'
  · subst hk
    have hnone : (k, v') ∉ entries := by
      rw [← h k v', Std.ExtTreeMap.getElem?_eq_none hnew]
      exact nofun
    rw [if_pos Std.ReflCmp.compare_self, Option.some_inj]
    simp only [hnone, false_or, true_and, eq_comm]
  · rw [if_neg (mt Std.LawfulEqOrd.compare_eq_iff_eq.mp hk), h k' v']
    simp only [Ne.symm hk, false_and, or_false]

theorem foldlM_add {rows : List α} (hm : Holds m entries) :
    rows.foldlM (add item value duplicate) m = .ok m' ↔
      ∃ added, List.Forall₂ (HasEntry item value) rows added ∧
        (added.map Prod.fst).Nodup ∧ (∀ e ∈ added, e.1 ∉ m) ∧
        m' = added.foldl (fun m e => m.insert e.1 e.2) m := by
  induction rows generalizing m entries with
  | nil =>
    constructor
    · intro h
      cases h
      exact ⟨[], .nil, List.nodup_nil, nofun, rfl⟩
    · rintro ⟨added, hadded, -, -, rfl⟩
      cases hadded
      rfl
  | cons a rows ih =>
    rw [List.foldlM_cons, bind_eq_ok_iff]
    constructor
    · rintro ⟨m₁, h₁, h⟩
      obtain ⟨e, he, hnew, rfl⟩ := add_eq_ok_iff.mp h₁
      obtain ⟨added, hadded, hnodup, hfresh, rfl⟩ := (ih (hm.insert hnew e.2)).mp h
      refine ⟨e :: added, .cons he hadded, ?_, List.forall_mem_cons.mpr ⟨hnew, fun e' he' => ?_⟩,
        rfl⟩
      · rw [List.map_cons, List.nodup_cons, List.mem_map]
        refine ⟨?_, hnodup⟩
        rintro ⟨e', he', hkey⟩
        exact hfresh e' he' (hkey ▸ Std.ExtTreeMap.mem_insert_self)
      · exact fun hmem => hfresh e' he' (Std.ExtTreeMap.mem_insert.mpr (.inr hmem))
    · rintro ⟨added, hadded, hnodup, hfresh, rfl⟩
      obtain ⟨e, added, he, hrest, rfl⟩ := List.forall₂_cons_left_iff.mp hadded
      rw [List.map_cons, List.nodup_cons] at hnodup
      obtain ⟨hnew, hfresh⟩ := List.forall_mem_cons.mp hfresh
      refine ⟨m.insert e.1 e.2, add_eq_ok_iff.mpr ⟨e, he, hnew, rfl⟩, ?_⟩
      refine (ih (hm.insert hnew e.2)).mpr ⟨added, hrest, hnodup.2, fun e' he' hmem => ?_, rfl⟩
      rcases Std.ExtTreeMap.mem_insert.mp hmem with heq | hmem
      · rw [Std.LawfulEqOrd.compare_eq_iff_eq] at heq
        exact hnodup.1 (heq ▸ List.mem_map_of_mem he')
      · exact hfresh e' he' hmem

theorem holds_foldl {added : List (κ × β)} (hm : Holds m entries)
    (hnodup : (added.map Prod.fst).Nodup) (hfresh : ∀ e ∈ added, e.1 ∉ m) :
    Holds (added.foldl (fun m e => m.insert e.1 e.2) m) (entries ++ added) := by
  induction added generalizing m entries with
  | nil => rwa [List.append_nil]
  | cons e added ih =>
    rw [List.map_cons, List.nodup_cons] at hnodup
    obtain ⟨hnew, hfresh⟩ := List.forall_mem_cons.mp hfresh
    rw [List.foldl_cons, ← List.singleton_append, ← List.append_assoc]
    refine ih (hm.insert hnew e.2) hnodup.2 fun e' he' hmem => ?_
    rcases Std.ExtTreeMap.mem_insert.mp hmem with heq | hmem
    · rw [Std.LawfulEqOrd.compare_eq_iff_eq] at heq
      exact hnodup.1 (heq ▸ List.mem_map_of_mem he')
    · exact hfresh e' he' hmem

/-- There is a map that holds entries with different keys. -/
theorem exists_holds {entries : List (κ × β)} (hnodup : (entries.map Prod.fst).Nodup) :
    ∃ m : Std.ExtTreeMap κ β, Holds m entries :=
  ⟨_, holds_foldl holds_empty hnodup fun _ _ => Std.ExtTreeMap.not_mem_empty⟩

/-- **The map of the rows of a list.** Rows are collected if each has an entry and their keys are
different; the map holds their entries. -/
theorem collect_eq_ok_iff {rows : List α} : collect item value duplicate rows = .ok m ↔
    ∃ entries, List.Forall₂ (HasEntry item value) rows entries ∧
      (entries.map Prod.fst).Nodup ∧ Holds m entries := by
  rw [collect, foldlM_add holds_empty]
  constructor
  · rintro ⟨added, hadded, hnodup, hfresh, rfl⟩
    exact ⟨added, hadded, hnodup, holds_foldl holds_empty hnodup hfresh⟩
  · rintro ⟨entries, hentries, hnodup, hm⟩
    have hfresh : ∀ e ∈ entries, e.1 ∉ (∅ : Std.ExtTreeMap κ β) :=
      fun _ _ => Std.ExtTreeMap.not_mem_empty
    refine ⟨entries, hentries, hnodup, hfresh, Std.ExtTreeMap.ext_getElem? fun k => ?_⟩
    ext v
    exact (hm k v).trans (holds_foldl holds_empty hnodup hfresh k v).symm

end UniqueKeys
