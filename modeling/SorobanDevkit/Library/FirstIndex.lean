import Mathlib.Data.List.Nodup
import Mathlib.Data.List.Perm.Basic
import Std.Data.ExtTreeMap

/-!
# Indexing rows by their keys

An ordered map of the rows of a list, in which a key has the value of its first row.

## Main results

* `FirstIndex.getElem?_index` — what a key has is what its first row gives.
* `FirstIndex.mem_toList_index`, `FirstIndex.nodup_keys` — the entries, one for each key.
* `FirstIndex.find?_filter`, `FirstIndex.find?_perm` — which rows matter for the first row of a key.
-/

namespace FirstIndex

section

variable {α β κ : Type} [Ord κ] [Std.TransOrd κ] [Std.LawfulEqOrd κ]

/-- The map in which a key has the value of its first row. -/
def index (key : α → κ) (value : α → β) (rows : List α) : Std.ExtTreeMap κ β :=
  rows.foldl (fun m r => m.insertIfNew (key r) (value r)) ∅

theorem getElem?_foldl_insertIfNew [DecidableEq κ] (key : α → κ) (value : α → β) (rows : List α)
    (m : Std.ExtTreeMap κ β) (k : κ) :
    (rows.foldl (fun m r => m.insertIfNew (key r) (value r)) m)[k]? =
      m[k]?.or ((rows.find? fun r => key r = k).map value) := by
  induction rows generalizing m with
  | nil => simp
  | cons r rows ih =>
    rw [List.foldl_cons, ih, Std.ExtTreeMap.getElem?_insertIfNew, List.find?_cons]
    by_cases hkey : key r = k
    · subst hkey
      cases hm : m[key r]? with
      | none => simp [← Std.ExtTreeMap.contains_iff_mem,
        Std.ExtTreeMap.contains_eq_isSome_getElem?, hm]
      | some v => simp [← Std.ExtTreeMap.contains_iff_mem,
        Std.ExtTreeMap.contains_eq_isSome_getElem?, hm]
    · simp [hkey]

/-- What a key has is what its first row gives. -/
theorem getElem?_index [DecidableEq κ] (key : α → κ) (value : α → β) (rows : List α) (k : κ) :
    (index key value rows)[k]? = (rows.find? fun r => key r = k).map value := by
  rw [index, getElem?_foldl_insertIfNew, Std.ExtTreeMap.getElem?_empty, Option.none_or]

theorem mem_toList_index [DecidableEq κ] {key : α → κ} {value : α → β} {rows : List α}
    {k : κ} {b : β} :
    (k, b) ∈ (index key value rows).toList ↔
      (rows.find? fun r => key r = k).map value = some b := by
  rw [Std.ExtTreeMap.mem_toList_iff_getElem?_eq_some, getElem?_index]

/-- A map has one entry for each key. -/
theorem nodup_keys (m : Std.ExtTreeMap κ β) : (m.toList.map Prod.fst).Nodup := by
  rw [List.Nodup, List.pairwise_map]
  exact Std.ExtTreeMap.distinct_keys_toList.imp fun h heq => h (Std.compare_eq_iff_eq.mpr heq)

end

/-! ### First rows -/

section

variable {α κ : Type} [DecidableEq κ] {f : α → κ} {as bs : List α} {k : κ}

/-- A key has a first row if it is the key of a row. -/
theorem exists_find?_iff : (∃ a, as.find? (fun a => f a = k) = some a) ↔ k ∈ as.map f := by
  rw [← Option.isSome_iff_exists, List.find?_isSome, List.mem_map]
  simp

/-- The first row of a key is the same without rows of other keys. -/
theorem find?_filter {p : κ → Bool} (hp : p k = true) :
    (as.filter fun a => p (f a)).find? (fun a => f a = k) = as.find? fun a => f a = k := by
  rw [List.find?_filter]
  refine congrArg (fun q => as.find? q) (funext fun a => ?_)
  by_cases hkey : f a = k
  · simp [hkey, hp]
  · simp [hkey]

/-- Where keys are unique, the first row of a key is the row with it. -/
theorem find?_eq_some_iff (hnodup : (as.map f).Nodup) {a : α} :
    as.find? (fun a => f a = k) = some a ↔ a ∈ as ∧ f a = k := by
  constructor
  · intro h
    exact ⟨List.mem_of_find?_eq_some h, by simpa using List.find?_some h⟩
  · rintro ⟨hmem, hkey⟩
    obtain ⟨b, hb⟩ := exists_find?_iff.mpr (List.mem_map.mpr ⟨a, hmem, hkey⟩)
    have hkey' : f b = k := by simpa using List.find?_some hb
    rw [hb, List.inj_on_of_nodup_map hnodup (List.mem_of_find?_eq_some hb) hmem
      (hkey'.trans hkey.symm)]

/-- Where keys are unique, the order of the rows makes no difference. -/
theorem find?_perm (hnodup : (as.map f).Nodup) (hperm : as.Perm bs) :
    as.find? (fun a => f a = k) = bs.find? fun a => f a = k := by
  refine Option.ext fun a => ?_
  rw [find?_eq_some_iff hnodup, find?_eq_some_iff ((hperm.map f).nodup_iff.mp hnodup),
    hperm.mem_iff]

end

end FirstIndex
