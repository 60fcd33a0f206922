import Mathlib.Data.List.Basic
import Mathlib.Logic.Function.Basic
import Std.Data.ExtTreeMap

/-!
# Last writes

A log of writes, and a table that keeps the last write of each key. When writes have two labels, the
last write of one label is looked for under the other.

## Main results

* `LastWrite.foldl_write`, `LastWrite.getElem?_foldl_insert` — the table after a log.
* `LastWrite.lastOf_congr_iff` — when the last writes by two labels are the same.
* `LastWrite.foldl_field` — a field that at most one element of a log sets.
-/

namespace LastWrite

variable {ε κ : Type}

/-- The last element of a log with a property. -/
def lastOf (log : List ε) (p : ε → Prop) [DecidablePred p] : Option ε :=
  (log.filter fun e => p e).getLast?

section

variable {p : ε → Prop} [DecidablePred p] {log : List ε} {e : ε}

@[simp] theorem lastOf_nil : lastOf [] p = none := rfl

theorem lastOf_append (log log' : List ε) :
    lastOf (log ++ log') p = (lastOf log' p).or (lastOf log p) := by
  rw [lastOf, List.filter_append, List.getLast?_append, lastOf, lastOf]

theorem lastOf_singleton (e : ε) : lastOf [e] p = if p e then some e else none := by
  by_cases h : p e <;> simp [lastOf, h]

theorem lastOf_eq_some (h : lastOf log p = some e) : e ∈ log ∧ p e := by
  have hmem := List.mem_of_getLast? h
  simpa using List.mem_filter.mp hmem

theorem exists_lastOf (he : e ∈ log) (hp : p e) : ∃ e', lastOf log p = some e' := by
  have hmem : e ∈ log.filter fun e => p e := List.mem_filter.mpr ⟨he, by simpa using hp⟩
  exact ⟨_, List.getLast?_eq_some_getLast (List.ne_nil_of_mem hmem)⟩

theorem lastOf_congr {q : ε → Prop} [DecidablePred q] (h : ∀ e ∈ log, p e ↔ q e) :
    lastOf log p = lastOf log q := by
  rw [lastOf, lastOf, List.filter_congr fun e he => decide_eq_decide.mpr (h e he)]

end

variable [DecidableEq κ]

/-- A write to the table that keeps the last write of each key. -/
def write (key : ε → κ) (table : κ → Option ε) (e : ε) : κ → Option ε :=
  Function.update table (key e) (some e)

/-- **The table after a log** keeps the last write of each key, and what was there where there is
none. -/
theorem foldl_write (key : ε → κ) (log : List ε) (table : κ → Option ε) (k : κ) :
    log.foldl (write key) table k = (lastOf log fun e => key e = k).or (table k) := by
  induction log generalizing table with
  | nil => rfl
  | cons e log ih =>
    rw [List.foldl_cons, ih, ← List.singleton_append, lastOf_append, Option.or_assoc,
      lastOf_singleton, write, Function.update_apply]
    by_cases hk : key e = k
    · rw [if_pos hk, if_pos hk.symm]
      rfl
    · rw [if_neg hk, if_neg (Ne.symm hk)]
      rfl

/-- **The last writes by two labels are the same**, for the pairs of labels in a list and each slot,
exactly if each write has both labels of a pair or none. -/
theorem lastOf_congr_iff {π α : Type} [DecidableEq π] [DecidableEq α] (f : ε → κ) (g : ε → π)
    (slot : ε → α) {log : List ε} {labels : List (κ × π)}
    (hlabels : ∀ e ∈ log, (f e, g e) ∈ labels) :
    (∀ l ∈ labels, ∀ x, lastOf log (fun e => f e = l.1 ∧ slot e = x) =
        lastOf log fun e => g e = l.2 ∧ slot e = x) ↔
      ∀ e ∈ log, ∀ l ∈ labels, f e = l.1 ↔ g e = l.2 := by
  constructor
  · intro h e he l hl
    constructor
    · intro hf
      obtain ⟨e', hlast⟩ := exists_lastOf (p := fun e' => f e' = f e ∧ slot e' = slot e)
        he ⟨rfl, rfl⟩
      have hown := (lastOf_eq_some ((h _ (hlabels e he) (slot e)).symm.trans hlast)).2.1
      have hother := lastOf_eq_some (((h l hl (slot e)).symm.trans (hf ▸ hlast)))
      exact hown.symm.trans hother.2.1
    · intro hg
      obtain ⟨e', hlast⟩ := exists_lastOf (p := fun e' => g e' = g e ∧ slot e' = slot e)
        he ⟨rfl, rfl⟩
      have hown := (lastOf_eq_some ((h _ (hlabels e he) (slot e)).trans hlast)).2.1
      have hother := lastOf_eq_some ((h l hl (slot e)).trans (hg ▸ hlast))
      exact hown.symm.trans hother.2.1
  · intro h l hl x
    exact lastOf_congr fun e he => and_congr_left fun _ => h e he l hl

/-- **The sorted map after a log** has the last value of each key, and what was there where there is
none. -/
theorem getElem?_foldl_insert {β : Type} [Ord κ] [Std.TransOrd κ] [Std.LawfulEqOrd κ]
    (key : ε → κ) (value : ε → β) (log : List ε) (m : Std.ExtTreeMap κ β) (k : κ) :
    (log.foldl (fun m e => m.insert (key e) (value e)) m)[k]? =
      ((lastOf log fun e => key e = k).map value).or m[k]? := by
  induction log generalizing m with
  | nil => rfl
  | cons e log ih =>
    rw [List.foldl_cons, ih, ← List.singleton_append, lastOf_append, Option.map_or, Option.or_assoc,
      lastOf_singleton, Std.ExtTreeMap.getElem?_insert]
    by_cases hk : key e = k
    · rw [if_pos hk, if_pos (Std.LawfulEqOrd.compare_eq_iff_eq.mpr hk)]
      rfl
    · rw [if_neg hk, if_neg (mt Std.LawfulEqOrd.compare_eq_iff_eq.mp hk)]
      rfl

omit [DecidableEq κ] in
/-- **A field that at most one element of a log sets.** -/
theorem foldl_field {σ α : Type} {f : σ → ε → σ} {g : σ → α} {p : ε → Bool} {v : ε → α}
    {log : List ε} (hf : ∀ e ∈ log, ∀ s, g (f s e) = if p e then v e else g s)
    (hone : log.Pairwise fun e e' => ¬ (p e = true ∧ p e' = true)) (s : σ) :
    g (log.foldl f s) = ((log.find? p).map v).getD (g s) := by
  induction log generalizing s with
  | nil => rfl
  | cons e log ih =>
    obtain ⟨he, hone⟩ := List.pairwise_cons.mp hone
    obtain ⟨hfe, hf⟩ := List.forall_mem_cons.mp hf
    rw [List.foldl_cons, ih hf hone, hfe]
    by_cases hp : p e = true
    · have hnone : log.find? p = none :=
        List.find?_eq_none.mpr fun e' he' hp' => he e' he' ⟨hp, hp'⟩
      rw [List.find?_cons_of_pos hp, hnone, if_pos hp]
      rfl
    · rw [List.find?_cons_of_neg hp, if_neg hp]

end LastWrite
