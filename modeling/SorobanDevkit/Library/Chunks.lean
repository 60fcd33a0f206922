import Mathlib.Data.List.Basic

/-!
# Chunks

A list is cut into chunks of one length, the last of which may be shorter.

## Main results

* `Chunks.flatten_chunks` — the chunks in sequence are the list.
* `Chunks.length_le_of_mem_chunks` — no chunk is longer than the length.
-/

namespace Chunks

variable {α : Type}

/-- The first chunks of a list, as many as there is fuel for. -/
def chunksAux (n : ℕ) : (fuel : ℕ) → List α → List (List α)
  | 0, _ => []
  | _, [] => []
  | fuel + 1, a :: l => (a :: l).take n :: chunksAux n fuel ((a :: l).drop n)

/-- The chunks of a list. There are none of length zero. -/
def chunks (n : ℕ) (l : List α) : List (List α) := chunksAux n l.length l

theorem length_le_of_mem_chunksAux {n fuel : ℕ} {l chunk : List α}
    (h : chunk ∈ chunksAux n fuel l) : chunk.length ≤ n := by
  induction fuel generalizing l with
  | zero => cases h
  | succ fuel ih =>
    cases l with
    | nil => cases h
    | cons a l =>
      rw [chunksAux] at h
      rcases List.mem_cons.mp h with rfl | hrest
      · rw [List.length_take]
        exact Nat.min_le_left _ _
      · exact ih hrest

theorem length_le_of_mem_chunks {n : ℕ} {l chunk : List α} (h : chunk ∈ chunks n l) :
    chunk.length ≤ n :=
  length_le_of_mem_chunksAux h

theorem flatten_chunksAux {n fuel : ℕ} (hn : 0 < n) {l : List α} (h : l.length ≤ fuel) :
    (chunksAux n fuel l).flatten = l := by
  induction fuel generalizing l with
  | zero =>
    rw [List.length_eq_zero_iff.mp (Nat.le_zero.mp h)]
    rfl
  | succ fuel ih =>
    cases l with
    | nil => rfl
    | cons a l =>
      have hdrop : ((a :: l).drop n).length ≤ fuel := by
        rw [List.length_drop]
        omega
      rw [chunksAux, List.flatten_cons, ih hdrop, List.take_append_drop]

/-- **The chunks in sequence are the list.** -/
theorem flatten_chunks {n : ℕ} (hn : 0 < n) (l : List α) : (chunks n l).flatten = l :=
  flatten_chunksAux hn (Nat.le_refl _)

end Chunks
