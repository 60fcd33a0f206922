import Mathlib.Data.List.Basic
import Mathlib.Data.List.Induction
import Mathlib.Data.List.Nodup

/-!
# First occurrences

The members of a list in the order in which they first occur, each of them once, as `List.eraseDups`
computes them.

## Main results

* `List.eraseDups_concat` — what a loop does that has seen the list so far.
* `List.nodup_eraseDups`, `List.eraseDups_eq_self` — a list without repetitions is left as it is.
* `List.eraseDups_map` — an injection keeps the first occurrences.
-/

namespace List

variable {α β : Type} [DecidableEq α] [DecidableEq β]

/-- A new member is put at the end, and one that has occurred is skipped. -/
theorem eraseDups_concat (l : List α) (a : α) :
    (l ++ [a]).eraseDups = if a ∈ l then l.eraseDups else l.eraseDups ++ [a] := by
  rw [eraseDups_append]
  split
  · next h =>
    have hremove : [a].removeAll l = [] := by simp [removeAll, h]
    rw [hremove, eraseDups_nil, append_nil]
  · next h =>
    have hremove : [a].removeAll l = [a] := by simp [removeAll, h]
    rw [hremove, eraseDups_cons, filter_nil, eraseDups_nil]

/-- No member occurs twice. -/
theorem nodup_eraseDups (l : List α) : l.eraseDups.Nodup := by
  induction l using reverseRec with
  | nil => exact nodup_nil
  | append_singleton l a ih =>
    rw [eraseDups_concat]
    split
    · exact ih
    · next h =>
      rw [← concat_eq_append]
      exact ih.concat (by simpa using h)

/-- A list without repetitions is left as it is. -/
theorem eraseDups_eq_self {l : List α} (h : l.Nodup) : l.eraseDups = l := by
  induction l using reverseRec with
  | nil => rfl
  | append_singleton l a ih =>
    rw [← concat_eq_append, nodup_concat] at h
    rw [eraseDups_concat, if_neg h.1, ih h.2]

/-- An injection keeps the first occurrences. -/
theorem eraseDups_map {f : α → β} (hf : Function.Injective f) (l : List α) :
    (l.map f).eraseDups = l.eraseDups.map f := by
  induction l using reverseRec with
  | nil => rfl
  | append_singleton l a ih =>
    rw [map_append, map_singleton, eraseDups_concat, eraseDups_concat, ih]
    simp only [mem_map_of_injective hf]
    split
    · rfl
    · rw [map_append, map_singleton]

end List
