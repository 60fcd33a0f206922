import Mathlib.Data.List.Range
import Mathlib.Data.Nat.Find

/-!
# Polling

Attempts are made one after the other until one has a verdict. What is done in an attempt is logged.

## Main results

* `Polling.run_eq_some_iff` — with enough fuel the first verdict is found.
* `Polling.exists_run` — there is an outcome if there is a verdict.
-/

namespace Polling

variable {β γ : Type} {verdict : ℕ → Option β} {log : ℕ → List γ} {i n : ℕ} {b : β} {l : List γ}

/-- The first verdict from attempt `i` on, and the log up to it, if there is one in `fuel`
attempts. -/
def run (verdict : ℕ → Option β) (log : ℕ → List γ) : (fuel i : ℕ) → Option (β × List γ)
  | 0, _ => none
  | fuel + 1, i =>
    match verdict i with
    | some b => some (b, log i)
    | none => (run verdict log fuel (i + 1)).map fun (b, l) => (b, log i ++ l)

/-- What is found is the first verdict. -/
theorem exists_of_run_eq_some {fuel : ℕ} (h : run verdict log fuel i = some (b, l)) :
    ∃ n, verdict (i + n) = some b ∧ (∀ j < n, verdict (i + j) = none) ∧
      l = (List.range' i (n + 1)).flatMap log := by
  induction fuel generalizing i l with
  | zero => cases h
  | succ fuel ih =>
    rw [run] at h
    cases hverdict : verdict i with
    | some b' =>
      rw [hverdict] at h
      cases h
      exact ⟨0, hverdict, fun j hj => absurd hj (Nat.not_lt_zero j), by simp⟩
    | none =>
      rw [hverdict] at h
      obtain ⟨⟨b', l'⟩, hrun, hpair⟩ := Option.map_eq_some_iff.mp h
      cases hpair
      obtain ⟨n, hn, hbefore, rfl⟩ := ih hrun
      refine ⟨n + 1, by rwa [Nat.add_right_comm i 1 n] at hn, fun j hj => ?_, ?_⟩
      · cases j with
        | zero => exact hverdict
        | succ j =>
          have hj' := hbefore j (Nat.lt_of_succ_lt_succ hj)
          rwa [Nat.add_right_comm i 1 j] at hj'
      · rw [List.range'_succ (n := n + 1), List.flatMap_cons]

theorem run_eq_some (hn : verdict (i + n) = some b) (hbefore : ∀ j < n, verdict (i + j) = none) :
    run verdict log (n + 1) i = some (b, (List.range' i (n + 1)).flatMap log) := by
  induction n generalizing i with
  | zero =>
    rw [Nat.add_zero] at hn
    rw [run, hn]
    simp
  | succ n ih =>
    have hi : verdict i = none := hbefore 0 (Nat.succ_pos n)
    rw [run, hi, ih (by rwa [Nat.add_right_comm i 1 n]) fun j hj => ?_]
    · rw [List.range'_succ (n := n + 1), List.flatMap_cons]
      rfl
    · rw [Nat.add_right_comm i 1 j]
      exact hbefore (j + 1) (Nat.succ_lt_succ hj)

/-- **With enough fuel the first verdict is found, and it is all that is found.** -/
theorem run_eq_some_iff : (∃ fuel, run verdict log fuel 0 = some (b, l)) ↔
    ∃ n, verdict n = some b ∧ (∀ j < n, verdict j = none) ∧
      l = (List.range (n + 1)).flatMap log := by
  constructor
  · rintro ⟨fuel, h⟩
    obtain ⟨n, hn, hbefore, hl⟩ := exists_of_run_eq_some h
    simp only [Nat.zero_add] at hn hbefore
    exact ⟨n, hn, hbefore, by rw [hl, List.range_eq_range']⟩
  · rintro ⟨n, hn, hbefore, rfl⟩
    refine ⟨n + 1, ?_⟩
    rw [run_eq_some (n := n) (by rwa [Nat.zero_add]) fun j hj => by
      rw [Nat.zero_add, hbefore j hj], List.range_eq_range']

/-- There is an outcome if there is a verdict. -/
theorem exists_run (h : verdict n ≠ none) : ∃ b l fuel, run verdict log fuel 0 = some (b, l) := by
  have hfind : ∃ n, verdict n ≠ none := ⟨n, h⟩
  obtain ⟨b, hb⟩ := Option.ne_none_iff_exists'.mp (Nat.find_spec hfind)
  obtain ⟨fuel, hfuel⟩ := run_eq_some_iff.mpr
    ⟨Nat.find hfind, hb, fun j hj => not_not.mp (Nat.find_min hfind hj), rfl⟩
  exact ⟨b, _, fuel, hfuel⟩

/-- There is only one outcome. -/
theorem run_unique {b' : β} {l' : List γ} (h : ∃ fuel, run verdict log fuel 0 = some (b, l))
    (h' : ∃ fuel, run verdict log fuel 0 = some (b', l')) : b = b' ∧ l = l' := by
  obtain ⟨n, hn, hbefore, rfl⟩ := run_eq_some_iff.mp h
  obtain ⟨m, hm, hbefore', rfl⟩ := run_eq_some_iff.mp h'
  obtain hlt | rfl | hlt := Nat.lt_trichotomy n m
  · rw [hbefore' n hlt] at hn
    cases hn
  · rw [hn] at hm
    cases hm
    exact ⟨rfl, rfl⟩
  · rw [hbefore m hlt] at hm
    cases hm

end Polling
