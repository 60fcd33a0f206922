import Mathlib.Data.List.Induction
import Mathlib.Data.List.Infix

/-!
# Runs

## Main results

* `Runs.forall_prefix_iff` — the runs in which a property holds throughout, given an invariant that
  a step keeps when it meets a condition and that fails, and the property with it, when it does not.
* `Runs.forall_step_iff` — the runs whose steps keep what they should.
-/

namespace Runs

universe u v

variable {σ : Type u} {ω : Type v} (step : σ → ω → σ)

/-- The state after a list of steps. -/
def run (s : σ) (steps : List ω) : σ := steps.foldl step s

variable {step} {s : σ} {Good Holds : σ → Prop} {Meets : σ → ω → Prop}

/-- **A property holds throughout a run exactly if each step meets the condition in the state
before.** -/
theorem forall_prefix_iff (hs : Good s) (hholds : ∀ s, Good s → Holds s)
    (hstep : ∀ s a, Good s → Meets s a → Good (step s a))
    (hbreak : ∀ s a, Good s → ¬ Meets s a → ¬ Holds (step s a)) (steps : List ω) :
    (∀ before, before <+: steps → Holds (run step s before)) ↔
      ∀ before a, before ++ [a] <+: steps → Meets (run step s before) a := by
  induction steps generalizing s with
  | nil =>
    refine iff_of_true (fun before hbefore => ?_) fun before a hbefore => ?_
    · rw [List.prefix_nil.mp hbefore]
      exact hholds s hs
    · exact absurd (List.prefix_nil.mp hbefore) (by simp)
  | cons b steps ih =>
    constructor
    · intro h
      have hmeets : Meets s b := by
        by_contra hmeets
        exact hbreak s b hs hmeets (h [b] ⟨steps, rfl⟩)
      have hrest := (ih (hstep s b hs hmeets)).mp fun before hbefore =>
        h (b :: before) (List.prefix_cons_inj b |>.mpr hbefore)
      intro before a hbefore
      cases before with
      | nil =>
        obtain ⟨rfl, -⟩ := List.cons_prefix_cons.mp hbefore
        exact hmeets
      | cons c before =>
        obtain ⟨rfl, htail⟩ := List.cons_prefix_cons.mp hbefore
        exact hrest before a htail
    · intro h before hbefore
      cases before with
      | nil => exact hholds s hs
      | cons c before =>
        obtain ⟨rfl, htail⟩ := List.cons_prefix_cons.mp hbefore
        have hmeets : Meets s c := h [] c ⟨steps, rfl⟩
        exact (ih (hstep s c hs hmeets)).mpr
          (fun before a hbefore => h (c :: before) a (List.prefix_cons_inj c |>.mpr hbefore))
          before htail

theorem run_append_singleton (steps : List ω) (a : ω) :
    run step s (steps ++ [a]) = step (run step s steps) a := by
  rw [run, List.foldl_append]
  rfl

/-- **Each step of a run keeps what it should, in good states, exactly if each step meets the
condition**, given that this is so for one step and that such a step leads to a good state. -/
theorem forall_step_iff {Keeps : σ → ω → σ → Prop} (hs : Good s)
    (hstep : ∀ s a, Good s → Meets s a → Good (step s a))
    (hkeeps : ∀ s a, Keeps s a (step s a) ↔ Meets s a) (steps : List ω) :
    ((∀ before a, before ++ [a] <+: steps →
        Keeps (run step s before) a (run step s (before ++ [a]))) ∧
      ∀ before, before <+: steps → Good (run step s before)) ↔
      ∀ before a, before ++ [a] <+: steps → Meets (run step s before) a := by
  simp only [run_append_singleton, hkeeps]
  refine and_iff_left_of_imp fun hmeets before => ?_
  induction before using List.reverseRecOn with
  | nil => exact fun _ => hs
  | append_singleton before a ih =>
    intro hbefore
    rw [run_append_singleton]
    exact hstep _ a (ih ((List.prefix_append before [a]).trans hbefore)) (hmeets before a hbefore)

end Runs
