import Mathlib.Logic.Function.Basic

/-!
# Runs of steps that write one cell each

A store has a cell for each key. A step reads the store and writes the cell of its own key. What a
run of steps leaves in a cell is what the last step with that key writes.

## Main results

* `KeyedRun.append_iff`, `KeyedRun.unique` — runs are put together, and lead to one store.
* `KeyedRun.cell`, `KeyedRun.exists_step_of_atLast` — a cell after a run.
-/

variable {σ κ α : Type} [DecidableEq κ] (key : σ → κ) (Step : σ → (κ → Option α) → α → Prop)

/-- A run of steps, from a store to a store. -/
inductive KeyedRun : List σ → (κ → Option α) → (κ → Option α) → Prop
  | nil {store : κ → Option α} : KeyedRun [] store store
  | cons {s : σ} {steps : List σ} {store store' : κ → Option α} {a : α} (hstep : Step s store a)
      (hrest : KeyedRun steps (Function.update store (key s) (some a)) store') :
      KeyedRun (s :: steps) store store'

/-- A run has a last step with a key, and what holds where that step starts. -/
def AtLast (P : σ → (κ → Option α) → Prop) (steps : List σ) (store : κ → Option α) (k : κ) : Prop :=
  ∃ before s after start, steps = before ++ s :: after ∧ (∀ t ∈ after, key t ≠ k) ∧ key s = k ∧
    KeyedRun key Step before store start ∧ P s start

variable {key Step} in
theorem AtLast.imp {P Q : σ → (κ → Option α) → Prop} {steps : List σ} {store : κ → Option α}
    {k : κ} (h : AtLast key Step P steps store k) (himp : ∀ s start, P s start → Q s start) :
    AtLast key Step Q steps store k := by
  obtain ⟨before, s, after, start, hsplit, hne, hkey, hrun, hP⟩ := h
  exact ⟨before, s, after, start, hsplit, hne, hkey, hrun, himp s start hP⟩

variable {key Step} in
theorem AtLast.exists_mem {P : σ → (κ → Option α) → Prop} {steps : List σ} {store : κ → Option α}
    {k : κ} (h : AtLast key Step P steps store k) : ∃ s ∈ steps, key s = k := by
  obtain ⟨before, s, after, start, rfl, -, hkey, -⟩ := h
  exact ⟨s, by simp, hkey⟩

namespace KeyedRun

variable {key Step} {steps before after : List σ} {store store' start : κ → Option α} {k : κ}

theorem append_iff : KeyedRun key Step (before ++ after) store store' ↔
    ∃ start, KeyedRun key Step before store start ∧ KeyedRun key Step after start store' := by
  induction before generalizing store with
  | nil =>
    refine ⟨fun h => ⟨store, .nil, h⟩, ?_⟩
    rintro ⟨start, hbefore, hafter⟩
    cases hbefore
    exact hafter
  | cons s before ih =>
    constructor
    · intro h
      cases h with
      | cons hstep hrest =>
        obtain ⟨start, hbefore, hafter⟩ := ih.mp hrest
        exact ⟨start, .cons hstep hbefore, hafter⟩
    · rintro ⟨start, hbefore, hafter⟩
      cases hbefore with
      | cons hstep hrest => exact .cons hstep (ih.mpr ⟨start, hrest, hafter⟩)

/-- Steps that write one thing lead to one store. -/
theorem unique (hdet : ∀ s store a a', Step s store a → Step s store a' → a = a')
    (h : KeyedRun key Step steps store store') (h' : KeyedRun key Step steps store start) :
    store' = start := by
  induction h with
  | nil => cases h'; rfl
  | cons hstep _ ih =>
    cases h' with
    | cons hstep' hrest' =>
      obtain rfl := hdet _ _ _ _ hstep hstep'
      exact ih hrest'

/-- A cell that no step writes is as before. -/
theorem eq_of_forall_ne (h : KeyedRun key Step steps store store')
    (hne : ∀ s ∈ steps, key s ≠ k) : store' k = store k := by
  induction h with
  | nil => rfl
  | cons hstep hrest ih =>
    obtain ⟨hhead, htail⟩ := List.forall_mem_cons.mp hne
    rw [ih htail, Function.update_of_ne hhead.symm]

/-- **A cell after a run** is as before, or what the last step with its key writes. -/
theorem cell (h : KeyedRun key Step steps store store') (k : κ) :
    (∀ s ∈ steps, key s ≠ k) ∧ store' k = store k ∨
      ∃ a, store' k = some a ∧ AtLast key Step (fun s start => Step s start a) steps store k := by
  induction h with
  | nil => exact .inl ⟨fun s hs => absurd hs List.not_mem_nil, rfl⟩
  | @cons s steps store store' a hstep hrest ih =>
    rcases ih with ⟨hne, hsame⟩ | ⟨a', ha', before, t, after, start, rfl, hne, hkey, hrun, hlast⟩
    · by_cases hs : key s = k
      · subst hs
        rw [Function.update_self] at hsame
        exact .inr ⟨a, hsame, [], s, steps, store, rfl, hne, rfl, .nil, hstep⟩
      · rw [Function.update_of_ne (Ne.symm hs)] at hsame
        exact .inl ⟨List.forall_mem_cons.mpr ⟨hs, hne⟩, hsame⟩
    · exact .inr ⟨a', ha', s :: before, t, after, start, rfl, hne, hkey, .cons hstep hrun, hlast⟩

/-- A cell is not emptied. -/
theorem exists_of_some (h : KeyedRun key Step steps store store') {a : α} (ha : store k = some a) :
    ∃ a', store' k = some a' := by
  rcases h.cell k with ⟨-, hsame⟩ | ⟨a', ha', -⟩
  · exact ⟨a, hsame.trans ha⟩
  · exact ⟨a', ha'⟩

/-- The last step with a key writes what is in its cell after the run. -/
theorem exists_step_of_atLast (hdet : ∀ s store a a', Step s store a → Step s store a' → a = a')
    {P : σ → (κ → Option α) → Prop} (h : KeyedRun key Step steps store store')
    (hlast : AtLast key Step P steps store k) :
    ∃ s start a, key s = k ∧ P s start ∧ Step s start a ∧ store' k = some a := by
  obtain ⟨before, s, after, start, rfl, hne, rfl, hbefore, hP⟩ := hlast
  obtain ⟨start', hbefore', hrest⟩ := append_iff.mp h
  obtain rfl := hbefore.unique hdet hbefore'
  cases hrest with
  | cons hstep hafter =>
    refine ⟨s, start, _, rfl, hP, hstep, ?_⟩
    rw [hafter.eq_of_forall_ne hne, Function.update_self]

/-- The steps that are taken one after the other, up to the first that cannot be taken. -/
def Stops (key : σ → κ) (Step : σ → (κ → Option α) → α → Prop) (steps : List σ)
    (store : κ → Option α) (done : List σ) (stop : κ → Option α) : Prop :=
  ∃ rest, steps = done ++ rest ∧ KeyedRun key Step done store stop ∧
    ∀ s rest', rest = s :: rest' → ∀ a, ¬Step s stop a

/-- Steps that write one thing stop at one place. -/
theorem Stops.unique {done done' : List σ} {stop stop' : κ → Option α}
    (hdet : ∀ s store a a', Step s store a → Step s store a' → a = a')
    (h : Stops key Step steps store done stop) (h' : Stops key Step steps store done' stop') :
    done = done' ∧ stop = stop' := by
  obtain ⟨rest, hsplit, hrun, hnever⟩ := h
  obtain ⟨rest', hsplit', hrun', hnever'⟩ := h'
  induction hrun generalizing steps done' with
  | nil =>
    cases hrun' with
    | nil => exact ⟨rfl, rfl⟩
    | cons hstep => exact absurd hstep (hnever _ _ (hsplit.symm.trans hsplit') _)
  | cons hstep _ ih =>
    cases hrun' with
    | nil => exact absurd hstep (hnever' _ _ (hsplit'.symm.trans hsplit) _)
    | cons hstep' hrest' =>
      obtain ⟨rfl, htail⟩ := List.cons.inj (hsplit.symm.trans hsplit')
      obtain rfl := hdet _ _ _ _ hstep hstep'
      obtain ⟨rfl, rfl⟩ := ih rfl hnever htail hrest'
      exact ⟨rfl, rfl⟩

end KeyedRun
