import Mathlib.Data.List.Infix
import Mathlib.Data.List.Basic
import SorobanDevkit.Library.Effects

/-!
# Checks in stages

Checks are made one after the other, each under a name, and what came of each is recorded. The first
one that fails is the last one that is made. A check may change a state.

## Main results

* `Follows.all_passed_iff`, `Follows.findIdx?_failed` — what a record says.
* `Staged.Within.check` — a check and those after it.
-/

/-- Whether a check passed. -/
inductive StageStatus
  | passed
  | failed
  deriving DecidableEq

/-- What came of a check. -/
structure Stage (ν δ : Type) where
  name : ν
  status : StageStatus
  detail : δ
  deriving DecidableEq

/-- A check, and whether it passed. -/
def Stage.verdict {ν δ : Type} (s : Stage ν δ) : ν × StageStatus := (s.name, s.status)

/-- A record of checks in a sequence: of the first ones, all of which passed, except that the last
one that is recorded may have failed. -/
inductive Follows {ν δ : Type} : List ν → List (Stage ν δ) → Prop
  | nil : Follows [] []
  | failed (name : ν) (detail : δ) (names : List ν) :
      Follows (name :: names) [⟨name, .failed, detail⟩]
  | passed {name : ν} {detail : δ} {names : List ν} {stages : List (Stage ν δ)}
      (h : Follows names stages) : Follows (name :: names) (⟨name, .passed, detail⟩ :: stages)

namespace Follows

variable {ν δ : Type} {names : List ν} {stages : List (Stage ν δ)}

/-- The checks that were made come first. -/
theorem prefix_names (h : Follows names stages) : stages.map Stage.name <+: names := by
  induction h with
  | nil => exact List.prefix_rfl
  | failed name detail names => exact ⟨names, rfl⟩
  | passed h ih => exact (List.prefix_cons_inj _).mpr ih

/-- All checks before the last one that was made passed. -/
theorem passed_of_mem_dropLast (h : Follows names stages) :
    ∀ s ∈ stages.dropLast, s.status = .passed := by
  induction h with
  | nil => exact List.forall_mem_nil _
  | failed name detail names => exact List.forall_mem_nil _
  | passed h ih =>
    cases h with
    | nil => exact List.forall_mem_nil _
    | failed name detail names =>
      exact fun s hs => by rw [List.mem_singleton.mp hs]
    | passed h => exact List.forall_mem_cons.mpr ⟨rfl, ih⟩

/-- **All checks that were made passed** exactly if all checks were made, and the last one, if there
is one, passed. -/
theorem all_passed_iff (h : Follows names stages) : (∀ s ∈ stages, s.status = .passed) ↔
    stages.map Stage.name = names ∧ ∀ s ∈ stages.getLast?, s.status = .passed := by
  induction h with
  | nil => exact iff_of_true (List.forall_mem_nil _) ⟨rfl, fun _ hs => by cases hs⟩
  | failed name detail names =>
    exact iff_of_false (fun hall => by cases hall _ List.mem_cons_self) fun hlast => by
      cases hlast.2 _ rfl
  | @passed name detail names stages h ih =>
    rw [List.forall_mem_cons, ih, List.map_cons, List.cons.injEq]
    cases stages with
    | nil => simp
    | cons s stages => simp

/-- The first check that failed is the last one that was made. -/
theorem findIdx?_failed (h : Follows names stages) :
    stages.findIdx? (fun s => decide (s.status = .failed)) =
      if ∀ s ∈ stages, s.status = .passed then none else some (stages.length - 1) := by
  induction h with
  | nil => rfl
  | failed name detail names => rfl
  | @passed name detail names stages h ih =>
    rw [List.findIdx?_cons, ih, if_neg (by simp)]
    simp only [List.forall_mem_cons, true_and]
    split
    · rfl
    · next hnot =>
      have hne : stages ≠ [] := fun heq =>
        hnot (heq ▸ List.forall_mem_nil _)
      have hpos := List.length_pos_iff.mpr hne
      rw [Option.map_some, List.length_cons]
      congr 1
      omega

/-- The check that failed is the last one that was made. -/
theorem find?_failed (h : Follows names stages) :
    stages.find? (fun s => decide (s.status = .failed)) =
      if ∀ s ∈ stages, s.status = .passed then none else stages.getLast? := by
  induction h with
  | nil => rfl
  | failed name detail names => rfl
  | @passed name detail names stages h ih =>
    rw [List.find?_cons_of_neg (by simp), ih]
    simp only [List.forall_mem_cons, true_and]
    split
    · rfl
    · next hnot =>
      cases stages with
      | nil => exact absurd (List.forall_mem_nil _) hnot
      | cons s stages => rw [List.getLast?_cons_cons]

theorem ne_nil (h : Follows names stages) (hnames : names ≠ []) : stages ≠ [] := by
  cases h with
  | nil => exact absurd rfl hnames
  | failed => exact List.cons_ne_nil _ _
  | passed => exact List.cons_ne_nil _ _

end Follows

/-- Checks in stages: from a state to what came of the checks that were made, and the state that
they leave. -/
abbrev Staged (ν δ σ : Type) := σ → List (Stage ν δ) × σ

namespace Staged

variable {ν δ σ α : Type}

/-- No checks. -/
def done : Staged ν δ σ := fun s => ([], s)

/-- A check, and the ones that are made after it if it passes. -/
def check (name : ν) (x : Effect σ δ (δ × α)) (next : α → Staged ν δ σ) : Staged ν δ σ := fun s =>
  match x s with
  | (.error detail, s') => ([⟨name, .failed, detail⟩], s')
  | (.ok (detail, a), s') => (⟨name, .passed, detail⟩ :: (next a s').1, (next a s').2)

/-- Checks with a change of the state that comes at the end, whatever comes of them. -/
def andThen (x : Staged ν δ σ) (change : σ → σ) : Staged ν δ σ := fun s => ((x s).1, change (x s).2)

/-- The checks that are made are the first ones of a sequence. -/
def Within (names : List ν) (x : Staged ν δ σ) : Prop := ∀ s, Follows names (x s).1

variable {name : ν} {names : List ν} {x : Effect σ δ (δ × α)} {next : α → Staged ν δ σ}
  {s s' : σ} {detail : δ} {a : α}

theorem check_of_error (h : x s = (.error detail, s')) :
    check name x next s = ([⟨name, .failed, detail⟩], s') := by
  rw [check, h]

theorem check_of_ok (h : x s = (.ok (detail, a), s')) :
    check name x next s = (⟨name, .passed, detail⟩ :: (next a s').1, (next a s').2) := by
  rw [check, h]

theorem check_lift_ok (name : ν) (detail : δ) (a : α) (next : α → Staged ν δ σ) (s : σ) :
    check name (Effect.lift (.ok (detail, a))) next s =
      (⟨name, .passed, detail⟩ :: (next a s).1, (next a s).2) := rfl

theorem within_done : Within [] (done : Staged ν δ σ) := fun _ => .nil

/-- **A check and those after it.** -/
theorem Within.check (h : ∀ a, Within names (next a)) :
    Within (name :: names) (check name x next) := by
  intro s
  cases hx : x s with
  | mk result s' =>
    cases result with
    | error detail =>
      rw [check_of_error hx]
      exact .failed name detail names
    | ok result =>
      rw [check_of_ok hx]
      exact .passed (h result.2 s')

theorem Within.andThen {x : Staged ν δ σ} (h : Within names x) (change : σ → σ) :
    Within names (x.andThen change) := h

/-- A check that does not look at the state. -/
theorem check_lift_cases (name : ν) (x : Except δ (δ × α)) (next : α → Staged ν δ σ) (s : σ) :
    (∃ detail, check name (Effect.lift x) next s = ([⟨name, .failed, detail⟩], s)) ∨
    ∃ detail a, x = .ok (detail, a) ∧ check name (Effect.lift x) next s =
      (⟨name, .passed, detail⟩ :: (next a s).1, (next a s).2) := by
  cases x with
  | error detail => exact .inl ⟨detail, rfl⟩
  | ok result => exact .inr ⟨result.1, result.2, rfl, rfl⟩

/-- A check before ones that leave the state as it is. -/
theorem check_snd (h : ∀ a s, (next a s).2 = s) (s : σ) : (check name x next s).2 = (x s).2 := by
  cases hx : x s with
  | mk result s' =>
    cases result with
    | error detail => rw [check_of_error hx]
    | ok result => rw [check_of_ok hx, h]

/-- What comes of checks that do not look at the state does not depend on it. -/
theorem check_lift_fst {x : Except δ (δ × α)} {s s' : σ}
    (h : ∀ a, (next a s).1 = (next a s').1) :
    (check name (Effect.lift x) next s).1 = (check name (Effect.lift x) next s').1 := by
  cases x with
  | error detail => rfl
  | ok result => exact congrArg (⟨name, .passed, result.1⟩ :: ·) (h result.2)

end Staged
