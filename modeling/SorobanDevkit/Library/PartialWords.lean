import Mathlib.Data.List.Forall2

/-!
# Partial words

A partial word has letters at some positions and holes at the others. A word is an instance of it
when it has the letters where they are fixed. Two partial words have a common instance exactly if
they have the same length and no position at which they fix different letters.

## Main results

* `PartialWord.matches_append_iff`, `matches_fixed_iff`, `matches_holes_iff` — the instances of the
  parts.
* `PartialWord.compatible_iff_exists_matches` — when two partial words have a common instance.
-/

/-- A word with holes. -/
abbrev PartialWord (α : Type*) := List (Option α)

namespace PartialWord

variable {α : Type*}

/-- The word has the letters that are fixed, and any letter in a hole. -/
def Matches (w : List α) (u : PartialWord α) : Prop := List.Forall₂ (fun x o => ∀ y ∈ o, x = y) w u

/-- The partial words fix no different letters. -/
def Compatible (u v : PartialWord α) : Prop := List.Forall₂
    (fun o o' => ∀ x ∈ o, ∀ y ∈ o', x = y) u v

/-- A word without holes. -/
def fixed (w : List α) : PartialWord α := w.map some

/-- A word of holes. -/
def holes (n : ℕ) : PartialWord α := List.replicate n none

@[simp] theorem length_fixed (w : List α) : (fixed w).length = w.length := List.length_map _

@[simp] theorem length_holes (n : ℕ) : (holes n : PartialWord α).length = n := List.length_replicate

/-- An instance is as long as its pattern. -/
theorem Matches.length_eq {w : List α} {u : PartialWord α} (h : Matches w u) :
    w.length = u.length :=
  List.Forall₂.length_eq h

/-- An instance of two parts is an instance of each, one after the other. -/
theorem matches_append_iff {w : List α} {u v : PartialWord α} :
    Matches w (u ++ v) ↔ ∃ w₁ w₂, w = w₁ ++ w₂ ∧ Matches w₁ u ∧ Matches w₂ v := by
  constructor
  · intro h
    refine ⟨w.take u.length, w.drop u.length, (List.take_append_drop _ _).symm, ?_, ?_⟩
    · have htake := List.forall₂_take u.length h
      rwa [List.take_left] at htake
    · have hdrop := List.forall₂_drop u.length h
      rwa [List.drop_left] at hdrop
  · rintro ⟨w₁, w₂, rfl, h₁, h₂⟩
    exact List.rel_append h₁ h₂

/-- The only instance of a word without holes is the word. -/
@[simp] theorem matches_fixed_iff {w u : List α} : Matches w (fixed u) ↔ w = u := by
  induction u generalizing w with
  | nil => exact List.forall₂_nil_right_iff
  | cons y u ih =>
    cases w with
    | nil => exact iff_of_false (fun h => nomatch h) (List.cons_ne_nil y u).symm
    | cons x w =>
      have hhead : (∀ z ∈ some y, x = z) ↔ x = y := by simp
      rw [fixed, List.map_cons, Matches, List.forall₂_cons, hhead, List.cons.injEq]
      exact and_congr_right fun _ => ih

/-- Every word of the right length is an instance of a word of holes. -/
@[simp] theorem matches_holes_iff {w : List α} {n : ℕ} : Matches w (holes n) ↔ w.length = n := by
  constructor
  · intro h
    rw [h.length_eq, length_holes]
  · rintro rfl
    induction w with
    | nil => exact List.Forall₂.nil
    | cons x w ih => exact List.Forall₂.cons (fun y hy => absurd hy (Option.not_mem_none y)) ih

/-- **Common instances.** Two partial words have a common instance exactly if they are
compatible. -/
theorem compatible_iff_exists_matches [Inhabited α] {u v : PartialWord α} :
    Compatible u v ↔ ∃ w, Matches w u ∧ Matches w v := by
  constructor
  · intro h
    induction h with
    | nil => exact ⟨[], List.Forall₂.nil, List.Forall₂.nil⟩
    | @cons o o' u v hletters _ ih =>
      obtain ⟨w, hu, hv⟩ := ih
      cases o with
      | none => exact ⟨o'.getD default :: w, List.Forall₂.cons (by simp) hu,
          List.Forall₂.cons (fun y hy => by rw [hy, Option.getD_some]) hv⟩
      | some x => exact ⟨x :: w, List.Forall₂.cons (by simp) hu,
          List.Forall₂.cons (fun y hy => hletters x rfl y hy) hv⟩
  · rintro ⟨w, hu, hv⟩
    induction hu generalizing v with
    | nil =>
      rw [Matches, List.forall₂_nil_left_iff] at hv
      rw [hv]
      exact List.Forall₂.nil
    | @cons x o w u hx _ ih =>
      cases hv with
      | cons hx' hv =>
        exact List.Forall₂.cons (fun y hy z hz => (hx y hy).symm.trans (hx' z hz)) (ih hv)

end PartialWord
