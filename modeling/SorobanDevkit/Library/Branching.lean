import Mathlib.Data.List.Basic
import Mathlib.Data.Nat.Notation

/-!
# Traversals that pass over parts

Things have parts, in an order, and parts have parts. A traversal goes through the parts of a thing,
the one after the other, before it comes to the thing itself, and passes over some of them with all
that is in them.

## Main results

* `Branching.visited_sublist` — a traversal finds things in their order, each of them once.
* `Branching.countP_all` — everything is found or missed.
* `Branching.visited_eq_all_iff` — a traversal finds everything when it misses nothing.
* `Branching.all_narrow` — a traversal of what another one goes through.
-/

/-- The parts of things, with a mark on those that a traversal goes through. -/
structure Branching (α : Type*) where
  parts : α → List (α × Bool)
  size : α → ℕ
  size_lt : ∀ {n : α} {p : α × Bool}, p ∈ parts n → size p.1 < size n

namespace Branching

variable {α β : Type*} (b : Branching α) (own : α → List β)

/-- What holds of a thing when it holds of its parts holds of all things. -/
theorem induction {P : α → Prop} (h : ∀ n, (∀ p ∈ b.parts n, P p.1) → P n) (n : α) : P n := by
  induction hsize : b.size n using Nat.strongRecOn generalizing n with
  | ind k ih => exact h n fun p hp => ih _ (hsize ▸ b.size_lt hp) p.1 rfl

/-- What is found in a thing: in its parts first, and then its own. -/
def all (n : α) : List β := ((b.parts n).attach.flatMap fun p => all p.1.1) ++ own n
termination_by b.size n
decreasing_by exact b.size_lt p.2

/-- What a traversal finds in a thing. -/
def visited (n : α) : List β :=
  ((b.parts n).attach.flatMap fun p => if p.1.2 then visited p.1.1 else []) ++ own n
termination_by b.size n
decreasing_by exact b.size_lt p.2

/-- What a traversal misses in a thing: all that is in the parts it passes over, and what it misses
in the others. -/
def missed (n : α) : List β :=
  (b.parts n).attach.flatMap fun p => if p.1.2 then missed p.1.1 else b.all own p.1.1
termination_by b.size n
decreasing_by exact b.size_lt p.2

variable {b own}

private theorem flatMap_attach {γ δ : Type*} (l : List γ) (f : γ → List δ) :
    (l.attach.flatMap fun p => f p.1) = l.flatMap f := by
  rw [← List.flatMap_map, List.attach_map_subtype_val]

theorem all_eq (n : α) : b.all own n = ((b.parts n).flatMap fun p => b.all own p.1) ++ own n := by
  rw [all, flatMap_attach (b.parts n) fun p => b.all own p.1]

theorem visited_eq (n : α) : b.visited own n =
    ((b.parts n).flatMap fun p => if p.2 then b.visited own p.1 else []) ++ own n := by
  rw [visited, flatMap_attach (b.parts n) fun p => if p.2 then b.visited own p.1 else []]

theorem missed_eq (n : α) : b.missed own n =
    (b.parts n).flatMap fun p => if p.2 then b.missed own p.1 else b.all own p.1 := by
  rw [missed, flatMap_attach (b.parts n) fun p => if p.2 then b.missed own p.1 else b.all own p.1]

/-- Parts that a traversal goes through. -/
theorem flatMap_through (l : List α) (f : α → List β) :
    ((l.map (·, true)).flatMap fun p => if p.2 then f p.1 else []) = l.flatMap f := by
  rw [List.flatMap_map]
  rfl

/-- Parts that a traversal passes over. -/
theorem flatMap_over (l : List α) (f : α → List β) :
    ((l.map (·, false)).flatMap fun p => if p.2 then f p.1 else []) = [] := by
  rw [List.flatMap_map]
  exact List.flatMap_eq_nil_iff.mpr fun _ _ => rfl

/-- **A traversal finds things in their order, each of them once.** -/
theorem visited_sublist (n : α) : (b.visited own n).Sublist (b.all own n) := by
  induction n using b.induction with
  | _ n ih =>
    rw [visited_eq, all_eq]
    refine List.Sublist.append_right ?_ _
    generalize b.parts n = l at ih
    induction l with
    | nil => exact List.Sublist.refl _
    | cons p l ihl =>
      obtain ⟨hp, hl⟩ := List.forall_mem_cons.mp ih
      rw [List.flatMap_cons, List.flatMap_cons]
      refine List.Sublist.append ?_ (ihl hl)
      split
      · exact hp
      · exact List.nil_sublist _

/-- **Everything is found or missed.** -/
theorem countP_all (q : β → Bool) (n : α) : (b.all own n).countP q =
    (b.visited own n).countP q + (b.missed own n).countP q := by
  induction n using b.induction with
  | _ n ih =>
    rw [visited_eq, all_eq, missed_eq, List.countP_append, List.countP_append]
    have hparts : ((b.parts n).flatMap fun p => b.all own p.1).countP q =
        ((b.parts n).flatMap fun p => if p.2 then b.visited own p.1 else []).countP q +
          ((b.parts n).flatMap fun p =>
            if p.2 then b.missed own p.1 else b.all own p.1).countP q := by
      generalize b.parts n = l at ih
      induction l with
      | nil => rfl
      | cons p l ihl =>
        obtain ⟨hp, hl⟩ := List.forall_mem_cons.mp ih
        rw [List.flatMap_cons, List.flatMap_cons, List.flatMap_cons, List.countP_append,
          List.countP_append, List.countP_append, ihl hl]
        cases p.2 with
        | true =>
          rw [if_pos rfl, if_pos rfl, hp]
          omega
        | false =>
          rw [if_neg Bool.false_ne_true, if_neg Bool.false_ne_true, List.countP_nil]
          omega
    rw [hparts]
    omega

variable (b own) in
theorem length_all (n : α) :
    (b.all own n).length = (b.visited own n).length + (b.missed own n).length := by
  have hcount := @countP_all _ _ b own (fun _ => true) n
  simpa only [List.countP_true] using hcount

/-- **A traversal finds everything when it misses nothing.** -/
theorem visited_eq_all_iff (n : α) : b.visited own n = b.all own n ↔ b.missed own n = [] := by
  have hcount := b.length_all own n
  constructor
  · intro heq
    rw [heq] at hcount
    exact List.eq_nil_of_length_eq_zero (by omega)
  · intro hnil
    refine (visited_sublist n).eq_of_length ?_
    rw [hcount, hnil]
    rfl

/-- The parts that a traversal goes through, with other marks. -/
def narrow (b : Branching α) (keep : α → Bool) : Branching α where
  parts n := ((b.parts n).filter (·.2)).map fun p => (p.1, keep p.1)
  size := b.size
  size_lt hp := by
    obtain ⟨q, hq, rfl⟩ := List.mem_map.mp hp
    exact b.size_lt (p := q) (List.mem_filter.mp hq).1

/-- What is found among what a traversal finds. -/
theorem all_narrow (keep : α → Bool) (n : α) : (b.narrow keep).all own n = b.visited own n := by
  induction n using b.induction with
  | _ n ih =>
    have hparts : (b.narrow keep).parts n =
        ((b.parts n).filter (·.2)).map fun p => (p.1, keep p.1) := rfl
    rw [all_eq, visited_eq, hparts, List.flatMap_map]
    congr 1
    generalize b.parts n = l at ih
    induction l with
    | nil => rfl
    | cons p l ihl =>
      obtain ⟨hp, hl⟩ := List.forall_mem_cons.mp ih
      rw [List.flatMap_cons, ← ihl hl]
      cases hmark : p.2 with
      | true => rw [List.filter_cons_of_pos hmark, List.flatMap_cons, if_pos rfl, hp]
      | false => rw [List.filter_cons_of_neg (by simp [hmark]), if_neg Bool.false_ne_true]; rfl

end Branching
