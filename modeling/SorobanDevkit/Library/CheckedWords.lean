import Mathlib.Data.List.Forall2
import Mathlib.Data.Nat.Notation

/-!
# Checked arithmetic

Sums and products of machine words that exist where they do not overflow, and totals of lists that
are compared with the bounds of their members.

## Main results

* `Checked.mul32_eq_some_iff`, `Checked.mul64_eq_some_iff`, `Checked.exists_add64_iff` — when there
  is no overflow, and the result.
* `Checked.length_mul_le_total`, `Checked.total_le_length_mul` — a total lies between multiples of
  the bounds.
* `Checked.average_between` — an average lies between the bounds.
-/

namespace Checked

/-- `u32::checked_mul`. -/
def mul32 (a b : UInt32) : Option UInt32 :=
  if a.toNat * b.toNat < 0x100000000 then some (a * b) else none

/-- `u64::checked_mul`. -/
def mul64 (a b : UInt64) : Option UInt64 :=
  if a.toNat * b.toNat < 0x10000000000000000 then some (a * b) else none

/-- `u64::checked_add`. -/
def add64 (a b : UInt64) : Option UInt64 :=
  if a.toNat + b.toNat < 0x10000000000000000 then some (a + b) else none

theorem mul32_eq_some_iff {a b c : UInt32} : mul32 a b = some c ↔ c.toNat = a.toNat * b.toNat := by
  have hc := c.toNat_lt
  rw [mul32]
  split
  · next hlt =>
    rw [Option.some.injEq, ← UInt32.toNat_inj, UInt32.toNat_mul, Nat.mod_eq_of_lt hlt]
    exact eq_comm
  · exact iff_of_false (fun h => by cases h) (by omega)

theorem mul64_eq_some_iff {a b c : UInt64} : mul64 a b = some c ↔ c.toNat = a.toNat * b.toNat := by
  have hc := c.toNat_lt
  rw [mul64]
  split
  · next hlt =>
    rw [Option.some.injEq, ← UInt64.toNat_inj, UInt64.toNat_mul, Nat.mod_eq_of_lt hlt]
    exact eq_comm
  · exact iff_of_false (fun h => by cases h) (by omega)

theorem exists_add64_iff {a b : UInt64} :
    (∃ c, add64 a b = some c) ↔ a.toNat + b.toNat < 0x10000000000000000 := by
  rw [add64]
  split
  · next hlt => exact iff_of_true ⟨_, rfl⟩ hlt
  · next hlt => exact iff_of_false (by simp) hlt

/-! ### Totals -/

section

variable {α : Type}

/-- The sum of what the members of a list count. -/
def total (f : α → ℕ) : List α → ℕ
  | [] => 0
  | a :: l => f a + total f l

theorem total_eq_of_forall₂ {β : Type} {f : α → ℕ} {g : β → ℕ} {l : List α} {l' : List β}
    (h : List.Forall₂ (fun a b => f a = g b) l l') : total f l = total g l' := by
  induction h with
  | nil => rfl
  | cons hab _ ih => rw [total, total, hab, ih]

theorem total_mul (n : ℕ) (f : α → ℕ) (l : List α) : total
    (fun a => n * f a) l = n * total f l := by
  induction l with
  | nil => rfl
  | cons a l ih => rw [total, total, ih, Nat.mul_add]

variable {f : α → ℕ} {p : α → Prop} [DecidablePred p] {l : List α} {n : ℕ}

/-- A total is at least the bound below, as often as a member counts. -/
theorem length_mul_le_total (h : ∀ a ∈ l, p a → n ≤ f a) :
    (l.filter fun a => p a).length * n ≤ total (fun a => if p a then f a else 0) l := by
  induction l with
  | nil => exact Nat.le_of_eq (Nat.zero_mul n)
  | cons a l ih =>
    obtain ⟨ha, hl⟩ := List.forall_mem_cons.mp h
    have hrest := ih hl
    by_cases hp : p a
    · have hbound := ha hp
      rw [List.filter_cons_of_pos (p := fun a => p a) (decide_eq_true hp), List.length_cons,
        total, if_pos hp, Nat.succ_mul]
      omega
    · rw [List.filter_cons_of_neg (by simpa using hp), total, if_neg hp]
      omega

/-- A total is at most the bound above, as often as a member counts. -/
theorem total_le_length_mul (h : ∀ a ∈ l, p a → f a ≤ n) :
    total (fun a => if p a then f a else 0) l ≤ (l.filter fun a => p a).length * n := by
  induction l with
  | nil => exact Nat.zero_le _
  | cons a l ih =>
    obtain ⟨ha, hl⟩ := List.forall_mem_cons.mp h
    have hrest := ih hl
    by_cases hp : p a
    · have hbound := ha hp
      rw [List.filter_cons_of_pos (p := fun a => p a) (decide_eq_true hp), List.length_cons,
        total, if_pos hp, Nat.succ_mul]
      omega
    · rw [List.filter_cons_of_neg (by simpa using hp), total, if_neg hp]
      omega

end

/-- **An average** lies between bounds of which the total lies between the multiples. -/
theorem average_between {total : UInt64} {n : ℕ} {low high : UInt32} (hpos : 0 < n)
    (hn : n < 0x10000000000000000) (hlow : n * low.toNat ≤ total.toNat)
    (hhigh : total.toNat ≤ n * high.toNat) :
    low ≤ (total / UInt64.ofNat n).toUInt32 ∧ (total / UInt64.ofNat n).toUInt32 ≤ high := by
  have hle : total.toNat / n ≤ high.toNat := Nat.div_le_of_le_mul hhigh
  have hge : low.toNat ≤ total.toNat / n :=
    (Nat.le_div_iff_mul_le hpos).mpr (Nat.mul_comm n _ ▸ hlow)
  have haverage : (total / UInt64.ofNat n).toUInt32.toNat = total.toNat / n := by
    rw [UInt64.toNat_toUInt32, UInt64.toNat_div, UInt64.toNat_ofNat_of_lt' hn]
    exact Nat.mod_eq_of_lt (Nat.lt_of_le_of_lt hle high.toNat_lt)
  rw [UInt32.le_iff_toNat_le, UInt32.le_iff_toNat_le, haverage]
  exact ⟨hge, hle⟩

end Checked
