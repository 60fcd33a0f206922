import Mathlib.Data.Nat.Notation

/-!
# Decimal texts of numbers

## Main results

* `Decimal.toString_nat_inj`, `Decimal.toString_int_inj` — a number is determined by its decimal
  text.
* `Decimal.plain_toString_nat`, `Decimal.plain_toString_int` — decimal texts are plain.
-/

namespace Decimal

/-- A character of a number, or a letter. -/
def Plain (c : Char) : Prop := c.isAlphanum ∨ c = '-'

theorem toString_nat_inj {m n : ℕ} (h : toString m = toString n) : m = n := by
  have hdigits : Nat.toDigits 10 m = Nat.toDigits 10 n := by
    rw [← Nat.toList_repr, ← Nat.toList_repr]
    exact congrArg String.toList h
  rw [← Nat.ofDigitChars_toDigits (n := m) (by decide : 1 < 10) (by decide), hdigits,
    Nat.ofDigitChars_toDigits (by decide) (by decide)]

theorem isDigit_toString_nat (n : ℕ) : ∀ c ∈ (toString n).toList, c.isDigit := by
  intro c hc
  have hdigits : c ∈ Nat.toDigits 10 n := by
    rw [← Nat.toList_repr]
    exact hc
  exact Nat.isDigit_of_mem_toDigits (by decide) (by decide) hdigits

theorem plain_toString_nat (n : ℕ) : ∀ c ∈ (toString n).toList, Plain c := by
  intro c hc
  left
  rw [Char.isAlphanum, isDigit_toString_nat n c hc, Bool.or_true]

theorem length_toString_nat_pos (n : ℕ) : 0 < (toString n).length := by
  have hlist : (toString n).toList = Nat.toDigits 10 n := Nat.toList_repr
  rw [← String.length_toList, hlist]
  exact Nat.length_toDigits_pos

/-- The text of a negative number starts with a sign. -/
theorem toString_negSucc (n : ℕ) :
    (toString (Int.negSucc n)).toList = '-' :: (toString (n + 1)).toList := by
  have h : toString (Int.negSucc n) = "-" ++ toString (n + 1) := rfl
  rw [h, String.toList_append]
  simp

theorem length_toString_int_pos (n : Int) : 0 < (toString n).length := by
  cases n with
  | ofNat n => exact length_toString_nat_pos n
  | negSucc n =>
    rw [← String.length_toList, toString_negSucc]
    exact Nat.succ_pos _

theorem toString_int_inj {m n : Int} (h : toString m = toString n) : m = n := by
  have hsign : ∀ m n : ℕ, toString (Int.ofNat m) ≠ toString (Int.negSucc n) := by
    intro m n h
    have hmem : '-' ∈ (toString m).toList := by
      have hlist : (toString m).toList = (toString (Int.negSucc n)).toList :=
        congrArg String.toList h
      rw [hlist, toString_negSucc]
      exact List.mem_cons_self
    have hdigit := isDigit_toString_nat m '-' hmem
    exact absurd hdigit (by decide)
  cases m with
  | ofNat m =>
    cases n with
    | ofNat n => rw [toString_nat_inj (m := m) (n := n) h]
    | negSucc n => exact absurd h (hsign m n)
  | negSucc m =>
    cases n with
    | ofNat n => exact absurd h.symm (hsign n m)
    | negSucc n =>
      have hlist := congrArg String.toList h
      rw [toString_negSucc, toString_negSucc, List.cons.injEq] at hlist
      have hsucc := toString_nat_inj (String.toList_inj.mp hlist.2)
      rw [Nat.succ.inj hsucc]

theorem plain_toString_int (n : Int) : ∀ c ∈ (toString n).toList, Plain c := by
  intro c hc
  cases n with
  | ofNat n => exact plain_toString_nat n c hc
  | negSucc n =>
    rw [toString_negSucc, List.mem_cons] at hc
    rcases hc with rfl | hc
    · exact Or.inr rfl
    · exact plain_toString_nat (n + 1) c hc

end Decimal
