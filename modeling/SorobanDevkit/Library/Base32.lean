import Mathlib.Algebra.Order.Ring.Nat
import SorobanDevkit.Library.Strings

/-!
# Numbers in base 32

Numbers are written with a fixed number of the letters and digits of base 32.

## Main results

* `Base32.decodeNumber_encodeNumber` — a number is read back.
-/

namespace Base32

/-- The digits of base 32. -/
def alphabet : List Char := "ABCDEFGHIJKLMNOPQRSTUVWXYZ234567".toList

/-- The character of a digit. -/
def encodeDigit (n : ℕ) : Char := alphabet.getD n 'A'

/-- The digit of a character. -/
def decodeDigit (c : Char) : Option ℕ := if c ∈ alphabet then some (alphabet.idxOf c) else none

/-- The digits of a number, the lowest first. -/
def digits : (width n : ℕ) → List ℕ
  | 0, _ => []
  | width + 1, n => n % 32 :: digits width (n / 32)

/-- The number of digits, the lowest first. -/
def ofDigits (ds : List ℕ) : ℕ := ds.foldr (fun d n => d + 32 * n) 0

/-- The text of a number. -/
def encodeNumber (width n : ℕ) : List Char := ((digits width n).map encodeDigit).reverse

/-- The number of a text. -/
def decodeNumber (text : List Char) : Option ℕ := (text.reverse.mapM decodeDigit).map ofDigits

theorem decodeDigit_encodeDigit {n : ℕ} (h : n < 32) : decodeDigit (encodeDigit n) = some n := by
  have hall : ∀ i : Fin 32, decodeDigit (encodeDigit i) = some i.val := by decide
  exact hall ⟨n, h⟩

theorem digits_lt (width n : ℕ) : ∀ d ∈ digits width n, d < 32 := by
  induction width generalizing n with
  | zero => exact fun d hd => absurd hd List.not_mem_nil
  | succ width ih => exact List.forall_mem_cons.mpr ⟨Nat.mod_lt _ (by omega), ih _⟩

theorem length_encodeNumber (width n : ℕ) : (encodeNumber width n).length = width := by
  rw [encodeNumber, List.length_reverse, List.length_map]
  induction width generalizing n with
  | zero => rfl
  | succ width ih => rw [digits, List.length_cons, ih]

theorem ofDigits_digits {width n : ℕ} (h : n < 32 ^ width) : ofDigits (digits width n) = n := by
  induction width generalizing n with
  | zero =>
    rw [pow_zero, Nat.lt_one_iff] at h
    rw [h]
    rfl
  | succ width ih =>
    have hdiv : n / 32 < 32 ^ width := by
      rw [pow_succ] at h
      omega
    have hcons : ofDigits (digits (width + 1) n) = n % 32 + 32 * ofDigits (digits width (n / 32)) :=
      rfl
    rw [hcons, ih hdiv, Nat.mod_add_div]

/-- **A number is read back from its text.** -/
theorem decodeNumber_encodeNumber {width n : ℕ} (h : n < 32 ^ width) :
    decodeNumber (encodeNumber width n) = some n := by
  have hread : ∀ ds : List ℕ, (∀ d ∈ ds, d < 32) →
      (ds.map encodeDigit).mapM decodeDigit = some ds := by
    intro ds
    induction ds with
    | nil => exact fun _ => rfl
    | cons d ds ih =>
      intro hds
      obtain ⟨hd, hds⟩ := List.forall_mem_cons.mp hds
      rw [List.map_cons, List.mapM_cons, decodeDigit_encodeDigit hd, ih hds]
      rfl
  rw [decodeNumber, encodeNumber, List.reverse_reverse, hread _ (digits_lt width n),
    Option.map_some, ofDigits_digits h]

/-- The digits are no white space. -/
theorem isWhitespace_encodeNumber {width n : ℕ} :
    ∀ c ∈ encodeNumber width n, Strings.isWhitespace c = false := by
  have hall : ∀ i : Fin 32, Strings.isWhitespace (encodeDigit i) = false := by decide
  intro c hc
  obtain ⟨d, hd, rfl⟩ := List.mem_map.mp (List.mem_reverse.mp hc)
  exact hall ⟨d, digits_lt width n d hd⟩

end Base32
