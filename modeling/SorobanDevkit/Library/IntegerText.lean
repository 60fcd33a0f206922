import Mathlib.Data.List.Basic
import Mathlib.Data.Int.Notation
import Mathlib.Data.Nat.Notation
import SorobanDevkit.Library.Decimal
import SorobanDevkit.Library.Hex

/-!
# Reading integers

An integer is read from a text of digits in a radix of at most sixteen. A sign may be in front: a
plus sign always, a minus sign if the integer may be negative. The text has at least one digit, and
the integer is within bounds.

## Main results

* `IntegerText.readUnsigned_toString`, `IntegerText.readSigned_toString` — a decimal text is read
  back.
-/

namespace IntegerText

/-- The value of a digit in a radix. -/
def digit (radix : ℕ) (c : Char) : Option ℕ := (Hex.decodeDigit c).filter (· < radix)

/-- The number of digits with the highest first, after digits that have been read. -/
def readFrom (radix : ℕ) : ℕ → List Char → Option ℕ
  | n, [] => some n
  | n, c :: chars => do
    let d ← digit radix c
    readFrom radix (radix * n + d) chars

/-- The number of one digit or more. -/
def readDigits (radix : ℕ) : List Char → Option ℕ
  | [] => none
  | c :: chars => readFrom radix 0 (c :: chars)

/-- `from_str_radix` of an unsigned type with a largest value. -/
def readUnsigned (radix max : ℕ) (chars : List Char) : Option ℕ :=
  (readDigits radix (if chars.head? = some '+' then chars.tail else chars)).filter (· ≤ max)

/-- `from_str_radix` of a signed type with a smallest and a largest value. -/
def readSigned (radix : ℕ) (min max : ℤ) (chars : List Char) : Option ℤ :=
  if chars.head? = some '-' then
    ((readDigits radix chars.tail).map fun (n : ℕ) => -(n : ℤ)).filter (min ≤ ·)
  else
    ((readDigits radix (if chars.head? = some '+' then chars.tail else chars)).map
      fun (n : ℕ) => (n : ℤ)).filter (· ≤ max)

/-! ### Decimal texts -/

theorem digit_of_isDigit {c : Char} (h : c.isDigit) : digit 10 c = some (c.toNat - '0'.toNat) := by
  have hrange : '0' ≤ c ∧ c ≤ '9' := by
    rw [Char.isDigit, Bool.and_eq_true, decide_eq_true_iff, decide_eq_true_iff] at h
    exact h
  have hlast : c.toNat ≤ '9'.toNat := hrange.2
  rw [digit, Hex.decodeDigit, if_pos hrange, Option.filter_some, if_pos]
  rw [decide_eq_true_iff]
  change c.toNat ≤ 57 at hlast
  change c.toNat - 48 < 10
  omega

theorem readFrom_of_isDigit {chars : List Char} (h : ∀ c ∈ chars, c.isDigit) (n : ℕ) :
    readFrom 10 n chars = some (Nat.ofDigitChars 10 chars n) := by
  induction chars generalizing n with
  | nil => rfl
  | cons c chars ih =>
    obtain ⟨hc, h⟩ := List.forall_mem_cons.mp h
    rw [readFrom, digit_of_isDigit hc]
    exact ih h _

/-- **The digits of a number are read back.** -/
theorem readDigits_toString (n : ℕ) : readDigits 10 (toString n).toList = some n := by
  have hdigits : (toString n).toList = Nat.toDigits 10 n := Nat.toList_repr
  have hpos : 0 < (toString n).toList.length := by
    rw [String.length_toList]
    exact Decimal.length_toString_nat_pos n
  have hread := readFrom_of_isDigit (Decimal.isDigit_toString_nat n) 0
  rw [hdigits, Nat.ofDigitChars_toDigits (by decide) (by decide)] at hread
  rw [← hread, ← hdigits]
  obtain ⟨c, chars, hchars⟩ := List.exists_cons_of_length_pos hpos
  rw [hchars, readDigits]

/-- A decimal text of a natural number starts with no sign. -/
theorem head?_toString_ne {sign : Char} (h : sign.isDigit = false) (n : ℕ) :
    (toString n).toList.head? ≠ some sign := by
  intro hhead
  have hdigit := Decimal.isDigit_toString_nat n sign (List.mem_of_mem_head? hhead)
  rw [h] at hdigit
  cases hdigit

theorem readUnsigned_toString {n max : ℕ} (h : n ≤ max) :
    readUnsigned 10 max (toString n).toList = some n := by
  rw [readUnsigned, if_neg (head?_toString_ne (by decide) n), readDigits_toString,
    Option.filter_some, if_pos (decide_eq_true h)]

theorem readSigned_toString {n min max : ℤ} (hmin : min ≤ n) (hmax : n ≤ max) :
    readSigned 10 min max (toString n).toList = some n := by
  cases n with
  | ofNat n =>
    have htext : (toString (Int.ofNat n)).toList = (toString n).toList := rfl
    rw [readSigned, htext, if_neg (head?_toString_ne (by decide) n),
      if_neg (head?_toString_ne (by decide) n), readDigits_toString, Option.map_some,
      Option.filter_some]
    exact if_pos (decide_eq_true hmax)
  | negSucc n =>
    have hneg : -((n + 1 : ℕ) : ℤ) = Int.negSucc n := rfl
    rw [readSigned, Decimal.toString_negSucc, List.head?_cons, if_pos rfl, List.tail_cons,
      readDigits_toString, Option.map_some, hneg, Option.filter_some, if_pos (decide_eq_true hmin)]

/-! ### Two hexadecimal digits -/

theorem digit_sixteen (c : Char) : digit 16 c = Hex.decodeDigit c := by
  cases h : Hex.decodeDigit c with
  | none => rw [digit, h, Option.filter_none]
  | some n => rw [digit, h, Option.filter_some, if_pos (decide_eq_true (Hex.decodeDigit_lt h))]

/-- A byte is read from two digits, or from a plus sign and a digit. -/
theorem readUnsigned_pair (x y : Char) : readUnsigned 16 255 [x, y] =
    if x = '+' then Hex.decodeDigit y
    else (Hex.decodeDigit x).bind fun high =>
      (Hex.decodeDigit y).map fun low => 16 * high + low := by
  rw [readUnsigned, List.head?_cons, List.tail_cons]
  by_cases hplus : x = '+'
  · rw [hplus, if_pos rfl, if_pos rfl, readDigits, readFrom, digit_sixteen]
    cases hlow : Hex.decodeDigit y with
    | none => rfl
    | some low =>
      have hlt := Hex.decodeDigit_lt hlow
      have hle : 16 * 0 + low ≤ 255 := by omega
      rw [Option.bind_eq_bind, Option.bind_some, readFrom, Option.filter_some,
        if_pos (decide_eq_true hle), Nat.mul_zero, Nat.zero_add]
  · rw [if_neg (by simpa using hplus), if_neg hplus, readDigits, readFrom, digit_sixteen]
    cases hhigh : Hex.decodeDigit x with
    | none => rfl
    | some high =>
      rw [Option.bind_eq_bind, Option.bind_some, Option.bind_some, readFrom, digit_sixteen]
      cases hlow : Hex.decodeDigit y with
      | none => rfl
      | some low =>
        have hhigh := Hex.decodeDigit_lt hhigh
        have hlow := Hex.decodeDigit_lt hlow
        have hle : 16 * (16 * 0 + high) + low ≤ 255 := by omega
        rw [Option.bind_eq_bind, Option.bind_some, readFrom, Option.filter_some,
          if_pos (decide_eq_true hle), Nat.mul_zero, Nat.zero_add]
        rfl

end IntegerText
