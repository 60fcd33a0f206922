import Mathlib.Data.List.GetD
import Mathlib.Data.Nat.Notation
import Mathlib.Tactic.SplitIfs

/-!
# Base 16

Two digits for each byte, the high half first. Texts are written in lower case and read in either.

## Main results

* `Hex.decode_encode` — decoding inverts encoding.
* `Hex.isAlphanum_encode` — the digits are letters and digits.
-/

namespace Hex

/-- The sixteen digits. -/
def alphabet : List Char := "0123456789abcdef".toList

/-- The digit of four bits. -/
def encodeDigit (n : ℕ) : Char := alphabet.getD n '0'

/-- The four bits of a digit. -/
def decodeDigit (c : Char) : Option ℕ :=
  if '0' ≤ c ∧ c ≤ '9' then some (c.toNat - '0'.toNat)
  else if 'a' ≤ c ∧ c ≤ 'f' then some (c.toNat - 'a'.toNat + 10)
  else if 'A' ≤ c ∧ c ≤ 'F' then some (c.toNat - 'A'.toNat + 10)
  else none

/-- The digits of bytes. -/
def encodeChars : List UInt8 → List Char
  | [] => []
  | b :: bytes => encodeDigit (b.toNat / 16) :: encodeDigit (b.toNat % 16) :: encodeChars bytes

/-- The bytes of digits, if there are any. -/
def decodeChars : List Char → Option (List UInt8)
  | [] => some []
  | hi :: lo :: chars => do
    let h ← decodeDigit hi
    let l ← decodeDigit lo
    let bytes ← decodeChars chars
    some (UInt8.ofNat (h * 16 + l) :: bytes)
  | [_] => none

/-- The text of bytes. -/
def encode (bytes : List UInt8) : String := String.ofList (encodeChars bytes)

/-- The bytes of a text, if its characters are pairs of digits. -/
def decode (text : String) : Option (List UInt8) := decodeChars text.toList

theorem decodeDigit_encodeDigit {n : ℕ} (h : n < 16) : decodeDigit (encodeDigit n) = some n := by
  have hall : ∀ m : Fin 16, decodeDigit (encodeDigit m) = some m.1 := by decide
  exact hall ⟨n, h⟩

theorem decodeDigit_lt {c : Char} {n : ℕ} (h : decodeDigit c = some n) : n < 16 := by
  unfold decodeDigit at h
  split_ifs at h with h0 ha hA
  all_goals obtain rfl := Option.some.inj h
  · have hlast : c.toNat ≤ '9'.toNat := h0.2
    change c.toNat ≤ 57 at hlast
    change c.toNat - 48 < 16
    omega
  · have hlast : c.toNat ≤ 'f'.toNat := ha.2
    change c.toNat ≤ 102 at hlast
    change c.toNat - 97 + 10 < 16
    omega
  · have hlast : c.toNat ≤ 'F'.toNat := hA.2
    change c.toNat ≤ 70 at hlast
    change c.toNat - 65 + 10 < 16
    omega

theorem decodeChars_encodeChars (bytes : List UInt8) :
    decodeChars (encodeChars bytes) = some bytes := by
  induction bytes with
  | nil => rfl
  | cons b bytes ih =>
    have hb := b.toNat_lt
    have hhalves : b.toNat / 16 * 16 + b.toNat % 16 = b.toNat := Nat.div_add_mod' b.toNat 16
    rw [encodeChars, decodeChars, decodeDigit_encodeDigit (by omega),
      decodeDigit_encodeDigit (by omega), ih]
    simp only [Option.bind_eq_bind, Option.bind_some, hhalves, UInt8.ofNat_toNat]

/-- **Decoding inverts encoding.** -/
@[simp] theorem decode_encode (bytes : List UInt8) : decode (encode bytes) = some bytes := by
  rw [decode, encode, String.toList_ofList, decodeChars_encodeChars]

@[simp] theorem length_encodeChars (bytes : List UInt8) :
    (encodeChars bytes).length = 2 * bytes.length := by
  induction bytes with
  | nil => rfl
  | cons b bytes ih =>
    rw [encodeChars, List.length_cons, List.length_cons, List.length_cons, ih]
    omega

theorem encode_injective : Function.Injective encode := by
  intro bytes bytes' h
  have hdecode := congrArg decode h
  rwa [decode_encode, decode_encode, Option.some_inj] at hdecode

/-- What is encoded are digits. -/
theorem isSome_decodeDigit_of_mem {bytes : List UInt8} {c : Char} (hc : c ∈ encodeChars bytes) :
    (decodeDigit c).isSome = true := by
  induction bytes with
  | nil => cases hc
  | cons b bytes ih =>
    have hb := b.toNat_lt
    rcases List.mem_cons.mp hc with rfl | hc
    · rw [decodeDigit_encodeDigit (by omega)]
      rfl
    · rcases List.mem_cons.mp hc with rfl | hc
      · rw [decodeDigit_encodeDigit (by omega)]
        rfl
      · exact ih hc

theorem isAlphanum_encode (bytes : List UInt8) : ∀ c ∈ (encode bytes).toList, c.isAlphanum := by
  have hdigit : ∀ n : Fin 16, (encodeDigit n).isAlphanum := by decide
  intro c hc
  rw [encode, String.toList_ofList] at hc
  induction bytes with
  | nil => cases hc
  | cons b bytes ih =>
    have hb := b.toNat_lt
    rw [encodeChars, List.mem_cons, List.mem_cons] at hc
    rcases hc with rfl | rfl | hc
    · exact hdigit ⟨b.toNat / 16, by omega⟩
    · exact hdigit ⟨b.toNat % 16, by omega⟩
    · exact ih hc

end Hex
