import Mathlib.Data.List.GetD
import Mathlib.Data.Nat.Notation
import SorobanDevkit.Library.Strings

/-!
# Base64

The standard alphabet with padding. Three bytes are four digits of six bits; the last digits of a
text whose number of bytes is not a multiple of three are padded with `=`, and the bits that are
left over in them are zero.

## Main results

* `Base64.decode_encode` — decoding inverts encoding.
* `Base64.mem_encode` — the characters of an encoding.
* `Base64.trim_encode` — there is no white space around an encoding.
-/

namespace Base64

/-- The 64 digits. -/
def alphabet : List Char :=
  "ABCDEFGHIJKLMNOPQRSTUVWXYZabcdefghijklmnopqrstuvwxyz0123456789+/".toList

/-- The digit of six bits. -/
def encodeDigit (n : ℕ) : Char := alphabet.getD n '='

/-- The six bits of a digit. -/
def decodeDigit (c : Char) : Option ℕ :=
  if alphabet.idxOf c < 64 then some (alphabet.idxOf c) else none

/-- The digits of bytes. -/
def encodeChars : List UInt8 → List Char
  | [] => []
  | [a] => [encodeDigit (a.toNat / 4), encodeDigit (a.toNat % 4 * 16), '=', '=']
  | [a, b] => [encodeDigit (a.toNat / 4), encodeDigit (a.toNat % 4 * 16 + b.toNat / 16),
      encodeDigit (b.toNat % 16 * 4), '=']
  | a :: b :: c :: bytes =>
    encodeDigit (a.toNat / 4) :: encodeDigit (a.toNat % 4 * 16 + b.toNat / 16) ::
      encodeDigit (b.toNat % 16 * 4 + c.toNat / 64) :: encodeDigit (c.toNat % 64) ::
        encodeChars bytes

/-- The one or two bytes of digits before padding. -/
def decodeLast (x y z : Char) : Option (List UInt8) :=
  match decodeDigit x, decodeDigit y with
  | some i, some j =>
    if z = '=' then
      if j % 16 = 0 then some [UInt8.ofNat (i * 4 + j / 16)] else none
    else
      match decodeDigit z with
      | some k =>
        if k % 4 = 0 then
          some [UInt8.ofNat (i * 4 + j / 16), UInt8.ofNat (j % 16 * 16 + k / 4)]
        else none
      | none => none
  | _, _ => none

/-- The bytes of digits, if there are any. -/
def decodeChars : List Char → Option (List UInt8)
  | [] => some []
  | x :: y :: z :: w :: chars =>
    if w = '=' then
      if chars = [] then decodeLast x y z else none
    else
      match decodeDigit x, decodeDigit y, decodeDigit z, decodeDigit w with
      | some i, some j, some k, some l =>
        (decodeChars chars).map fun bytes =>
          UInt8.ofNat (i * 4 + j / 16) :: UInt8.ofNat (j % 16 * 16 + k / 4) ::
            UInt8.ofNat (k % 4 * 64 + l) :: bytes
      | _, _, _, _ => none
  | _ => none

/-- The text of bytes. -/
def encode (bytes : List UInt8) : String := String.ofList (encodeChars bytes)

/-- The bytes of a text, if it is canonical base64. -/
def decode (text : String) : Option (List UInt8) := decodeChars text.toList

theorem alphabet_nodup : alphabet.Nodup := by
  decide

theorem decodeDigit_encodeDigit {n : ℕ} (h : n < 64) : decodeDigit (encodeDigit n) = some n := by
  have hlength : n < alphabet.length := h
  have hindex : alphabet.idxOf (encodeDigit n) = n := by
    rw [encodeDigit, List.getD_eq_getElem _ _ hlength]
    exact alphabet_nodup.idxOf_getElem n hlength
  rw [decodeDigit, hindex, if_pos h]

theorem encodeDigit_ne_pad {n : ℕ} (h : n < 64) : encodeDigit n ≠ '=' := by
  intro heq
  have hpad : decodeDigit '=' = none := by decide
  have hdecode := decodeDigit_encodeDigit h
  rw [heq, hpad] at hdecode
  cases hdecode

theorem ofNat_eq {b : UInt8} {n : ℕ} (h : n = b.toNat) : UInt8.ofNat n = b := by
  rw [h, UInt8.ofNat_toNat]

theorem decodeChars_encodeChars (bytes : List UInt8) :
    decodeChars (encodeChars bytes) = some bytes := by
  induction bytes using encodeChars.induct with
  | case1 => rfl
  | case2 a =>
    have ha := a.toNat_lt
    rw [encodeChars, decodeChars, if_pos rfl, if_pos rfl, decodeLast,
      decodeDigit_encodeDigit (by omega), decodeDigit_encodeDigit (by omega)]
    simp only [if_true]
    rw [if_pos (by omega), ofNat_eq (b := a) (by omega)]
  | case3 a b =>
    have ha := a.toNat_lt
    have hb := b.toNat_lt
    rw [encodeChars, decodeChars, if_pos rfl, if_pos rfl, decodeLast,
      decodeDigit_encodeDigit (by omega), decodeDigit_encodeDigit (by omega),
      decodeDigit_encodeDigit (by omega)]
    simp only [if_neg (encodeDigit_ne_pad (n := b.toNat % 16 * 4) (by omega))]
    rw [if_pos (by omega), ofNat_eq (b := a) (by omega), ofNat_eq (b := b) (by omega)]
  | case4 a b c bytes ih =>
    have ha := a.toNat_lt
    have hb := b.toNat_lt
    have hc := c.toNat_lt
    rw [encodeChars, decodeChars, if_neg (encodeDigit_ne_pad (by omega)),
      decodeDigit_encodeDigit (by omega), decodeDigit_encodeDigit (by omega),
      decodeDigit_encodeDigit (by omega), decodeDigit_encodeDigit (by omega), ih]
    simp only [Option.map_some]
    rw [ofNat_eq (b := a) (by omega), ofNat_eq (b := b) (by omega), ofNat_eq (b := c) (by omega)]

/-- **Decoding inverts encoding.** -/
theorem decode_encode (bytes : List UInt8) : decode (encode bytes) = some bytes := by
  rw [decode, encode, String.toList_ofList, decodeChars_encodeChars]

theorem encodeDigit_mem (n : ℕ) : encodeDigit n ∈ alphabet ∨ encodeDigit n = '=' := by
  by_cases h : n < alphabet.length
  · rw [encodeDigit, List.getD_eq_getElem _ _ h]
    exact .inl (List.getElem_mem h)
  · rw [encodeDigit, List.getD_eq_default _ _ (Nat.le_of_not_lt h)]
    exact .inr rfl

theorem mem_encodeChars {bytes : List UInt8} {c : Char} (h : c ∈ encodeChars bytes) :
    c ∈ alphabet ∨ c = '=' := by
  induction bytes using encodeChars.induct with
  | case1 => cases h
  | case2 a =>
    simp only [encodeChars, List.mem_cons, List.not_mem_nil, or_false] at h
    rcases h with rfl | rfl | rfl | rfl
    · exact encodeDigit_mem _
    · exact encodeDigit_mem _
    · exact .inr rfl
    · exact .inr rfl
  | case3 a b =>
    simp only [encodeChars, List.mem_cons, List.not_mem_nil, or_false] at h
    rcases h with rfl | rfl | rfl | rfl
    · exact encodeDigit_mem _
    · exact encodeDigit_mem _
    · exact encodeDigit_mem _
    · exact .inr rfl
  | case4 a b c bytes ih =>
    simp only [encodeChars, List.mem_cons] at h
    rcases h with rfl | rfl | rfl | rfl | h
    · exact encodeDigit_mem _
    · exact encodeDigit_mem _
    · exact encodeDigit_mem _
    · exact encodeDigit_mem _
    · exact ih h

/-- The characters of an encoding are digits and padding. -/
theorem mem_encode {bytes : List UInt8} {c : Char} (h : c ∈ (encode bytes).toList) :
    c ∈ alphabet ∨ c = '=' := by
  rw [encode, String.toList_ofList] at h
  exact mem_encodeChars h

/-- There is no white space around an encoding. -/
theorem trim_encode (bytes : List UInt8) : Strings.trim (encode bytes) = encode bytes := by
  have hdigits : ∀ c ∈ alphabet, Strings.isWhitespace c = false :=
    Strings.forall_mem_of_any (by decide)
  refine Strings.trim_eq_self fun c hc => ?_
  obtain hmem | rfl := mem_encode hc
  · exact hdigits c hmem
  · rfl

end Base64
