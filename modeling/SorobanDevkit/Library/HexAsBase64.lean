import SorobanDevkit.Library.Base64
import SorobanDevkit.Library.Hex
import SorobanDevkit.Library.Strings

/-!
# Texts that can be read in two bases

The digits of base 16 are digits of base 64 too, so every text of pairs of hexadecimal digits whose
length is a multiple of four has a second reading. The two readings never agree on the first byte of
bytes that begin with zero: two digits `0` of base 16 are twelve bits of base 64 that begin with
`0xd3`.

## Main results

* `Base64.exists_decode_of_hex` — a text of hexadecimal digits is read in base 64 too.
* `Base64.decode_of_hex_zero` — the first byte of that reading where the other one begins with zero.
* `Base64.hex_decode_encode_zero` — the same for a text that is meant in base 64.
-/

namespace Hex

/-- The digits of base 16, of either case. -/
def isDigit (c : Char) : Bool :=
  ('0' ≤ c && c ≤ '9') || ('a' ≤ c && c ≤ 'f') || ('A' ≤ c && c ≤ 'F')

theorem exists_decodeDigit_iff {c : Char} : (∃ n, decodeDigit c = some n) ↔ isDigit c := by
  rw [← Option.isSome_iff_exists, decodeDigit, isDigit]
  split_ifs with h0 ha hA <;> simp_all

theorem decodeChars_cons_cons_eq_some_iff {hi lo : Char} {chars : List Char} {bytes : List UInt8} :
    decodeChars (hi :: lo :: chars) = some bytes ↔ ∃ h l rest, decodeDigit hi = some h ∧
      decodeDigit lo = some l ∧ decodeChars chars = some rest ∧
        bytes = UInt8.ofNat (h * 16 + l) :: rest := by
  simp only [decodeChars, Option.bind_eq_bind, Option.bind_eq_some_iff, Option.some.injEq]
  constructor
  · rintro ⟨h, hh, l, hl, rest, hrest, rfl⟩
    exact ⟨h, l, rest, hh, hl, hrest, rfl⟩
  · rintro ⟨h, l, rest, hh, hl, hrest, rfl⟩
    exact ⟨h, hh, l, hl, rest, hrest, rfl⟩

theorem length_of_decodeChars {chars : List Char} {bytes : List UInt8}
    (h : decodeChars chars = some bytes) : chars.length = 2 * bytes.length := by
  induction chars using decodeChars.induct generalizing bytes with
  | case1 => obtain rfl : [] = bytes := by simpa [decodeChars] using h
             rfl
  | case2 hi lo chars ih =>
    obtain ⟨-, -, rest, -, -, hrest, rfl⟩ := decodeChars_cons_cons_eq_some_iff.mp h
    simp only [List.length_cons, ih hrest]
    omega
  | case3 c => simp [decodeChars] at h

theorem isDigit_of_decodeChars {chars : List Char} {bytes : List UInt8}
    (h : decodeChars chars = some bytes) : ∀ c ∈ chars, isDigit c := by
  induction chars using decodeChars.induct generalizing bytes with
  | case1 => simp
  | case2 hi lo chars ih =>
    obtain ⟨x, y, rest, hhi, hlo, hrest, -⟩ := decodeChars_cons_cons_eq_some_iff.mp h
    simp only [List.forall_mem_cons]
    exact ⟨exists_decodeDigit_iff.mp ⟨x, hhi⟩, exists_decodeDigit_iff.mp ⟨y, hlo⟩, ih hrest⟩
  | case3 c => simp [decodeChars] at h

theorem eq_zero_of_decodeDigit {c : Char} (h : decodeDigit c = some 0) : c = '0' := by
  rw [decodeDigit] at h
  split_ifs at h with h0
  · have hzero : '0'.toNat ≤ c.toNat := h0.1
    injection h with h
    exact Char.toNat_inj.mp (by omega)
  · injection h with h
    omega
  · injection h with h
    omega

/-- The bytes of a text begin with zero only if the text begins with two zeros. -/
theorem decodeChars_eq_zero_cons {chars : List Char} {bytes : List UInt8}
    (h : decodeChars chars = some (0 :: bytes)) : ∃ rest, chars = '0' :: '0' :: rest := by
  match chars with
  | [] => simp [decodeChars] at h
  | [c] => simp [decodeChars] at h
  | hi :: lo :: chars =>
    obtain ⟨x, y, rest, hhi, hlo, -, hbytes⟩ := decodeChars_cons_cons_eq_some_iff.mp h
    have hx := decodeDigit_lt hhi
    have hy := decodeDigit_lt hlo
    have hzero : x * 16 + y = 0 := by
      have hbyte := congrArg UInt8.toNat (List.cons.inj hbytes).1
      simp only [UInt8.toNat_zero, UInt8.toNat_ofNat'] at hbyte
      omega
    obtain ⟨rfl, rfl⟩ : x = 0 ∧ y = 0 := by omega
    exact ⟨chars, by rw [eq_zero_of_decodeDigit hhi, eq_zero_of_decodeDigit hlo]⟩

end Hex

namespace Base64

theorem decodeDigit_eq_some_of_mem {c : Char} (h : c ∈ alphabet) :
    ∃ n < 64, decodeDigit c = some n ∧ c ≠ '=' := by
  have hlt : alphabet.idxOf c < 64 := List.idxOf_lt_length_iff.mpr h
  refine ⟨alphabet.idxOf c, hlt, if_pos hlt, ?_⟩
  rintro rfl
  exact absurd h (by decide)

/-- Digits are read in base 64 if their number is a multiple of four. -/
theorem exists_decodeChars_of_mem : (chars : List Char) → (∀ c ∈ chars, c ∈ alphabet) →
    4 ∣ chars.length → ∃ bytes, decodeChars chars = some bytes
  | [], _, _ => ⟨[], rfl⟩
  | [_], _, hlength => by simp at hlength
  | [_, _], _, hlength => by simp at hlength
  | [_, _, _], _, hlength => by simp at hlength
  | x :: y :: z :: w :: chars, hdigits, hlength => by
    simp only [List.forall_mem_cons] at hdigits
    simp only [List.length_cons] at hlength
    obtain ⟨i, -, hi, -⟩ := decodeDigit_eq_some_of_mem hdigits.1
    obtain ⟨j, -, hj, -⟩ := decodeDigit_eq_some_of_mem hdigits.2.1
    obtain ⟨k, -, hk, -⟩ := decodeDigit_eq_some_of_mem hdigits.2.2.1
    obtain ⟨l, -, hl, hpad⟩ := decodeDigit_eq_some_of_mem hdigits.2.2.2.1
    obtain ⟨bytes, hbytes⟩ := exists_decodeChars_of_mem chars hdigits.2.2.2.2 (by omega)
    simp only [decodeChars, if_neg hpad, hi, hj, hk, hl, hbytes, Option.map_some,
      Option.some.injEq, exists_eq']

/-- The digits of base 16 are digits of base 64. -/
theorem mem_alphabet_of_isDigit {c : Char} (h : Hex.isDigit c) : c ∈ alphabet := by
  have hrange : ∀ (first : ℕ) (count : ℕ), (∀ i < count, Char.ofNat (first + i) ∈ alphabet) →
      first ≤ c.toNat → c.toNat < first + count → c ∈ alphabet := by
    intro first count hall hle hlt
    have hmem := hall (c.toNat - first) (by omega)
    rwa [Nat.add_sub_cancel' hle, Char.ofNat_toNat] at hmem
  simp only [Hex.isDigit, Bool.or_eq_true, Bool.and_eq_true, decide_eq_true_eq] at h
  rcases h with (h | h) | h
  · exact hrange 48 10 (by decide) h.1 (Nat.lt_succ_of_le h.2)
  · exact hrange 97 6 (by decide) h.1 (Nat.lt_succ_of_le h.2)
  · exact hrange 65 6 (by decide) h.1 (Nat.lt_succ_of_le h.2)

/-- A text of pairs of hexadecimal digits, for an even number of bytes, is read in base 64 too. -/
theorem exists_decode_of_hex {text : String} {bytes : List UInt8}
    (h : Hex.decode text = some bytes) (heven : 2 ∣ bytes.length) :
    ∃ bytes', decode text = some bytes' := by
  have hlength := Hex.length_of_decodeChars h
  exact exists_decodeChars_of_mem _
    (fun c hc => mem_alphabet_of_isDigit (Hex.isDigit_of_decodeChars h c hc)) (by omega)

/-- **The first byte of the other reading.** A text whose bytes in base 16 begin with zero begins
with `0xd3` in base 64. -/
theorem decode_of_hex_zero {text : String} {bytes bytes' : List UInt8}
    (h : Hex.decode text = some (0 :: bytes)) (h' : decode text = some bytes') :
    ∃ rest, bytes' = 0xd3 :: rest := by
  obtain ⟨rest, hrest⟩ := Hex.decodeChars_eq_zero_cons h
  have hdigits := Hex.isDigit_of_decodeChars h
  have hzero : decodeDigit '0' = some 52 := by decide
  rw [decode, hrest] at h'
  rcases rest with _ | ⟨z, _ | ⟨w, rest⟩⟩
  · simp [decodeChars] at h'
  · simp [decodeChars] at h'
  · rw [hrest] at hdigits
    simp only [List.forall_mem_cons] at hdigits
    obtain ⟨k, -, hk, -⟩ := decodeDigit_eq_some_of_mem (mem_alphabet_of_isDigit hdigits.2.2.1)
    obtain ⟨l, -, hl, hpad⟩ := decodeDigit_eq_some_of_mem (mem_alphabet_of_isDigit hdigits.2.2.2.1)
    rw [decodeChars, if_neg hpad, hzero, hk, hl] at h'
    simp only [Option.map_eq_some_iff] at h'
    obtain ⟨tail, -, rfl⟩ := h'
    exact ⟨_, rfl⟩

theorem four_dvd_length_encodeChars (bytes : List UInt8) : 4 ∣ (encodeChars bytes).length := by
  induction bytes using encodeChars.induct with
  | case1 => exact Nat.dvd_zero 4
  | case2 a => exact Nat.dvd_refl 4
  | case3 a b => exact Nat.dvd_refl 4
  | case4 a b c bytes ih =>
    rw [encodeChars]
    simp only [List.length_cons]
    omega

theorem four_dvd_length_encode (bytes : List UInt8) : 4 ∣ (encode bytes).toList.length := by
  rw [encode, String.toList_ofList]
  exact four_dvd_length_encodeChars bytes

theorem toList_encode_ne_nil {bytes : List UInt8} (h : bytes ≠ []) :
    (encode bytes).toList ≠ [] := by
  intro hnil
  have hdecode := decode_encode bytes
  rw [decode, hnil] at hdecode
  exact h (Option.some.inj hdecode).symm

theorem encode_injective : Function.Injective encode := by
  intro a b h
  have hdecode := decode_encode a
  rw [h, decode_encode] at hdecode
  exact (Option.some.inj hdecode).symm

theorem encodeChars_zero_cons (bytes : List UInt8) :
    ∃ rest, encodeChars (0 :: bytes) = 'A' :: rest := by
  match bytes with
  | [] => exact ⟨_, rfl⟩
  | [b] => exact ⟨_, rfl⟩
  | b :: c :: bytes => exact ⟨_, rfl⟩

/-- **The other way round.** Bytes that begin with zero are written in base 64 as a text that does
not begin with zero in base 16. -/
theorem hex_decode_encode_zero {bytes bytes' : List UInt8}
    (h : Hex.decode (encode (0 :: bytes)) = some bytes') :
    ∃ b rest, b ≠ 0 ∧ bytes' = b :: rest := by
  obtain ⟨chars, hchars⟩ := encodeChars_zero_cons bytes
  rw [Hex.decode, encode, String.toList_ofList, hchars] at h
  cases chars with
  | nil => simp [Hex.decodeChars] at h
  | cons lo chars =>
    obtain ⟨x, y, rest, hx, hy, -, rfl⟩ := Hex.decodeChars_cons_cons_eq_some_iff.mp h
    obtain rfl : 10 = x := Option.some.inj hx
    have hlt := Hex.decodeDigit_lt hy
    refine ⟨_, rest, fun hzero => ?_, rfl⟩
    have hbyte := congrArg UInt8.toNat hzero
    simp only [UInt8.toNat_ofNat', UInt8.toNat_zero] at hbyte
    omega

end Base64
