import SorobanDevkit.Library.Codec
import SorobanDevkit.Library.HexAsBase64

/-!
# Unions on the wire

A value of a union is written as the number of its arm, in four bytes with the highest first, and
the value of the arm. Of a union with few arms the first byte is zero, which tells its encodings
from other readings of the same text.

## Main results

* `IsUnion.read_error_of_hex`, `IsUnion.read_error_of_base64` — the reading in the wrong base is
  rejected.
-/

/-- A writer and a reader of a union of `arms` arms, which tells the arm by its number. -/
structure IsUnion {α ε : Type} (arms : ℕ) (write : α → List UInt8)
    (read : List UInt8 → Except ε (α × List UInt8)) : Prop where
  discriminant : ∀ a, ∃ n < arms, bigEndian 4 n <+: write a
  unknown : ∀ bytes, (∀ n < arms, ¬ bigEndian 4 n <+: bytes) → ∃ e, read bytes = .error e

theorem bigEndian_prefix_iff {m n : ℕ} (hm : m < 256 ^ 4) (hn : n < 256 ^ 4) {rest : List UInt8} :
    bigEndian 4 m <+: bigEndian 4 n ++ rest ↔ m = n := by
  constructor
  · intro h
    have heq := (List.prefix_of_prefix_length_le h (List.prefix_append _ rest)
      (by simp)).eq_of_length (by simp)
    have hnum := congrArg ofBigEndian heq
    rwa [ofBigEndian_bigEndian hm, ofBigEndian_bigEndian hn] at hnum
  · rintro rfl
    exact List.prefix_append _ _

theorem bigEndian_four (n : ℕ) : bigEndian 4 n =
    [UInt8.ofNat (n / 256 / 256 / 256), UInt8.ofNat (n / 256 / 256), UInt8.ofNat (n / 256),
      UInt8.ofNat n] := rfl

/-- The highest byte of a small number is zero. -/
theorem bigEndian_four_of_lt {n : ℕ} (h : n < 2 ^ 24) : ∃ rest, bigEndian 4 n = 0 :: rest := by
  have hzero : n / 256 / 256 / 256 = 0 := by omega
  exact ⟨_, by rw [bigEndian_four, hzero]; rfl⟩

namespace IsUnion

variable {α ε : Type} {arms : ℕ} {write : α → List UInt8}
  {read : List UInt8 → Except ε (α × List UInt8)}

/-- The first byte of a value is zero. -/
theorem exists_write_eq (h : IsUnion arms write read) (harms : arms ≤ 2 ^ 24) (a : α) :
    ∃ rest, write a = 0 :: rest := by
  obtain ⟨n, hn, payload, hwrite⟩ := h.discriminant a
  obtain ⟨rest, hrest⟩ := bigEndian_four_of_lt (hn.trans_le harms)
  exact ⟨rest ++ payload, by rw [← hwrite, hrest, List.cons_append]⟩

/-- Bytes of which the first is not zero are rejected. -/
theorem exists_read_eq_error (h : IsUnion arms write read) (harms : arms ≤ 2 ^ 24) {b : UInt8}
    (hb : b ≠ 0) (rest : List UInt8) : ∃ e, read (b :: rest) = .error e := by
  apply h.unknown
  intro n hn hprefix
  obtain ⟨tail, htail⟩ := bigEndian_four_of_lt (hn.trans_le harms)
  rw [htail, List.cons_prefix_cons] at hprefix
  exact hb hprefix.1.symm

/-- **The wrong reading is rejected.** A text of a value in base 16 that is read in base 64 is no
value of the union. -/
theorem read_error_of_hex (h : IsUnion arms write read) (harms : arms ≤ 2 ^ 24) {a : α}
    {text : String} {bytes : List UInt8} (hhex : Hex.decode text = some (write a))
    (hbase64 : Base64.decode text = some bytes) : ∃ e, read bytes = .error e := by
  obtain ⟨tail, htail⟩ := h.exists_write_eq harms a
  rw [htail] at hhex
  obtain ⟨rest, rfl⟩ := Base64.decode_of_hex_zero hhex hbase64
  exact h.exists_read_eq_error harms (by decide) rest

/-- The same for a text in base 64 that is read in base 16. -/
theorem read_error_of_base64 (h : IsUnion arms write read) (harms : arms ≤ 2 ^ 24) {a : α}
    {bytes : List UInt8} (hhex : Hex.decode (Base64.encode (write a)) = some bytes) :
    ∃ e, read bytes = .error e := by
  obtain ⟨tail, htail⟩ := h.exists_write_eq harms a
  rw [htail] at hhex
  obtain ⟨b, rest, hb, rfl⟩ := Base64.hex_decode_encode_zero hhex
  exact h.exists_read_eq_error harms hb rest

end IsUnion

namespace Codec

variable {α : Type}

/-- No bytes. -/
def empty : Codec Unit where
  write _ := []
  read bytes := some ((), bytes)
  read_write _ _ := rfl

/-- Bytes of a fixed number. -/
def fixed (n : ℕ) : Codec (Vector UInt8 n) where
  write v := v.toList
  read bytes :=
    if n ≤ bytes.length then some (Vector.ofFn fun i => bytes.getD i 0, bytes.drop n) else none
  read_write v rest := by
    have hlength : v.toList.length = n := by simp
    have hvector : (Vector.ofFn fun i : Fin n => (v.toList ++ rest).getD i 0) = v := by
      apply Vector.ext
      intro i hi
      rw [Vector.getElem_ofFn, List.getD_eq_getElem?_getD,
        List.getElem?_append_left (by rwa [hlength]), List.getElem?_eq_getElem (by rwa [hlength]),
        Option.getD_some, Vector.getElem_toList]
    rw [if_pos (by rw [List.length_append, hlength]; exact Nat.le_add_right _ _), hvector,
      List.drop_left' hlength]

/-- A value after a number that tells its kind. -/
def discriminated (n : ℕ) (c : Codec α) : Codec α where
  write a := bigEndian 4 n ++ c.write a
  read bytes := if bigEndian 4 n <+: bytes then c.read (bytes.drop 4) else none
  read_write a rest := by
    rw [List.append_assoc, if_pos (List.prefix_append _ _), List.drop_left' (length_bigEndian 4 n),
      c.read_write]

/-- A value of one of several arms, after the number of the arm. -/
def union (arm : α → ℕ) (harm : ∀ a, arm a < 256 ^ 4) (payload : α → List UInt8)
    (readPayload : ℕ → List UInt8 → Option (α × List UInt8))
    (h : ∀ a rest, readPayload (arm a) (payload a ++ rest) = some (a, rest)) : Codec α where
  write a := bigEndian 4 (arm a) ++ payload a
  read bytes :=
    if 4 ≤ bytes.length then readPayload (ofBigEndian (bytes.take 4)) (bytes.drop 4) else none
  read_write a rest := by
    have hlength := length_bigEndian 4 (arm a)
    rw [List.append_assoc, if_pos (by rw [List.length_append, hlength]; exact Nat.le_add_right _ _),
      List.take_left' hlength, List.drop_left' hlength, ofBigEndian_bigEndian (harm a), h]

/-- A number is read as the number it is. -/
theorem u32_read {n : ℕ} (h : n < 2 ^ 32) (rest : List UInt8) :
    u32.read (bigEndian 4 n ++ rest) = some (UInt32.ofNat n, rest) := by
  have hread := u32.read_write (UInt32.ofNat n) rest
  have hn : (UInt32.ofNat n).toNat = n := by
    rw [UInt32.toNat_ofNat']
    exact Nat.mod_eq_of_lt h
  have hwrite : u32.write (UInt32.ofNat n) = bigEndian 4 n := congrArg (bigEndian 4) hn
  rwa [hwrite] at hread

/-- A reader with an error where there is no value. -/
def readOr {ε : Type} (c : Codec α) (e : ε) (bytes : List UInt8) : Except ε (α × List UInt8) :=
  match c.read bytes with
  | some (a, rest) => .ok (a, rest)
  | none => .error e

theorem readOr_write {ε : Type} (c : Codec α) (e : ε) (a : α) (rest : List UInt8) :
    c.readOr e (c.write a ++ rest) = .ok (a, rest) := by
  rw [readOr, c.read_write]

theorem readOr_eq_error_iff {ε : Type} {c : Codec α} {e : ε} {bytes : List UInt8} :
    (∃ e', c.readOr e bytes = .error e') ↔ c.read bytes = none := by
  rw [readOr]
  cases c.read bytes with
  | none => exact iff_of_true ⟨e, rfl⟩ rfl
  | some read => exact iff_of_false (by rintro ⟨e', he'⟩; cases he') (by simp)

/-- Values after one number are a union of which other arms have no values. -/
theorem isUnion_discriminated {ε : Type} {n arms : ℕ} (hn : n < arms) (c : Codec α) (e : ε) :
    IsUnion arms (discriminated n c).write ((discriminated n c).readOr e) where
  discriminant a := ⟨n, hn, List.prefix_append _ _⟩
  unknown bytes h := ⟨e, by simp only [readOr, discriminated, if_neg (h n hn)]⟩

end Codec
