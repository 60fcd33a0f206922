import Mathlib.Data.List.Basic
import SorobanDevkit.Library.Bytes

/-!
# Encodings of a fixed width

An encoding into words that all have one length and determine what they encode can be read off the
front of a longer word.

## Main results

* `FixedWidth.append_inj` — the encoded value and the rest are determined.
* `fixedWidth_uint32`, `fixedWidth_uint64`, `fixedWidth_int64` — machine numbers.
-/

variable {α β γ : Type*}

/-- Every word has the length `n`, and it determines what it encodes. -/
structure FixedWidth (encode : α → List β) (n : ℕ) : Prop where
  length_eq : ∀ a, (encode a).length = n
  injective : Function.Injective encode

/-- **Reading a value off.** What is encoded at the front and what follows it are determined. -/
theorem FixedWidth.append_inj {encode : α → List β} {n : ℕ} (h : FixedWidth encode n) {a a' : α}
    {rest rest' : List β} (happend : encode a ++ rest = encode a' ++ rest') : a = a' ∧
      rest = rest' := by
  have hlength : (encode a).length = (encode a').length := by rw [h.length_eq, h.length_eq]
  obtain ⟨hencode, hrest⟩ := List.append_inj happend hlength
  exact ⟨h.injective hencode, hrest⟩

/-- An encoding after a map that loses nothing. -/
theorem FixedWidth.comp {encode : β → List γ} {n : ℕ} (h : FixedWidth encode n) {f : α → β}
    (hf : Function.Injective f) : FixedWidth (fun a => encode (f a)) n :=
  ⟨fun a => h.length_eq (f a), h.injective.comp hf⟩

/-! ### Bytes -/

/-- `u32::to_be_bytes` has four bytes. -/
theorem fixedWidth_uint32 : FixedWidth (fun n : UInt32 => bigEndian 4 n.toNat) 4 where
  length_eq n := length_bigEndian 4 n.toNat
  injective m n h := by
    have hread : ∀ k : UInt32, ofBigEndian (bigEndian 4 k.toNat) = k.toNat := fun k =>
      ofBigEndian_bigEndian k.toNat_lt
    refine UInt32.toNat_inj.mp ?_
    rw [← hread m, ← hread n]
    exact congrArg ofBigEndian h

/-- `u64::to_be_bytes` has eight bytes. -/
theorem fixedWidth_uint64 : FixedWidth (fun n : UInt64 => bigEndian 8 n.toNat) 8 where
  length_eq n := length_bigEndian 8 n.toNat
  injective m n h := by
    have hread : ∀ k : UInt64, ofBigEndian (bigEndian 8 k.toNat) = k.toNat := fun k =>
      ofBigEndian_bigEndian k.toNat_lt
    refine UInt64.toNat_inj.mp ?_
    rw [← hread m, ← hread n]
    exact congrArg ofBigEndian h

/-- `i64::to_be_bytes` has eight bytes. -/
theorem fixedWidth_int64 : FixedWidth (fun n : Int64 => bigEndian 8 n.toUInt64.toNat) 8 :=
  fixedWidth_uint64.comp (Function.LeftInverse.injective fun n : Int64 => n.toInt64_toUInt64)

/-- Every eight bytes are those of a signed number. -/
theorem exists_int64_bytes {bytes : List UInt8} (h : bytes.length = 8) :
    ∃ n : Int64, bigEndian 8 n.toUInt64.toNat = bytes := by
  have hlt : ofBigEndian bytes < 2 ^ 64 := by
    have hbytes := ofBigEndian_lt bytes
    rw [h] at hbytes
    exact hbytes
  refine ⟨(UInt64.ofNat (ofBigEndian bytes)).toInt64, ?_⟩
  rw [UInt64.toUInt64_toInt64, UInt64.toNat_ofNat_of_lt' hlt, ← h]
  exact bigEndian_ofBigEndian bytes
