import Mathlib.Algebra.Group.Nat.Defs
import Mathlib.Data.List.Basic
import Mathlib.Data.Nat.Notation

/-!
# Numbers as bytes

The digits of a number in base 256, of a given width, with the least or the most significant one
first.

## Main results

* `ofBigEndian_bigEndian` — a number that fits its width is read back.
* `bigEndian_ofBigEndian` — every word of bytes is the writing of a number.
-/

/-- The lowest `width` bytes of a number, the lowest first. -/
def littleEndian : (width n : ℕ) → List UInt8
  | 0, _ => []
  | width + 1, n => UInt8.ofNat n :: littleEndian width (n / 256)

/-- The lowest `width` bytes of a number, the highest first. -/
def bigEndian (width n : ℕ) : List UInt8 := (littleEndian width n).reverse

/-- The number of bytes with the lowest first. -/
def ofLittleEndian : List UInt8 → ℕ
  | [] => 0
  | b :: bytes => b.toNat + 256 * ofLittleEndian bytes

/-- The number of bytes with the highest first. -/
def ofBigEndian (bytes : List UInt8) : ℕ := ofLittleEndian bytes.reverse

@[simp] theorem length_littleEndian (width n : ℕ) : (littleEndian width n).length = width := by
  induction width generalizing n with
  | zero => rfl
  | succ width ih => rw [littleEndian, List.length_cons, ih]

@[simp] theorem length_bigEndian (width n : ℕ) : (bigEndian width n).length = width := by
  rw [bigEndian, List.length_reverse, length_littleEndian]

theorem ofLittleEndian_littleEndian {width n : ℕ} (h : n < 256 ^ width) :
    ofLittleEndian (littleEndian width n) = n := by
  induction width generalizing n with
  | zero => rw [pow_zero, Nat.lt_one_iff] at h; rw [h]; rfl
  | succ width ih =>
    have hdiv : n / 256 < 256 ^ width := Nat.div_lt_of_lt_mul (by rwa [pow_succ'] at h)
    rw [littleEndian, ofLittleEndian, ih hdiv, UInt8.toNat_ofNat']
    exact Nat.mod_add_div n 256

/-- A number that fits its width is read back. -/
@[simp] theorem ofBigEndian_bigEndian {width n : ℕ} (h : n < 256 ^ width) :
    ofBigEndian (bigEndian width n) = n := by
  rw [ofBigEndian, bigEndian, List.reverse_reverse, ofLittleEndian_littleEndian h]

theorem ofLittleEndian_lt (bytes : List UInt8) : ofLittleEndian bytes < 256 ^ bytes.length := by
  induction bytes with
  | nil => exact Nat.one_pos
  | cons b bytes ih =>
    have hb := b.toNat_lt
    rw [List.length_cons, pow_succ', ofLittleEndian]
    omega

/-- The number that bytes write is less than the number of such words. -/
theorem ofBigEndian_lt (bytes : List UInt8) : ofBigEndian bytes < 256 ^ bytes.length := by
  rw [ofBigEndian, ← List.length_reverse]
  exact ofLittleEndian_lt bytes.reverse

theorem littleEndian_ofLittleEndian (bytes : List UInt8) :
    littleEndian bytes.length (ofLittleEndian bytes) = bytes := by
  induction bytes with
  | nil => rfl
  | cons b bytes ih =>
    have hb := b.toNat_lt
    have hdiv : (b.toNat + 256 * ofLittleEndian bytes) / 256 = ofLittleEndian bytes := by omega
    have hmod : UInt8.ofNat (b.toNat + 256 * ofLittleEndian bytes) = b := by
      refine UInt8.toNat_inj.mp ?_
      rw [UInt8.toNat_ofNat']
      omega
    rw [List.length_cons, ofLittleEndian, littleEndian, hdiv, hmod, ih]

/-- Every word of bytes is the writing of a number. -/
theorem bigEndian_ofBigEndian (bytes : List UInt8) :
    bigEndian bytes.length (ofBigEndian bytes) = bytes := by
  have hlittle := littleEndian_ofLittleEndian bytes.reverse
  rw [List.length_reverse] at hlittle
  rw [bigEndian, ofBigEndian, hlittle, List.reverse_reverse]
