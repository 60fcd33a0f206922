import Mathlib.Init

/-!
# Saturating arithmetic

Sums and differences of 32 bits that stop at the bounds.

## Main results

* `Saturating.toNat_add`, `Saturating.toNat_sub` — what they are as natural numbers.
-/

namespace Saturating

/-- `u32::saturating_add`. -/
def add (a b : UInt32) : UInt32 := UInt32.ofNat (min (a.toNat + b.toNat) 0xffffffff)

/-- `u32::saturating_sub`. -/
def sub (a b : UInt32) : UInt32 := UInt32.ofNat (a.toNat - b.toNat)

theorem toNat_add (a b : UInt32) : (add a b).toNat = min (a.toNat + b.toNat) 0xffffffff := by
  have hlt : min (a.toNat + b.toNat) 0xffffffff < 2 ^ 32 := by omega
  rw [add, UInt32.toNat_ofNat_of_lt' hlt]

theorem toNat_sub (a b : UInt32) : (sub a b).toNat = a.toNat - b.toNat := by
  have ha := a.toNat_lt
  have hlt : a.toNat - b.toNat < 2 ^ 32 := by omega
  rw [sub, UInt32.toNat_ofNat_of_lt' hlt]

end Saturating
