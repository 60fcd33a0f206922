import Mathlib.Algebra.Order.Field.Rat
import Mathlib.Tactic.Linarith
import Mathlib.Tactic.NormNum
import Mathlib.Tactic.Push
import SorobanDevkit.Fuzz.NetworkProfile

/-!
# Differential comparison

A local execution is compared with a simulation of the network (`sdkt-fuzz/src/differential.rs`).
The costs may drift apart within a tolerance that is relative to the cost of the simulation.

The distance of two costs is taken through signed numbers. Where one of them is `2^63` or more and
the other is not, the subtraction overflows, or it gives the distance the other way round. The
distance and the cost of the simulation are converted to `f64`, and so is their quotient rounded.

That there is no value stands for the panic of an overflow.

## Main results

* `withinTolerance_cases` — when the comparison overflows, and what it compares.
* `driftExact_iff` — when the drift of a cost is measured exactly.
* `resource_drift_iff` — the drift of costs and the classification.
-/

namespace SorobanDevkit.Fuzz

/-! ### Metrics -/

/-- `MismatchClass`. -/
inductive MismatchClass
  | protocolMismatch
  | hostMismatch
  | staleLedgerState
  | resourceDrift
  | executionDivergence
  | incompleteProfile
  | matched
  deriving DecidableEq

/-- `LocalExecutionMetrics`. -/
structure LocalExecutionMetrics where
  ledgerSequence : UInt32
  protocolVersion : UInt32
  cpuInsns : UInt64
  memBytes : UInt64
  succeeded : Bool
  errorType : Option String
  deriving DecidableEq

/-- `RpcSimulationMetrics`. -/
structure RpcSimulationMetrics where
  ledgerSequence : UInt32
  protocolVersion : UInt32
  cpuInsns : UInt64
  memBytes : UInt64
  error : Bool
  deriving DecidableEq

/-! ### The status of a profile -/

/-- `is_malformed`: the two tables disagree in length. -/
def CostParamsSnapshot.isMalformed (params : CostParamsSnapshot) : Bool :=
  params.cpu.length ≠ params.mem.length

/-- `is_available`. -/
def Observed.isAvailable {α : Type} (observed : Observed α) : Bool := observed.value.isSome

/-- `has_complete_configuration`. -/
def NetworkProfile.hasCompleteConfiguration (profile : NetworkProfile) : Bool :=
  let c := profile.config
  let basic := c.cpuLimit.isAvailable && c.memLimit.isAvailable
    && c.ledgerMaxInstructions.isAvailable &&
    c.maxContractSizeBytes.isAvailable && c.txMaxSizeBytes.isAvailable && c.costParams.isAvailable
  let paramsOk := (c.costParams.value.map fun p => !p.isMalformed && !p.cpu.isEmpty).getD false
  basic && paramsOk

/-- `NetworkProfile::status`, for a host that supports protocols up to `hostSupportedProtocol`. -/
def NetworkProfile.status (hostSupportedProtocol : UInt32) (profile : NetworkProfile) :
    ProfileStatus :=
  if profile.protocolVersion > hostSupportedProtocol then .hostUnsupported
  else if !profile.hasCompleteConfiguration then .incomplete
  else .complete

/-! ### Drift -/

/-- The least number that is negative as a signed one. -/
def signBit : ℕ := 0x8000000000000000

/-- The number of unsigned numbers of 64 bits. -/
def wordSize : ℕ := 0x10000000000000000

/-- `as i64`. -/
def asI64 (n : UInt64) : ℤ := n.toInt64.toInt

/-- A subtraction of signed numbers, unless it overflows. -/
def subI64 (a b : ℤ) : Option ℤ :=
  if -(signBit : ℤ) ≤ a - b ∧ a - b < signBit then some (a - b) else none

/-- The nearest whole number, the even one of two. -/
def roundEven (q : ℚ) : ℤ :=
  let n := q.floor
  if q - n < 1 / 2 then n
  else if 1 / 2 < q - n then n + 1
  else n + n % 2

/-- The exponent of a positive number: the number is between this power of two and the next. -/
def exponent (q : ℚ) : ℤ :=
  let e : ℤ := (q.num.natAbs.log2 : ℤ) - q.den.log2
  if (2 : ℚ) ^ e ≤ q then e else e - 1

/-- `as f64`, and the result of a division: the nearest number with 53 bits, which is even where two
are near. This is what `f64` has for a number that is not negative, and zero or neither too small
nor too large for its exponents. -/
def asF64 (q : ℚ) : ℚ :=
  if q ≤ 0 then 0
  else
    let ulp : ℚ := 2 ^ (exponent q - 52)
    roundEven (q / ulp) * ulp

-- the constant `0.3`
example : asF64 (3 / 10) = 5404319552844595 / 18014398509481984 := by decide +kernel

/-- `MAX_COMPARISON_LEDGER_GAP`. -/
def maxComparisonLedgerGap : ℕ := 100

/-- `within_tolerance`. -/
def withinTolerance (loc rpc : UInt64) (tolerance : ℚ) : Option Bool :=
  if rpc = 0 then some (loc = 0)
  else (subI64 (asI64 loc) (asI64 rpc)).map fun d =>
    decide (asF64 (asF64 d.natAbs / asF64 rpc.toNat) ≤ tolerance)

/-- `classify`: the first check that fails decides. -/
def classify (hostSupportedProtocol : UInt32) (profile : NetworkProfile)
    (loc : LocalExecutionMetrics)
    (rpc : RpcSimulationMetrics) (cpuTolerance memTolerance : ℚ) : Option MismatchClass :=
  if loc.protocolVersion ≠ rpc.protocolVersion then some .protocolMismatch
  else if profile.status hostSupportedProtocol ≠ .complete then some .incompleteProfile
  else
    let ledgerGap := ((loc.ledgerSequence.toNat : ℤ) - rpc.ledgerSequence.toNat).natAbs
    if ledgerGap > maxComparisonLedgerGap then some .staleLedgerState
    else do
      -- The memory is not compared when the instructions drift.
      let cpuWithin ← withinTolerance loc.cpuInsns rpc.cpuInsns cpuTolerance
      let drift ← if !cpuWithin then some true
        else (withinTolerance loc.memBytes rpc.memBytes memTolerance).map (!·)
      if drift then some .resourceDrift
      else if loc.succeeded = rpc.error then some .executionDivergence
      else some .matched

/-- A number of 64 bits as a signed one. -/
theorem asI64_cases (n : UInt64) :
    (asI64 n = n.toNat ∧ n.toNat < signBit) ∨
      (asI64 n = (n.toNat : ℤ) - wordSize ∧ signBit ≤ n.toNat) := by
  have hcond := BitVec.toInt_eq_toNat_cond n.toBitVec
  have hbits : asI64 n = n.toBitVec.toInt := rfl
  have hnat : n.toBitVec.toNat = n.toNat := rfl
  have hsign : signBit = 9223372036854775808 := rfl
  have hword : wordSize = 18446744073709551616 := rfl
  rw [hnat] at hcond
  rw [hbits, hcond]
  split_ifs <;> omega

/-- Both numbers are less than `2^63`, or none is. -/
def SameSide (loc rpc : UInt64) : Prop := loc.toNat < signBit ↔ rpc.toNat < signBit

instance (loc rpc : UInt64) : Decidable (SameSide loc rpc) := inferInstanceAs (Decidable (_ ↔ _))

/-- The numbers are so far apart that their signed difference does not overflow. -/
def FarApart (loc rpc : UInt64) : Prop :=
  signBit + rpc.toNat ≤ loc.toNat ∨ signBit + loc.toNat < rpc.toNat

instance (loc rpc : UInt64) : Decidable (FarApart loc rpc) := inferInstanceAs (Decidable (_ ∨ _))

/-- The distance of two numbers. -/
def distance (loc rpc : UInt64) : ℕ := ((loc.toNat : ℤ) - rpc.toNat).natAbs

/-- The signed difference is at hand when neither number, or both, are below the boundary, or they
are far apart. -/
theorem subI64_asI64 (loc rpc : UInt64) : (subI64 (asI64 loc) (asI64 rpc)).map Int.natAbs =
    if SameSide loc rpc then some (distance loc rpc)
    else if FarApart loc rpc then some (wordSize - distance loc rpc) else none := by
  have hloc := loc.toNat_lt
  have hrpc := rpc.toNat_lt
  have hsign : signBit = 9223372036854775808 := rfl
  have hword : wordSize = 18446744073709551616 := rfl
  have hsub : ∀ a b : ℤ, -(signBit : ℤ) ≤ a - b ∧ a - b < signBit →
      (subI64 a b).map Int.natAbs = some (a - b).natAbs := by
    intro a b h
    rw [subI64, if_pos h, Option.map_some]
  have hover : ∀ a b : ℤ, ¬(-(signBit : ℤ) ≤ a - b ∧ a - b < signBit) →
      (subI64 a b).map Int.natAbs = none := by
    intro a b h
    rw [subI64, if_neg h, Option.map_none]
  have ha := asI64_cases loc
  have hb := asI64_cases rpc
  by_cases hside : SameSide loc rpc
  · rw [if_pos hside, hsub _ _ (by simp only [SameSide] at hside; omega), distance]
    simp only [SameSide] at hside
    exact congrArg some (by omega)
  · rw [if_neg hside]
    simp only [SameSide] at hside
    by_cases hfar : FarApart loc rpc
    · rw [if_pos hfar]
      simp only [FarApart] at hfar
      rw [hsub _ _ (by omega), distance]
      exact congrArg some (by omega)
    · rw [if_neg hfar]
      simp only [FarApart] at hfar
      exact hover _ _ (by omega)

/-! ### When a drift is measured -/

/-- The cost of the execution is within the tolerance of that of the simulation. -/
def Within (loc rpc : UInt64) (tolerance : ℚ) : Prop :=
  if rpc = 0 then loc = 0 else |(loc.toNat : ℚ) - rpc.toNat| ≤ tolerance * rpc.toNat

/-- The comparison does not overflow, and it says whether the cost is within the tolerance. -/
def DriftExact (loc rpc : UInt64) (tolerance : ℚ) : Prop :=
  ∃ b, withinTolerance loc rpc tolerance = some b ∧ (b = true ↔ Within loc rpc tolerance)

/-- The drift of two costs. -/
def drift (loc rpc : UInt64) : ℚ := distance loc rpc / rpc.toNat

/-- The drift of two costs that are on one side of `2^63`, or far apart on both, in `f64`. -/
def signedDrift (loc rpc : UInt64) : ℚ :=
  let d := if SameSide loc rpc then distance loc rpc else wordSize - distance loc rpc
  asF64 (asF64 d / asF64 rpc.toNat)

/-- The signed difference does not overflow, and the tolerance does not lie between the drift and
what `f64` has for it. -/
def DriftMeasured (loc rpc : UInt64) (tolerance : ℚ) : Prop :=
  rpc = 0 ∨ (SameSide loc rpc ∨ FarApart loc rpc) ∧
    ¬ (drift loc rpc ≤ tolerance ∧ tolerance < signedDrift loc rpc) ∧
    ¬ (signedDrift loc rpc ≤ tolerance ∧ tolerance < drift loc rpc)

/-- What the comparison with a cost that is not zero says: nothing, if the difference overflows. -/
theorem withinTolerance_cases {loc rpc : UInt64} (hrpc : rpc ≠ 0) (tolerance : ℚ) :
    withinTolerance loc rpc tolerance =
      if SameSide loc rpc ∨ FarApart loc rpc then some (decide (signedDrift loc rpc ≤ tolerance))
      else none := by
  have hmap : withinTolerance loc rpc tolerance =
      ((subI64 (asI64 loc) (asI64 rpc)).map Int.natAbs).map fun d : ℕ =>
        decide (asF64 (asF64 d / asF64 rpc.toNat) ≤ tolerance) := by
    rw [withinTolerance, if_neg hrpc, Option.map_map]
    rfl
  rw [hmap, subI64_asI64, signedDrift]
  by_cases hside : SameSide loc rpc
  · rw [if_pos hside, if_pos (Or.inl hside), if_pos hside, Option.map_some]
  rw [if_neg hside, if_neg hside]
  by_cases hfar : FarApart loc rpc
  · rw [if_pos hfar, if_pos (Or.inr hfar), Option.map_some]
  · rw [if_neg hfar, if_neg (not_or.mpr ⟨hside, hfar⟩), Option.map_none]

/-- The distance of two costs as a rational number. -/
theorem abs_sub_eq_distance (loc rpc : UInt64) :
    |(loc.toNat : ℚ) - rpc.toNat| = distance loc rpc := by
  rw [distance, Nat.cast_natAbs, Int.cast_abs, Int.cast_sub, Int.cast_natCast, Int.cast_natCast]

/-- A cost is within the tolerance if its drift is. -/
theorem within_iff_drift {loc rpc : UInt64} (hrpc : rpc ≠ 0) (tolerance : ℚ) :
    Within loc rpc tolerance ↔ drift loc rpc ≤ tolerance := by
  have hpos : (0 : ℚ) < rpc.toNat := by
    have hne : rpc.toNat ≠ 0 := fun h => hrpc (UInt64.toNat_inj.mp h)
    exact_mod_cast Nat.pos_of_ne_zero hne
  rw [Within, if_neg hrpc, abs_sub_eq_distance, drift, div_le_iff₀ hpos]

/-- **When the drift of a cost is measured exactly.** -/
theorem driftExact_iff (loc rpc : UInt64) (tolerance : ℚ) :
    DriftExact loc rpc tolerance ↔ DriftMeasured loc rpc tolerance := by
  by_cases hrpc : rpc = 0
  · refine iff_of_true ⟨decide (loc = 0), ?_, ?_⟩ (Or.inl hrpc)
    · rw [withinTolerance, if_pos hrpc]
    · rw [Within, if_pos hrpc, decide_eq_true_iff]
  rw [DriftExact, withinTolerance_cases hrpc, within_iff_drift hrpc, DriftMeasured,
    or_iff_right hrpc]
  by_cases hsub : SameSide loc rpc ∨ FarApart loc rpc
  · rw [if_pos hsub, and_iff_right hsub]
    constructor
    · rintro ⟨b, hb, hiff⟩
      obtain rfl := Option.some.inj hb
      rw [decide_eq_true_iff] at hiff
      exact ⟨fun h => absurd (hiff.mpr h.1) (not_le.mpr h.2),
        fun h => absurd (hiff.mp h.1) (not_le.mpr h.2)⟩
    · rintro ⟨hraised, hlowered⟩
      refine ⟨_, rfl, ?_⟩
      rw [decide_eq_true_iff]
      constructor
      · intro hmeasured
        by_contra hbeyond
        exact hlowered ⟨hmeasured, not_le.mp hbeyond⟩
      · intro hwithin
        by_contra hbeyond
        exact hraised ⟨hwithin, not_le.mp hbeyond⟩
  · rw [if_neg hsub]
    refine iff_of_false ?_ fun h => hsub h.1
    rintro ⟨b, hb, -⟩
    cases hb

/-! ### The classification -/

/-- The checks before that of the costs pass. -/
def ReachesDrift (hostSupportedProtocol : UInt32) (profile : NetworkProfile)
    (loc : LocalExecutionMetrics)
    (rpc : RpcSimulationMetrics) : Prop :=
  loc.protocolVersion = rpc.protocolVersion ∧ profile.status hostSupportedProtocol = .complete ∧
    ((loc.ledgerSequence.toNat : ℤ) - rpc.ledgerSequence.toNat).natAbs ≤ maxComparisonLedgerGap

/-- When the checks before it pass, a drift is reported exactly if a cost exceeds its tolerance. -/
def DriftReported (hostSupportedProtocol : UInt32) (profile : NetworkProfile)
    (loc : LocalExecutionMetrics)
    (rpc : RpcSimulationMetrics) (cpuTolerance memTolerance : ℚ) : Prop :=
  ReachesDrift hostSupportedProtocol profile loc rpc →
    ∃ c, classify hostSupportedProtocol profile loc rpc cpuTolerance memTolerance = some c ∧
      (c = .resourceDrift ↔ ¬Within loc.cpuInsns rpc.cpuInsns cpuTolerance ∨
        ¬Within loc.memBytes rpc.memBytes memTolerance)

/-- Where both costs are compared exactly, so is what is reported. -/
theorem driftReported_of_exact (hostSupportedProtocol : UInt32) (profile : NetworkProfile)
    {loc : LocalExecutionMetrics} {rpc : RpcSimulationMetrics} {cpuTolerance memTolerance : ℚ}
    (hcpu : DriftExact loc.cpuInsns rpc.cpuInsns cpuTolerance)
    (hmem : DriftExact loc.memBytes rpc.memBytes memTolerance) :
    DriftReported hostSupportedProtocol profile loc rpc cpuTolerance memTolerance := by
  rintro ⟨hprotocol, hstatus, hgap⟩
  obtain ⟨cpu, hcpu, hcpuWithin⟩ := hcpu
  obtain ⟨mem, hmem, hmemWithin⟩ := hmem
  rw [← hcpuWithin, ← hmemWithin, classify, if_neg (not_not.mpr hprotocol),
    if_neg (not_not.mpr hstatus),
    if_neg (not_lt.mpr hgap), hcpu]
  cases cpu with
  | false => exact ⟨.resourceDrift, rfl, by simp⟩
  | true =>
    rw [hmem]
    cases mem with
    | false => exact ⟨.resourceDrift, rfl, by simp⟩
    | true =>
      by_cases hsame : loc.succeeded = rpc.error
      · exact ⟨.executionDivergence, if_pos hsame, by simp⟩
      · exact ⟨.matched, if_neg hsame, by simp⟩

/-- **The drift of costs.** Both costs are compared exactly, and what is reported agrees, if and
only if both drifts are measured. -/
theorem resource_drift_iff (hostSupportedProtocol : UInt32) (profile : NetworkProfile)
    (loc : LocalExecutionMetrics) (rpc : RpcSimulationMetrics) (cpuTolerance memTolerance : ℚ) :
    (DriftExact loc.cpuInsns rpc.cpuInsns cpuTolerance ∧
      DriftExact loc.memBytes rpc.memBytes memTolerance ∧
        DriftReported hostSupportedProtocol profile loc rpc cpuTolerance memTolerance) ↔
      DriftMeasured loc.cpuInsns rpc.cpuInsns cpuTolerance ∧
        DriftMeasured loc.memBytes rpc.memBytes memTolerance := by
  rw [driftExact_iff, driftExact_iff]
  constructor
  · rintro ⟨hcpu, hmem, -⟩
    exact ⟨hcpu, hmem⟩
  · rintro ⟨hcpu, hmem⟩
    exact ⟨hcpu, hmem, driftReported_of_exact hostSupportedProtocol profile
      ((driftExact_iff _ _ _).mpr hcpu) ((driftExact_iff _ _ _).mpr hmem)⟩

/-- The drift from the greatest cost to none counts as one instruction, the drift from one to `2^63`
overflows, and a drift of three in ten counts as one within the `0.3` of `f64`, which is less.
-/
theorem withinTolerance_greatest :
    (withinTolerance 0 18446744073709551615 (1 / 64) = some true ∧
      ¬ Within 0 18446744073709551615 (1 / 64)) ∧
    withinTolerance 9223372036854775808 1 (1 / 64) = none ∧
    withinTolerance 13 10 (asF64 (3 / 10)) = some true ∧ ¬ Within 13 10 (asF64 (3 / 10)) := by
  have hten : (10 : UInt64).toNat = 10 := by decide
  have hthirteen : (13 : UInt64).toNat = 13 := by decide
  have hgreatest : (18446744073709551615 : UInt64).toNat = 18446744073709551615 := by decide
  refine ⟨⟨by decide +kernel, ?_⟩, by decide +kernel, by decide +kernel, ?_⟩
  · rw [Within, if_neg (by decide), hgreatest]
    norm_num
  · have hthree : asF64 (3 / 10) = 5404319552844595 / 18014398509481984 := by decide +kernel
    rw [Within, if_neg (by decide), hten, hthirteen, hthree]
    norm_num

end SorobanDevkit.Fuzz
