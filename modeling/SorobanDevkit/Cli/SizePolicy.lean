import SorobanDevkit.Cli.ReleaseChecks

/-!
# The rules on the size of a candidate

`evaluate_size_policy` (`sdkt-cli/src/main.rs`) compares the size of a candidate with a limit in
bytes, and its growth with a limit in percent. The growth is what `size_delta_pct` of
`sdkt-wasm/src/spec_diff.rs` gives, which is rounded to one decimal place for display. Here the
percentages are exact rational numbers, and the comparison with the growth that was not rounded is
settled at every threshold.

## Main results

* `lt_roundHalfAway_iff` — when a rounded number exceeds a limit.
* `reportsGrowth_iff` — when the policy reports a growth violation.
* `sizePolicyExact_iff` — the policy is exact if and only if rounding does not cross the limit.
-/

namespace SorobanDevkit.Cli

open Wasm
open Strings (startsWith)

/-! ### The policy -/

section Percentages

variable {F : Type} [LT F] [DecidableLT F] (sizeDeltaPct : ℕ → ℕ → Option F)
  (display : F → String)

/-- `format_growth_pct`. -/
def formatGrowthPctOf : Option F → String
  | some p => display p ++ "%"
  | none => "undefined (zero-byte baseline)"

/-- The rule on the size, in `evaluate_size_policy`. -/
def sizeRule (newBytes : ℕ) : Option ℕ → List String
  | some max =>
    if max < newBytes then
      ["artifact size " ++ toString newBytes ++ " bytes exceeds --max-size-bytes " ++ toString max]
    else []
  | none => []

/-- The rule on the growth, in `evaluate_size_policy`. -/
def growthRule (oldBytes : Option ℕ) (newBytes : ℕ) : Option F → List String
  | some maxPct =>
    match oldBytes with
    | none => ["--max-growth-pct requires a previous artifact (--previous-wasm) to measure growth"]
    | some old =>
      match sizeDeltaPct old newBytes with
      | some pct =>
        if maxPct < pct then
          ["size growth " ++ formatGrowthPctOf display (some pct) ++
            " exceeds --max-growth-pct " ++ display maxPct]
        else []
      | none =>
        ["size growth is " ++ formatGrowthPctOf display none ++
          " — cannot be compared against --max-growth-pct " ++ display maxPct]
  | none => []

/-- `evaluate_size_policy`: the violated rules. -/
def evaluateSizePolicyOf (oldBytes : Option ℕ) (newBytes : ℕ) (maxSizeBytes : Option ℕ)
    (maxGrowthPct : Option F) : List String :=
  sizeRule newBytes maxSizeBytes ++ growthRule sizeDeltaPct display oldBytes newBytes maxGrowthPct

end Percentages

/-- `size_delta_pct`, with the division by the baseline left open. -/
def sizeDeltaPctBy (div : ℚ → ℚ → ℚ) (oldBytes newBytes : ℕ) : Option ℚ :=
  if oldBytes = 0 then
    if newBytes = 0 then some 0 else none
  else
    let pct : ℚ := div (((newBytes : ℚ) - oldBytes) * 100) oldBytes
    some (roundHalfAway (pct * 10) / 10)

/-- A division that is right wherever the divisor is not zero. -/
def DividesNonzero (div : ℚ → ℚ → ℚ) : Prop := ∀ a b, b ≠ 0 → div a b = a / b

/-- The baseline is never zero where it divides. -/
theorem sizeDeltaPctBy_eq {div : ℚ → ℚ → ℚ} (hdiv : DividesNonzero div) :
    sizeDeltaPctBy div = sizeDeltaPct := by
  funext oldBytes newBytes
  rw [sizeDeltaPctBy, sizeDeltaPct]
  by_cases hold : oldBytes = 0
  · rw [if_pos hold, if_pos hold]
  · rw [if_neg hold, if_neg hold, hdiv _ _ (Nat.cast_ne_zero.mpr hold)]

/-! ### Rounding -/

theorem roundHalfAway_of_nonneg {x : ℚ} (h : 0 ≤ x) : roundHalfAway x = ⌊x + 1 / 2⌋ := if_pos h

theorem roundHalfAway_of_neg {x : ℚ} (h : x < 0) : roundHalfAway x = ⌈x - 1 / 2⌉ :=
  if_neg (not_le.mpr h)

/-- A rounded number exceeds a limit when the number itself reaches the midpoint above the integer
part of the limit. -/
theorem lt_roundHalfAway_iff {t x : ℚ} (ht : 0 ≤ t) :
    t < (roundHalfAway x : ℚ) ↔ (⌊t⌋ : ℚ) + 1 / 2 ≤ x := by
  have hfloor : (0 : ℚ) ≤ (⌊t⌋ : ℚ) := by exact_mod_cast Int.floor_nonneg.mpr ht
  rw [← Int.floor_lt, ← Int.add_one_le_iff]
  rcases le_or_gt 0 x with hx | hx
  · rw [roundHalfAway_of_nonneg hx, Int.le_floor]
    push_cast
    constructor
    · intro h
      linarith
    · intro h
      linarith
  · rw [roundHalfAway_of_neg hx, Int.le_ceil_iff]
    push_cast
    constructor
    · intro h
      linarith
    · intro h
      linarith

/-! ### The growth that is reported -/

/-- The growth in tenths of a percent. -/
def growthTenths (old newBytes : ℕ) : ℚ := 1000 * ((newBytes : ℚ) - old) / old

/-- The tenths of a percent from which on a growth is displayed as more than the limit. -/
def displayedFrom (maxPct : ℚ) : ℚ := ⌊10 * maxPct⌋ + 1 / 2

theorem sizeDeltaPct_of_pos {old newBytes : ℕ} (hold : 0 < old) :
    sizeDeltaPct old newBytes = some ((roundHalfAway (growthTenths old newBytes) : ℚ) / 10) := by
  have htenths : ((newBytes : ℚ) - old) * 100 / old * 10 = growthTenths old newBytes := by
    rw [growthTenths]
    ring
  rw [sizeDeltaPct, if_neg hold.ne']
  simp only [htenths]

theorem lt_sizeDeltaPct_iff {old newBytes : ℕ} {maxPct : ℚ} (hpct : 0 ≤ maxPct) :
    maxPct < (roundHalfAway (growthTenths old newBytes) : ℚ) / 10 ↔
      displayedFrom maxPct ≤ growthTenths old newBytes := by
  have hscale : maxPct < (roundHalfAway (growthTenths old newBytes) : ℚ) / 10 ↔
      10 * maxPct < (roundHalfAway (growthTenths old newBytes) : ℚ) := by
    rw [lt_div_iff₀ (by norm_num), mul_comm]
  rw [hscale, lt_roundHalfAway_iff (by positivity), displayedFrom]

/-- A violation of the limit in bytes is among the violations. -/
def ReportsSize (violations : List String) : Prop :=
  ∃ v ∈ violations, startsWith "artifact size " v = true

/-- A violation of the limit on the growth is among the violations. -/
def ReportsGrowth (violations : List String) : Prop :=
  ∃ v ∈ violations, startsWith "size growth " v = true ∨ startsWith "--max-growth-pct " v = true

/-- The growth is more than the limit: it is measured from no known size, from an empty artifact,
or it is more percent of the baseline than the limit says. -/
def Outgrows (oldBytes : Option ℕ) (newBytes : ℕ) (maxPct : ℚ) : Prop :=
  oldBytes = none ∨ oldBytes = some 0 ∧ 0 < newBytes ∨
    ∃ old ∈ oldBytes, maxPct * old < 100 * ((newBytes : ℚ) - old)

/-- The growth is displayed as more than the limit. -/
def OutgrowsDisplayed (oldBytes : Option ℕ) (newBytes : ℕ) (maxPct : ℚ) : Prop :=
  oldBytes = none ∨ oldBytes = some 0 ∧ 0 < newBytes ∨
    ∃ old ∈ oldBytes, 0 < old ∧ displayedFrom maxPct ≤ growthTenths old newBytes

section Violations

variable {display : ℚ → String}

theorem reportsSize_append {as bs : List String} :
    ReportsSize (as ++ bs) ↔ ReportsSize as ∨ ReportsSize bs := by
  simp only [ReportsSize, List.mem_append, or_and_right, exists_or]

theorem reportsGrowth_append {as bs : List String} :
    ReportsGrowth (as ++ bs) ↔ ReportsGrowth as ∨ ReportsGrowth bs := by
  simp only [ReportsGrowth, List.mem_append, or_and_right, exists_or]

theorem startsWith_append (p s : String) : startsWith p (p ++ s) = true := by
  rw [startsWith, String.toList_append, decide_eq_true (List.prefix_append _ _)]

/-- What begins with another letter is no continuation. -/
theorem startsWith_append_eq_false {p q : String} (s : String)
    (h : p.toList.head? ≠ q.toList.head?) (hp : p.toList ≠ []) (hq : q.toList ≠ []) :
    startsWith p (q ++ s) = false := by
  rw [startsWith, String.toList_append, decide_eq_false]
  obtain ⟨a, as, has⟩ := List.exists_cons_of_ne_nil hp
  obtain ⟨b, bs, hbs⟩ := List.exists_cons_of_ne_nil hq
  rw [has, hbs, List.head?_cons, List.head?_cons] at h
  rw [has, hbs, List.cons_append, List.cons_prefix_cons]
  rintro ⟨rfl, -⟩
  exact h rfl

theorem reportsSize_sizeRule {newBytes : ℕ} {maxSizeBytes : Option ℕ} :
    ReportsSize (sizeRule newBytes maxSizeBytes) ↔ ∃ max ∈ maxSizeBytes, max < newBytes := by
  rcases maxSizeBytes with _ | max
  · simp [sizeRule, ReportsSize]
  rw [sizeRule]
  split_ifs with h
  · constructor
    · rintro -
      exact ⟨max, rfl, h⟩
    · rintro -
      refine ⟨_, List.mem_singleton_self _, ?_⟩
      rw [String.append_assoc, String.append_assoc]
      exact startsWith_append _ _
  · simp [ReportsSize, h]

theorem not_reportsGrowth_sizeRule {newBytes : ℕ} {maxSizeBytes : Option ℕ} :
    ¬ ReportsGrowth (sizeRule newBytes maxSizeBytes) := by
  rintro ⟨v, hv, hstart⟩
  rcases maxSizeBytes with _ | max
  · exact absurd hv (List.not_mem_nil)
  rw [sizeRule] at hv
  split_ifs at hv
  · obtain rfl := List.mem_singleton.mp hv
    simp only [String.append_assoc] at hstart
    rw [startsWith_append_eq_false _ (by decide) (by decide) (by decide),
      startsWith_append_eq_false _ (by decide) (by decide) (by decide)] at hstart
    simp at hstart
  · exact absurd hv (List.not_mem_nil)

/-- What the rule on the growth reports, by the growth it measures. -/
theorem growthRule_of_known {old newBytes : ℕ} {maxPct pct : ℚ}
    (h : sizeDeltaPct old newBytes = some pct) :
    growthRule sizeDeltaPct display (some old) newBytes (some maxPct) =
      if maxPct < pct then
        ["size growth " ++ formatGrowthPctOf display (some pct) ++
          " exceeds --max-growth-pct " ++ display maxPct]
      else [] := by
  simp only [growthRule, h]

theorem growthRule_of_unknown {old newBytes : ℕ} {maxPct : ℚ}
    (h : sizeDeltaPct old newBytes = none) :
    growthRule sizeDeltaPct display (some old) newBytes (some maxPct) =
      ["size growth is " ++ formatGrowthPctOf display none ++
        " — cannot be compared against --max-growth-pct " ++ display maxPct] := by
  simp only [growthRule, h]

theorem reportsGrowth_singleton (s : String) : ReportsGrowth ["size growth " ++ s] :=
  ⟨_, List.mem_singleton_self _, .inl (startsWith_append _ _)⟩

theorem reportsGrowth_undefined (s : String) : ReportsGrowth ["size growth is " ++ s] := by
  have hsplit : "size growth is " ++ s = "size growth " ++ ("is " ++ s) := by
    rw [← String.append_assoc]
    rfl
  rw [hsplit]
  exact reportsGrowth_singleton _

theorem reportsGrowth_noBaseline : ReportsGrowth
    ["--max-growth-pct requires a previous artifact (--previous-wasm) to measure growth"] :=
  ⟨_, List.mem_singleton_self _, .inr (by decide)⟩

theorem reportsGrowth_growthRule_some {oldBytes : Option ℕ} {newBytes : ℕ} {maxPct : ℚ}
    (hpct : 0 ≤ maxPct) :
    ReportsGrowth (growthRule sizeDeltaPct display oldBytes newBytes (some maxPct)) ↔
      OutgrowsDisplayed oldBytes newBytes maxPct := by
  rcases oldBytes with _ | old
  · constructor
    · rintro -
      exact .inl rfl
    · rintro -
      exact reportsGrowth_noBaseline
  rcases Nat.eq_zero_or_pos old with rfl | hold
  · rcases Nat.eq_zero_or_pos newBytes with rfl | hnew
    · -- an empty candidate has not outgrown an empty baseline
      have hzero : sizeDeltaPct 0 0 = some 0 := rfl
      rw [growthRule_of_known hzero, if_neg (not_lt.mpr hpct)]
      simp [ReportsGrowth, OutgrowsDisplayed]
    · have hnone : sizeDeltaPct 0 newBytes = none := by
        rw [sizeDeltaPct, if_pos rfl, if_neg hnew.ne']
      rw [growthRule_of_unknown hnone]
      constructor
      · rintro -
        exact .inr (.inl ⟨rfl, hnew⟩)
      · rintro -
        simp only [String.append_assoc]
        exact reportsGrowth_undefined _
  · rw [growthRule_of_known (sizeDeltaPct_of_pos hold)]
    have hdisplayed : OutgrowsDisplayed (some old) newBytes maxPct ↔
        displayedFrom maxPct ≤ growthTenths old newBytes := by
      simp [OutgrowsDisplayed, hold, hold.ne']
    rw [hdisplayed, ← lt_sizeDeltaPct_iff hpct]
    split_ifs with h
    · simp only [String.append_assoc]
      exact iff_of_true (reportsGrowth_singleton _) h
    · exact iff_of_false (by simp [ReportsGrowth]) h

theorem reportsGrowth_growthRule {oldBytes : Option ℕ} {newBytes : ℕ} {maxGrowthPct : Option ℚ}
    (hpct : ∀ p ∈ maxGrowthPct, 0 ≤ p) :
    ReportsGrowth (growthRule sizeDeltaPct display oldBytes newBytes maxGrowthPct) ↔
      ∃ p ∈ maxGrowthPct, OutgrowsDisplayed oldBytes newBytes p := by
  rcases maxGrowthPct with _ | maxPct
  · simp [growthRule, ReportsGrowth]
  · rw [reportsGrowth_growthRule_some (hpct maxPct rfl)]
    simp

theorem not_reportsSize_growthRule {oldBytes : Option ℕ} {newBytes : ℕ}
    {maxGrowthPct : Option ℚ} :
    ¬ ReportsSize (growthRule sizeDeltaPct display oldBytes newBytes maxGrowthPct) := by
  rintro ⟨v, hv, hstart⟩
  rcases maxGrowthPct with _ | maxPct
  · exact absurd hv List.not_mem_nil
  rcases oldBytes with _ | old
  · obtain rfl := List.mem_singleton.mp hv
    exact absurd hstart (by decide)
  rcases hdelta : sizeDeltaPct old newBytes with _ | pct
  · rw [growthRule_of_unknown hdelta] at hv
    obtain rfl := List.mem_singleton.mp hv
    simp only [String.append_assoc] at hstart
    rw [startsWith_append_eq_false _ (by decide) (by decide) (by decide)] at hstart
    exact Bool.noConfusion hstart
  · rw [growthRule_of_known hdelta] at hv
    split_ifs at hv
    · obtain rfl := List.mem_singleton.mp hv
      simp only [String.append_assoc] at hstart
      rw [startsWith_append_eq_false _ (by decide) (by decide) (by decide)] at hstart
      exact Bool.noConfusion hstart
    · exact absurd hv List.not_mem_nil

theorem reportsSize_iff {oldBytes : Option ℕ} {newBytes : ℕ} {maxSizeBytes : Option ℕ}
    {maxGrowthPct : Option ℚ} :
    ReportsSize
        (evaluateSizePolicyOf sizeDeltaPct display oldBytes newBytes maxSizeBytes maxGrowthPct) ↔
      ∃ max ∈ maxSizeBytes, max < newBytes := by
  rw [evaluateSizePolicyOf, reportsSize_append, reportsSize_sizeRule,
    or_iff_left not_reportsSize_growthRule]

/-- A growth violation is reported exactly for a growth that is displayed as more than the limit. -/
theorem reportsGrowth_iff {oldBytes : Option ℕ} {newBytes : ℕ} {maxSizeBytes : Option ℕ}
    {maxGrowthPct : Option ℚ} (hpct : ∀ p ∈ maxGrowthPct, 0 ≤ p) :
    ReportsGrowth
        (evaluateSizePolicyOf sizeDeltaPct display oldBytes newBytes maxSizeBytes maxGrowthPct) ↔
      ∃ p ∈ maxGrowthPct, OutgrowsDisplayed oldBytes newBytes p := by
  rw [evaluateSizePolicyOf, reportsGrowth_append, reportsGrowth_growthRule hpct,
    or_iff_right not_reportsGrowth_sizeRule]

end Violations

/-! ### Tighter limits and larger candidates -/

/-- The second limit, if any, is at least as tight as the first. -/
def Tightens {α : Type} [LE α] (loose tight : Option α) : Prop :=
  ∀ l ∈ loose, ∃ t ∈ tight, t ≤ l

theorem displayedFrom_mono {p q : ℚ} (h : p ≤ q) : displayedFrom p ≤ displayedFrom q := by
  have hfloor : ⌊10 * p⌋ ≤ ⌊10 * q⌋ := Int.floor_mono (by linarith)
  have hcast : (⌊10 * p⌋ : ℚ) ≤ ⌊10 * q⌋ := by exact_mod_cast hfloor
  rw [displayedFrom, displayedFrom]
  linarith

theorem growthTenths_mono (old : ℕ) {newBytes newBytes' : ℕ} (h : newBytes ≤ newBytes') :
    growthTenths old newBytes ≤ growthTenths old newBytes' := by
  have hcast : (newBytes : ℚ) ≤ newBytes' := by exact_mod_cast h
  rw [growthTenths, growthTenths]
  gcongr

theorem OutgrowsDisplayed.mono {oldBytes : Option ℕ} {newBytes newBytes' : ℕ} {p q : ℚ}
    (hnew : newBytes ≤ newBytes') (hpq : q ≤ p) (h : OutgrowsDisplayed oldBytes newBytes p) :
    OutgrowsDisplayed oldBytes newBytes' q := by
  rcases h with hnone | ⟨hzero, hpos⟩ | ⟨old, hold, hpos, hgrowth⟩
  · exact .inl hnone
  · exact .inr (.inl ⟨hzero, by omega⟩)
  · refine .inr (.inr ⟨old, hold, hpos, ?_⟩)
    calc displayedFrom q ≤ displayedFrom p := displayedFrom_mono hpq
      _ ≤ growthTenths old newBytes := hgrowth
      _ ≤ growthTenths old newBytes' := growthTenths_mono old hnew

/-! ### The exact policy -/

/-- The growth is not moved across the limit when it is rounded: it is not more than the limit and
displayed as no more, and not displayed as more than the limit without being more. -/
def RoundedAlike (oldBytes : Option ℕ) (newBytes : ℕ) (maxPct : ℚ) : Prop :=
  ∀ old ∈ oldBytes, 0 < old →
    ¬ (10 * maxPct < growthTenths old newBytes ∧
      growthTenths old newBytes < displayedFrom maxPct) ∧
    ¬ (displayedFrom maxPct ≤ growthTenths old newBytes ∧
      growthTenths old newBytes ≤ 10 * maxPct)

theorem mul_lt_iff_growthTenths {old newBytes : ℕ} {maxPct : ℚ} (hold : 0 < old) :
    maxPct * old < 100 * ((newBytes : ℚ) - old) ↔ 10 * maxPct < growthTenths old newBytes := by
  have hpos : (0 : ℚ) < old := by exact_mod_cast hold
  rw [growthTenths, lt_div_iff₀ hpos]
  constructor
  · intro h
    linarith
  · intro h
    linarith

theorem outgrows_iff_displayed {oldBytes : Option ℕ} {newBytes : ℕ} {maxPct : ℚ} :
    (OutgrowsDisplayed oldBytes newBytes maxPct ↔ Outgrows oldBytes newBytes maxPct) ↔
      RoundedAlike oldBytes newBytes maxPct := by
  rcases oldBytes with _ | old
  · simp [OutgrowsDisplayed, Outgrows, RoundedAlike]
  rcases Nat.eq_zero_or_pos old with rfl | hold
  · simp [OutgrowsDisplayed, Outgrows, RoundedAlike]
  · have hdisplayed : OutgrowsDisplayed (some old) newBytes maxPct ↔
        displayedFrom maxPct ≤ growthTenths old newBytes := by
      simp [OutgrowsDisplayed, hold, hold.ne']
    have hexact : Outgrows (some old) newBytes maxPct ↔
        10 * maxPct < growthTenths old newBytes := by
      simp [Outgrows, hold.ne', mul_lt_iff_growthTenths hold]
    have halike : RoundedAlike (some old) newBytes maxPct ↔
        ¬ (10 * maxPct < growthTenths old newBytes ∧
          growthTenths old newBytes < displayedFrom maxPct) ∧
        ¬ (displayedFrom maxPct ≤ growthTenths old newBytes ∧
          growthTenths old newBytes ≤ 10 * maxPct) := by
      simp only [RoundedAlike, Option.mem_some_iff, forall_eq', hold, forall_const]
    rw [hdisplayed, hexact, halike]
    constructor
    · intro h
      constructor
      · rintro ⟨hover, hbelow⟩
        exact absurd (h.mpr hover) (not_le.mpr hbelow)
      · rintro ⟨hreached, hwithin⟩
        exact absurd (h.mp hreached) (not_lt.mpr hwithin)
    · rintro ⟨hmissed, hraised⟩
      constructor
      · intro hreached
        by_contra hwithin
        exact hraised ⟨hreached, not_lt.mp hwithin⟩
      · intro hover
        by_contra hbelow
        exact hmissed ⟨hover, not_le.mp hbelow⟩

/-- The policy decides by the exact sizes: each limit is violated exactly where the sizes say so,
each by itself, without a division by zero, and a violation stays when a limit is tightened or the
candidate grows. -/
structure SizePolicyExact (display : ℚ → String) (oldBytes : Option ℕ) (newBytes : ℕ)
    (maxSizeBytes : Option ℕ) (maxGrowthPct : Option ℚ) : Prop where
  size : ReportsSize
      (evaluateSizePolicyOf sizeDeltaPct display oldBytes newBytes maxSizeBytes maxGrowthPct) ↔
    ∃ max ∈ maxSizeBytes, max < newBytes
  growth : ReportsGrowth
      (evaluateSizePolicyOf sizeDeltaPct display oldBytes newBytes maxSizeBytes maxGrowthPct) ↔
    ∃ p ∈ maxGrowthPct, Outgrows oldBytes newBytes p
  independent :
    evaluateSizePolicyOf sizeDeltaPct display oldBytes newBytes maxSizeBytes maxGrowthPct =
      evaluateSizePolicyOf sizeDeltaPct display oldBytes newBytes maxSizeBytes none ++
        evaluateSizePolicyOf sizeDeltaPct display oldBytes newBytes none maxGrowthPct
  undivided : ∀ div, DividesNonzero div →
    evaluateSizePolicyOf (sizeDeltaPctBy div) display oldBytes newBytes maxSizeBytes maxGrowthPct =
      evaluateSizePolicyOf sizeDeltaPct display oldBytes newBytes maxSizeBytes maxGrowthPct
  monotone : ∀ newBytes' maxSizeBytes' maxGrowthPct', newBytes ≤ newBytes' →
    Tightens maxSizeBytes maxSizeBytes' → Tightens maxGrowthPct maxGrowthPct' →
    (∀ p ∈ maxGrowthPct', 0 ≤ p) →
    (ReportsSize
        (evaluateSizePolicyOf sizeDeltaPct display oldBytes newBytes maxSizeBytes maxGrowthPct) →
      ReportsSize
        (evaluateSizePolicyOf sizeDeltaPct display oldBytes newBytes' maxSizeBytes'
          maxGrowthPct')) ∧
    (ReportsGrowth
        (evaluateSizePolicyOf sizeDeltaPct display oldBytes newBytes maxSizeBytes maxGrowthPct) →
      ReportsGrowth
        (evaluateSizePolicyOf sizeDeltaPct display oldBytes newBytes' maxSizeBytes'
          maxGrowthPct'))

section Exactness

variable {display : ℚ → String} {oldBytes : Option ℕ} {newBytes newBytes' : ℕ}
  {maxSizeBytes maxSizeBytes' : Option ℕ} {maxGrowthPct maxGrowthPct' : Option ℚ}

theorem reportsSize_mono (hnew : newBytes ≤ newBytes') (hsize : Tightens maxSizeBytes maxSizeBytes')
    (h : ReportsSize
      (evaluateSizePolicyOf sizeDeltaPct display oldBytes newBytes maxSizeBytes maxGrowthPct)) :
    ReportsSize (evaluateSizePolicyOf sizeDeltaPct display oldBytes newBytes' maxSizeBytes'
      maxGrowthPct') := by
  obtain ⟨max, hmax, hlt⟩ := reportsSize_iff.mp h
  obtain ⟨max', hmax', hle⟩ := hsize max hmax
  exact reportsSize_iff.mpr ⟨max', hmax', by omega⟩

theorem reportsGrowth_mono (hpct : ∀ p ∈ maxGrowthPct, 0 ≤ p) (hpct' : ∀ p ∈ maxGrowthPct', 0 ≤ p)
    (hnew : newBytes ≤ newBytes') (hgrowth : Tightens maxGrowthPct maxGrowthPct')
    (h : ReportsGrowth
      (evaluateSizePolicyOf sizeDeltaPct display oldBytes newBytes maxSizeBytes maxGrowthPct)) :
    ReportsGrowth (evaluateSizePolicyOf sizeDeltaPct display oldBytes newBytes' maxSizeBytes'
      maxGrowthPct') := by
  obtain ⟨p, hp, hout⟩ := (reportsGrowth_iff hpct).mp h
  obtain ⟨q, hq, hle⟩ := hgrowth p hp
  exact (reportsGrowth_iff hpct').mpr ⟨q, hq, hout.mono hnew hle⟩

/-- The policy is exact if and only if rounding does not move the growth across the limit. -/
theorem sizePolicyExact_iff (display : ℚ → String) (oldBytes : Option ℕ) (newBytes : ℕ)
    (maxSizeBytes : Option ℕ) (maxGrowthPct : Option ℚ) (hpct : ∀ p ∈ maxGrowthPct, 0 ≤ p) :
    SizePolicyExact display oldBytes newBytes maxSizeBytes maxGrowthPct ↔
      ∀ p ∈ maxGrowthPct, RoundedAlike oldBytes newBytes p := by
  constructor
  · intro h p hp
    obtain rfl := Option.mem_def.mp hp
    have hgrowth := (reportsGrowth_iff hpct).symm.trans h.growth
    simp only [Option.mem_some_iff, exists_eq_left'] at hgrowth
    exact outgrows_iff_displayed.mp hgrowth
  · intro h
    exact
      { size := reportsSize_iff
        growth := by
          rw [reportsGrowth_iff hpct]
          exact exists_congr fun p =>
            and_congr_right fun hp => outgrows_iff_displayed.mpr (h p hp)
        independent := by
          simp only [evaluateSizePolicyOf, sizeRule, growthRule, List.append_nil, List.nil_append]
        undivided := by
          intro div hdiv
          rw [sizeDeltaPctBy_eq hdiv]
        monotone := fun _ _ _ hnew hsize hgrowth hpct' =>
          ⟨reportsSize_mono hnew hsize, reportsGrowth_mono hpct hpct' hnew hgrowth⟩ }

/-- A growth from 198 to 530 bytes is more than 167.6 percent, and is displayed as 167.7. -/
theorem sizePolicyExact_growth_of_two_thirds :
    SizePolicyExact toString (some 198) 530 (some 500) (some (838 / 5)) := by
  have hpct : ∀ p ∈ (some (838 / 5) : Option ℚ), 0 ≤ p := by
    rintro p ⟨⟩
    norm_num
  refine (sizePolicyExact_iff toString (some 198) 530 (some 500) (some (838 / 5)) hpct).mpr ?_
  rintro p ⟨⟩ old ⟨⟩ -
  have hfloor : ⌊10 * (838 / 5 : ℚ)⌋ = 1676 := by norm_num
  rw [displayedFrom, growthTenths, hfloor]
  norm_num

end Exactness

/-- A byte more than ten thousand is growth, and is displayed as none. At a limit of 1.45 percent,
growth of exactly as much is displayed as 1.5 percent. -/
theorem rounded_growth_at_limit :
    ¬ SizePolicyExact toString (some 10000) 10001 none (some 0) ∧
      ¬ SizePolicyExact toString (some 10000) 10145 none (some (29 / 20)) := by
  have hzero : ∀ p ∈ (some 0 : Option ℚ), 0 ≤ p := by
    rintro p ⟨⟩
    exact le_rfl
  have hpct : ∀ p ∈ (some (29 / 20) : Option ℚ), 0 ≤ p := by
    rintro p ⟨⟩
    norm_num
  constructor
  · intro h
    have hout : Outgrows (some 10000) 10001 0 :=
      .inr (.inr ⟨10000, rfl, by norm_num⟩)
    obtain ⟨_, ⟨⟩, hdisplayed⟩ := (reportsGrowth_iff hzero).mp (h.growth.mpr ⟨0, rfl, hout⟩)
    rcases hdisplayed with hnone | ⟨hempty, -⟩ | ⟨_, ⟨⟩, -, hreached⟩
    · simp at hnone
    · simp at hempty
    · have hfloor : ⌊10 * (0 : ℚ)⌋ = 0 := by norm_num
      rw [displayedFrom, growthTenths, hfloor] at hreached
      norm_num at hreached
  · intro h
    have hfloor : ⌊10 * (29 / 20 : ℚ)⌋ = 14 := by norm_num
    have hdisplayed : OutgrowsDisplayed (some 10000) 10145 (29 / 20) := by
      refine .inr (.inr ⟨10000, rfl, by norm_num, ?_⟩)
      rw [displayedFrom, growthTenths, hfloor]
      norm_num
    obtain ⟨_, ⟨⟩, hout⟩ := h.growth.mp ((reportsGrowth_iff hpct).mpr ⟨_, rfl, hdisplayed⟩)
    rcases hout with hnone | ⟨hempty, -⟩ | ⟨_, ⟨⟩, hover⟩
    · simp at hnone
    · simp at hempty
    · norm_num at hover

end SorobanDevkit.Cli
