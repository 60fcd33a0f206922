import Mathlib.Data.List.Forall2
import SorobanDevkit.Fuzz.Artifact
import SorobanDevkit.Fuzz.Minimizer
import SorobanDevkit.Library.Decimal
import SorobanDevkit.Library.TimedDescent

/-!
# What the minimizer ends with

The executor that the minimizer asks may answer differently each time. Then an accepted candidate
need not show the finding again, but the loop still ends, as every candidate leaves less to reduce;
the complexity that it records does not tell this, since it stays the same where a flag, a wide
integer or the environment is simplified.

If the executor answers alike each time, a pass that accepts nothing has tried every candidate in
one state.
-/

namespace SorobanDevkit.Fuzz

open Xdr

/-! ### Executions with a clock -/

section

variable (crates : Crates) (run : ℕ → List FunctionCall → Environment → String →
  Except FuzzError Observation)

/-- The test of a candidate in an execution of a number. -/
def timedTest (oracle : Oracle) (original : Classification) (originalSuccess : Bool) (n : ℕ)
    (s : MinimizerState) : Except FuzzError Bool := do
  let obs ← run n s.steps s.environment "minimize-candidate"
  .ok (oracle.classify obs.toExecution = original ∧ obs.isSuccess = originalSuccess)

/-- One pass over all candidates, from a time on. -/
def timedPass (test : ℕ → MinimizerState → Except FuzzError Bool) (s : MinimizerState) (n : ℕ) :
    Except FuzzError ((MinimizerState × Bool) × ℕ) := do
  let r ← TimedDescent.attempts test [removalMove crates] ((s, false), n)
  let r ← TimedDescent.attempts test (argumentMoves crates r.1.1.steps) r
  TimedDescent.attempts test [environmentMove] r

variable {crates} in
/-- A pass goes from one candidate to the next. -/
theorem timedPass_progress {test : ℕ → MinimizerState → Except FuzzError Bool} {s : MinimizerState}
    {n : ℕ} {r : (MinimizerState × Bool) × ℕ} (h : timedPass crates test s n = .ok r) :
    TimedDescent.Progress (Offered crates) s r.1 := by
  obtain ⟨r₁, h₁, h⟩ := Except.bind_eq_ok_iff.mp h
  obtain ⟨r₂, h₂, h₃⟩ := Except.bind_eq_ok_iff.mp h
  have hstart : TimedDescent.Progress (Offered crates) s (s, false) := .none
  have hremoval := TimedDescent.Progress.attempts (s := ((s, false), n)) offered_of_mem_removalMove
    hstart h₁
  have hargument := hremoval.attempts offered_of_mem_argumentMoves h₂
  exact hargument.attempts offered_of_mem_environmentMove h₃

/-- A pass that accepts a candidate leaves less to reduce. -/
theorem timedPass_lt {test : ℕ → MinimizerState → Except FuzzError Bool}
    (s : MinimizerState) (n : ℕ)
    (c : MinimizerState) (n' : ℕ) (h : timedPass crates test s n = .ok ((c, true), n')) :
    c.reducible < s.reducible := by
  have hoffered : ∀ s c : MinimizerState, Offered crates s c → c.reducible < s.reducible :=
    fun _ _ => reducible_lt_of_offered
  exact (timedPass_progress h).lt hoffered

/-- `minimize_with_oracle`, where the observation of steps depends on the number of the
execution. -/
def minimizeTimed (target : MinimizationTarget) (oracle : Option Oracle) (original : Classification)
    (originalSuccess : Bool) : Except FuzzError MinimizationOutcome := do
  let oracle := oracle.getD .default
  let (reached, n) ← TimedDescent.exhaust MinimizerState.reducible
    (timedPass crates (timedTest run oracle original originalSuccess)) (timedPass_lt crates)
    (target.initial crates) 0
  let finalObs ← run n reached.steps reached.environment "minimize-final"
  .ok {
    minimization := {
      attempted := true
      strategy := "deterministically minimized under the configured strategy"
      originalComplexity := sequenceComplexity crates.debugLength target.steps
      minimizedComplexity := sequenceComplexity crates.debugLength reached.steps
      preserved := oracle.classify finalObs.toExecution = original ∧
        finalObs.isSuccess = originalSuccess
      reductions := reached.reductions }
    steps := reached.steps }

end

/-! ### Complexity -/

/-- The texts of wide integers in the debug format, which tells their four parts. -/
structure DebugDocumented (debugLength : ScVal → ℕ) : Prop where
  u256 : ∀ a b c d : UInt64, debugLength (.u256 a b c d) =
    ("U256(UInt256Parts \x7b hi_hi: " ++ toString a ++ ", hi_lo: " ++ toString b ++ ", lo_hi: " ++
      toString c ++ ", lo_lo: " ++ toString d ++ " \x7d)").length
  i256 : ∀ (a : Int64) (b c d : UInt64), debugLength (.i256 a b c d) =
    ("I256(Int256Parts \x7b hi_hi: " ++ toString a ++ ", hi_lo: " ++ toString b ++ ", lo_hi: " ++
      toString c ++ ", lo_lo: " ++ toString d ++ " \x7d)").length

theorem one_le_bits (n : UInt64) : 1 ≤ bits n := by
  rw [bits]
  split
  · exact Nat.le_refl 1
  · exact Nat.le_add_left 1 _

section

variable {debugLength : ScVal → ℕ}

theorem length_toString_uint64_pos (n : UInt64) : 0 < (toString n).length :=
  Decimal.length_toString_nat_pos n.toNat

theorem length_toString_int64_pos (n : Int64) : 0 < (toString n).length :=
  Decimal.length_toString_int_pos n.toInt

/-- The text of zero is the shortest one. -/
theorem debugLength_u256_le (hdebug : DebugDocumented debugLength) (a b c d : UInt64) :
    debugLength (.u256 0 0 0 0) ≤ debugLength (.u256 a b c d) := by
  have hzero : (toString (0 : UInt64)).length = 1 := by decide
  have ha := length_toString_uint64_pos a
  have hb := length_toString_uint64_pos b
  have hc := length_toString_uint64_pos c
  have hd := length_toString_uint64_pos d
  rw [hdebug.u256, hdebug.u256]
  simp only [String.length_append, hzero]
  omega

theorem debugLength_i256_le (hdebug : DebugDocumented debugLength) (a : Int64) (b c d : UInt64) :
    debugLength (.i256 0 0 0 0) ≤ debugLength (.i256 a b c d) := by
  have hzero : (toString (0 : UInt64)).length = 1 := by decide
  have hsigned : (toString (0 : Int64)).length = 1 := by decide
  have ha := length_toString_int64_pos a
  have hb := length_toString_uint64_pos b
  have hc := length_toString_uint64_pos c
  have hd := length_toString_uint64_pos d
  rw [hdebug.i256, hdebug.i256]
  simp only [String.length_append, hzero, hsigned]
  omega

theorem eq_of_mem_ite {p : Prop} [Decidable p] {v w : ScVal}
    (h : w ∈ if p then [] else [v]) : w = v := by
  split at h
  · cases h
  · exact List.mem_singleton.mp h

/-- A value of a ladder is no more complex. -/
theorem argComplexity_ladder_le (hdebug : DebugDocumented debugLength) {v w : ScVal}
    (h : w ∈ reductionLadder v) : argComplexity debugLength w ≤ argComplexity debugLength v := by
  unfold reductionLadder at h
  split at h
  case h_1 b =>
    cases b with
    | true =>
      rw [List.mem_singleton.mp h]
      exact Nat.le_refl 1
    | false => cases h
  case h_2 x =>
    obtain rfl := eq_of_mem_ite h
    exact one_le_bits _
  case h_3 x =>
    obtain rfl := eq_of_mem_ite h
    exact one_le_bits _
  case h_4 x =>
    obtain rfl := eq_of_mem_ite h
    exact one_le_bits _
  case h_5 x =>
    obtain rfl := eq_of_mem_ite h
    exact one_le_bits _
  case h_6 hi lo =>
    obtain rfl := eq_of_mem_ite h
    have hhi := one_le_bits hi
    have hlo := one_le_bits lo
    show 3 ≤ 1 + bits hi + bits lo
    omega
  case h_7 hi lo =>
    obtain rfl := eq_of_mem_ite h
    have hhi := one_le_bits (UInt64.ofNat hi.toInt.natAbs)
    have hlo := one_le_bits lo
    show 3 ≤ 1 + bits (UInt64.ofNat hi.toInt.natAbs) + bits lo
    omega
  case h_8 a b c d =>
    obtain rfl := eq_of_mem_ite h
    exact Nat.add_le_add_left (debugLength_u256_le hdebug a b c d) 8
  case h_9 a b c d =>
    obtain rfl := eq_of_mem_ite h
    exact Nat.add_le_add_left (debugLength_i256_le hdebug a b c d) 8
  case h_10 s =>
    obtain rfl := eq_of_mem_ite h
    exact Nat.zero_le _
  case h_11 b =>
    obtain rfl := eq_of_mem_ite h
    exact Nat.zero_le _
  case h_12 item items =>
    rw [List.mem_singleton.mp h]
    show 1 ≤ 4 + itemsComplexity debugLength (item :: items)
    omega
  case h_13 entry entries =>
    rw [List.mem_singleton.mp h]
    show 1 ≤ 6 + entriesComplexity debugLength (entry :: entries)
    omega
  case h_14 => cases h

theorem itemsComplexity_eq (items : List ScVal) :
    itemsComplexity debugLength items = (items.map (argComplexity debugLength)).sum := by
  induction items with
  | nil => rfl
  | cons v items ih => rw [itemsComplexity, ih, List.map_cons, List.sum_cons]

theorem sum_map_set_le {α : Type} {f : α → ℕ} {l : List α} {i : ℕ} {a b : α} (hi : l[i]? = some a)
    (h : f b ≤ f a) : ((l.set i b).map f).sum ≤ (l.map f).sum := by
  induction l generalizing i with
  | nil => cases hi
  | cons c l ih =>
    cases i with
    | zero =>
      cases hi
      simpa using h
    | succ i =>
      have hrec := ih hi
      simpa using hrec

/-- **No candidate is more complex.** -/
theorem sequenceComplexity_offered_le {crates : Crates}
    (hdebug : DebugDocumented crates.debugLength)
    {s c : MinimizerState} (h : Offered crates s c) :
    sequenceComplexity crates.debugLength c.steps ≤ sequenceComplexity crates.debugLength
      s.steps := by
  obtain hremoval | ⟨stepIdx, argIdx, hargument⟩ | henvironment := h
  · obtain ⟨idx, -, hidx, hsteps, -⟩ := mem_removalMove hremoval
    have hlength := List.length_eraseIdx_of_lt hidx
    have hsum : ((s.steps.eraseIdx idx).map fun call =>
          itemsComplexity crates.debugLength call.args).sum ≤
        (s.steps.map fun call => itemsComplexity crates.debugLength call.args).sum :=
      ((List.eraseIdx_sublist s.steps idx).map _).sum_le_sum fun _ _ => Nat.zero_le _
    rw [hsteps, sequenceComplexity, sequenceComplexity]
    omega
  · obtain ⟨call, arg, v, hcall, harg, hv, hsteps, -⟩ := mem_argumentMove hargument
    have hitems : itemsComplexity crates.debugLength (call.setArg argIdx v).args ≤
        itemsComplexity crates.debugLength call.args := by
      rw [itemsComplexity_eq, itemsComplexity_eq]
      exact sum_map_set_le harg (argComplexity_ladder_le hdebug hv)
    have hsum := sum_map_set_le (f := fun call : FunctionCall =>
      itemsComplexity crates.debugLength call.args) hcall hitems
    rw [hsteps, sequenceComplexity, sequenceComplexity, List.length_set]
    omega
  · rw [(mem_environmentMove henvironment).1]

end

/-! ### What is left of the steps -/

/-- An argument of a reduced step is the original one or on its ladder. -/
def ReducedArg (v w : ScVal) : Prop := w = v ∨ w ∈ reductionLadder v

/-- A reduced step calls the same function. -/
structure ReducedCall (call call' : FunctionCall) : Prop where
  function : call'.function = call.function
  args : List.Forall₂ ReducedArg call.args call'.args

/-- Some of the steps, the first one among them, with reduced arguments. -/
def ReducedSteps (steps steps' : List FunctionCall) : Prop :=
  ∃ kept, kept.Sublist steps ∧ kept.head? = steps.head? ∧ List.Forall₂ ReducedCall kept steps'

theorem forall₂_eraseIdx {α β : Type} {R : α → β → Prop} {as : List α} {bs : List β}
    (h : List.Forall₂ R as bs) (i : ℕ) : List.Forall₂ R (as.eraseIdx i) (bs.eraseIdx i) := by
  induction h generalizing i with
  | nil => exact .nil
  | cons hab hrest ih =>
    cases i with
    | zero => exact hrest
    | succ i => exact .cons hab (ih i)

theorem forall₂_set {α β : Type} {R : α → β → Prop} {as : List α} {bs : List β}
    (h : List.Forall₂ R as bs) {i : ℕ} {b b' : β} (hb : bs[i]? = some b)
    (hset : ∀ a, R a b → R a b') : List.Forall₂ R as (bs.set i b') := by
  induction h generalizing i with
  | nil => exact .nil
  | cons hab hrest ih =>
    cases i with
    | zero =>
      cases hb
      exact .cons (hset _ hab) hrest
    | succ i => exact .cons hab (ih hb)

/-- A ladder has no second step. -/
theorem ReducedArg.ladder {v w x : ScVal} (h : ReducedArg v w) (hx : x ∈ reductionLadder w) :
    ReducedArg v x := by
  obtain rfl | hw := h
  · exact .inr hx
  · rw [reductionLadder_of_mem hw] at hx
    cases hx

theorem reducedSteps_refl (steps : List FunctionCall) : ReducedSteps steps steps :=
  ⟨steps, .refl steps, rfl, List.forall₂_same.mpr fun _ _ =>
    ⟨rfl, List.forall₂_same.mpr fun _ _ => .inl rfl⟩⟩

/-- What is offered for reduced steps are reduced steps. -/
theorem reducedSteps_offered {crates : Crates} {steps : List FunctionCall} {s c : MinimizerState}
    (hs : ReducedSteps steps s.steps) (h : Offered crates s c) : ReducedSteps steps c.steps := by
  obtain ⟨kept, hkept, hhead, hcalls⟩ := hs
  obtain hremoval | ⟨stepIdx, argIdx, hargument⟩ | henvironment := h
  · obtain ⟨idx, hpos, -, hsteps, -⟩ := mem_removalMove hremoval
    refine ⟨kept.eraseIdx idx, (List.eraseIdx_sublist kept idx).trans hkept, ?_, ?_⟩
    · rw [← hhead, List.head?_eq_getElem?, List.head?_eq_getElem?,
        List.getElem?_eraseIdx_of_lt hpos]
    · rw [hsteps]
      exact forall₂_eraseIdx hcalls idx
  · obtain ⟨call, arg, v, hcall, harg, hv, hsteps, -⟩ := mem_argumentMove hargument
    refine ⟨kept, hkept, hhead, ?_⟩
    rw [hsteps]
    exact forall₂_set hcalls hcall fun original horiginal =>
      ⟨horiginal.function, forall₂_set horiginal.args harg fun _ h => h.ladder hv⟩
  · rw [(mem_environmentMove henvironment).1]
    exact ⟨kept, hkept, hhead, hcalls⟩

/-! ### The trace -/

section

variable {crates : Crates} {target : MinimizationTarget}

/-- The complexities that are recorded, that of the original steps first. -/
def complexityTrace (crates : Crates) (target : MinimizationTarget) (reductions : List Reduction) :
    List ℕ :=
  sequenceComplexity crates.debugLength target.steps :: reductions.map (·.complexityAfter)

/-- The environment that accepted reductions lead to. -/
def finalEnvironment (target : MinimizationTarget) (reductions : List Reduction) : Environment :=
  if ∃ r ∈ reductions, r.kind = "env" then reducedEnvironment target.environment
  else target.environment

/-- What holds of a state that the minimizer reaches. -/
structure Traced (crates : Crates) (target : MinimizationTarget) (s : MinimizerState) : Prop where
  reduced : ReducedSteps target.steps s.steps
  complexity : s.complexity = sequenceComplexity crates.debugLength s.steps
  nonincreasing : (complexityTrace crates target s.reductions).Pairwise (· ≥ ·)
  last : ∀ n ∈ complexityTrace crates target s.reductions, s.complexity ≤ n
  environment : s.environment = finalEnvironment target s.reductions
  count : s.reductions.length + s.reducible ≤ (target.initial crates).reducible

theorem traced_initial (crates : Crates) (target : MinimizationTarget) :
    Traced crates target (target.initial crates) where
  reduced := reducedSteps_refl target.steps
  complexity := rfl
  nonincreasing := List.pairwise_singleton _ _
  last n hn := by
    rw [List.mem_singleton.mp hn]
    exact Nat.le_refl _
  environment := (if_neg fun ⟨_, hr, _⟩ => by cases hr).symm
  count := by
    rw [MinimizationTarget.initial, List.length_nil, Nat.zero_add]

/-- The reduction that a candidate records. -/
theorem reductions_of_offered {s c : MinimizerState} (hs : Traced crates target s)
    (h : Offered crates s c) : ∃ r : Reduction, c.reductions = s.reductions ++ [r] ∧
      r.complexityAfter = c.complexity ∧
      c.complexity = sequenceComplexity crates.debugLength c.steps ∧
      (r.kind = "env" ∧ c.environment = reducedEnvironment s.environment ∨
        r.kind ≠ "env" ∧ c.environment = s.environment) := by
  obtain hremoval | ⟨stepIdx, argIdx, hargument⟩ | henvironment := h
  · obtain ⟨idx, -, rfl⟩ := List.mem_map.mp hremoval
    exact ⟨_, rfl, rfl, rfl, .inr ⟨(by decide : "step" ≠ "env"), rfl⟩⟩
  · unfold argumentMove at hargument
    split at hargument
    · cases hargument
    · split at hargument
      · cases hargument
      · obtain ⟨v, -, rfl⟩ := List.mem_map.mp hargument
        exact ⟨_, rfl, rfl, rfl, .inr ⟨(by decide : "arg" ≠ "env"), rfl⟩⟩
  · unfold environmentMove at henvironment
    split at henvironment
    · rw [List.mem_singleton.mp henvironment]
      exact ⟨_, rfl, rfl, hs.complexity, .inl ⟨rfl, rfl⟩⟩
    · cases henvironment

theorem complexityTrace_append (reductions : List Reduction) (r : Reduction) :
    complexityTrace crates target (reductions ++ [r]) =
      complexityTrace crates target reductions ++ [r.complexityAfter] := by
  rw [complexityTrace, List.map_append]
  rfl

/-- Every candidate keeps it. -/
theorem Traced.offered (hdebug : DebugDocumented crates.debugLength) {s c : MinimizerState}
    (hs : Traced crates target s) (h : Offered crates s c) : Traced crates target c := by
  obtain ⟨r, hreductions, hafter, hcomplexity, hkind⟩ := reductions_of_offered hs h
  have hle : c.complexity ≤ s.complexity := by
    rw [hcomplexity, hs.complexity]
    exact sequenceComplexity_offered_le hdebug h
  have hless := reducible_lt_of_offered h
  have hcount := hs.count
  refine ⟨reducedSteps_offered hs.reduced h, hcomplexity, ?_, ?_, ?_, ?_⟩
  · rw [hreductions, complexityTrace_append]
    refine List.pairwise_append.mpr ⟨hs.nonincreasing, List.pairwise_singleton _ _, ?_⟩
    intro n hn m hm
    rw [List.mem_singleton.mp hm, hafter]
    exact hle.trans (hs.last n hn)
  · rw [hreductions, complexityTrace_append]
    intro n hn
    obtain hn | hn := List.mem_append.mp hn
    · exact hle.trans (hs.last n hn)
    · rw [List.mem_singleton.mp hn, hafter]
  · have henvironment := hs.environment
    rw [finalEnvironment] at henvironment ⊢
    rw [hreductions]
    obtain ⟨henv, hc⟩ | ⟨henv, hc⟩ := hkind
    · rw [if_pos ⟨r, List.mem_append_right _ List.mem_cons_self, henv⟩, hc, henvironment]
      split
      · exact reducedEnvironment_reducedEnvironment _
      · rfl
    · have hiff : (∃ r' ∈ s.reductions ++ [r], r'.kind = "env") ↔
          ∃ r' ∈ s.reductions, r'.kind = "env" := by
        refine ⟨?_, fun ⟨r', hr', hk⟩ => ⟨r', List.mem_append_left _ hr', hk⟩⟩
        rintro ⟨r', hr', hk⟩
        obtain hr' | hr' := List.mem_append.mp hr'
        · exact ⟨r', hr', hk⟩
        · rw [List.mem_singleton.mp hr'] at hk
          exact absurd hk henv
      rw [hc, henvironment]
      exact if_congr hiff.symm rfl rfl
  · rw [hreductions, List.length_append, List.length_singleton]
    omega

end

/-! ### What the minimizer ends with -/

/-- The finding is shown by the steps under the environment, according to an executor. -/
def showsFinding (run : List FunctionCall → Environment → String → Except FuzzError Observation)
    (oracle : Oracle) (original : Classification) (originalSuccess : Bool)
    (steps : List FunctionCall) (environment : Environment) : Except FuzzError Bool := do
  let obs ← run steps environment "minimize-candidate"
  .ok (oracle.classify obs.toExecution = original ∧ obs.isSuccess = originalSuccess)

/-- No candidate shows the finding: none without a later step, none with a value of a ladder, and
none under the reduced environment, if that is another one. -/
structure LocalMinimum (shows : List FunctionCall → Environment → Except FuzzError Bool)
    (steps : List FunctionCall) (environment : Environment) : Prop where
  removal : ∀ idx, 0 < idx → idx < steps.length → shows (steps.eraseIdx idx) environment = .ok false
  argument : ∀ stepIdx argIdx call arg v, steps[stepIdx]? = some call →
    call.args[argIdx]? = some arg →
    v ∈ reductionLadder arg → shows (steps.set stepIdx (call.setArg argIdx v))
      environment = .ok false
  environment : reducedEnvironment environment ≠ environment →
    shows steps (reducedEnvironment environment) = .ok false

section Outcome

variable {crates : Crates} {target : MinimizationTarget} {oracle : Option Oracle}
  {original : Classification} {originalSuccess : Bool}
  {run : ℕ → List FunctionCall → Environment → String → Except FuzzError Observation}

/-- A candidate is anything that a local minimum rejects. -/
theorem localMinimum_of_offered {shows : List FunctionCall → Environment → Except FuzzError Bool}
    {s : MinimizerState} (h : ∀ c, Offered crates s c → shows c.steps c.environment = .ok false) :
    LocalMinimum shows s.steps s.environment where
  removal idx hpos hidx := by
    have hmem : idx ∈ (List.range' 1 (s.steps.length - 1)).reverse :=
      List.mem_reverse.mpr (List.mem_range'_1.mpr (by omega))
    exact h _ (.inl (List.mem_map_of_mem hmem))
  argument stepIdx argIdx call arg v hcall harg hv := by
    refine h (s.withSteps crates (s.steps.set stepIdx (call.setArg argIdx v)) "arg"
      ("step " ++ toString stepIdx ++ " arg " ++ toString argIdx ++ ": " ++
        complexityWord arg ++ " -> " ++ complexityWord v)) (.inr (.inl ⟨stepIdx, argIdx, ?_⟩))
    rw [argumentMove, hcall]
    simp only [harg]
    exact List.mem_map.mpr ⟨v, hv, rfl⟩
  environment hreduced := by
    obtain ⟨c, hc⟩ := exists_mem_environmentMove hreduced
    have hrejected := h c (.inr (.inr hc))
    obtain ⟨hsteps, henvironment, -⟩ := mem_environmentMove hc
    rwa [hsteps, henvironment] at hrejected

variable (crates) in
/-- With a test that does not depend on the clock, a pass is one without a clock. -/
theorem timedPass_const {test : ℕ → MinimizerState → Except FuzzError Bool}
    {verdictOf : MinimizerState → Except FuzzError Bool} (hconst : ∀ n s, test n s = verdictOf s)
    (s : MinimizerState) (n : ℕ) :
    (timedPass crates test s n).map (·.1) = minimizePass crates verdictOf s := by
  have hremoval := TimedDescent.attempts_const hconst [removalMove crates] ((s, false), n)
  rw [timedPass, minimizePass, ← hremoval]
  cases TimedDescent.attempts test [removalMove crates] ((s, false), n) with
  | error e => rfl
  | ok r₁ =>
    have hargument := TimedDescent.attempts_const hconst (argumentMoves crates r₁.1.1.steps) r₁
    show (TimedDescent.attempts test (argumentMoves crates r₁.1.1.steps) r₁ >>= _).map _ =
      Descent.attempts verdictOf (argumentMoves crates r₁.1.1.steps) r₁.1 >>= _
    rw [← hargument]
    cases TimedDescent.attempts test (argumentMoves crates r₁.1.1.steps) r₁ with
    | error e => rfl
    | ok r₂ => exact TimedDescent.attempts_const hconst [environmentMove] r₂

/-- A pass yields reduced steps if every execution of such steps yields an observation. -/
theorem timedPass_total {test : ℕ → MinimizerState → Except FuzzError Bool}
    (htest : ∀ n s, ReducedSteps target.steps s.steps → ∃ verdict, test n s = .ok verdict)
    {s : MinimizerState} (n : ℕ) (hs : ReducedSteps target.steps s.steps) :
    ∃ r, timedPass crates test s n = .ok r ∧ ReducedSteps target.steps r.1.1.steps := by
  let P : MinimizerState → Prop := fun s => ReducedSteps target.steps s.steps
  have hoffered : ∀ s c : MinimizerState, P s → Offered crates s c → P c :=
    fun _ _ => reducedSteps_offered
  obtain ⟨r₁, h₁, hP₁⟩ := TimedDescent.attempts_total (P := P) (s := ((s, false), n)) htest
    (fun move hmove s hs c hc => hoffered s c hs (offered_of_mem_removalMove move hmove s c hc)) hs
  obtain ⟨r₂, h₂, hP₂⟩ := TimedDescent.attempts_total (P := P) htest
    (fun move hmove s hs c hc => hoffered s c hs (offered_of_mem_argumentMoves move hmove s c hc))
      hP₁
  obtain ⟨r₃, h₃, hP₃⟩ := TimedDescent.attempts_total (P := P) htest (fun move hmove s hs c hc =>
    hoffered s c hs (offered_of_mem_environmentMove move hmove s c hc)) hP₂
  exact ⟨r₃, Except.bind_eq_ok_iff.mpr ⟨r₁, h₁, Except.bind_eq_ok_iff.mpr ⟨r₂, h₂, h₃⟩⟩, hP₃⟩

/-- **What the minimizer ends with**, whatever it observes. It accepts finitely many reductions,
after which the complexities do not increase, and leaves reduced steps. If the executor answers
alike each time, they are a local minimum under the environment reached. -/
theorem minimizeTimed_local_minimum (hdebug : DebugDocumented crates.debugLength)
    (hrun : ∀ n steps environment caseId, ReducedSteps target.steps steps →
      ∃ obs, run n steps environment caseId = .ok obs) :
    ∃ outcome, minimizeTimed crates run target oracle original originalSuccess = .ok outcome ∧
      outcome.minimization.reductions.length ≤ (target.initial crates).reducible ∧
      (complexityTrace crates target outcome.minimization.reductions).Pairwise (· ≥ ·) ∧
      ReducedSteps target.steps outcome.steps ∧
      ((∀ n, run n = run 0) → LocalMinimum
        (showsFinding (run 0) (oracle.getD .default) original originalSuccess) outcome.steps
        (finalEnvironment target outcome.minimization.reductions)) := by
  have htest : ∀ n s, ReducedSteps target.steps s.steps → ∃ verdict,
      timedTest run (oracle.getD .default) original originalSuccess n s = .ok verdict := by
    intro n s hs
    obtain ⟨obs, hobs⟩ := hrun n s.steps s.environment "minimize-candidate" hs
    exact ⟨_, Except.bind_eq_ok_iff.mpr ⟨obs, hobs, rfl⟩⟩
  obtain ⟨⟨reached, n⟩, hreached⟩ : ∃ r, TimedDescent.exhaust MinimizerState.reducible
      (timedPass crates (timedTest run (oracle.getD .default) original originalSuccess))
      (timedPass_lt crates) (target.initial crates) 0 = .ok r :=
    TimedDescent.exhaust_total (P := fun s => ReducedSteps target.steps s.steps)
      (fun s n hs => timedPass_total htest n hs) 0 (reducedSteps_refl target.steps)
  obtain ⟨s, n', htraced, hlast⟩ := TimedDescent.exhaust_spec (P := Traced crates target)
    (fun s n c n' hs hpass => (timedPass_progress hpass).preserves
      (fun _ _ hs hc => hs.offered hdebug hc) hs) (traced_initial crates target) hreached
  have hend : Traced crates target reached :=
    (timedPass_progress hlast).preserves (fun _ _ hs hc => hs.offered hdebug hc) htraced
  obtain ⟨finalObs, hfinal⟩ :=
    hrun n reached.steps reached.environment "minimize-final" hend.reduced
  refine ⟨_, Except.bind_eq_ok_iff.mpr ⟨(reached, n), hreached,
    Except.bind_eq_ok_iff.mpr ⟨finalObs, hfinal, rfl⟩⟩, (Nat.le_add_right _ _).trans hend.count,
    hend.nonincreasing, hend.reduced, fun hconst => ?_⟩
  rw [← hend.environment]
  -- the last pass has accepted nothing, so all its tests were made in the state reached
  have htimed : ∀ n s, timedTest run (oracle.getD .default) original originalSuccess n s =
      timedTest run (oracle.getD .default) original originalSuccess 0 s := by
    intro n s
    rw [timedTest, timedTest, hconst n]
  have hpass := timedPass_const crates htimed s n'
  rw [hlast] at hpass
  obtain ⟨rfl, hrejected⟩ := minimizePass_eq_false hpass.symm
  exact localMinimum_of_offered hrejected

end Outcome

section Counter

/-- The length of wide integers in the debug format. -/
def wideDebugLength : ScVal → ℕ
  | .u256 a b c d => ("U256(UInt256Parts \x7b hi_hi: " ++ toString a ++ ", hi_lo: " ++ toString b ++
      ", lo_hi: " ++ toString c ++ ", lo_lo: " ++ toString d ++ " \x7d)").length
  | .i256 a b c d => ("I256(Int256Parts \x7b hi_hi: " ++ toString a ++ ", hi_lo: " ++ toString b ++
      ", lo_hi: " ++ toString c ++ ", lo_lo: " ++ toString d ++ " \x7d)").length
  | _ => 0

theorem wideDebugLength_documented : DebugDocumented wideDebugLength where
  u256 _ _ _ _ := by rw [wideDebugLength]
  i256 _ _ _ _ := by rw [wideDebugLength]

/-- Crates that print wide integers in the debug format. -/
def debugCrates : Crates := { codecCrates with debugLength := wideDebugLength }

/-- Two calls that add to a counter. -/
def countTarget : MinimizationTarget where
  steps := [⟨"add", [.u32 7]⟩, ⟨"add", [.u32 9]⟩]
  baseline := []
  environment := .default

/-- An executor of a counter that cannot be increased. -/
def countRun (_ : ℕ) (steps : List FunctionCall) (_ : Environment) (caseId : String) :
    Except FuzzError Observation :=
  .ok {
    status := if steps.any fun call => call.args ≠ [.u32 0] then
      .contractError "Contract" 1 else .void
    state := []
    events := []
    budget := ⟨0, 0, 0, 0⟩
    caseId
    function := "add" }

/-- One call is left, whose argument cannot be simplified. -/
theorem minimizeTimed_local_minimum_count : ∃ outcome,
    minimizeTimed debugCrates countRun countTarget none .pass false = .ok outcome ∧
      ReducedSteps countTarget.steps outcome.steps ∧
      LocalMinimum (showsFinding (countRun 0) .default .pass false) outcome.steps
        (finalEnvironment countTarget outcome.minimization.reductions) := by
  obtain ⟨outcome, hrun, -, -, hreduced, hlocal⟩ := @minimizeTimed_local_minimum debugCrates
    countTarget none .pass false countRun wideDebugLength_documented fun _ _ _ _ _ => ⟨_, rfl⟩
  exact ⟨outcome, hrun, hreduced, hlocal fun _ => rfl⟩

end Counter

end SorobanDevkit.Fuzz
