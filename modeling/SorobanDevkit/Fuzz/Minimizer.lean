import Mathlib.Algebra.GroupWithZero.Nat
import Mathlib.Algebra.Order.BigOperators.Group.List
import Mathlib.Algebra.Order.Group.Nat
import SorobanDevkit.Library.Descent
import SorobanDevkit.Fuzz.Executor

/-!
# The minimizer

A finding's steps are reduced as long as the reduced ones still show it
(`sdkt-fuzz/src/minimizer.rs`): a pass removes one step, then takes a simpler value for each
argument that has one, then simplifies the environment, and passes are repeated until one accepts
nothing. A candidate is executed without authorization entries, under the environment reached so
far.

## Main results

* `reducible_lt_of_offered` — every candidate leaves less to reduce.
* `minimizeWithOracle_spec` — what holds initially and of every accepted candidate holds of the
  outcome, of which every candidate is rejected.
* `minimizeWithOracle_total`.
-/

namespace SorobanDevkit.Fuzz

open Xdr

/-! ### Complexity -/

/-- `bits`: one more than the number of significant bits. -/
def bits (n : UInt64) : ℕ := if n = 0 then 1 else n.toNat.log2 + 2

section Complexity

variable (debugLength : ScVal → ℕ)

mutual

/-- `arg_complexity`. -/
def argComplexity : ScVal → ℕ
  | .bool _ | .void => 1
  | .u32 n => bits n.toUInt64
  | .i32 n => bits n.toInt64.toUInt64
  | .u64 n => bits n
  | .i64 n => bits (UInt64.ofNat n.toInt.natAbs)
  | .u128 hi lo => 1 + bits hi + bits lo
  | .i128 hi lo => 1 + bits (UInt64.ofNat hi.toInt.natAbs) + bits lo
  | .string s => s.length
  | .bytes b => b.length
  | .vec (some items) => 4 + itemsComplexity items
  | .vec none => 1
  | .map (some entries) => 6 + entriesComplexity entries
  | .map none => 1
  | .address _ => 4
  | other => 8 + debugLength other

/-- The complexity of the items of a vector. -/
def itemsComplexity : List ScVal → ℕ
  | [] => 0
  | v :: items => argComplexity v + itemsComplexity items

/-- The complexity of the entries of a map. -/
def entriesComplexity : List (ScVal × ScVal) → ℕ
  | [] => 0
  | (k, v) :: entries => argComplexity k + argComplexity v + entriesComplexity entries

end

/-- `sequence_complexity`. -/
def sequenceComplexity (steps : List FunctionCall) : ℕ :=
  steps.length * 10 + (steps.map fun call => itemsComplexity debugLength call.args).sum

end Complexity

/-- `complexity_word`. -/
def complexityWord : ScVal → String
  | .bool b => "bool(" ++ toString b ++ ")"
  | .u32 x => "u32(" ++ toString x ++ ")"
  | .i32 x => "i32(" ++ toString x ++ ")"
  | .u64 x => "u64(" ++ toString x ++ ")"
  | .i64 x => "i64(" ++ toString x ++ ")"
  | .void => "void"
  | .string s => "string(len " ++ toString s.length ++ ")"
  | .bytes b => "bytes(len " ++ toString b.length ++ ")"
  | .vec (some items) => "vec(len " ++ toString items.length ++ ")"
  | .vec none => "vec(empty)"
  | .map (some entries) => "map(len " ++ toString entries.length ++ ")"
  | .map none => "map(empty)"
  | .address _ => "address"
  | _ => "value"

/-! ### Simpler inputs -/

/-- `reduction_ladder`: the simpler values of a value, the simplest first. -/
def reductionLadder : ScVal → List ScVal
  | .bool b => if b then [.bool false] else []
  | .u32 x => if x = 0 then [] else [.u32 0]
  | .i32 x => if x = 0 then [] else [.i32 0]
  | .u64 x => if x = 0 then [] else [.u64 0]
  | .i64 x => if x = 0 then [] else [.i64 0]
  | .u128 hi lo => if hi = 0 ∧ lo = 0 then [] else [.u128 0 0]
  | .i128 hi lo => if hi = 0 ∧ lo = 0 then [] else [.i128 0 0]
  | .u256 a b c d => if a = 0 ∧ b = 0 ∧ c = 0 ∧ d = 0 then [] else [.u256 0 0 0 0]
  | .i256 a b c d => if a = 0 ∧ b = 0 ∧ c = 0 ∧ d = 0 then [] else [.i256 0 0 0 0]
  | .string s => if s = [] then [] else [.string []]
  | .bytes b => if b = [] then [] else [.bytes []]
  | .vec (some (_ :: _)) => [.vec none]
  | .map (some (_ :: _)) => [.map none]
  | _ => []

/-- A value of the ladder has no simpler one itself. -/
theorem reductionLadder_of_mem {v w : ScVal} (h : w ∈ reductionLadder v) :
    reductionLadder w = [] := by
  unfold reductionLadder at h
  split at h <;> (try split at h) <;> simp_all [reductionLadder]

/-- The environment offered for another one: no timestamp, and no ceilings of a capped budget. -/
def reducedEnvironment (environment : Environment) : Environment where
  ledger := { environment.ledger with timestamp := 0 }
  budget := match environment.budget with
    | .capped .. => .default
    | budget => budget

theorem reducedEnvironment_reducedEnvironment (environment : Environment) :
    reducedEnvironment (reducedEnvironment environment) = reducedEnvironment environment := by
  obtain ⟨ledger, budget⟩ := environment
  cases budget <;> rfl

/-! ### Executing a candidate -/

section

variable (crates : Crates) (host : Host)

/-- `run_steps`. -/
def runSteps (executor : Executor) (baseline : List LedgerEntry) (environment : Environment)
    (steps : List FunctionCall) (caseId : String) : Except FuzzError Observation :=
  match steps with
  | [] => .error (.invalidConfig "minimizer/campaign sequence must have at least one step")
  | [call] => executor.executeWith host (executor.case crates caseId call baseline) environment
  | _ :: _ :: _ =>
    (executeSequence crates host executor baseline environment steps caseId).map
      (·.finalObservation)

/-- `MinimizationTarget`. -/
structure MinimizationTarget where
  steps : List FunctionCall
  baseline : List LedgerEntry
  environment : Environment
  deriving DecidableEq

/-- `preserves`: the same classification, and success or failure as before. -/
def preserves (executor : Executor) (baseline : List LedgerEntry) (oracle : Oracle)
    (original : Classification) (originalSuccess : Bool) (steps : List FunctionCall)
    (environment : Environment) : Except FuzzError Bool := do
  let obs ← runSteps crates host executor baseline environment steps "minimize-candidate"
  .ok (oracle.classify obs.toExecution = original ∧ obs.isSuccess = originalSuccess)

/-! ### Moves -/

/-- `Reduction`. -/
structure Reduction where
  kind : String
  detail : String
  complexityAfter : ℕ
  deriving DecidableEq

/-- What the loop of the minimizer has reached. -/
structure MinimizerState where
  steps : List FunctionCall
  environment : Environment
  complexity : ℕ
  reductions : List Reduction
  deriving DecidableEq

/-- The state with other steps, the reduction recorded. -/
def MinimizerState.withSteps (state : MinimizerState) (steps : List FunctionCall)
    (kind detail : String) : MinimizerState where
  steps := steps
  environment := state.environment
  complexity := sequenceComplexity crates.debugLength steps
  reductions :=
    state.reductions ++ [⟨kind, detail, sequenceComplexity crates.debugLength steps⟩]

/-- The candidates without one step, the last step first. The first step is never removed. -/
def removalMove (state : MinimizerState) : List MinimizerState :=
  (List.range' 1 (state.steps.length - 1)).reverse.map fun idx =>
    state.withSteps crates (state.steps.eraseIdx idx) "step"
      ("removed step " ++ toString idx ++ " \x60" ++
        ((state.steps[idx]?.map (·.function)).getD "") ++ "\x60")

/-- The call with another argument. -/
def FunctionCall.setArg (call : FunctionCall) (argIdx : ℕ) (v : ScVal) : FunctionCall :=
  { call with args := call.args.set argIdx v }

/-- The candidates with a value of its ladder for one argument. -/
def argumentMove (stepIdx argIdx : ℕ) (state : MinimizerState) : List MinimizerState :=
  match state.steps[stepIdx]? with
  | none => []
  | some call =>
    match call.args[argIdx]? with
    | none => []
    | some arg =>
      (reductionLadder arg).map fun v =>
        state.withSteps crates (state.steps.set stepIdx (call.setArg argIdx v)) "arg"
          ("step " ++ toString stepIdx ++ " arg " ++ toString argIdx ++ ": " ++
            complexityWord arg ++ " -> " ++ complexityWord v)

/-- The moves for all arguments, the last step and its last argument first. -/
def argumentMoves (steps : List FunctionCall) : List (MinimizerState → List MinimizerState) :=
  (steps.zipIdx.reverse).flatMap fun (call, stepIdx) =>
    (List.range call.args.length).reverse.map fun argIdx => argumentMove crates stepIdx argIdx

/-- The candidate with the reduced environment, if it is another one. -/
def environmentMove (state : MinimizerState) : List MinimizerState :=
  if state.environment ≠ Environment.default ∧
      reducedEnvironment state.environment ≠ state.environment then
    [{ steps := state.steps
       environment := reducedEnvironment state.environment
       complexity := state.complexity
       reductions := state.reductions ++
        [⟨"env", "environment reduced to defaults", state.complexity⟩] }]
  else []

/-- The candidates that a pass can offer at a state. -/
def Offered (s c : MinimizerState) : Prop :=
  c ∈ removalMove crates s ∨ (∃ stepIdx argIdx, c ∈ argumentMove crates stepIdx argIdx s) ∨
    c ∈ environmentMove s

variable {crates}

theorem mem_removalMove {s c : MinimizerState} (h : c ∈ removalMove crates s) :
    ∃ idx, 0 < idx ∧ idx < s.steps.length ∧ c.steps = s.steps.eraseIdx idx ∧
      c.environment = s.environment := by
  obtain ⟨idx, hidx, rfl⟩ := List.mem_map.mp h
  have hrange := List.mem_range'_1.mp (List.mem_reverse.mp hidx)
  exact ⟨idx, by omega, by omega, rfl, rfl⟩

theorem mem_argumentMove {stepIdx argIdx : ℕ} {s c : MinimizerState}
    (h : c ∈ argumentMove crates stepIdx argIdx s) :
    ∃ call arg v, s.steps[stepIdx]? = some call ∧ call.args[argIdx]? = some arg ∧
      v ∈ reductionLadder arg ∧ c.steps = s.steps.set stepIdx (call.setArg argIdx v) ∧
      c.environment = s.environment := by
  unfold argumentMove at h
  split at h
  · cases h
  · next call hcall =>
    split at h
    · cases h
    · next arg harg =>
      obtain ⟨v, hv, rfl⟩ := List.mem_map.mp h
      exact ⟨call, arg, v, hcall, harg, hv, rfl, rfl⟩

theorem mem_environmentMove {s c : MinimizerState} (h : c ∈ environmentMove s) :
    c.steps = s.steps ∧ c.environment = reducedEnvironment s.environment ∧
      reducedEnvironment s.environment ≠ s.environment := by
  unfold environmentMove at h
  split at h
  · next hreduced =>
    rw [List.mem_singleton.mp h]
    exact ⟨rfl, rfl, hreduced.2⟩
  · cases h

/-! ### What is left to reduce -/

/-- The number of arguments with a simpler value. -/
def reducibleArgs (steps : List FunctionCall) : ℕ :=
  (steps.map fun call => call.args.countP fun v => reductionLadder v ≠ []).sum

/-- What is left to reduce: steps, arguments and the environment. -/
def MinimizerState.reducible (s : MinimizerState) : ℕ :=
  s.steps.length + reducibleArgs s.steps +
    if reducedEnvironment s.environment = s.environment then 0 else 1

theorem sum_map_set_lt {α : Type} {f : α → ℕ} {l : List α} {i : ℕ} {a b : α}
    (hi : l[i]? = some a) (h : f b < f a) : ((l.set i b).map f).sum < (l.map f).sum := by
  induction l generalizing i with
  | nil => cases hi
  | cons c l ih =>
    cases i with
    | zero =>
      cases hi
      simpa using h
    | succ i =>
      have hrec := ih hi
      simpa using hrec

theorem reducibleArgs_eraseIdx_le (steps : List FunctionCall) (idx : ℕ) :
    reducibleArgs (steps.eraseIdx idx) ≤ reducibleArgs steps :=
  ((List.eraseIdx_sublist steps idx).map _).sum_le_sum fun _ _ => Nat.zero_le _

theorem reducibleArgs_set_lt {steps : List FunctionCall} {stepIdx argIdx : ℕ}
    {call : FunctionCall} {arg v : ScVal} (hcall : steps[stepIdx]? = some call)
    (harg : call.args[argIdx]? = some arg) (hv : v ∈ reductionLadder arg) :
    reducibleArgs (steps.set stepIdx (call.setArg argIdx v)) < reducibleArgs steps := by
  refine sum_map_set_lt hcall ?_
  obtain ⟨hlength, hget⟩ := List.getElem?_eq_some_iff.mp harg
  have hladder : reductionLadder arg ≠ [] := List.ne_nil_of_mem hv
  have hcount : 0 < call.args.countP fun v => reductionLadder v ≠ [] :=
    List.countP_pos_iff.mpr ⟨arg, List.mem_of_getElem? harg, by simpa using hladder⟩
  rw [FunctionCall.setArg, List.countP_set hlength, hget]
  simp only [reductionLadder_of_mem hv, hladder, ne_eq, not_false_eq_true, not_true_eq_false,
    decide_true, decide_false, if_true, Bool.false_eq_true, if_false] at hcount ⊢
  omega

/-- **Every candidate leaves less to reduce.** -/
theorem reducible_lt_of_offered {s c : MinimizerState} (h : Offered crates s c) :
    c.reducible < s.reducible := by
  obtain hremoval | ⟨stepIdx, argIdx, hargument⟩ | henvironment := h
  · obtain ⟨idx, -, hidx, hsteps, henv⟩ := mem_removalMove hremoval
    have hlength := List.length_eraseIdx_of_lt hidx
    have hargs := reducibleArgs_eraseIdx_le s.steps idx
    rw [MinimizerState.reducible, MinimizerState.reducible, hsteps, henv]
    omega
  · obtain ⟨call, arg, v, hcall, harg, hv, hsteps, henv⟩ := mem_argumentMove hargument
    have hargs := reducibleArgs_set_lt hcall harg hv
    rw [MinimizerState.reducible, MinimizerState.reducible, hsteps, henv, List.length_set]
    omega
  · obtain ⟨hsteps, henv, hreduced⟩ := mem_environmentMove henvironment
    rw [MinimizerState.reducible, MinimizerState.reducible, hsteps, henv,
      reducedEnvironment_reducedEnvironment, if_pos rfl, if_neg hreduced]
    omega

/-- There is nothing to reduce in the steps: a single one, whose arguments have no simpler value. -/
def Irreducible (steps : List FunctionCall) : Prop :=
  steps.length ≤ 1 ∧ ∀ call ∈ steps, ∀ arg ∈ call.args, reductionLadder arg = []

instance (steps : List FunctionCall) : Decidable (Irreducible steps) := by
  unfold Irreducible
  infer_instance

/-- Irreducible steps are not replaced. -/
theorem steps_eq_of_irreducible {s c : MinimizerState} (hs : Irreducible s.steps)
    (h : Offered crates s c) : c.steps = s.steps := by
  obtain hremoval | ⟨stepIdx, argIdx, hargument⟩ | henvironment := h
  · obtain ⟨idx, hpos, hidx, -⟩ := mem_removalMove hremoval
    have hlength := hs.1
    omega
  · obtain ⟨call, arg, v, hcall, harg, hv, -⟩ := mem_argumentMove hargument
    have hladder := hs.2 call (List.mem_of_getElem? hcall) arg (List.mem_of_getElem? harg)
    rw [hladder] at hv
    cases hv
  · exact (mem_environmentMove henvironment).1

/-- The environment is offered to be reduced if it is not reduced. -/
theorem exists_mem_environmentMove {s : MinimizerState}
    (h : reducedEnvironment s.environment ≠ s.environment) : ∃ c, c ∈ environmentMove s := by
  have hdefault : s.environment ≠ Environment.default := by
    intro heq
    rw [heq] at h
    exact h rfl
  refine List.exists_mem_of_ne_nil _ ?_
  rw [environmentMove, if_pos ⟨hdefault, h⟩]
  exact List.cons_ne_nil _ _

/-- Where nothing is offered, there is nothing to reduce. -/
theorem irreducible_of_not_offered {s : MinimizerState} (h : ∀ c, ¬ Offered crates s c) :
    Irreducible s.steps ∧ reducedEnvironment s.environment = s.environment := by
  refine ⟨⟨?_, ?_⟩, ?_⟩
  · by_contra hlength
    have hmem : s.steps.length - 1 ∈ (List.range' 1 (s.steps.length - 1)).reverse :=
      List.mem_reverse.mpr (List.mem_range'_1.mpr (by omega))
    exact h _ (.inl (List.mem_map_of_mem hmem))
  · intro call hcall arg harg
    obtain ⟨stepIdx, hstepIdx⟩ := List.mem_iff_getElem?.mp hcall
    obtain ⟨argIdx, hargIdx⟩ := List.mem_iff_getElem?.mp harg
    by_contra hladder
    have hmove : argumentMove crates stepIdx argIdx s ≠ [] := by
      rw [argumentMove, hstepIdx]
      simp only [hargIdx]
      simpa using hladder
    obtain ⟨c, hc⟩ := List.exists_mem_of_ne_nil _ hmove
    exact h c (.inr (.inl ⟨stepIdx, argIdx, hc⟩))
  · by_contra hreduced
    obtain ⟨c, hc⟩ := exists_mem_environmentMove hreduced
    exact h c (.inr (.inr hc))

/-- Every call of a candidate has the function and the number of arguments of a call it comes
from. -/
theorem mem_steps_of_offered {s c : MinimizerState} (h : Offered crates s c) {call : FunctionCall}
    (hcall : call ∈ c.steps) : ∃ call' ∈ s.steps,
      call.function = call'.function ∧ call.args.length = call'.args.length := by
  obtain hremoval | ⟨stepIdx, argIdx, hargument⟩ | henvironment := h
  · obtain ⟨idx, -, -, hsteps, -⟩ := mem_removalMove hremoval
    rw [hsteps] at hcall
    exact ⟨call, (List.eraseIdx_sublist s.steps idx).subset hcall, rfl, rfl⟩
  · obtain ⟨call', arg, v, hcall', -, -, hsteps, -⟩ := mem_argumentMove hargument
    rw [hsteps] at hcall
    rcases List.mem_or_eq_of_mem_set hcall with hmem | rfl
    · exact ⟨call, hmem, rfl, rfl⟩
    · exact ⟨call', List.mem_of_getElem? hcall', rfl, List.length_set⟩
  · rw [(mem_environmentMove henvironment).1] at hcall
    exact ⟨call, hcall, rfl, rfl⟩

/-- A candidate has the environment reached, or its reduced one. -/
theorem environment_of_offered {s c : MinimizerState} (h : Offered crates s c) :
    c.environment = s.environment ∨ c.environment = reducedEnvironment s.environment := by
  obtain hremoval | ⟨stepIdx, argIdx, hargument⟩ | henvironment := h
  · obtain ⟨idx, -, -, -, henv⟩ := mem_removalMove hremoval
    exact .inl henv
  · obtain ⟨call, arg, v, -, -, -, -, henv⟩ := mem_argumentMove hargument
    exact .inl henv
  · exact .inr (mem_environmentMove henvironment).2.1

/-- The first step is never removed. -/
theorem steps_ne_nil_of_offered {s c : MinimizerState} (h : Offered crates s c)
    (hs : s.steps ≠ []) : c.steps ≠ [] := by
  have hlength := List.length_pos_iff.mpr hs
  refine List.length_pos_iff.mp ?_
  obtain hremoval | ⟨stepIdx, argIdx, hargument⟩ | henvironment := h
  · obtain ⟨idx, hpos, hidx, hsteps, -⟩ := mem_removalMove hremoval
    rw [hsteps, List.length_eraseIdx_of_lt hidx]
    omega
  · obtain ⟨call, arg, v, -, -, -, hsteps, -⟩ := mem_argumentMove hargument
    rwa [hsteps, List.length_set]
  · rwa [(mem_environmentMove henvironment).1]

/-! ### The loop -/

section

variable {test : MinimizerState → Except FuzzError Bool} {s : MinimizerState}

variable (crates test) in
/-- One pass over all candidates. -/
def minimizePass (s : MinimizerState) : Except FuzzError (MinimizerState × Bool) := do
  let r ← Descent.attempts test [removalMove crates] (s, false)
  let r ← Descent.attempts test (argumentMoves crates r.1.steps) r
  Descent.attempts test [environmentMove] r

theorem offered_of_mem_removalMove :
    ∀ move ∈ [removalMove crates], ∀ s, ∀ c ∈ move s, Offered crates s c := by
  intro move hmove s c hc
  rw [List.mem_singleton.mp hmove] at hc
  exact .inl hc

theorem offered_of_mem_environmentMove :
    ∀ move ∈ [environmentMove], ∀ s, ∀ c ∈ move s, Offered crates s c := by
  intro move hmove s c hc
  rw [List.mem_singleton.mp hmove] at hc
  exact .inr (.inr hc)

theorem offered_of_mem_argumentMoves {steps : List FunctionCall} :
    ∀ move ∈ argumentMoves crates steps, ∀ s, ∀ c ∈ move s, Offered crates s c := by
  intro move hmove s c hc
  obtain ⟨⟨call, stepIdx⟩, -, hcall⟩ := List.mem_flatMap.mp hmove
  obtain ⟨argIdx, -, rfl⟩ := List.mem_map.mp hcall
  exact .inr (.inl ⟨stepIdx, argIdx, hc⟩)

/-- The moves of a pass reach every argument that has a candidate. -/
theorem argumentMove_mem {stepIdx argIdx : ℕ} {c : MinimizerState}
    (h : c ∈ argumentMove crates stepIdx argIdx s) :
    argumentMove crates stepIdx argIdx ∈ argumentMoves crates s.steps := by
  obtain ⟨call, arg, -, hcall, harg, -⟩ := mem_argumentMove h
  have hmem : (call, stepIdx) ∈ s.steps.zipIdx := List.mk_mem_zipIdx_iff_getElem?.mpr hcall
  have hlength : argIdx < call.args.length := (List.getElem?_eq_some_iff.mp harg).1
  refine List.mem_flatMap.mpr ⟨(call, stepIdx), List.mem_reverse.mpr hmem, ?_⟩
  exact List.mem_map.mpr ⟨argIdx, List.mem_reverse.mpr (List.mem_range.mpr hlength), rfl⟩

/-- A pass goes from one accepted candidate to the next. -/
theorem minimizePass_progress {r : MinimizerState × Bool}
    (h : minimizePass crates test s = .ok r) : Descent.Progress test (Offered crates) s r := by
  obtain ⟨r₁, h₁, h⟩ := Except.bind_eq_ok_iff.mp h
  obtain ⟨r₂, h₂, h₃⟩ := Except.bind_eq_ok_iff.mp h
  have hstart : Descent.Progress test (Offered crates) s (s, false) := .none
  have hremoval := hstart.attempts offered_of_mem_removalMove h₁
  have hargument := hremoval.attempts offered_of_mem_argumentMoves h₂
  exact hargument.attempts offered_of_mem_environmentMove h₃

/-- A pass that accepts a candidate leaves less to reduce. -/
theorem minimizePass_lt (s c : MinimizerState) (h : minimizePass crates test s = .ok (c, true)) :
    c.reducible < s.reducible := by
  have hoffered : ∀ s c : MinimizerState, Offered crates s c → c.reducible < s.reducible :=
    fun _ _ => reducible_lt_of_offered
  exact (minimizePass_progress h).lt hoffered

/-- A pass that accepts nothing has rejected every candidate. -/
theorem minimizePass_eq_false {c : MinimizerState}
    (h : minimizePass crates test s = .ok (c, false)) :
    c = s ∧ ∀ d, Offered crates s d → test d = .ok false := by
  obtain ⟨r₁, h₁, h⟩ := Except.bind_eq_ok_iff.mp h
  obtain ⟨r₂, h₂, h₃⟩ := Except.bind_eq_ok_iff.mp h
  obtain ⟨rfl, henvironment⟩ := Descent.attempts_eq_false h₃ rfl
  obtain ⟨rfl, hargument⟩ := Descent.attempts_eq_false h₂ rfl
  obtain ⟨heq, hremoval⟩ := Descent.attempts_eq_false h₁ rfl
  cases heq
  refine ⟨rfl, ?_⟩
  rintro d (hd | ⟨stepIdx, argIdx, hd⟩ | hd)
  · exact hremoval _ List.mem_cons_self d hd
  · exact hargument _ (argumentMove_mem hd) d hd
  · exact henvironment _ List.mem_cons_self d hd

/-- A pass yields a state with a step if every test of such a state yields a verdict. -/
theorem minimizePass_total (htest : ∀ s, s.steps ≠ [] → ∃ verdict, test s = .ok verdict)
    (hs : s.steps ≠ []) : ∃ r, minimizePass crates test s = .ok r ∧ r.1.steps ≠ [] := by
  let P : MinimizerState → Prop := fun s => s.steps ≠ []
  have hremoval : ∀ move ∈ [removalMove crates], ∀ s, P s → ∀ c ∈ move s, P c :=
    fun move hmove s hs c hc =>
      steps_ne_nil_of_offered (offered_of_mem_removalMove move hmove s c hc) hs
  have hargument (steps : List FunctionCall) :
      ∀ move ∈ argumentMoves crates steps, ∀ s, P s → ∀ c ∈ move s, P c :=
    fun move hmove s hs c hc =>
      steps_ne_nil_of_offered (offered_of_mem_argumentMoves move hmove s c hc) hs
  have henvironment : ∀ move ∈ [environmentMove], ∀ s, P s → ∀ c ∈ move s, P c := by
    intro move hmove s hs c hc
    have hoffered : Offered crates s c := offered_of_mem_environmentMove move hmove s c hc
    exact steps_ne_nil_of_offered hoffered hs
  have hstart : P (s, false).1 := hs
  obtain ⟨r₁, h₁, hP₁⟩ := Descent.attempts_total htest hremoval hstart
  obtain ⟨r₂, h₂, hP₂⟩ := Descent.attempts_total htest (hargument r₁.1.steps) hP₁
  obtain ⟨r₃, h₃, hP₃⟩ := Descent.attempts_total htest henvironment hP₂
  exact ⟨r₃, Except.bind_eq_ok_iff.mpr ⟨r₁, h₁, Except.bind_eq_ok_iff.mpr ⟨r₂, h₂, h₃⟩⟩, hP₃⟩

end

/-! ### Minimization -/

/-- `Minimization`. -/
structure Minimization where
  attempted : Bool
  strategy : String
  originalComplexity : ℕ
  minimizedComplexity : ℕ
  preserved : Bool
  reductions : List Reduction
  deriving DecidableEq

/-- `MinimizationOutcome`. -/
structure MinimizationOutcome where
  minimization : Minimization
  steps : List FunctionCall
  deriving DecidableEq

/-- `Oracle::default()`. -/
def Oracle.default : Oracle where
  expected := .default
  authMode := .noAuth

variable (crates)

/-- Where the minimizer starts. -/
def MinimizationTarget.initial (target : MinimizationTarget) : MinimizerState where
  steps := target.steps
  environment := target.environment
  complexity := sequenceComplexity crates.debugLength target.steps
  reductions := []

/-- The test of a candidate. -/
def candidateTest (executor : Executor) (target : MinimizationTarget) (oracle : Oracle)
    (original : Classification) (originalSuccess : Bool) (s : MinimizerState) :
    Except FuzzError Bool :=
  preserves crates host executor target.baseline oracle original originalSuccess s.steps
    s.environment

/-- `minimize_with_oracle`. -/
def minimizeWithOracle (executor : Executor) (target : MinimizationTarget)
    (oracle : Option Oracle) (original : Classification) (originalSuccess : Bool) :
    Except FuzzError MinimizationOutcome := do
  let oracle := oracle.getD .default
  let test := candidateTest crates host executor target oracle original originalSuccess
  let reached ← Descent.exhaust MinimizerState.reducible (minimizePass crates test)
    minimizePass_lt (target.initial crates)
  let finalObs ← runSteps crates host executor target.baseline reached.environment reached.steps
    "minimize-final"
  .ok {
    minimization := {
      attempted := true
      strategy := "deterministically minimized under the configured strategy"
      originalComplexity := sequenceComplexity crates.debugLength target.steps
      minimizedComplexity := sequenceComplexity crates.debugLength reached.steps
      preserved := oracle.classify finalObs.toExecution = original ∧
        finalObs.isSuccess = originalSuccess
      reductions := reached.reductions }
    steps := reached.steps }

section Outcome

variable {crates host} {executor : Executor} {target : MinimizationTarget} {oracle : Option Oracle}
  {original : Classification} {originalSuccess : Bool}

/-- **The rule for minimization**: what holds initially and of every accepted candidate holds of the
state that the outcome comes from, and every candidate there is rejected. -/
theorem minimizeWithOracle_spec {P : MinimizerState → Prop} (hinit : P (target.initial crates))
    (hstep : ∀ s c, P s → Offered crates s c → candidateTest crates host executor target
      (oracle.getD .default) original originalSuccess c = .ok true → P c)
    {outcome : MinimizationOutcome} (h : minimizeWithOracle crates host executor target oracle
      original originalSuccess = .ok outcome) :
    ∃ s, P s ∧ outcome.steps = s.steps ∧ ∀ c, Offered crates s c → candidateTest crates host
      executor target (oracle.getD .default) original originalSuccess c = .ok false := by
  obtain ⟨reached, hreached, h⟩ := Except.bind_eq_ok_iff.mp h
  obtain ⟨finalObs, -, h⟩ := Except.bind_eq_ok_iff.mp h
  cases h
  have hpreserved : ∀ s c, P s → minimizePass crates (candidateTest crates host executor target
      (oracle.getD .default) original originalSuccess) s = .ok (c, true) → P c := by
    intro s c hs hpass
    exact (minimizePass_progress hpass).preserves (fun s c hs hc => hstep s c hs hc.1 hc.2) hs
  obtain ⟨s, hs, hlast⟩ := Descent.exhaust_spec hpreserved hinit hreached
  obtain ⟨rfl, hrejected⟩ := minimizePass_eq_false hlast
  exact ⟨reached, hs, rfl, hrejected⟩

/-- Minimization yields an outcome if every execution yields an observation. -/
theorem minimizeWithOracle_total (hsteps : target.steps ≠ [])
    (hrun : ∀ steps environment caseId, steps ≠ [] → ∃ obs,
      runSteps crates host executor target.baseline environment steps caseId = .ok obs) :
    ∃ outcome, minimizeWithOracle crates host executor target oracle original originalSuccess =
      .ok outcome := by
  let test := candidateTest crates host executor target (oracle.getD .default) original
    originalSuccess
  have htest : ∀ s, s.steps ≠ [] → ∃ verdict, test s = .ok verdict := by
    intro s hs
    obtain ⟨obs, hobs⟩ := hrun s.steps s.environment "minimize-candidate" hs
    exact ⟨_, Except.bind_eq_ok_iff.mpr ⟨obs, hobs, rfl⟩⟩
  have hinitial : (target.initial crates).steps ≠ [] := hsteps
  obtain ⟨reached, hreached⟩ : ∃ reached, Descent.exhaust MinimizerState.reducible
      (minimizePass crates test) minimizePass_lt (target.initial crates) = .ok reached :=
    Descent.exhaust_total (P := fun s => s.steps ≠ [])
      (fun s hs => minimizePass_total htest hs) hinitial
  have hne : reached.steps ≠ [] := by
    have hpass : ∀ s c, s.steps ≠ [] → minimizePass crates test s = .ok (c, true) →
        c.steps ≠ [] := by
      intro s c hs hc
      obtain ⟨r, hr, hne⟩ := minimizePass_total htest hs
      rw [hc] at hr
      cases hr
      exact hne
    obtain ⟨s, hs, hlast⟩ := Descent.exhaust_spec hpass hinitial hreached
    rwa [(minimizePass_eq_false hlast).1]
  obtain ⟨finalObs, hfinal⟩ := hrun reached.steps reached.environment "minimize-final" hne
  exact ⟨_, Except.bind_eq_ok_iff.mpr ⟨reached, hreached,
    Except.bind_eq_ok_iff.mpr ⟨finalObs, hfinal, rfl⟩⟩⟩

end Outcome

end

end SorobanDevkit.Fuzz
