import Mathlib.Logic.Basic
import Mathlib.Tactic.ByContra
import Mathlib.Tactic.SplitIfs
import SorobanDevkit.Fuzz.Oracle

/-!
# What a verdict of the oracle says

An expectation declares what an execution should yield: its outcome, its state, its events, and
whether it needs authorization. A verdict is right if a pass means that all of it holds, and a
finding that what it names was declared and does not hold.

The oracle checks in an order and returns at the first verdict. Where no outcome is declared and the
execution fails, it passes before the state and the events are checked.

## Main results

* `stateMismatch_iff` — the check of the state is exact.
* `violated_of_classify` — findings are right.
* `verdict_right_iff` — the executions for which every verdict is right.
-/

namespace SorobanDevkit.Fuzz

/-- Declared state holds of the observed entries: each declared key has the declared bytes wherever
it occurs, and nothing is created that is not declared. -/
structure StateHolds (want : StateMap) (state : List StateEntry) : Prop where
  found : ∀ key value, want[key]? = some value →
    ∃ e ∈ state, e.keyXdr = key ∧ e.valueXdr = some value
  exact_value : ∀ e ∈ state, ∀ value, want[e.keyXdr]? = some value →
    e.change ≠ .deleted ∧ e.valueXdr = some value
  declared_creation : ∀ e ∈ state, e.change = .created → ∃ value, want[e.keyXdr]? = some value

/-- The declared outcome holds of an execution. -/
def OutcomeHolds (behavior : ExpectedBehavior) (obs : Execution) : Prop :=
  match behavior with
  | .success expectReturn =>
    obs.isSuccess = true ∧ ∀ want, expectReturn = some want → obs.returnValue.getD .void = want
  | .error errorType code => obs.status = .contractError errorType code
  | .any => True

/-- Everything that an expectation declares holds of an execution. -/
structure DeclaredHolds (oracle : Oracle) (obs : Execution) : Prop where
  outcome : OutcomeHolds oracle.expected.behavior obs
  state : ∀ want, oracle.expected.state = some want → StateHolds want obs.state
  events : ∀ want, oracle.expected.events = some want → obs.events = want
  authorized : oracle.expected.authRequired = true → obs.isSuccess = true →
    oracle.authMode = .correctAuth

/-- What a reason names is declared and does not hold. -/
def Violated (oracle : Oracle) (obs : Execution) : ReasonCode → Prop
  | .returnMismatch => obs.isSuccess = true ∧
      ((∃ errorType code, oracle.expected.behavior = .error errorType code) ∨
        ∃ want, oracle.expected.behavior = .success (some want) ∧ obs.returnValue.getD .void ≠ want)
  | .stateMismatch => ∃ want, oracle.expected.state = some want ∧ ¬ StateHolds want obs.state
  | .eventMismatch => ∃ want, oracle.expected.events = some want ∧ obs.events ≠ want
  | .authorizationBypass => oracle.expected.authRequired = true ∧ obs.isSuccess = true ∧
      oracle.authMode ≠ .correctAuth
  | .unexpectedError => ∃ errorType code, obs.status = .contractError errorType code ∧
      ((∃ expectReturn, oracle.expected.behavior = .success expectReturn) ∨
        ∃ wantType wantCode, oracle.expected.behavior = .error wantType wantCode ∧
          ¬ (wantType = errorType ∧ wantCode = code))
  | .resourceLimit => oracle.expected.resourceLimitIsFinding = true ∧
      (∃ expectReturn, oracle.expected.behavior = .success expectReturn) ∧
        ∃ code, obs.status = .contractError "Budget" code

/-! ### The check of the state -/

section

variable {want : StateMap} {state : List StateEntry} {e : StateEntry}

/-- An observed entry passes the check if it is what is declared for its key, and no creation if
nothing is. -/
theorem entryMismatch_eq_false_iff : Oracle.entryMismatch want e = false ↔
    (∀ value, want[e.keyXdr]? = some value → e.change ≠ .deleted ∧ e.valueXdr = some value) ∧
      (e.change = .created → ∃ value, want[e.keyXdr]? = some value) := by
  rw [Oracle.entryMismatch]
  cases hwant : want[e.keyXdr]? with
  | none => cases hchange : e.change <;> simp
  | some value => cases hchange : e.change <;> simp

/-- Every declared entry is looked for. -/
theorem declaredFound_iff : Oracle.declaredFound want state = true ↔
    ∀ key value, want[key]? = some value → ∃ e ∈ state, e.keyXdr = key ∧
      e.valueXdr = some value := by
  rw [Oracle.declaredFound, List.all_eq_true]
  simp only [List.any_eq_true, Bool.and_eq_true, beq_iff_eq]
  constructor
  · intro h key value hwant
    exact h (key, value) (Std.ExtTreeMap.mem_toList_iff_getElem?_eq_some.mpr hwant)
  · rintro h ⟨key, value⟩ hmem
    exact h key value (Std.ExtTreeMap.mem_toList_iff_getElem?_eq_some.mp hmem)

/-- **The check of the state is exact.** -/
theorem stateMismatch_iff :
    (state.any (Oracle.entryMismatch want) || !Oracle.declaredFound want state) = true ↔
      ¬ StateHolds want state := by
  rw [← not_iff_not, not_not, Bool.not_eq_true, Bool.or_eq_false_iff, Bool.not_eq_false',
    declaredFound_iff,
    List.any_eq_false]
  simp only [Bool.not_eq_true, entryMismatch_eq_false_iff]
  constructor
  · rintro ⟨hentries, hfound⟩
    exact ⟨hfound, fun e he => (hentries e he).1, fun e he => (hentries e he).2⟩
  · rintro ⟨hfound, hvalue, hcreation⟩
    exact ⟨fun e he => ⟨hvalue e he, hcreation e he⟩, hfound⟩

end

/-! ### Verdicts -/

section

variable {oracle : Oracle} {obs : Execution}

/-- The checks of the effects pass exactly if what is declared of them holds, and otherwise name
what does not. -/
theorem classifyEffects_cases (oracle : Oracle) (obs : Execution) :
    (oracle.classifyEffects obs = .pass ∧
        (∀ want, oracle.expected.state = some want → StateHolds want obs.state) ∧
        (∀ want, oracle.expected.events = some want → obs.events = want) ∧
        (oracle.expected.authRequired = true → obs.isSuccess = true →
          oracle.authMode = .correctAuth)) ∨
      ∃ reason, oracle.classifyEffects obs = .finding reason ∧ Violated oracle obs reason := by
  rw [Oracle.classifyEffects]
  split_ifs with hauth hstate hevents
  · refine .inr ⟨_, rfl, ?_⟩
    simpa [Violated, and_assoc] using hauth
  · refine .inr ⟨_, rfl, ?_⟩
    obtain ⟨want, hwant, hmismatch⟩ := (Option.any_eq_true _ _).mp hstate
    exact ⟨want, hwant, stateMismatch_iff.mp hmismatch⟩
  · refine .inr ⟨_, rfl, ?_⟩
    obtain ⟨want, hwant, hne⟩ := (Option.any_eq_true _ _).mp hevents
    exact ⟨want, hwant, bne_iff_ne.mp hne⟩
  · refine .inl ⟨rfl, fun want hwant => ?_, fun want hwant => ?_, fun hrequired hsuccess => ?_⟩
    · by_contra hfails
      exact hstate ((Option.any_eq_true _ _).mpr ⟨want, hwant, stateMismatch_iff.mpr hfails⟩)
    · by_contra hne
      exact hevents ((Option.any_eq_true _ _).mpr ⟨want, hwant, bne_iff_ne.mpr hne⟩)
    · by_contra hmode
      exact hauth (by simp [hrequired, hsuccess, hmode])

/-- An execution that succeeds does not meet its declared outcome, or its effects are checked. -/
theorem classify_of_isSuccess (oracle : Oracle) (hsuccess : obs.isSuccess = true) :
    (oracle.classify obs = .finding .returnMismatch ∧ Violated oracle obs .returnMismatch) ∨
      (OutcomeHolds oracle.expected.behavior obs ∧
        oracle.classify obs = oracle.classifyEffects obs) := by
  have hstatus : obs.status = .void ∨ ∃ v, obs.status = .returned v := by
    cases h : obs.status with
    | contractError errorType code => simp [Execution.isSuccess, h] at hsuccess
    | void => exact .inl rfl
    | returned v => exact .inr ⟨v, rfl⟩
  cases hbehavior : oracle.expected.behavior with
  | any =>
    refine .inr ⟨trivial, ?_⟩
    obtain hstatus | ⟨v, hstatus⟩ := hstatus <;> simp only [Oracle.classify, hstatus, hbehavior]
  | error wantType wantCode =>
    refine .inl ⟨?_, hsuccess, .inl ⟨wantType, wantCode, hbehavior⟩⟩
    obtain hstatus | ⟨v, hstatus⟩ := hstatus <;> simp only [Oracle.classify, hstatus, hbehavior]
  | success expectReturn =>
    have hclassify : oracle.classify obs =
        if expectReturn.any fun want => obs.returnValue.getD .void != want then
          .finding .returnMismatch
        else oracle.classifyEffects obs := by
      obtain hstatus | ⟨v, hstatus⟩ := hstatus <;> simp only [Oracle.classify, hstatus, hbehavior]
    rw [hclassify]
    split_ifs with hreturn
    · obtain ⟨want, hwant, hne⟩ := (Option.any_eq_true _ _).mp hreturn
      subst hwant
      exact .inl ⟨rfl, hsuccess, .inr ⟨want, hbehavior, bne_iff_ne.mp hne⟩⟩
    · refine .inr ⟨⟨hsuccess, fun want hwant => ?_⟩, rfl⟩
      by_contra hne
      exact hreturn ((Option.any_eq_true _ _).mpr ⟨want, hwant, bne_iff_ne.mpr hne⟩)

/-- An execution that fails passes unchecked, meets its declared error, or violates what is
declared. -/
theorem classify_of_contractError (oracle : Oracle) {errorType : String} {code : UInt32}
    (hstatus : obs.status = .contractError errorType code) :
    (oracle.expected.behavior = .any ∧ oracle.classify obs = .pass) ∨
      oracle.expected.behavior ≠ .any ∧ (oracle.classify obs = .expectedError ∨
        ∃ reason, oracle.classify obs = .finding reason ∧ Violated oracle obs reason) := by
  cases hbehavior : oracle.expected.behavior with
  | any => exact .inl ⟨rfl, by simp only [Oracle.classify, hstatus, hbehavior]⟩
  | error wantType wantCode =>
    by_cases hsame : wantType = errorType ∧ wantCode = code
    · exact .inr ⟨nofun, .inl (by
        simp only [Oracle.classify, hstatus, hbehavior, hsame, and_self, if_true])⟩
    · refine .inr ⟨nofun, .inr ⟨.unexpectedError, ?_, errorType, code, hstatus,
        .inr ⟨wantType, wantCode, hbehavior, hsame⟩⟩⟩
      simp only [Oracle.classify, hstatus, hbehavior, if_neg hsame]
  | success expectReturn =>
    by_cases hlimit : (oracle.expected.resourceLimitIsFinding && isBudgetError errorType) = true
    · refine .inr ⟨nofun, .inr ⟨.resourceLimit, ?_, ?_⟩⟩
      · simp only [Oracle.classify, hstatus, hbehavior, if_pos hlimit]
      · obtain ⟨hdeclared, hbudget⟩ := (Bool.and_eq_true _ _).mp hlimit
        rw [eq_of_beq hbudget] at hstatus
        exact ⟨hdeclared, ⟨expectReturn, hbehavior⟩, code, hstatus⟩
    · refine .inr ⟨nofun, .inr ⟨.unexpectedError, ?_, errorType, code, hstatus,
        .inl ⟨expectReturn, hbehavior⟩⟩⟩
      simp only [Oracle.classify, hstatus, hbehavior, if_neg hlimit]

theorem exists_contractError (h : obs.isSuccess = false) :
    ∃ errorType code, obs.status = .contractError errorType code := by
  cases hstatus : obs.status with
  | contractError errorType code => exact ⟨errorType, code, rfl⟩
  | void => simp [Execution.isSuccess, hstatus] at h
  | returned v => simp [Execution.isSuccess, hstatus] at h

/-- **Findings are right**: what a finding names is declared and does not hold. -/
theorem violated_of_classify {reason : ReasonCode} (h : oracle.classify obs = .finding reason) :
    Violated oracle obs reason := by
  cases hsuccess : obs.isSuccess with
  | false =>
    obtain ⟨errorType, code, hstatus⟩ := exists_contractError hsuccess
    obtain ⟨-, hpass⟩ | ⟨-, hexpected | ⟨reason', hfinding, hviolated⟩⟩ :=
      classify_of_contractError oracle hstatus
    · cases hpass.symm.trans h
    · cases hexpected.symm.trans h
    · cases hfinding.symm.trans h
      exact hviolated
  | true =>
    obtain ⟨hmismatch, hviolated⟩ | ⟨-, hclassify⟩ := classify_of_isSuccess oracle hsuccess
    · cases hmismatch.symm.trans h
      exact hviolated
    · obtain ⟨hpass, -⟩ | ⟨reason', hfinding, hviolated⟩ := classifyEffects_cases oracle obs
      · cases hpass.symm.trans (hclassify.symm.trans h)
      · cases hfinding.symm.trans (hclassify.symm.trans h)
        exact hviolated

end

/-- Every verdict is right: a pass means that what is declared holds, and a finding that what it
names is declared and does not hold. -/
def VerdictRight (oracle : Oracle) (obs : Execution) : Prop :=
  (oracle.classify obs = .pass → DeclaredHolds oracle obs) ∧
    ∀ reason, oracle.classify obs = .finding reason → Violated oracle obs reason

/-- **When a verdict is right**: unless an execution fails where no outcome is declared, and
something else is declared that does not hold. -/
theorem verdict_right_iff (oracle : Oracle) (obs : Execution) : VerdictRight oracle obs ↔
    (oracle.expected.behavior = .any → obs.isSuccess = false →
      (∀ want, oracle.expected.state = some want → StateHolds want obs.state) ∧
        ∀ want, oracle.expected.events = some want → obs.events = want) := by
  rw [VerdictRight, and_iff_left fun reason h => violated_of_classify h]
  cases hsuccess : obs.isSuccess with
  | false =>
    obtain ⟨errorType, code, hstatus⟩ := exists_contractError hsuccess
    have hauthorized : oracle.expected.authRequired = true → obs.isSuccess = true →
        oracle.authMode = .correctAuth := fun _ h =>
          absurd (hsuccess.symm.trans h) Bool.false_ne_true
    obtain ⟨hany, hpass⟩ | ⟨hdeclared, hexpected | ⟨reason, hfinding, -⟩⟩ :=
      classify_of_contractError oracle hstatus
    · rw [hpass, hany]
      constructor
      · intro h _ _
        exact ⟨(h rfl).state, (h rfl).events⟩
      · intro h _
        obtain ⟨hstate, hevents⟩ := h rfl rfl
        exact ⟨by rw [hany]; trivial, hstate, hevents, hauthorized⟩
    · exact iff_of_true (fun h => by cases hexpected.symm.trans h) fun hany => absurd hany hdeclared
    · exact iff_of_true (fun h => by cases hfinding.symm.trans h) fun hany => absurd hany hdeclared
  | true =>
    refine iff_of_true (fun h => ?_) fun _ h => absurd h.symm Bool.false_ne_true
    obtain ⟨hmismatch, -⟩ | ⟨houtcome, hclassify⟩ := classify_of_isSuccess oracle hsuccess
    · cases hmismatch.symm.trans h
    · obtain ⟨-, hstate, hevents, hauthorized⟩ | ⟨reason, hfinding, -⟩ :=
        classifyEffects_cases oracle obs
      · exact ⟨houtcome, hstate, hevents, hauthorized⟩
      · cases hfinding.symm.trans (hclassify.symm.trans h)

/-- An entry is declared, and no outcome. -/
def declaredEntry : Oracle where
  expected := { Expected.default with state := some ((∅ : StateMap).insert [1] [10]) }
  authMode := .noAuth

/-- An execution that fails. -/
def failedExecution : Execution where
  status := .contractError "WasmVm" 6
  state := []
  events := []
  budget := ⟨0, 0, 0, 0⟩

/-- The declared entry is missing, and the oracle passes. -/
theorem classify_failedExecution : declaredEntry.classify failedExecution = .pass ∧
    ¬ DeclaredHolds declaredEntry failedExecution := by
  refine ⟨by decide, fun h => ?_⟩
  obtain ⟨e, he, -⟩ := (h.state _ rfl).found [1] [10] (by decide)
  cases he

end SorobanDevkit.Fuzz
