import SorobanDevkit.Fuzz.Campaign

/-!
# What an execution depends on

The minimizer, the campaign and the record of a finding execute the same steps by different paths.
What they observe depends on the environment and the authorization entries, and on nothing else: not
on the id of the case, nor on the path.

## Main results

* `runSteps_map`, `observeSteps_map` — every path ends with the final execution.
* `finalExecution_total` — there is one if the host always yields one whose entries decode.
* `authForSteps_ok_iff` — which steps have authorization entries.
-/

namespace SorobanDevkit.Fuzz

open Wasm (utf8)
open Xdr

section

variable (crates : Crates) (host : Host) (executor : Executor) (environment : Environment)
  (authPerStep : List (List (List UInt8)))

/-! ### Executions without labels -/

/-- The execution of a call in a state, with the authorization entries of the step of index `i`. -/
def runCall (i : ℕ) (state : SequenceState) (call : FunctionCall) : Except FuzzError Execution :=
  host.run executor.wasm executor.config
    (.contract (contractIdFromAddress crates executor.config.networkId deployer deploymentSalt))
    call state.dataEntries state.instanceStorage environment ((authPerStep[i]?).getD [])

/-- The executions of the steps from index `i` on, and the state after the last one. -/
def runFrom : (i : ℕ) → SequenceState → List FunctionCall →
    Except FuzzError (List Execution × SequenceState)
  | _, state, [] => .ok ([], state)
  | i, state, call :: calls => do
    let e ← runCall crates host executor environment authPerStep i state call
    let state ← e.state.foldlM (applyEntry crates) state
    let (es, state) ← runFrom (i + 1) state calls
    .ok (e :: es, state)

/-- What steps end with. -/
def finalExecution (steps : List FunctionCall) : Except FuzzError Execution :=
  match steps with
  | [] => .error (.invalidConfig "sequence must contain at least one step")
  | [call] => runCall crates host executor environment authPerStep 0 ⟨[], []⟩ call
  | call :: next :: calls => do
    let (es, _) ← runFrom crates host executor environment authPerStep 0 ⟨[], []⟩
      (call :: next :: calls)
    match es.getLast? with
    | some last => .ok last
    | none => .error (.invalidConfig "non-empty steps yield an observation")

variable {crates host executor environment authPerStep}

theorem executeStep_eq (caseId : String) (i : ℕ) (state : SequenceState) (call : FunctionCall) :
    executeStep crates host executor environment caseId authPerStep i state call =
      (runCall crates host executor environment authPerStep i state call).map fun e =>
        { e with caseId := caseId ++ "/step" ++ toString i, function := call.function } := by
  unfold executeStep
  cases h : authPerStep[i]? with
  | none =>
    simp only [runCall, h, Option.getD_none]
    rfl
  | some entries =>
    simp only [runCall, h, Option.getD_some]
    rfl

variable (crates host executor environment authPerStep) in
/-- The steps of a sequence are executed as they are without labels. -/
theorem executeFrom_map (caseId : String) (i : ℕ) (state : SequenceState)
    (steps : List FunctionCall) :
    (executeFrom crates host executor environment caseId authPerStep i state steps).map
        (fun r => (r.1.map fun s => s.observation.toExecution, r.2)) =
      runFrom crates host executor environment authPerStep i state steps := by
  induction steps generalizing i state with
  | nil => rfl
  | cons call calls ih =>
    rw [executeFrom, runFrom, executeStep_eq]
    cases hrun : runCall crates host executor environment authPerStep i state call with
    | error e => rfl
    | ok e =>
      simp only [Except.map, bind, Except.bind, applyStateDelta]
      cases hstate : e.state.foldlM (applyEntry crates) state with
      | error err => rfl
      | ok state' =>
        have hrest := ih (i + 1) state'
        simp only
        rw [← hrest]
        cases executeFrom crates host executor environment caseId authPerStep (i + 1) state' calls
          with
        | error err => rfl
        | ok r => rfl

/-- A sequence ends with the final execution. -/
theorem executeSequenceAuth_map {steps : List FunctionCall} (hsteps : 1 < steps.length)
    (caseId : String) :
    (executeSequenceAuth crates host executor [] environment steps caseId authPerStep).map
        (fun run => run.finalObservation.toExecution) =
      finalExecution crates host executor environment authPerStep steps := by
  obtain _ | ⟨call, _ | ⟨next, calls⟩⟩ := steps
  · simp at hsteps
  · simp at hsteps
  · have hlabels := executeFrom_map crates host executor environment authPerStep caseId 0 ⟨[], []⟩
      (call :: next :: calls)
    simp only [executeSequenceAuth, finalExecution, ← hlabels, reduceCtorEq, if_false,
      SequenceState.fromBaseline, SequenceState.addBaseline, bind, Except.bind]
    cases executeFrom crates host executor environment caseId authPerStep 0 ⟨[], []⟩
        (call :: next :: calls) with
    | error e => rfl
    | ok r =>
      simp only [Except.map, List.getLast?_map]
      cases r.1.getLast? with
      | none => rfl
      | some last => rfl

/-- A single call ends with the execution of its first step. -/
theorem executeWithAuth_map (caseId : String) (call : FunctionCall) :
    (executor.executeWithAuth host (executor.case crates caseId call []) environment
        ((authPerStep[0]?).getD [])).map (·.toExecution) =
      finalExecution crates host executor environment authPerStep [call] := by
  rw [Executor.executeWithAuth, Except.map_map, Except.map_id']
  rfl

/-- **What the campaign observes of steps is their final execution.** -/
theorem observeSteps_map {steps : List FunctionCall} (hsteps : steps ≠ []) (caseId : String) :
    (observeSteps crates host (1 < steps.length) executor environment steps caseId
        authPerStep).map (·.toExecution) =
      finalExecution crates host executor environment authPerStep steps := by
  obtain _ | ⟨call, _ | ⟨next, calls⟩⟩ := steps
  · exact absurd rfl hsteps
  · rw [← executeWithAuth_map caseId call]
    cases authPerStep <;> rfl
  · have hlength : 1 < (call :: next :: calls).length := by simp
    rw [observeSteps, decide_eq_true hlength, if_pos rfl, ← executeSequenceAuth_map hlength caseId,
      Except.map_map]

/-- **What the minimizer observes of steps is their final execution without authorization
entries.** -/
theorem runSteps_map {steps : List FunctionCall} (hsteps : steps ≠ []) (caseId : String) :
    (runSteps crates host executor [] environment steps caseId).map (·.toExecution) =
      finalExecution crates host executor environment [] steps := by
  obtain _ | ⟨call, _ | ⟨next, calls⟩⟩ := steps
  · exact absurd rfl hsteps
  · rw [← executeWithAuth_map caseId call]
    rfl
  · rw [runSteps, executeSequence, ← executeSequenceAuth_map (by simp) caseId, Except.map_map]

/-! ### Rules for executions -/

/-- **The rule for a sequence**: what every step preserves of its state gives what every execution
satisfies. -/
theorem runFrom_spec {P : SequenceState → Prop} {Q : Execution → Prop}
    (hstep : ∀ i state call e, P state →
      runCall crates host executor environment authPerStep i state call = .ok e →
        Q e ∧ ∀ state', e.state.foldlM (applyEntry crates) state = .ok state' → P state')
    {i : ℕ} {state : SequenceState} {steps : List FunctionCall}
    {r : List Execution × SequenceState} (hstate : P state)
    (h : runFrom crates host executor environment authPerStep i state steps = .ok r) :
    ∀ e ∈ r.1, Q e := by
  induction steps generalizing i state r with
  | nil =>
    cases h
    simp
  | cons call calls ih =>
    obtain ⟨e, he, h⟩ := Except.bind_eq_ok_iff.mp h
    obtain ⟨state', hstate', h⟩ := Except.bind_eq_ok_iff.mp h
    obtain ⟨rest, hrest, h⟩ := Except.bind_eq_ok_iff.mp h
    cases h
    obtain ⟨hQ, hP⟩ := hstep i state call e hstate he
    exact List.forall_mem_cons.mpr ⟨hQ, ih (hP state' hstate') hrest⟩

/-- What every execution satisfies holds of the final one. -/
theorem finalExecution_of_forall {Q : Execution → Prop}
    (hcall : ∀ i state call e,
      runCall crates host executor environment authPerStep i state call = .ok e → Q e)
    {steps : List FunctionCall} {e : Execution}
    (h : finalExecution crates host executor environment authPerStep steps = .ok e) : Q e := by
  obtain _ | ⟨call, _ | ⟨next, calls⟩⟩ := steps
  · cases h
  · exact hcall 0 _ call e h
  · obtain ⟨r, hr, h⟩ := Except.bind_eq_ok_iff.mp h
    have hall : ∀ e ∈ r.1, Q e :=
      runFrom_spec (P := fun _ => True) (fun i state call e _ he => ⟨hcall i state call e he,
        fun _ _ => trivial⟩) trivial hr
    cases hlast : r.1.getLast? with
    | none =>
      simp only [hlast] at h
      cases h
    | some last =>
      simp only [hlast] at h
      cases h
      exact hall e (List.mem_of_getLast? hlast)

/-- What every execution satisfies that is not the first one holds of the final one of a
sequence. -/
theorem finalExecution_of_carried {P : SequenceState → Prop} {Q : Execution → Prop}
    (hfirst : ∀ call e state', runCall crates host executor environment authPerStep 0 ⟨[], []⟩
      call = .ok e → e.state.foldlM (applyEntry crates) ⟨[], []⟩ = .ok state' → P state')
    (hstep : ∀ i state call e, P state →
      runCall crates host executor environment authPerStep i state call = .ok e →
        Q e ∧ ∀ state', e.state.foldlM (applyEntry crates) state = .ok state' → P state')
    {steps : List FunctionCall} (hsteps : 1 < steps.length) {e : Execution}
    (h : finalExecution crates host executor environment authPerStep steps = .ok e) : Q e := by
  obtain _ | ⟨call, _ | ⟨next, calls⟩⟩ := steps
  · simp at hsteps
  · simp at hsteps
  · obtain ⟨r, hr, h⟩ := Except.bind_eq_ok_iff.mp h
    obtain ⟨e₀, he₀, hr⟩ := Except.bind_eq_ok_iff.mp hr
    obtain ⟨state₀, hstate₀, hr⟩ := Except.bind_eq_ok_iff.mp hr
    obtain ⟨⟨es, state₁⟩, hrest, hr⟩ := Except.bind_eq_ok_iff.mp hr
    cases hr
    have hall : ∀ e ∈ es, Q e := runFrom_spec hstep (hfirst call e₀ state₀ he₀ hstate₀) hrest
    obtain ⟨e₁, -, hrest⟩ := Except.bind_eq_ok_iff.mp hrest
    obtain ⟨state₂, -, hrest⟩ := Except.bind_eq_ok_iff.mp hrest
    obtain ⟨rest, -, hrest⟩ := Except.bind_eq_ok_iff.mp hrest
    cases hrest
    have hlast : ∃ last, (e₁ :: rest.1).getLast? = some last :=
      ⟨_, List.getLast?_eq_some_getLast (List.cons_ne_nil _ _)⟩
    obtain ⟨last, hlast⟩ := hlast
    simp only [List.getLast?_cons_cons, hlast] at h
    cases h
    exact hall e (List.mem_of_getLast? hlast)

/-! ### Executions that end -/

variable (crates host) in
/-- Every execution yields an observation, whose entries can be carried to a next step. -/
def Observes : Prop :=
  ∀ wasm config contract call baseline storage environment authEntries, ∃ e,
    host.run wasm config contract call baseline storage environment authEntries = .ok e ∧
      ∀ state, ∃ state', e.state.foldlM (applyEntry crates) state = .ok state'

theorem runFrom_total (h : Observes crates host) (i : ℕ) (state : SequenceState)
    (steps : List FunctionCall) : ∃ es state',
      runFrom crates host executor environment authPerStep i state steps = .ok (es, state') ∧
        es.length = steps.length := by
  induction steps generalizing i state with
  | nil => exact ⟨[], state, rfl, rfl⟩
  | cons call calls ih =>
    obtain ⟨e, hrun, hstate⟩ := h executor.wasm executor.config
      (.contract (contractIdFromAddress crates executor.config.networkId deployer deploymentSalt))
      call state.dataEntries state.instanceStorage environment ((authPerStep[i]?).getD [])
    obtain ⟨state', hstate'⟩ := hstate state
    obtain ⟨es, state'', hrest, hlength⟩ := ih (i + 1) state'
    refine ⟨e :: es, state'', ?_, by rw [List.length_cons, List.length_cons, hlength]⟩
    have hcall : runCall crates host executor environment authPerStep i state call = .ok e := hrun
    exact Except.bind_eq_ok_iff.mpr ⟨e, hcall, Except.bind_eq_ok_iff.mpr ⟨state', hstate',
      Except.bind_eq_ok_iff.mpr ⟨(es, state''), hrest, rfl⟩⟩⟩

/-- There is a final execution if every execution yields an observation. -/
theorem finalExecution_total (h : Observes crates host) {steps : List FunctionCall}
    (hsteps : steps ≠ []) : ∃ e,
      finalExecution crates host executor environment authPerStep steps = .ok e := by
  obtain _ | ⟨call, _ | ⟨next, calls⟩⟩ := steps
  · exact absurd rfl hsteps
  · obtain ⟨e, hrun, -⟩ := h executor.wasm executor.config
      (.contract (contractIdFromAddress crates executor.config.networkId deployer deploymentSalt))
      call [] [] environment ((authPerStep[0]?).getD [])
    exact ⟨e, hrun⟩
  · obtain ⟨es, state', hrun, hlength⟩ : ∃ es state', runFrom crates host executor environment
        authPerStep 0 ⟨[], []⟩ (call :: next :: calls) = .ok (es, state') ∧ _ :=
      runFrom_total h 0 ⟨[], []⟩ (call :: next :: calls)
    obtain ⟨last, hlast⟩ : ∃ last, es.getLast? = some last := by
      rw [← Option.isSome_iff_exists, List.getLast?_isSome]
      exact List.length_pos_iff.mp (by rw [hlength]; exact Nat.succ_pos _)
    refine ⟨last, Except.bind_eq_ok_iff.mpr ⟨(es, state'), hrun, ?_⟩⟩
    simp only [hlast]

end

/-! ### Authorization entries -/

section

variable {crates : Crates} {executor : Executor} {mode : AuthMode} {caseId : String}
  {steps : List FunctionCall}

/-- Authorization entries can name the call. -/
def FunctionCall.Nameable (call : FunctionCall) : Prop :=
  (utf8 call.function).length ≤ 32 ∧ call.args.length ≤ u32Max

theorem authForSteps_noAuth :
    authForSteps crates executor steps .noAuth caseId = .ok [] :=
  rfl

theorem invokeRootInvocation_ok_iff {contract : ScAddress} {call : FunctionCall} :
    (∃ root, invokeRootInvocation crates contract call = .ok root) ↔ call.Nameable := by
  rw [invokeRootInvocation, FunctionCall.Nameable]
  by_cases hname : (utf8 call.function).length ≤ 32
  · by_cases hargs : call.args.length ≤ u32Max <;> simp [VecM.tryFrom, hname, hargs]
  · simp [VecM.tryFrom, hname]

/-- The entries of a call: one, unless there are none at all. -/
theorem invokeAuthEntries_ne_nil {contract : ScAddress} {call : FunctionCall}
    {entries : List (List UInt8)} (hmode : mode ≠ .noAuth)
    (h : invokeAuthEntries crates mode contract call = .ok entries) : entries ≠ [] := by
  cases mode with
  | noAuth => exact absurd rfl hmode
  | correctAuth | wrongAuth =>
    obtain ⟨root, -, h⟩ := Except.bind_eq_ok_iff.mp h
    obtain ⟨entry, -, h⟩ := Except.bind_eq_ok_iff.mp h
    cases h
    exact List.cons_ne_nil _ _

theorem invokeAuthEntries_ok_iff (hcrates : crates.Documented) (hmode : mode ≠ .noAuth)
    {contract : ScAddress} {call : FunctionCall} :
    (∃ entries, invokeAuthEntries crates mode contract call = .ok entries) ↔ call.Nameable := by
  have hencode : ∀ entry, ∃ bytes, encodeAuthEntry crates entry = .ok bytes := by
    intro entry
    obtain ⟨bytes, hbytes⟩ := hcrates.authEntry entry
    exact ⟨bytes, Except.mapError_eq_ok_iff.mpr hbytes⟩
  have hroot : (∃ root, invokeRootInvocation crates contract call = .ok root) ↔ call.Nameable :=
    invokeRootInvocation_ok_iff
  rw [← hroot]
  cases mode with
  | noAuth => exact absurd rfl hmode
  | correctAuth | wrongAuth =>
    constructor
    · rintro ⟨entries, h⟩
      obtain ⟨root, hroot, -⟩ := Except.bind_eq_ok_iff.mp h
      exact ⟨root, hroot⟩
    · rintro ⟨root, hroot⟩
      obtain ⟨bytes, hbytes⟩ := hencode _
      exact ⟨_, Except.bind_eq_ok_iff.mpr ⟨root, hroot,
        Except.bind_eq_ok_iff.mpr ⟨bytes, hbytes, rfl⟩⟩⟩

/-- Steps have authorization entries if each of their calls can be named, or none are needed. -/
theorem authForSteps_ok_iff (hcrates : crates.Documented) :
    (∃ auth, authForSteps crates executor steps mode caseId = .ok auth) ↔
      mode = .noAuth ∨ ∀ call ∈ steps, call.Nameable := by
  by_cases hmode : mode = .noAuth
  · rw [hmode]
    exact ⟨fun _ => .inl rfl, fun _ => ⟨[], rfl⟩⟩
  · rw [authForSteps, if_neg hmode]
    simp only [hmode, false_or]
    constructor
    · rintro ⟨auth, hauth⟩ call hcall
      obtain ⟨i, hi⟩ := List.mem_iff_getElem?.mp hcall
      obtain ⟨entries, -, hentries⟩ := Except.exists_mem_of_mapM_eq_ok hauth (call, i)
        (List.mk_mem_zipIdx_iff_getElem?.mpr hi)
      exact (invokeAuthEntries_ok_iff hcrates hmode).mp ⟨entries, hentries⟩
    · intro hsteps
      refine Except.exists_mapM_eq_ok fun ⟨call, i⟩ hmem => ?_
      have hcall : call ∈ steps :=
        List.mem_of_getElem? (List.mk_mem_zipIdx_iff_getElem?.mp hmem)
      exact (invokeAuthEntries_ok_iff hcrates hmode).mpr (hsteps call hcall)

/-- Each step is executed with entries, unless the campaign has none. -/
theorem authForSteps_getD {auth : List (List (List UInt8))}
    (h : authForSteps crates executor steps mode caseId = .ok auth) {i : ℕ}
    (hi : i < steps.length) : (auth[i]?).getD [] = [] ↔ mode = .noAuth := by
  by_cases hmode : mode = .noAuth
  · rw [hmode] at h ⊢
    cases h
    simp
  · rw [authForSteps, if_neg hmode] at h
    have hlength : i < auth.length := by
      rwa [Except.length_of_mapM_eq_ok h, List.length_zipIdx]
    obtain ⟨⟨call, j⟩, -, hentries⟩ :=
      Except.mem_of_mapM_eq_ok h auth[i] (List.getElem_mem hlength)
    rw [List.getElem?_eq_getElem hlength, Option.getD_some]
    exact iff_of_false (invokeAuthEntries_ne_nil hmode hentries) hmode

end

end SorobanDevkit.Fuzz
