import SorobanDevkit.Core.Deployment
import SorobanDevkit.Core.Project
import SorobanDevkit.Rpc.Deploy

/-!
# Deploying a project

`sdkt project deploy`, in `sdkt-cli/src/main.rs`, and `resolve_project` of
`sdkt-core/src/project.rs`. The contracts of a project are deployed one after the other. A contract
with a record is skipped, if that is asked for and it is still there; the loop stops at the first
contract that fails, and each deployment is recorded before the next. What the outside answers about
a contract is arbitrary. What is printed is left out, and the loop gives what it did as a list of
events.
-/

namespace SorobanDevkit.Cli

open SorobanDevkit.Core Rpc Xdr

/-! ### Resolved projects -/

/-- `ResolvedContract`. -/
structure ResolvedContract where
  aliasName : String
  path : String
  wasmArtifact : String
  ctorArgs : List String
  deriving DecidableEq

/-- The contracts of a project in deploy order, under distinct aliases. -/
structure ResolvedProject where
  contracts : List ResolvedContract
  aliases_nodup : (contracts.map ResolvedContract.aliasName).Nodup

/-- `ProjectError`, as far as resolving a project raises it. -/
inductive ResolveError
  | order (e : ProjectError)
  /-- The `unwrap` of the contract of an alias in the deploy order. -/
  | noContract (aliasName : String)
  | buildRequired (aliasName : String)
  deriving DecidableEq

/-- The body of the loop of `resolve_project`, where `artifact` finds the code that is built for a
contract at a path. -/
def resolveContract (config : DevKitConfig) (artifact : String → String → Option String)
    (aliasName : String) : Except ResolveError ResolvedContract :=
  match config.contracts.get? aliasName with
  | none => .error (.noContract aliasName)
  | some cfg =>
    match artifact aliasName cfg.path with
    | none => .error (.buildRequired aliasName)
    | some wasmArtifact =>
      .ok { aliasName, path := cfg.path, wasmArtifact, ctorArgs := cfg.ctorArgs }

theorem aliasName_of_resolveContract {config : DevKitConfig}
    {artifact : String → String → Option String}
    {aliasName : String} {contract : ResolvedContract}
    (h : resolveContract config artifact aliasName = .ok contract) :
    contract.aliasName = aliasName := by
  rw [resolveContract] at h
  split at h
  · cases h
  · split at h
    · cases h
    · cases h
      rfl

theorem aliases_of_mapM_resolveContract {config : DevKitConfig}
    {artifact : String → String → Option String} {order : List String}
      {contracts : List ResolvedContract}
    (h : order.mapM (resolveContract config artifact) = .ok contracts) :
    contracts.map ResolvedContract.aliasName = order := by
  induction order generalizing contracts with
  | nil => cases h; rfl
  | cons aliasName order ih =>
    obtain ⟨contract, rest, hcontract, hrest, rfl⟩ := Except.mapM_cons_eq_ok_iff.mp h
    rw [List.map_cons, ih hrest, aliasName_of_resolveContract hcontract]

theorem nodup_of_resolveDeployOrder {graphOrder : Rearrangement (String × List String)}
    {scan : Rearrangement String} {config : DevKitConfig} {order : List String}
    (h : resolveDeployOrder graphOrder scan config = .ok order) : order.Nodup := by
  have hne : config.contracts.entries ≠ [] := by
    intro hnil
    simp [resolveDeployOrder, hnil] at h
  exact (resolveDeployOrder_isLeast graphOrder scan hne h).1.perm.nodup_iff.mpr
    config.contracts.nodup

/-- `resolve_project`. -/
def resolveProject (graphOrder : Rearrangement (String × List String))
    (scan : Rearrangement String) (config : DevKitConfig)
      (artifact : String → String → Option String) :
    Except ResolveError ResolvedProject :=
  match horder : resolveDeployOrder graphOrder scan config with
  | .error e => .error (.order e)
  | .ok order =>
    match hcontracts : order.mapM (resolveContract config artifact) with
    | .error e => .error e
    | .ok contracts => .ok
      { contracts
        aliases_nodup := by
          rw [aliases_of_mapM_resolveContract hcontracts]
          exact nodup_of_resolveDeployOrder horder }

/-! ### The loop -/

/-- What the outside answers about one contract. -/
structure ContractAnswers where
  /-- Whether the recorded contract exists. -/
  onChain : Except RpcError Bool
  artifact : Except String (List UInt8)
  deploy : DeployAnswers
  timestamp : UInt64
  /-- Whether the record file is written. -/
  written : Except String Unit

/-- What does not change during a run. -/
structure Settings where
  networkKey : String
  networkId : Bytes32
  sourceAccount : String
  salt : Option Salt
  skipDeployed : Bool

/-- What a run does. -/
inductive Event
  | skipped (aliasName : String) (record : DeploymentRecord)
  | tried (aliasName : String) (args : CreateContractArgs)
  | landed (aliasName : String) (record : DeploymentRecord) (written : Bool)
  deriving DecidableEq

/-- What the loop changes. -/
structure DeployState where
  recordFile : DeploymentRecordFile
  path : RecordPath
  results : List (String × String)
  events : List Event

/-- Why the loop stops. -/
inductive Stop
  | failed (error : String)
  /-- The record of a deployed contract could not be written. -/
  | notRecorded (error contractId : String)
  deriving DecidableEq

/-- An insertion in the results, which are a hash map. -/
def insertResult (results : List (String × String)) (aliasName contractId : String) :
    List (String × String) :=
  results.filter (fun result => result.1 ≠ aliasName) ++ [(aliasName, contractId)]

section

variable (stellar : Stellar) (crates : DeployCrates)
  (parseTypedArgs : List String → Except String (List String)) (settings : Settings)

/-- The deployment of a contract whose code is read and whose arguments are valid. -/
def attempt (contract : ResolvedContract) (answers : ContractAnswers) :
    Except String (Option CreateContractArgs × Except RpcError DeployOutcome) := do
  let wasmBytes ← answers.artifact.mapError fun e =>
    "Failed to read WASM for '" ++ contract.aliasName ++ "': " ++ e
  let parsedArgs ← (parseTypedArgs contract.ctorArgs).mapError fun e =>
    "Invalid constructor argument for '" ++ contract.aliasName ++ "': " ++ e
  let _ ← (parseScvalArgs stellar parsedArgs).mapError fun e =>
    "Invalid constructor argument for '" ++ contract.aliasName ++ "': " ++
      crates.decodeErrorText e
  .ok (deployContractWithArgs stellar crates settings.networkId wasmBytes settings.sourceAccount
    settings.salt parsedArgs answers.deploy)

/-- The record of a deployment. -/
def recordOf (result : DeployResult) (timestamp : UInt64) : DeploymentRecord where
  contractId := result.contractId
  wasmHash := result.wasmHash
  network := settings.networkKey
  timestamp := timestamp
  salt := some result.salt

/-- The body of the loop for a contract that is not skipped. -/
def deployFresh (state : DeployState) (contract : ResolvedContract) (answers : ContractAnswers) :
    DeployState × Option Stop :=
  match attempt stellar crates parseTypedArgs settings contract answers with
  | .error e => (state, some (.failed e))
  | .ok (args, outcome) =>
    let tried := (args.map (Event.tried contract.aliasName)).toList
    let state := { state with events := state.events ++ tried }
    match outcome with
    | .error e => (state, some (.failed e.display))
    | .ok (.failure e) => (state, some (.failed e))
    | .ok (.partialFailure result) => (state, some (.failed result.error))
    | .ok (.success result) =>
      let record := recordOf settings result answers.timestamp
      let recordFile := state.recordFile.setRecord settings.networkKey contract.aliasName record
      match answers.written with
      | .error e =>
        ({ state with
            recordFile
            events := state.events ++ [.landed contract.aliasName record false] },
          some (.notRecorded e result.contractId))
      | .ok () =>
        ({ recordFile
           path := .holds recordFile
           results := insertResult state.results contract.aliasName result.contractId
           events := state.events ++ [.landed contract.aliasName record true] },
          none)

/-- The record of a contract, if the run looks at records. -/
def lookedUp (file : DeploymentRecordFile) (contract : ResolvedContract) :
    Option DeploymentRecord :=
  if settings.skipDeployed then file.recordFor settings.networkKey contract.aliasName else none

/-- The body of the loop. -/
def deployOne (state : DeployState) (contract : ResolvedContract) (answers : ContractAnswers) :
    DeployState × Option Stop :=
  match lookedUp settings state.recordFile contract with
  | none => deployFresh stellar crates parseTypedArgs settings state contract answers
  | some record =>
    match answers.onChain with
    | .ok true =>
      ({ state with
          results := insertResult state.results contract.aliasName record.contractId
          events := state.events ++ [.skipped contract.aliasName record] },
        none)
    | .ok false => deployFresh stellar crates parseTypedArgs settings state contract answers
    | .error e =>
      (state, some (.failed ("Failed to verify recorded contract for '" ++ contract.aliasName ++
        "': " ++ e.display)))

/-- The loop over the contracts, with what the outside answers about each alias. -/
def deployLoop (answers : String → ContractAnswers) :
    DeployState → List ResolvedContract → DeployState × Option Stop
  | state, [] => (state, none)
  | state, contract :: contracts =>
    match deployOne stellar crates parseTypedArgs settings state contract
        (answers contract.aliasName) with
    | (state, some stop) => (state, some stop)
    | (state, none) => deployLoop answers state contracts

/-- A run on the record file at a path: the state after it, or the error of reading the file. -/
def deployProject (path : RecordPath) (project : ResolvedProject)
    (answers : String → ContractAnswers) : Except String (DeployState × Option Stop) :=
  path.read.map fun recordFile =>
    deployLoop stellar crates parseTypedArgs settings answers
      { recordFile, path, results := [], events := [] } project.contracts

/-! ### What the loop does with one contract -/

/-- What the creation of a contract is tried under: its code is read, its arguments are valid, and
the network answers to the upload. -/
structure Tries (contract : ResolvedContract) (answers : ContractAnswers) : Prop where
  intro ::
  tries : ∃ wasmBytes parsedArgs, answers.artifact = .ok wasmBytes ∧
    parseTypedArgs contract.ctorArgs = .ok parsedArgs ∧
    TriesCreation stellar crates wasmBytes parsedArgs answers.deploy

/-- The deployment of a contract succeeds. -/
def Succeeds (contract : ResolvedContract) (answers : ContractAnswers) : Prop :=
  ∃ args result, attempt stellar crates parseTypedArgs settings contract answers =
    .ok (args, .ok (.success result))

/-- A contract is skipped: a record is looked at, and the recorded contract is still there. -/
def Skips (record : Option DeploymentRecord) (answers : ContractAnswers) : Prop :=
  record ≠ none ∧ answers.onChain = .ok true

/-- A contract is deployed: no record is looked at, or the recorded contract is gone. -/
def Fresh (record : Option DeploymentRecord) (answers : ContractAnswers) : Prop :=
  record = none ∨ answers.onChain = .ok false

/-- The loop goes on after a contract. -/
def Passes (record : Option DeploymentRecord) (contract : ResolvedContract)
    (answers : ContractAnswers) : Prop :=
  Skips record answers ∨ (Fresh record answers ∧
    Succeeds stellar crates parseTypedArgs settings contract answers ∧ answers.written = .ok ())

/-- The effect of an event on the file, its path and the results. -/
def DeployState.apply (state : DeployState) (event : Event) : DeployState :=
  match event with
  | .skipped aliasName record => { state with
      results := insertResult state.results aliasName record.contractId
      events := state.events ++ [event] }
  | .tried _ _ => { state with events := state.events ++ [event] }
  | .landed aliasName record written =>
    let recordFile := state.recordFile.setRecord settings.networkKey aliasName record
    if written then
      { recordFile
        path := .holds recordFile
        results := insertResult state.results aliasName record.contractId
        events := state.events ++ [event] }
    else { state with recordFile, events := state.events ++ [event] }

theorem DeployState.events_foldl_apply (state : DeployState) (events : List Event) :
    (events.foldl (DeployState.apply settings) state).events = state.events ++ events := by
  induction events generalizing state with
  | nil => exact (List.append_nil _).symm
  | cons event events ih =>
    have hevent : (state.apply settings event).events = state.events ++ [event] := by
      match event with
      | .skipped _ _ => rfl
      | .tried _ _ => rfl
      | .landed _ _ true => rfl
      | .landed _ _ false => rfl
    rw [List.foldl_cons, ih, hevent, List.append_assoc, List.singleton_append]

/-- What the loop does with a contract, by the record it looks at. -/
inductive Does (record : Option DeploymentRecord) (contract : ResolvedContract)
    (answers : ContractAnswers) : List Event → Option Stop → Prop
  | skip (found : DeploymentRecord) (hrecord : record = some found)
      (hchain : answers.onChain = .ok true) :
      Does record contract answers [.skipped contract.aliasName found] none
  | stop (e : String) (hskips : ¬ Skips record answers)
      (hfresh : Fresh record answers → ¬ Tries stellar crates parseTypedArgs contract answers ∧
        ¬ Succeeds stellar crates parseTypedArgs settings contract answers) :
      Does record contract answers [] (some (.failed e))
  | fail (e : String) (args : CreateContractArgs) (hfresh : Fresh record answers)
      (htries : Tries stellar crates parseTypedArgs contract answers)
      (hargs : args.deployerAddress = settings.sourceAccount ∧
        args.salt = settings.salt.getD answers.deploy.generated)
      (hfails : ¬ Succeeds stellar crates parseTypedArgs settings contract answers) :
      Does record contract answers [.tried contract.aliasName args] (some (.failed e))
  | land (args : CreateContractArgs) (result : DeployResult) (stop : Option Stop)
      (hfresh : Fresh record answers)
      (htries : Tries stellar crates parseTypedArgs contract answers)
      (hargs : args.deployerAddress = settings.sourceAccount ∧
        args.salt = settings.salt.getD answers.deploy.generated)
      (hsucceeds : Succeeds stellar crates parseTypedArgs settings contract answers)
      (hstop : stop = none ↔ answers.written = .ok ()) :
      Does record contract answers
        [.tried contract.aliasName args,
          .landed contract.aliasName (recordOf settings result answers.timestamp) stop.isNone]
        stop

/-- What the loop does, by the record file that the run starts with. -/
inductive DoesAll (file : DeploymentRecordFile) (answers : String → ContractAnswers) :
    List ResolvedContract → List Event → Option Stop → Prop
  | nil : DoesAll file answers [] [] none
  | stop {contract : ResolvedContract} (contracts : List ResolvedContract) {events : List Event}
      {reason : Stop}
      (h : Does stellar crates parseTypedArgs settings (lookedUp settings file contract) contract
        (answers contract.aliasName) events (some reason)) :
      DoesAll file answers (contract :: contracts) events (some reason)
  | next {contract : ResolvedContract} {contracts : List ResolvedContract}
      {events rest : List Event} {stop : Option Stop}
      (h : Does stellar crates parseTypedArgs settings (lookedUp settings file contract) contract
        (answers contract.aliasName) events none)
      (hrest : DoesAll file answers contracts rest stop) :
      DoesAll file answers (contract :: contracts) (events ++ rest) stop

variable {stellar crates parseTypedArgs settings}

theorem attempt_eq_ok_iff {contract : ResolvedContract} {answers : ContractAnswers}
    {attempted : Option CreateContractArgs × Except RpcError DeployOutcome} :
    attempt stellar crates parseTypedArgs settings contract answers = .ok attempted ↔
      ∃ wasmBytes parsedArgs, answers.artifact = .ok wasmBytes ∧
        parseTypedArgs contract.ctorArgs = .ok parsedArgs ∧
        (∃ vals, parseScvalArgs stellar parsedArgs = .ok vals) ∧
        deployContractWithArgs stellar crates settings.networkId wasmBytes settings.sourceAccount
          settings.salt parsedArgs answers.deploy = attempted := by
  simp only [attempt, Except.bind_eq_ok_iff, Except.mapError_eq_ok_iff, Except.ok.injEq]
  constructor
  · rintro ⟨wasmBytes, hartifact, parsedArgs, hparsed, vals, hvals, rfl⟩
    exact ⟨wasmBytes, parsedArgs, hartifact, hparsed, ⟨vals, hvals⟩, rfl⟩
  · rintro ⟨wasmBytes, parsedArgs, hartifact, hparsed, ⟨vals, hvals⟩, rfl⟩
    exact ⟨wasmBytes, hartifact, parsedArgs, hparsed, vals, hvals, rfl⟩

variable (stellar crates parseTypedArgs settings) in
/-- **A contract that is attempted tries a creation, or does not succeed.** -/
theorem attempt_cases (contract : ResolvedContract) (answers : ContractAnswers) :
    (Tries stellar crates parseTypedArgs contract answers ∧ ∃ args outcome,
      attempt stellar crates parseTypedArgs settings contract answers = .ok (some args, outcome) ∧
      args.deployerAddress = settings.sourceAccount ∧
      args.salt = settings.salt.getD answers.deploy.generated) ∨
    (¬ Tries stellar crates parseTypedArgs contract answers ∧
      ¬ Succeeds stellar crates parseTypedArgs settings contract answers ∧
      ((∃ e, attempt stellar crates parseTypedArgs settings contract answers = .error e) ∨
        ∃ outcome, attempt stellar crates parseTypedArgs settings contract answers =
          .ok (none, outcome))) := by
  cases hattempt : attempt stellar crates parseTypedArgs settings contract answers with
  | error e =>
    refine .inr ⟨fun ⟨wasmBytes, parsedArgs, hartifact, hparsed, htries⟩ => ?_, ?_, .inl ⟨e, rfl⟩⟩
    · obtain ⟨vals, hvals⟩ := htries.exists_parseScvalArgs
      have hok := hattempt.symm.trans (attempt_eq_ok_iff.mpr
        ⟨wasmBytes, parsedArgs, hartifact, hparsed, ⟨vals, hvals⟩, rfl⟩)
      cases hok
    · rintro ⟨args, result, hok⟩
      rw [hattempt] at hok
      cases hok
  | ok attempted =>
    obtain ⟨wasmBytes, parsedArgs, hartifact, hparsed, hvals, rfl⟩ := attempt_eq_ok_iff.mp hattempt
    rcases deployContractWithArgs_cases wasmBytes settings.sourceAccount settings.salt parsedArgs
      answers.deploy with ⟨htries, wasmHash, hargs⟩ | ⟨htries, hnone, hfails⟩
    · exact .inl ⟨⟨wasmBytes, parsedArgs, hartifact, hparsed, htries⟩, _, _,
        congrArg Except.ok (Prod.ext hargs rfl), rfl, rfl⟩
    · refine .inr ⟨fun ⟨wasmBytes', parsedArgs', hartifact', hparsed', htries'⟩ => ?_, ?_,
        .inr ⟨_, congrArg Except.ok (Prod.ext hnone rfl)⟩⟩
      · rw [hartifact] at hartifact'
        rw [hparsed] at hparsed'
        cases hartifact'
        cases hparsed'
        exact htries htries'
      · rintro ⟨args, result, hok⟩
        rw [hattempt] at hok
        exact hfails result (congrArg Prod.snd (Except.ok.inj hok))

variable (stellar crates parseTypedArgs settings) in
theorem deployFresh_cases {record : Option DeploymentRecord} {contract : ResolvedContract}
    {answers : ContractAnswers} (hfresh : Fresh record answers) (state : DeployState) :
    ∃ events stop,
      Does stellar crates parseTypedArgs settings record contract answers events stop ∧
      deployFresh stellar crates parseTypedArgs settings state contract answers =
        (events.foldl (DeployState.apply settings) state, stop) := by
  have hskips : ¬ Skips record answers := fun ⟨hrecord, hchain⟩ => by
    rw [hfresh.resolve_left hrecord] at hchain
    cases hchain
  rw [deployFresh]
  rcases attempt_cases stellar crates parseTypedArgs settings contract answers with
    ⟨htries, args, outcome, hattempt, hargs⟩ |
      ⟨htries, hsucceeds, ⟨e, hattempt⟩ | ⟨outcome, hattempt⟩⟩
  · rw [hattempt]
    have hfails : (∀ result, outcome ≠ .ok (.success result)) →
        ¬ Succeeds stellar crates parseTypedArgs settings contract answers := by
      rintro hfails ⟨args', result, hok⟩
      rw [hattempt] at hok
      cases hok
      exact hfails result rfl
    match outcome with
    | .error e => exact ⟨_, _, .fail _ args hfresh htries hargs (hfails (by simp)), rfl⟩
    | .ok (.failure e) => exact ⟨_, _, .fail _ args hfresh htries hargs (hfails (by simp)), rfl⟩
    | .ok (.partialFailure result) =>
      exact ⟨_, _, .fail _ args hfresh htries hargs (hfails (by simp)), rfl⟩
    | .ok (.success result) =>
      have hsucceeds : Succeeds stellar crates parseTypedArgs settings contract answers :=
        ⟨some args, result, hattempt⟩
      cases hwritten : answers.written with
      | error e =>
        exact ⟨_, _, .land args result (some (.notRecorded e result.contractId)) hfresh htries hargs
          hsucceeds (by simp [hwritten]), by simp [DeployState.apply]⟩
      | ok u =>
        exact ⟨_, _, .land args result none hfresh htries hargs hsucceeds (by simp [hwritten]),
          by simp [DeployState.apply, recordOf]⟩
  · rw [hattempt]
    exact ⟨[], _, .stop e hskips fun _ => ⟨htries, hsucceeds⟩, rfl⟩
  · rw [hattempt]
    have hstop : ∀ e, Does stellar crates parseTypedArgs settings record contract answers []
        (some (.failed e)) := fun e => .stop e hskips fun _ => ⟨htries, hsucceeds⟩
    match outcome with
    | .error e => exact ⟨[], _, hstop e.display, by simp⟩
    | .ok (.failure e) => exact ⟨[], _, hstop e, by simp⟩
    | .ok (.partialFailure result) => exact ⟨[], _, hstop result.error, by simp⟩
    | .ok (.success result) => exact absurd ⟨none, result, hattempt⟩ hsucceeds

variable (stellar crates parseTypedArgs settings) in
/-- **What the loop does with one contract.** -/
theorem deployOne_cases (state : DeployState) (contract : ResolvedContract)
    (answers : ContractAnswers) :
    ∃ events stop,
      Does stellar crates parseTypedArgs settings (lookedUp settings state.recordFile contract)
        contract answers events stop ∧
      deployOne stellar crates parseTypedArgs settings state contract answers =
        (events.foldl (DeployState.apply settings) state, stop) := by
  rw [deployOne]
  cases lookedUp settings state.recordFile contract with
  | none => exact deployFresh_cases stellar crates parseTypedArgs settings (.inl rfl) state
  | some record =>
    cases hchain : answers.onChain with
    | ok there =>
      cases there with
      | true => exact ⟨_, _, .skip record rfl hchain, rfl⟩
      | false => exact deployFresh_cases stellar crates parseTypedArgs settings (.inr hchain) state
    | error e =>
      refine ⟨[], _, .stop _ (fun hskips => ?_) (fun hfresh => ?_), rfl⟩
      · rw [hskips.2] at hchain
        cases hchain
      · rw [hfresh.resolve_left (by simp)] at hchain
        cases hchain

/-- The loop looks at the record of an alias as it is when the run starts. -/
theorem lookedUp_of_does {record : Option DeploymentRecord} {contract : ResolvedContract}
    {answers : ContractAnswers} {events : List Event} {stop : Option Stop}
    (h : Does stellar crates parseTypedArgs settings record contract answers events stop)
    (state : DeployState) {other : ResolvedContract}
      (hother : other.aliasName ≠ contract.aliasName) :
    lookedUp settings (events.foldl (DeployState.apply settings) state).recordFile other =
      lookedUp settings state.recordFile other := by
  have hset : ∀ record, lookedUp settings
      (state.recordFile.setRecord settings.networkKey contract.aliasName record) other =
      lookedUp settings state.recordFile other := by
    intro record
    simp only [lookedUp, DeploymentRecordFile.recordFor_setRecord, hother, and_false, if_false]
  cases h with
  | skip found hrecord hchain => rfl
  | stop e hskips hfresh => rfl
  | fail e args hfresh htries hargs hfails => rfl
  | land args result stop hfresh htries hargs hsucceeds hstop =>
    rw [← hset (recordOf settings result answers.timestamp)]
    cases stop <;> rfl

variable (stellar crates parseTypedArgs settings) in
/-- **What the loop does**, by the record file that the run starts with. -/
theorem deployLoop_cases (file : DeploymentRecordFile) (answers : String → ContractAnswers)
    {contracts : List ResolvedContract} (hnodup : (contracts.map ResolvedContract.aliasName).Nodup)
    (state : DeployState)
    (hfile : ∀ c ∈ contracts, lookedUp settings state.recordFile c = lookedUp settings file c) :
    ∃ events stop,
      DoesAll stellar crates parseTypedArgs settings file answers contracts events stop ∧
      deployLoop stellar crates parseTypedArgs settings answers state contracts =
        (events.foldl (DeployState.apply settings) state, stop) := by
  induction contracts generalizing state with
  | nil => exact ⟨[], none, .nil, rfl⟩
  | cons contract contracts ih =>
    obtain ⟨hfirst, hrest⟩ := List.forall_mem_cons.mp hfile
    obtain ⟨hother, hnodup⟩ := List.nodup_cons.mp hnodup
    obtain ⟨events, stop, hdoes, hone⟩ := deployOne_cases stellar crates parseTypedArgs settings
      state contract (answers contract.aliasName)
    rw [deployLoop, hone]
    rw [hfirst] at hdoes
    cases stop with
    | some reason => exact ⟨events, some reason, .stop contracts hdoes, rfl⟩
    | none =>
      have hfile' : ∀ c ∈ contracts, lookedUp settings
          (events.foldl (DeployState.apply settings) state).recordFile c =
            lookedUp settings file c := by
        intro c hc
        rw [lookedUp_of_does hdoes state fun heq => hother (heq ▸ List.mem_map_of_mem hc)]
        exact hrest c hc
      obtain ⟨rest, stop, hall, hloop⟩ := ih hnodup _ hfile'
      exact ⟨events ++ rest, stop, .next hdoes hall, by rw [List.foldl_append]; exact hloop⟩

end

end SorobanDevkit.Cli
