import SorobanDevkit.Cli.AliasContracts
import SorobanDevkit.Library.LastWrite
import SorobanDevkit.Library.Runs

/-!
# Runs of project deployments on one record file

Runs of `sdkt project deploy` share a record file. A run signs for the passphrase of its network,
and its records are under the key of its profile, or under one that is derived from the passphrase.
Beside the file, the history of the runs keeps which deployment each record is of.
-/

namespace SorobanDevkit.Cli

open SorobanDevkit.Core Rpc Xdr LastWrite

/-! ### One run -/

/-- `NetworkArgs`, as far as the passphrase depends on them. -/
structure NetworkArgs where
  networkPassphrase : Option String
  networkProfile : Option String

/-- The network of a run: the key of its records, and the passphrase that it signs for. -/
structure Scope where
  networkKey : String
  passphrase : String
  deriving DecidableEq

/-- A run of `sdkt project deploy`, with what it finds outside of the record file. -/
structure Run where
  net : NetworkArgs
  /-- The passphrase of the stored profile. -/
  stored : Except String String
  /-- The passphrase of the configuration. -/
  base : String
  salt : Option Salt
  skipDeployed : Bool
  /-- The account of the signing identity. -/
  identity : Except String String
  project : Except ResolveError ResolvedProject
  answers : String → ContractAnswers

/-- `resolve_network_config`, for the passphrase. -/
def Run.resolvePassphrase (run : Run) : Except String String :=
  match run.net.networkProfile with
  | none => .ok (run.net.networkPassphrase.getD run.base)
  | some name =>
    match run.stored with
    | .error e => .error ("network profile '" ++ name ++ "' not found: " ++ e)
    | .ok passphrase => .ok (run.net.networkPassphrase.getD passphrase)

section

variable (stellar : Stellar) (crates : DeployCrates)
  (parseTypedArgs : List String → Except String (List String))

/-- The network of a run. -/
def Run.scope (run : Run) : Except String Scope :=
  run.resolvePassphrase.map fun passphrase =>
    let profile :=
      if run.net.networkPassphrase.isSome then none else run.net.networkProfile
    { networkKey := networkKey stellar.sha256 profile passphrase, passphrase }

/-- What does not change during a run. -/
def Run.settings (run : Run) (scope : Scope) (sourceAccount : String) : Settings where
  networkKey := scope.networkKey
  networkId := stellar.sha256 scope.passphrase.toUTF8.data.toList
  sourceAccount := sourceAccount
  salt := run.salt
  skipDeployed := run.skipDeployed

/-- The record file after a run for a network, and what the run does. A run that has no identity or
no project does nothing. -/
def Run.effect (run : Run) (scope : Scope) (path : RecordPath) : RecordPath × List Event :=
  match run.identity, run.project with
  | .ok sourceAccount, .ok project =>
    match deployProject stellar crates parseTypedArgs
      (run.settings stellar scope sourceAccount) path
        project run.answers with
    | .ok (state, _) => (state.path, state.events)
    | .error _ => (path, [])
  | _, _ => (path, [])

/-- A run deploys a contract. -/
def Run.Deploys (run : Run) (scope : Scope) (path : RecordPath) (contract : ResolvedContract) :
    Prop :=
  ∃ file sourceAccount project n, path.read = .ok file ∧ run.identity = .ok sourceAccount ∧
    run.project = .ok project ∧
    DeployedAt stellar crates parseTypedArgs (run.settings stellar scope sourceAccount) file
      run.answers project.contracts n contract

/-! ### Histories -/

/-- A contract that a run deployed, and whether its record was written. -/
structure Deployment where
  scope : Scope
  aliasName : String
  record : DeploymentRecord
  written : Bool
  deriving DecidableEq

/-- The key and the alias under which a deployment is recorded. -/
def Deployment.place (d : Deployment) : String × String := (d.scope.networkKey, d.aliasName)

/-- A contract that a run skipped, with the deployment that the record was of. -/
structure SkippedContract where
  scope : Scope
  aliasName : String
  origin : Option Deployment
  deriving DecidableEq

/-- The record file after some runs, their networks, deployments and skipped contracts, and the
deployments that the records are of. -/
structure History where
  path : RecordPath
  scopes : List Scope
  deployments : List Deployment
  skipped : List SkippedContract
  origin : String × String → Option Deployment

/-- There is no record file before the first run. -/
def History.start : History :=
  { path := .missing, scopes := [], deployments := [], skipped := [], origin := fun _ => none }

/-- The deployments among events. -/
def deploymentsOf (scope : Scope) (events : List Event) : List Deployment :=
  events.filterMap fun event => match event with
    | .landed aliasName record written => some { scope, aliasName, record, written }
    | _ => none

/-- The skipped contracts among events. -/
def skippedOf (scope : Scope) (origin : String × String → Option Deployment)
    (events : List Event) : List SkippedContract :=
  events.filterMap fun event => match event with
    | .skipped aliasName _ =>
      some { scope, aliasName, origin := origin (scope.networkKey, aliasName) }
    | _ => none

/-- The history after a run for a network that does something to the record file. -/
def History.extend (h : History) (scope : Scope) (path : RecordPath) (events : List Event) :
    History where
  path := path
  scopes := h.scopes ++ [scope]
  deployments := h.deployments ++ deploymentsOf scope events
  skipped := h.skipped ++ skippedOf scope h.origin events
  origin := ((deploymentsOf scope events).filter (·.written)).foldl
    (write Deployment.place) h.origin

/-- The history after a run. -/
def History.step (h : History) (run : Run) : History :=
  match run.scope stellar with
  | .error _ => h
  | .ok scope =>
    let effect := run.effect stellar crates parseTypedArgs scope h.path
    h.extend scope effect.1 effect.2

/-- The record of an alias under the key of a run is that of its last deployment for the passphrase
of the run, and no contract was skipped by a record of another passphrase. -/
structure Scoped (h : History) : Prop where
  file : ∃ file, h.path.read = .ok file ∧
    ∀ key aliasName, file.recordFor key aliasName = (h.origin (key, aliasName)).map (·.record)
  current : ∀ s ∈ h.scopes, ∀ aliasName, h.origin (s.networkKey, aliasName) =
    lastOf h.deployments fun d => d.scope.passphrase = s.passphrase ∧ d.aliasName = aliasName
  skipped : ∀ u ∈ h.skipped, ∃ d, u.origin = some d ∧
    d.scope.passphrase = u.scope.passphrase ∧ d.aliasName = u.aliasName

/-- The records of a run are written, and its network has the key of an earlier one exactly if it
has the passphrase, for each earlier one with a deployment, and for all if the run deploys a
contract. -/
structure KeepsScopes (h : History) (run : Run) (scope : Scope) : Prop where
  written : ∀ c, run.Deploys stellar crates parseTypedArgs scope h.path c →
    (run.answers c.aliasName).written = .ok ()
  earlier : ∀ d ∈ h.deployments,
    d.scope.networkKey = scope.networkKey ↔ d.scope.passphrase = scope.passphrase
  later : (∃ c, run.Deploys stellar crates parseTypedArgs scope h.path c) → ∀ s ∈ h.scopes,
    scope.networkKey = s.networkKey ↔ scope.passphrase = s.passphrase

/-- A run keeps the networks apart, if it has one. -/
def Run.KeepsApart (h : History) (run : Run) : Prop :=
  ∀ scope, run.scope stellar = .ok scope →
    KeepsScopes stellar crates parseTypedArgs h run scope

end

/-! ### What a run deploys and skips -/

section

variable {stellar : Stellar} {crates : DeployCrates}
  {parseTypedArgs : List String → Except String (List String)} {settings : Settings}
  {file : DeploymentRecordFile} {answers : String → ContractAnswers}
  {contracts : List ResolvedContract} {events : List Event} {stop : Option Stop}

theorem deployedAt_cons_zero {contract c : ResolvedContract} :
    DeployedAt stellar crates parseTypedArgs settings file answers (contract :: contracts) 0 c ↔
      c = contract ∧ Fresh (lookedUp settings file c) (answers c.aliasName) ∧
        Succeeds stellar crates parseTypedArgs settings c (answers c.aliasName) := by
  rw [DeployedAt, reachedAt_cons_zero]

theorem deployedAt_cons_succ {contract c : ResolvedContract} {n : ℕ} :
    DeployedAt stellar crates parseTypedArgs settings file answers (contract :: contracts) (n + 1)
        c ↔
      Passes stellar crates parseTypedArgs settings (lookedUp settings file contract) contract
        (answers contract.aliasName) ∧
      DeployedAt stellar crates parseTypedArgs settings file answers contracts n c := by
  rw [DeployedAt, DeployedAt, reachedAt_cons_succ, and_assoc]

/-- A contract lands if it is deployed, and its record is written or not. -/
theorem Does.landed {record : Option DeploymentRecord} {contract : ResolvedContract}
    {found : ContractAnswers}
    (h : Does stellar crates parseTypedArgs settings record contract found events stop) :
    (∀ aliasName landed written, .landed aliasName landed written ∈ events →
      aliasName = contract.aliasName ∧ Fresh record found ∧
        Succeeds stellar crates parseTypedArgs settings contract found ∧
        (written = true ↔ found.written = .ok ())) ∧
    (Fresh record found → Succeeds stellar crates parseTypedArgs settings contract found →
      ∃ landed written, .landed contract.aliasName landed written ∈ events) := by
  cases h with
  | skip skipped hrecord hchain =>
    refine ⟨by simp, fun hfresh => ?_⟩
    rcases hfresh with hnone | hgone
    · rw [hrecord] at hnone
      cases hnone
    · rw [hchain] at hgone
      cases hgone
  | stop e hskips hfresh =>
    exact ⟨by simp, fun hfresh' hsucceeds => absurd hsucceeds (hfresh hfresh').2⟩
  | fail e args hfresh htries hargs hfails =>
    exact ⟨by simp, fun _ hsucceeds => absurd hsucceeds hfails⟩
  | land args result stop hfresh htries hargs hsucceeds hstop =>
    refine ⟨fun aliasName landed written hmem => ?_, fun _ _ =>
      ⟨_, _, List.mem_cons_of_mem _ List.mem_cons_self⟩⟩
    simp only [List.mem_cons, reduceCtorEq, Event.landed.injEq, List.not_mem_nil, or_false,
      false_or] at hmem
    obtain ⟨rfl, -, rfl⟩ := hmem
    exact ⟨rfl, hfresh, hsucceeds, Option.isNone_iff_eq_none.trans hstop⟩

theorem Does.skipped {record : Option DeploymentRecord} {contract : ResolvedContract}
    {found : ContractAnswers}
    (h : Does stellar crates parseTypedArgs settings record contract found events stop)
    {aliasName : String} {skipped : DeploymentRecord} (hmem : .skipped aliasName skipped ∈ events) :
    aliasName = contract.aliasName ∧ record = some skipped := by
  cases h with
  | skip skipped hrecord hchain =>
    simp only [List.mem_singleton, Event.skipped.injEq] at hmem
    obtain ⟨rfl, rfl⟩ := hmem
    exact ⟨rfl, hrecord⟩
  | stop e hskips hfresh => simp at hmem
  | fail e args hfresh htries hargs hfails => simp at hmem
  | land args result stop hfresh htries hargs hsucceeds hstop => simp at hmem

/-- **The contracts that land are those that the run deploys.** -/
theorem DoesAll.landed
    (h : DoesAll stellar crates parseTypedArgs settings file answers contracts events stop) :
    (∀ aliasName landed written, .landed aliasName landed written ∈ events → ∃ n c,
      DeployedAt stellar crates parseTypedArgs settings file answers contracts n c ∧
      c.aliasName = aliasName ∧ (written = true ↔ (answers aliasName).written = .ok ())) ∧
    (∀ n c, DeployedAt stellar crates parseTypedArgs settings file answers contracts n c →
      ∃ landed written, .landed c.aliasName landed written ∈ events) := by
  induction h with
  | nil => exact ⟨by simp, fun n c hdeployed => by simp [DeployedAt, ReachedAt] at hdeployed⟩
  | @stop contract contracts events reason h =>
    have hpasses := h.spec.1.not.mp (by simp)
    refine ⟨fun aliasName landed written hmem => ?_, fun n c hdeployed => ?_⟩
    · obtain ⟨rfl, hfresh, hsucceeds, hwritten⟩ := h.landed.1 _ _ _ hmem
      exact ⟨0, contract, deployedAt_cons_zero.mpr ⟨rfl, hfresh, hsucceeds⟩, rfl, hwritten⟩
    · cases n with
      | zero =>
        obtain ⟨rfl, hfresh, hsucceeds⟩ := deployedAt_cons_zero.mp hdeployed
        exact h.landed.2 hfresh hsucceeds
      | succ n => exact absurd (deployedAt_cons_succ.mp hdeployed).1 hpasses
  | @next contract contracts events rest stop h _ ih =>
    have hpasses := h.spec.1.mp rfl
    refine ⟨fun aliasName landed written hmem => ?_, fun n c hdeployed => ?_⟩
    · rcases List.mem_append.mp hmem with hmem | hmem
      · obtain ⟨rfl, hfresh, hsucceeds, hwritten⟩ := h.landed.1 _ _ _ hmem
        exact ⟨0, contract, deployedAt_cons_zero.mpr ⟨rfl, hfresh, hsucceeds⟩, rfl, hwritten⟩
      · obtain ⟨n, c, hdeployed, hspec⟩ := ih.1 _ _ _ hmem
        exact ⟨n + 1, c, deployedAt_cons_succ.mpr ⟨hpasses, hdeployed⟩, hspec⟩
    · cases n with
      | zero =>
        obtain ⟨rfl, hfresh, hsucceeds⟩ := deployedAt_cons_zero.mp hdeployed
        obtain ⟨landed, written, hmem⟩ := h.landed.2 hfresh hsucceeds
        exact ⟨landed, written, List.mem_append_left _ hmem⟩
      | succ n =>
        obtain ⟨landed, written, hmem⟩ := ih.2 n c (deployedAt_cons_succ.mp hdeployed).2
        exact ⟨landed, written, List.mem_append_right _ hmem⟩

/-- A contract is skipped by the record that the file has of it when the run starts. -/
theorem DoesAll.skipped
    (h : DoesAll stellar crates parseTypedArgs settings file answers contracts events stop)
    {aliasName : String} {skipped : DeploymentRecord} (hmem : .skipped aliasName skipped ∈ events) :
    file.recordFor settings.networkKey aliasName = some skipped := by
  have hlookedUp : ∀ c : ResolvedContract, lookedUp settings file c = some skipped →
      file.recordFor settings.networkKey c.aliasName = some skipped := by
    intro c hc
    rw [lookedUp] at hc
    split at hc
    · exact hc
    · cases hc
  induction h with
  | nil => simp at hmem
  | stop contracts h =>
    obtain ⟨rfl, hrecord⟩ := h.skipped hmem
    exact hlookedUp _ hrecord
  | next h _ ih =>
    rcases List.mem_append.mp hmem with hmem | hmem
    · obtain ⟨rfl, hrecord⟩ := h.skipped hmem
      exact hlookedUp _ hrecord
    · exact ih hmem

/-- The deployments of a run are of some of its contracts, in order. -/
theorem DoesAll.deployments_sublist
    (h : DoesAll stellar crates parseTypedArgs settings file answers contracts events stop)
    (scope : Scope) :
    ((deploymentsOf scope events).map Deployment.aliasName).Sublist
      (contracts.map ResolvedContract.aliasName) := by
  have hone : ∀ {record : Option DeploymentRecord} {contract : ResolvedContract}
      {found : ContractAnswers} {events : List Event} {stop : Option Stop},
      Does stellar crates parseTypedArgs settings record contract found events stop →
      ((deploymentsOf scope events).map Deployment.aliasName).Sublist [contract.aliasName] := by
    intro record contract found events stop hdoes
    cases hdoes <;> simp [deploymentsOf]
  induction h with
  | nil => exact List.nil_sublist _
  | stop contracts h => exact (hone h).trans (List.Sublist.cons_cons _ (List.nil_sublist _))
  | next h _ ih =>
    rw [deploymentsOf, List.filterMap_append, List.map_append, List.map_cons,
      ← List.singleton_append]
    exact (hone h).append ih

theorem mem_deploymentsOf {scope : Scope} {d : Deployment} :
    d ∈ deploymentsOf scope events ↔
      d.scope = scope ∧ .landed d.aliasName d.record d.written ∈ events := by
  rw [deploymentsOf, List.mem_filterMap]
  constructor
  · rintro ⟨event, hmem, hevent⟩
    split at hevent
    · cases hevent
      exact ⟨rfl, hmem⟩
    · cases hevent
  · rintro ⟨rfl, hmem⟩
    exact ⟨_, hmem, rfl⟩

theorem mem_skippedOf {scope : Scope} {origin : String × String → Option Deployment}
    {u : SkippedContract} :
    u ∈ skippedOf scope origin events ↔ u.scope = scope ∧
      u.origin = origin (scope.networkKey, u.aliasName) ∧
      ∃ record, .skipped u.aliasName record ∈ events := by
  rw [skippedOf, List.mem_filterMap]
  constructor
  · rintro ⟨event, hmem, hevent⟩
    split at hevent
    · cases hevent
      exact ⟨rfl, rfl, _, hmem⟩
    · cases hevent
  · rintro ⟨rfl, horigin, record, hmem⟩
    exact ⟨_, hmem, congrArg (fun o => some { u with origin := o }) horigin.symm⟩

/-! ### The record file of a run -/

/-- The records of a file are those of the deployments. -/
def Records (file : DeploymentRecordFile) (origin : String × String → Option Deployment) : Prop :=
  ∀ key aliasName, file.recordFor key aliasName = (origin (key, aliasName)).map (·.record)

theorem Records.setRecord {origin : String × String → Option Deployment} (h : Records file origin)
    (d : Deployment) :
    Records (file.setRecord d.scope.networkKey d.aliasName d.record)
      (write Deployment.place origin d) := by
  intro key aliasName
  have hplace : (key, aliasName) = d.place ↔ key = d.scope.networkKey ∧ aliasName = d.aliasName :=
    Prod.ext_iff
  rw [DeploymentRecordFile.recordFor_setRecord, write, Function.update_apply]
  by_cases hsame : key = d.scope.networkKey ∧ aliasName = d.aliasName
  · rw [if_pos hsame, if_pos (hplace.mpr hsame)]
    rfl
  · rw [if_neg hsame, if_neg (hplace.not.mpr hsame)]
    exact h key aliasName

/-- **The file after events whose records are written** has those of the deployments among them. -/
theorem records_foldl_apply {scope : Scope} (hkey : settings.networkKey = scope.networkKey)
    (hwritten : ∀ d ∈ deploymentsOf scope events, d.written = true) (state : DeployState)
    {origin : String × String → Option Deployment} (hpath : state.path.read = .ok state.recordFile)
    (hrecords : Records state.recordFile origin) :
    ∃ file, (events.foldl (DeployState.apply settings) state).path.read = .ok file ∧
      Records file ((deploymentsOf scope events).foldl (write Deployment.place) origin) := by
  induction events generalizing state origin with
  | nil => exact ⟨_, hpath, hrecords⟩
  | cons event events ih =>
    match event with
    | .skipped aliasName record => exact ih hwritten _ hpath hrecords
    | .tried aliasName args => exact ih hwritten _ hpath hrecords
    | .landed aliasName record written =>
      obtain ⟨hfirst, hrest⟩ := List.forall_mem_cons.mp hwritten
      obtain rfl : written = true := hfirst
      refine ih hrest _ rfl ?_
      change Records (state.recordFile.setRecord settings.networkKey aliasName record) _
      rw [hkey]
      exact hrecords.setRecord { scope, aliasName, record, written := true }

variable (stellar crates parseTypedArgs) in
/-- What a run does to the record file, by the contracts that it deploys. -/
structure Run.Effects (run : Run) (scope : Scope) (path : RecordPath)
    (effect : RecordPath × List Event) : Prop where
  deployed : ∀ d ∈ deploymentsOf scope effect.2,
    ∃ c, run.Deploys stellar crates parseTypedArgs scope path c ∧ c.aliasName = d.aliasName ∧
      (d.written = true ↔ (run.answers d.aliasName).written = .ok ())
  deploys : ∀ c, run.Deploys stellar crates parseTypedArgs scope path c →
    ∃ d ∈ deploymentsOf scope effect.2, d.aliasName = c.aliasName
  nodup : ((deploymentsOf scope effect.2).map Deployment.aliasName).Nodup
  skipped : ∀ file, path.read = .ok file → ∀ aliasName record,
    .skipped aliasName record ∈ effect.2 → file.recordFor scope.networkKey aliasName = some record
  records : ∀ file origin, path.read = .ok file → Records file origin →
    (∀ d ∈ deploymentsOf scope effect.2, d.written = true) →
    ∃ file', effect.1.read = .ok file' ∧
      Records file' ((deploymentsOf scope effect.2).foldl (write Deployment.place) origin)

variable (stellar crates parseTypedArgs) in
/-- **What a run does**: nothing, or the loop over the contracts of its project. -/
theorem Run.effect_cases (run : Run) (scope : Scope) (path : RecordPath) :
    (run.effect stellar crates parseTypedArgs scope path = (path, []) ∧
      ∀ c, ¬ run.Deploys stellar crates parseTypedArgs scope path c) ∨
    ∃ file sourceAccount project events stop,
      (path.read = .ok file ∧ run.identity = .ok sourceAccount ∧ run.project = .ok project) ∧
      DoesAll stellar crates parseTypedArgs (run.settings stellar scope sourceAccount) file
        run.answers project.contracts events stop ∧
      run.effect stellar crates parseTypedArgs scope path =
        ((events.foldl (DeployState.apply (run.settings stellar scope sourceAccount))
          { recordFile := file, path, results := [], events := [] }).path, events) := by
  cases hidentity : run.identity with
  | error e =>
    refine .inl ⟨by rw [Run.effect, hidentity], ?_⟩
    rintro c ⟨_, _, _, _, _, hok, _⟩
    rw [hidentity] at hok
    cases hok
  | ok sourceAccount =>
    cases hproject : run.project with
    | error e =>
      refine .inl ⟨by rw [Run.effect, hidentity, hproject], ?_⟩
      rintro c ⟨_, _, _, _, _, _, hok, _⟩
      rw [hproject] at hok
      cases hok
    | ok project =>
      cases hread : path.read with
      | error e =>
        refine .inl ⟨by simp only [Run.effect, hidentity, hproject, deployProject, hread]; rfl, ?_⟩
        rintro c ⟨_, _, _, _, hok, _⟩
        rw [hread] at hok
        cases hok
      | ok file =>
        obtain ⟨events, stop, hall, hloop⟩ := deployLoop_cases stellar crates parseTypedArgs
          (run.settings stellar scope sourceAccount) file run.answers project.aliases_nodup
          { recordFile := file, path, results := [], events := [] } fun _ _ => rfl
        refine .inr ⟨file, sourceAccount, project, events, stop, ⟨rfl, rfl, rfl⟩, hall, ?_⟩
        simp only [Run.effect, hidentity, hproject, deployProject, hread, Except.map, hloop,
          DeployState.events_foldl_apply, List.nil_append]

variable (stellar crates parseTypedArgs) in
/-- **The effects of a run.** -/
theorem Run.effects (run : Run) (scope : Scope) (path : RecordPath) :
    run.Effects stellar crates parseTypedArgs scope path
      (run.effect stellar crates parseTypedArgs scope path) := by
  rcases run.effect_cases stellar crates parseTypedArgs scope path with ⟨heffect, hnone⟩ |
    ⟨file, sourceAccount, project, events, stop, ⟨hread, hidentity, hproject⟩, hall, heffect⟩
  · rw [heffect]
    exact
      { deployed := by simp [deploymentsOf]
        deploys := fun c hc => absurd hc (hnone c)
        nodup := List.nodup_nil
        skipped := by simp
        records := fun file origin hread hrecords _ => ⟨file, hread, hrecords⟩ }
  · rw [heffect]
    have hsame : ∀ file', path.read = .ok file' → file' = file := fun file' hread' =>
      Except.ok.inj (hread'.symm.trans hread)
    exact
      { deployed := by
          intro d hd
          obtain ⟨rfl, hmem⟩ := mem_deploymentsOf.mp hd
          obtain ⟨n, c, hdeployed, halias, hwritten⟩ := hall.landed.1 _ _ _ hmem
          exact ⟨c, ⟨file, sourceAccount, project, n, hread, hidentity, hproject, hdeployed⟩,
            halias,
            hwritten⟩
        deploys := by
          rintro c ⟨file', sourceAccount', project', n, hread', hidentity', hproject', hdeployed⟩
          obtain rfl := hsame file' hread'
          obtain rfl := Except.ok.inj (hidentity'.symm.trans hidentity)
          obtain rfl := Except.ok.inj (hproject'.symm.trans hproject)
          obtain ⟨record, written, hmem⟩ := hall.landed.2 n c hdeployed
          exact ⟨{ scope, aliasName := c.aliasName, record, written },
            mem_deploymentsOf.mpr ⟨rfl, hmem⟩, rfl⟩
        nodup := (hall.deployments_sublist scope).nodup project.aliases_nodup
        skipped := by
          intro file' hread' aliasName record hmem
          rw [hsame file' hread']
          exact hall.skipped hmem
        records := by
          intro file' origin hread' hrecords hwritten
          obtain rfl := hsame file' hread'
          exact records_foldl_apply rfl hwritten _ hread' hrecords }

/-! ### Whole histories -/

/-- The records are those of the last deployments, and networks with deployments are kept apart. -/
structure Tracks (h : History) : Prop where
  file : ∃ file, h.path.read = .ok file ∧ Records file h.origin
  written : ∀ d ∈ h.deployments, d.written = true
  origin : ∀ place, h.origin place = lastOf h.deployments fun d => d.place = place
  scopes : ∀ d ∈ h.deployments, d.scope ∈ h.scopes
  labels : ∀ d ∈ h.deployments, ∀ s ∈ h.scopes,
    d.scope.networkKey = s.networkKey ↔ d.scope.passphrase = s.passphrase
  skipped : ∀ u ∈ h.skipped, ∃ d, u.origin = some d ∧
    d.scope.passphrase = u.scope.passphrase ∧ d.aliasName = u.aliasName

theorem tracks_start : Tracks .start where
  file := ⟨.default, rfl, fun _ _ => rfl⟩
  written := by simp [History.start]
  origin := fun _ => rfl
  scopes := by simp [History.start]
  labels := by simp [History.start]
  skipped := by simp [History.start]

theorem Tracks.scoped {h : History} (ht : Tracks h) : Scoped h where
  file := ht.file
  current := fun s hs aliasName => by
    rw [ht.origin]
    refine lastOf_congr fun d hd => ?_
    rw [Deployment.place, Prod.mk.injEq]
    exact and_congr_left fun _ => ht.labels d hd s hs
  skipped := ht.skipped

theorem History.origin_extend (h : History) (scope : Scope) (path : RecordPath)
    (events : List Event) (place : String × String) :
    (h.extend scope path events).origin place =
      (lastOf ((deploymentsOf scope events).filter (·.written)) fun d => d.place = place).or
        (h.origin place) :=
  foldl_write Deployment.place _ h.origin place

theorem History.deployments_extend (h : History) (scope : Scope) (path : RecordPath)
    (events : List Event) :
    (h.extend scope path events).deployments = h.deployments ++ deploymentsOf scope events := rfl

/-- The records are those of the last deployments after a run whose records are written. -/
theorem Tracks.origin_extend {h : History} (ht : Tracks h) {scope : Scope} {path : RecordPath}
    (hwritten : ∀ d ∈ deploymentsOf scope events, d.written = true) (place : String × String) :
    (h.extend scope path events).origin place =
      lastOf (h.extend scope path events).deployments fun d => d.place = place := by
  rw [History.origin_extend, History.deployments_extend, List.filter_eq_self.mpr hwritten,
    lastOf_append, ht.origin]

/-- A run that keeps the networks apart. -/
theorem Tracks.extend {h : History} (ht : Tracks h) {run : Run} {scope : Scope}
    {effect : RecordPath × List Event}
    (heffects : run.Effects stellar crates parseTypedArgs scope h.path effect)
    (hkeeps : KeepsScopes stellar crates parseTypedArgs h run scope) :
    Tracks (h.extend scope effect.1 effect.2) := by
  obtain ⟨file, hread, hrecords⟩ := ht.file
  have hwritten : ∀ d ∈ deploymentsOf scope effect.2, d.written = true := fun d hd => by
    obtain ⟨c, hc, halias, hiff⟩ := heffects.deployed d hd
    exact hiff.mpr (halias ▸ hkeeps.written c hc)
  have hscope : ∀ d ∈ deploymentsOf scope effect.2, d.scope = scope := fun d hd =>
    (mem_deploymentsOf.mp hd).1
  refine
    { file := ?_, written := ?_, origin := ht.origin_extend hwritten, scopes := ?_, labels := ?_
      skipped := ?_ }
  · rw [History.extend, List.filter_eq_self.mpr hwritten]
    exact heffects.records file h.origin hread hrecords hwritten
  · exact List.forall_mem_append.mpr ⟨ht.written, hwritten⟩
  · refine List.forall_mem_append.mpr ⟨fun d hd => List.mem_append_left _ (ht.scopes d hd),
      fun d hd => List.mem_append_right _ (List.mem_singleton.mpr (hscope d hd))⟩
  · refine List.forall_mem_append.mpr ⟨fun d hd => List.forall_mem_append.mpr
      ⟨ht.labels d hd, ?_⟩, fun d hd => List.forall_mem_append.mpr ⟨?_, ?_⟩⟩
    · rw [List.forall_mem_singleton]
      exact hkeeps.earlier d hd
    · obtain ⟨c, hc, -, -⟩ := heffects.deployed d hd
      rw [hscope d hd]
      exact hkeeps.later ⟨c, hc⟩
    · rw [List.forall_mem_singleton, hscope d hd]
      exact iff_of_true rfl rfl
  · refine List.forall_mem_append.mpr ⟨ht.skipped, fun u hu => ?_⟩
    obtain ⟨rfl, horigin, record, hmem⟩ := mem_skippedOf.mp hu
    have hrecord := heffects.skipped file hread _ _ hmem
    rw [hrecords, Option.map_eq_some_iff] at hrecord
    obtain ⟨d, hd, -⟩ := hrecord
    obtain ⟨hdeployments, hplace⟩ := lastOf_eq_some ((ht.origin _).symm.trans hd)
    obtain ⟨hkey, halias⟩ := Prod.mk.inj hplace
    exact ⟨d, horigin.trans hd, (hkeeps.earlier d hdeployments).mp hkey, halias⟩

/-- A run after which records stay with their networks keeps the networks apart. -/
theorem Tracks.keepsScopes {h : History} (ht : Tracks h) {run : Run} {scope : Scope}
    {effect : RecordPath × List Event}
    (heffects : run.Effects stellar crates parseTypedArgs scope h.path effect)
    (hscoped : Scoped (h.extend scope effect.1 effect.2)) :
    KeepsScopes stellar crates parseTypedArgs h run scope := by
  have hscope : ∀ d ∈ deploymentsOf scope effect.2, d.scope = scope := fun d hd =>
    (mem_deploymentsOf.mp hd).1
  have hwritten : ∀ d ∈ deploymentsOf scope effect.2, d.written = true := by
    intro d hd
    have hcurrent := hscoped.current scope (List.mem_append_right _ List.mem_cons_self) d.aliasName
    -- The deployment is the only one of its alias in the run, so it is the last for its network.
    have hlast : lastOf (deploymentsOf scope effect.2) (fun e =>
        e.scope.passphrase = scope.passphrase ∧ e.aliasName = d.aliasName) = some d := by
      obtain ⟨e, he⟩ := exists_lastOf (p := fun e : Deployment =>
        e.scope.passphrase = scope.passphrase ∧ e.aliasName = d.aliasName) hd
        ⟨by rw [hscope d hd], rfl⟩
      obtain ⟨hmem, -, halias⟩ := lastOf_eq_some he
      rw [he, List.inj_on_of_nodup_map heffects.nodup hmem hd halias]
    rw [History.origin_extend, History.deployments_extend, lastOf_append, hlast, Option.some_or,
      Option.or_eq_some_iff] at hcurrent
    rcases hcurrent with hnew | ⟨-, hold⟩
    · simpa using (List.mem_filter.mp (lastOf_eq_some hnew).1).2
    · exact ht.written d (lastOf_eq_some ((ht.origin _).symm.trans hold)).1
  have hlisted : ∀ d ∈ (h.extend scope effect.1 effect.2).deployments,
      (d.scope.networkKey, d.scope.passphrase) ∈
        (h.extend scope effect.1 effect.2).scopes.map fun s => (s.networkKey, s.passphrase) := by
    refine fun d hd => List.mem_map.mpr ⟨d.scope, ?_, rfl⟩
    rcases List.mem_append.mp hd with hd | hd
    · exact List.mem_append_left _ (ht.scopes d hd)
    · exact List.mem_append_right _ (List.mem_singleton.mpr (hscope d hd))
  have hlabels := (lastOf_congr_iff (fun d => d.scope.networkKey) (fun d => d.scope.passphrase)
    Deployment.aliasName hlisted).mp <| by
      refine List.forall_mem_map.mpr fun s hs aliasName => ?_
      rw [← hscoped.current s hs aliasName, ht.origin_extend hwritten]
      exact lastOf_congr fun d _ => (@Prod.ext_iff _ _ d.place (s.networkKey, aliasName)).symm
  simp only [List.forall_mem_map] at hlabels
  refine { written := fun c hc => ?_, earlier := fun d hd => ?_, later := ?_ }
  · obtain ⟨d, hd, halias⟩ := heffects.deploys c hc
    obtain ⟨-, -, -, hiff⟩ := heffects.deployed d hd
    exact halias ▸ hiff.mp (hwritten d hd)
  · exact hlabels d (List.mem_append_left _ hd) scope (List.mem_append_right _ List.mem_cons_self)
  · rintro ⟨c, hc⟩ s hs
    obtain ⟨d, hd, -⟩ := heffects.deploys c hc
    have hlabel := hlabels d (List.mem_append_right _ hd) s (List.mem_append_left _ hs)
    rwa [hscope d hd] at hlabel

theorem Tracks.step {h : History} (ht : Tracks h) {run : Run}
    (hkeeps : run.KeepsApart stellar crates parseTypedArgs h) :
    Tracks (h.step stellar crates parseTypedArgs run) := by
  rw [History.step]
  cases hscope : run.scope stellar with
  | error e => exact ht
  | ok scope =>
    exact ht.extend (run.effects stellar crates parseTypedArgs scope h.path) (hkeeps scope hscope)

theorem Tracks.keepsApart {h : History} (ht : Tracks h) {run : Run}
    (hscoped : Scoped (h.step stellar crates parseTypedArgs run)) :
    run.KeepsApart stellar crates parseTypedArgs h := by
  intro scope hscope
  rw [History.step, hscope] at hscoped
  exact ht.keepsScopes (run.effects stellar crates parseTypedArgs scope h.path) hscoped

variable (stellar crates parseTypedArgs) in
/-- **The histories in which records stay with their networks**: all records are written, and a run
has the key of another exactly if it has the passphrase, wherever one of the two deploys. -/
theorem scoped_throughout_iff (runs : List Run) :
    (∀ before, before <+: runs →
        Scoped (Runs.run (History.step stellar crates parseTypedArgs) .start before)) ↔
      ∀ before run, before ++ [run] <+: runs → run.KeepsApart stellar crates parseTypedArgs
        (Runs.run (History.step stellar crates parseTypedArgs) .start before) :=
  Runs.forall_prefix_iff tracks_start (fun _ ht => ht.scoped) (fun _ _ ht hkeeps => ht.step hkeeps)
    (fun _ _ ht hkeeps hscoped => hkeeps (ht.keepsApart hscoped)) runs

end

/-! ### A profile that is redefined -/

section RedefinedProfile

/-- The id of the main network. -/
def mainnetId : Bytes32 :=
  #v[122, 195, 57, 151, 84, 78, 49, 117, 210, 102, 189, 2, 36, 57, 178, 44,
    219, 22, 80, 140, 1, 22, 63, 38, 229, 203, 42, 62, 16, 69, 169, 121]

/-- The digests of two passphrases, and of the preimages of one salt on their networks. -/
def networkDigests : List (List UInt8 × Bytes32) :=
  [(testnetPassphrase.toUTF8.data.toList, testnetId),
    (mainnetPassphrase.toUTF8.data.toList, mainnetId),
    (zeroPreimageXdr testnetId (paddedSalt (saltOf 1)),
      .ofFn fun i => [36, 228, 4, 65, 40, 198, 242, 45, 94, 229, 46, 7, 144, 136, 26, 48,
        98, 70, 154, 236, 6, 48, 179, 18, 83, 136, 166, 122, 168, 41, 134, 12].getD i 0),
    (zeroPreimageXdr mainnetId (paddedSalt (saltOf 1)),
      .ofFn fun i => [206, 25, 196, 213, 181, 166, 21, 183, 124, 247, 114, 48, 145, 126, 147, 71,
        181, 247, 106, 32, 244, 58, 54, 226, 224, 145, 191, 113, 140, 137, 169, 5].getD i 0)]

/-- The crates on the account whose key is zero and on two networks. -/
def networkStellar : Stellar :=
  { saltStellar with
    sha256 := fun bytes => (networkDigests.lookup bytes).getD (Vector.replicate 32 0) }

/-- A run that deploys a token with the profile `dev`. -/
def devRun (passphrase : String) : Run where
  net := { networkPassphrase := none, networkProfile := some "dev" }
  stored := .ok passphrase
  base := testnetPassphrase
  salt := none
  skipDeployed := true
  identity := .ok zeroParams.sourceAccount
  project := .ok ⟨[contractNamed "token"], by decide⟩
  answers := allWorks

/-- The record of a token on the test network is replaced by one of the main network. -/
theorem redefined_profile_crosses :
    ¬ ∀ (stellar : Stellar) (crates : DeployCrates)
        (parseTypedArgs : List String → Except String (List String)) (runs : List Run),
      (∀ run ∈ runs, ∀ run' ∈ runs, ∀ s s', run.scope stellar = .ok s →
        run'.scope stellar = .ok s' →
        customKey stellar.sha256 s.passphrase = customKey stellar.sha256 s'.passphrase →
          s.passphrase = s'.passphrase) →
      ∀ before, before <+: runs →
        Scoped (Runs.run (History.step stellar crates parseTypedArgs) .start before) := by
  intro h
  have hscope : ∀ passphrase, (devRun passphrase).scope networkStellar =
      .ok { networkKey := "dev", passphrase } := fun _ => rfl
  have hcustom : customKey networkStellar.sha256 testnetPassphrase ≠
      customKey networkStellar.sha256 mainnetPassphrase := by decide +kernel
  have hscoped := h networkStellar emptyCodeCrates .ok
    [devRun testnetPassphrase, devRun mainnetPassphrase] (by
      intro run hrun run' hrun' s s' hs hs' heq
      simp only [List.mem_cons, List.not_mem_nil, or_false] at hrun hrun'
      rcases hrun with rfl | rfl <;> rcases hrun' with rfl | rfl <;>
        (rw [hscope] at hs hs'; cases hs; cases hs')
      · rfl
      · exact absurd heq hcustom
      · exact absurd heq.symm hcustom
      · rfl) _ List.prefix_rfl
  have hcurrent := hscoped.current { networkKey := "dev", passphrase := testnetPassphrase }
    List.mem_cons_self "token"
  obtain ⟨d, horigin, hpassphrase⟩ := Option.map_eq_some_iff.mp (show
    ((Runs.run (History.step networkStellar emptyCodeCrates .ok) .start
      [devRun testnetPassphrase, devRun mainnetPassphrase]).origin ("dev", "token")).map
        (·.scope.passphrase) = some mainnetPassphrase by rfl)
  have hlast := lastOf_eq_some (hcurrent.symm.trans horigin)
  exact absurd (hlast.2.1.symm.trans hpassphrase) (by decide)

end RedefinedProfile

end SorobanDevkit.Cli
