import SorobanDevkit.Cli.ProjectDeploy

/-!
# The ids of the contracts of a project

The id of a contract is a hash of the network, the deployer and the salt. The creations that one run
of `sdkt project deploy` tries are compared by what their ids are hashes of.
-/

namespace SorobanDevkit.Cli

open SorobanDevkit.Core Rpc Xdr

section

variable {stellar : Stellar} {crates : DeployCrates}
  {parseTypedArgs : List String → Except String (List String)} {settings : Settings}

/-! ### The creations of a run -/

/-- The creations that events try. -/
def triedArgs (events : List Event) : List CreateContractArgs :=
  events.filterMap fun event => match event with
    | .tried _ args => some args
    | _ => none

theorem triedArgs_append (events rest : List Event) :
    triedArgs (events ++ rest) = triedArgs events ++ triedArgs rest := List.filterMap_append

section

variable (stellar crates parseTypedArgs settings)
variable (file : DeploymentRecordFile) (answers : String → ContractAnswers)
  (contracts : List ResolvedContract)

/-- The loop comes to the contract at a position: it goes on after each contract before. -/
def ReachedAt (n : ℕ) (contract : ResolvedContract) : Prop :=
  contracts[n]? = some contract ∧ ∀ m < n, ∀ c, contracts[m]? = some c →
    Passes stellar crates parseTypedArgs settings (lookedUp settings file c) c (answers c.aliasName)

/-- The creation of the contract at a position is tried. -/
def TriedAt (n : ℕ) : Prop :=
  ∃ c, ReachedAt stellar crates parseTypedArgs settings file answers contracts n c ∧
    Fresh (lookedUp settings file c) (answers c.aliasName) ∧
    Tries stellar crates parseTypedArgs c (answers c.aliasName)

/-- The contract at a position is deployed. -/
def DeployedAt (n : ℕ) (contract : ResolvedContract) : Prop :=
  ReachedAt stellar crates parseTypedArgs settings file answers contracts n contract ∧
    Fresh (lookedUp settings file contract) (answers contract.aliasName) ∧
    Succeeds stellar crates parseTypedArgs settings contract (answers contract.aliasName)

variable {stellar crates parseTypedArgs settings file answers contracts}
variable {contract c : ResolvedContract}

theorem reachedAt_cons_zero :
    ReachedAt stellar crates parseTypedArgs settings file answers (contract :: contracts) 0 c ↔
      c = contract := by
  simp [ReachedAt, eq_comm]

theorem reachedAt_cons_succ {n : ℕ} :
    ReachedAt stellar crates parseTypedArgs settings file answers (contract :: contracts) (n + 1)
        c ↔
      Passes stellar crates parseTypedArgs settings (lookedUp settings file contract) contract
        (answers contract.aliasName) ∧
      ReachedAt stellar crates parseTypedArgs settings file answers contracts n c := by
  rw [ReachedAt, ReachedAt, List.getElem?_cons_succ]
  constructor
  · rintro ⟨hc, hbefore⟩
    exact ⟨hbefore 0 (Nat.succ_pos n) contract rfl, hc,
      fun m hm c hc => hbefore (m + 1) (Nat.succ_lt_succ hm) c hc⟩
  · rintro ⟨hpasses, hc, hbefore⟩
    refine ⟨hc, fun m hm c hc => ?_⟩
    cases m with
    | zero => cases hc; exact hpasses
    | succ m => exact hbefore m (Nat.lt_of_succ_lt_succ hm) c hc

theorem triedAt_cons_zero :
    TriedAt stellar crates parseTypedArgs settings file answers (contract :: contracts) 0 ↔
      Fresh (lookedUp settings file contract) (answers contract.aliasName) ∧
        Tries stellar crates parseTypedArgs contract (answers contract.aliasName) := by
  simp [TriedAt, reachedAt_cons_zero]

theorem triedAt_cons_succ {n : ℕ} :
    TriedAt stellar crates parseTypedArgs settings file answers (contract :: contracts) (n + 1) ↔
      Passes stellar crates parseTypedArgs settings (lookedUp settings file contract) contract
        (answers contract.aliasName) ∧
      TriedAt stellar crates parseTypedArgs settings file answers contracts n := by
  simp only [TriedAt, reachedAt_cons_succ, and_assoc, exists_and_left]

end

/-- What is done with a contract tries its creation or not, and the loop goes on or not. -/
theorem Does.spec {record : Option DeploymentRecord} {contract : ResolvedContract}
    {answers : ContractAnswers} {events : List Event} {stop : Option Stop}
    (h : Does stellar crates parseTypedArgs settings record contract answers events stop) :
    (stop = none ↔ Passes stellar crates parseTypedArgs settings record contract answers) ∧
    ((triedArgs events = [] ∧
        ¬ (Fresh record answers ∧ Tries stellar crates parseTypedArgs contract answers)) ∨
      ∃ args, triedArgs events = [args] ∧ Fresh record answers ∧
        Tries stellar crates parseTypedArgs contract answers ∧
        args.deployerAddress = settings.sourceAccount ∧
        args.salt = settings.salt.getD answers.deploy.generated) := by
  have hskips : Fresh record answers → ¬ Skips record answers := by
    rintro hfresh ⟨hrecord, hchain⟩
    rw [hfresh.resolve_left hrecord] at hchain
    cases hchain
  cases h with
  | skip found hrecord hchain =>
    have hskip : Skips record answers := ⟨by simp [hrecord], hchain⟩
    exact ⟨iff_of_true rfl (.inl hskip), .inl ⟨rfl, fun h => hskips h.1 hskip⟩⟩
  | stop e hskip hfresh =>
    refine ⟨iff_of_false (by simp) ?_, .inl ⟨rfl, fun h => (hfresh h.1).1 h.2⟩⟩
    rintro (hskips | ⟨hf, hsucceeds, -⟩)
    · exact hskip hskips
    · exact (hfresh hf).2 hsucceeds
  | fail e args hfresh htries hargs hfails =>
    refine ⟨iff_of_false (by simp) ?_, .inr ⟨args, rfl, hfresh, htries, hargs⟩⟩
    rintro (hskip | ⟨-, hsucceeds, -⟩)
    · exact hskips hfresh hskip
    · exact hfails hsucceeds
  | land args result stop hfresh htries hargs hsucceeds hstop =>
    refine ⟨hstop.trans ⟨fun hwritten => .inr ⟨hfresh, hsucceeds, hwritten⟩, ?_⟩,
      .inr ⟨args, rfl, hfresh, htries, hargs⟩⟩
    rintro (hskip | ⟨-, -, hwritten⟩)
    · exact absurd hskip (hskips hfresh)
    · exact hwritten

/-- The positions of a list with one more element in front. -/
theorem exists_positions_cons {P Q : ℕ → Prop} {here : Prop} {tried rest : List CreateContractArgs}
    (hzero : Q 0 ↔ here) (hsucc : ∀ n, Q (n + 1) ↔ P n)
    (htried : (tried = [] ∧ ¬ here) ∨ ∃ args, tried = [args] ∧ here)
    (hrest : ∃ positions : List ℕ, positions.Nodup ∧ positions.length = rest.length ∧
      ∀ n, n ∈ positions ↔ P n) :
    ∃ positions : List ℕ, positions.Nodup ∧ positions.length = (tried ++ rest).length ∧
      ∀ n, n ∈ positions ↔ Q n := by
  obtain ⟨positions, hnodup, hlength, hmem⟩ := hrest
  have hnodup' : (positions.map Nat.succ).Nodup := hnodup.map Nat.succ_injective
  have hmem' : ∀ n, n + 1 ∈ positions.map Nat.succ ↔ Q (n + 1) := fun n => by
    rw [hsucc, ← hmem, List.mem_map_of_injective Nat.succ_injective]
  have hzero' : 0 ∉ positions.map Nat.succ := by simp
  rcases htried with ⟨rfl, hhere⟩ | ⟨args, rfl, hhere⟩
  · refine ⟨positions.map Nat.succ, hnodup', by simpa using hlength, fun n => ?_⟩
    cases n with
    | zero => exact iff_of_false hzero' (hhere ∘ hzero.mp)
    | succ n => exact hmem' n
  · refine ⟨0 :: positions.map Nat.succ, List.nodup_cons.mpr ⟨hzero', hnodup'⟩,
      by simpa using hlength, fun n => ?_⟩
    cases n with
    | zero => exact iff_of_true List.mem_cons_self (hzero.mpr hhere)
    | succ n => exact (List.mem_cons.trans (or_iff_right (Nat.succ_ne_zero n))).trans (hmem' n)

/-- The positions at which creations are tried are as many as the creations. -/
theorem DoesAll.positions {file : DeploymentRecordFile} {answers : String → ContractAnswers}
    {contracts : List ResolvedContract} {events : List Event} {stop : Option Stop}
    (h : DoesAll stellar crates parseTypedArgs settings file answers contracts events stop) :
    ∃ positions : List ℕ, positions.Nodup ∧ positions.length = (triedArgs events).length ∧
      ∀ n, n ∈ positions ↔
        TriedAt stellar crates parseTypedArgs settings file answers contracts n := by
  induction h with
  | nil => exact ⟨[], List.nodup_nil, rfl, fun n => by simp [TriedAt, ReachedAt]⟩
  | @stop contract contracts events reason h =>
    obtain ⟨hpasses, htried⟩ := h.spec
    have hpasses := hpasses.not.mp (by simp)
    rw [← List.append_nil (triedArgs events)]
    refine exists_positions_cons (P := fun _ => False) triedAt_cons_zero
      (fun n => triedAt_cons_succ.trans (iff_of_false (fun h => hpasses h.1) not_false)) ?_
      ⟨[], List.nodup_nil, rfl, fun n => by simp⟩
    exact htried.imp_right fun ⟨args, hargs, hfresh, htries, _⟩ => ⟨args, hargs, hfresh, htries⟩
  | @next contract contracts events rest stop h _ ih =>
    obtain ⟨hpasses, htried⟩ := h.spec
    have hpasses := hpasses.mp rfl
    rw [triedArgs_append]
    refine exists_positions_cons triedAt_cons_zero
      (fun n => triedAt_cons_succ.trans (and_iff_right hpasses)) ?_ ih
    exact htried.imp_right fun ⟨args, hargs, hfresh, htries, _⟩ => ⟨args, hargs, hfresh, htries⟩

/-- The creations that a run tries are those of some of its contracts, in order, by its deployer and
with its salt or the generated ones. -/
theorem DoesAll.tried {file : DeploymentRecordFile} {answers : String → ContractAnswers}
    {contracts : List ResolvedContract} {events : List Event} {stop : Option Stop}
    (h : DoesAll stellar crates parseTypedArgs settings file answers contracts events stop) :
    ∃ tried : List ResolvedContract, tried.Sublist contracts ∧
      List.Forall₂ (fun c args => args.deployerAddress = settings.sourceAccount ∧
        args.salt = settings.salt.getD (answers c.aliasName).deploy.generated) tried
        (triedArgs events) := by
  induction h with
  | nil => exact ⟨[], List.Sublist.refl _, .nil⟩
  | @stop contract contracts events reason h =>
    rcases h.spec.2 with ⟨hnone, -⟩ | ⟨args, hone, -, -, hargs⟩
    · exact ⟨[], List.nil_sublist _, hnone ▸ .nil⟩
    · exact ⟨[contract], List.Sublist.cons_cons _ (List.nil_sublist _), hone ▸ .cons hargs .nil⟩
  | @next contract contracts events rest stop h _ ih =>
    obtain ⟨tried, hsublist, hall⟩ := ih
    rw [triedArgs_append]
    rcases h.spec.2 with ⟨hnone, -⟩ | ⟨args, hone, -, -, hargs⟩
    · exact ⟨tried, hsublist.cons contract, by rw [hnone]; exact hall⟩
    · exact ⟨contract :: tried, hsublist.cons_cons contract, by rw [hone]; exact .cons hargs hall⟩

/-! ### The ids of the created contracts -/

theorem paddedSalt_injective {s t : Salt} (h : paddedSalt s = paddedSalt t) : s = t := by
  have hlists := congrArg Vector.toList h
  rw [paddedSalt, paddedSalt, Vector.toList_append, Vector.toList_append,
    List.append_cancel_right_eq] at hlists
  exact Vector.toList_inj.mp hlists

/-- A list without duplicates has at most one element exactly if its elements are equal. -/
theorem length_le_one_iff_of_nodup {α : Type} {l : List α} (h : l.Nodup) :
    l.length ≤ 1 ↔ ∀ a ∈ l, ∀ b ∈ l, a = b := by
  match l with
  | [] => simp
  | [a] => simp
  | a :: b :: l =>
    refine iff_of_false (by simp) fun hall => ?_
    have hab : a = b := hall a List.mem_cons_self b (List.mem_cons_of_mem _ List.mem_cons_self)
    exact (List.nodup_cons.mp h).1 (hab ▸ List.mem_cons_self)

/-- What the id of a contract is the hash of, for a deployer and a salt. -/
def preimageOf (networkId : Bytes32) (deployer : AccountId) (salt : Salt) :
    Except DecodeError HashIdPreimage :=
  .ok (.contractId networkId (addressPreimage deployer salt))

theorem preimageOf_injective {networkId : Bytes32} {deployer : AccountId} {s t : Salt}
    (h : preimageOf networkId deployer s = preimageOf networkId deployer t) : s = t := by
  rw [preimageOf, preimageOf, Except.ok.injEq, HashIdPreimage.contractId.injEq, addressPreimage,
    addressPreimage, ContractIdPreimage.address.injEq] at h
  exact paddedSalt_injective h.2.2

theorem preimages_eq {networkId : Bytes32} {sourceAccount : String} {deployer : AccountId}
    (hdeployer : decodeAccountId stellar sourceAccount = .ok deployer)
    {salt : ResolvedContract → Salt} {tried : List ResolvedContract}
    {created : List CreateContractArgs}
    (h : List.Forall₂ (fun c args => args.deployerAddress = sourceAccount ∧ args.salt = salt c)
      tried created) :
    created.map (·.preimage stellar networkId) =
      tried.map fun c => preimageOf networkId deployer (salt c) := by
  induction h with
  | nil => rfl
  | cons hargs _ ih =>
    rw [List.map_cons, List.map_cons, ih, CreateContractArgs.preimage, hargs.1, hdeployer, hargs.2]
    rfl

variable (stellar crates parseTypedArgs settings) in
/-- **The contracts that a run tries to create have distinct ids exactly if the salt is not given,
or at most one creation is tried.** -/
theorem preimages_distinct_iff {path : RecordPath} {file : DeploymentRecordFile}
    (hpath : path.read = .ok file) (project : ResolvedProject)
    (answers : String → ContractAnswers) {deployer : AccountId}
    (hdeployer : decodeAccountId stellar settings.sourceAccount = .ok deployer)
    (hgenerated : ∀ c ∈ project.contracts, ∀ c' ∈ project.contracts,
      (answers c.aliasName).deploy.generated = (answers c'.aliasName).deploy.generated →
        c.aliasName = c'.aliasName) :
    ∃ state stop,
      deployProject stellar crates parseTypedArgs settings path project answers =
        .ok (state, stop) ∧
      (((triedArgs state.events).map (·.preimage stellar settings.networkId)).Nodup ↔
        settings.salt = none ∨ ∀ m n,
          TriedAt stellar crates parseTypedArgs settings file answers project.contracts m →
          TriedAt stellar crates parseTypedArgs settings file answers project.contracts n →
            m = n) := by
  obtain ⟨events, stop, hall, hloop⟩ := deployLoop_cases stellar crates parseTypedArgs settings file
    answers project.aliases_nodup { recordFile := file, path, results := [], events := [] }
      fun _ _ => rfl
  refine ⟨_, stop, by rw [deployProject, hpath, Except.map, hloop], ?_⟩
  rw [DeployState.events_foldl_apply, List.nil_append]
  obtain ⟨positions, hnodup, hlength, hmem⟩ := hall.positions
  obtain ⟨tried, hsublist, hargs⟩ := hall.tried
  have hpreimages : (triedArgs events).map (·.preimage stellar settings.networkId) =
      tried.map fun c => preimageOf settings.networkId deployer
        (settings.salt.getD (answers c.aliasName).deploy.generated) :=
    preimages_eq hdeployer hargs
  have hpositions : positions.length ≤ 1 ↔ ∀ m n,
      TriedAt stellar crates parseTypedArgs settings file answers project.contracts m →
      TriedAt stellar crates parseTypedArgs settings file answers project.contracts n → m = n := by
    rw [length_le_one_iff_of_nodup hnodup]
    simp only [hmem]
    exact ⟨fun h m n hm hn => h m hm n hn, fun h m hm n hn => h m n hm hn⟩
  rw [hpreimages, ← hpositions, hlength, ← hargs.length_eq]
  cases hsalt : settings.salt with
  | none =>
    refine iff_of_true ?_ (.inl rfl)
    refine List.Nodup.map_on (fun c hc c' hc' heq => ?_)
      ((project.aliases_nodup.of_map _).sublist hsublist)
    have halias := hgenerated c (hsublist.subset hc) c' (hsublist.subset hc')
      (preimageOf_injective heq)
    exact List.inj_on_of_nodup_map project.aliases_nodup (hsublist.subset hc)
      (hsublist.subset hc') halias
  | some salt =>
    simp only [Option.getD_some, reduceCtorEq, false_or]
    rw [List.map_const', List.nodup_replicate]

end

/-! ### Two contracts on a test network -/

section TwoContracts

/-- The XDR of what the id of a contract of the account whose key is zero is the hash of. -/
def zeroPreimageXdr (networkId salt : Bytes32) : List UInt8 :=
  word 8 ++ networkId.toList ++ word 0 ++ word 0 ++ word 0 ++ zeroBytes 32 ++ salt.toList

/-- The id of the test network. -/
def testnetId : Bytes32 :=
  #v[206, 224, 48, 45, 89, 132, 77, 50, 189, 202, 145, 92, 130, 3, 221, 68,
    179, 63, 187, 126, 220, 25, 5, 30, 163, 122, 190, 223, 40, 236, 212, 114]

/-- A salt of 20 equal bytes. -/
def saltOf (b : UInt8) : Salt := Vector.replicate 20 b

/-- The digests of the preimages of three salts. -/
def saltDigests : List (List UInt8 × Bytes32) :=
  [(zeroPreimageXdr testnetId (paddedSalt (saltOf 0)),
      #v[170, 136, 156, 81, 17, 77, 182, 21, 163, 89, 89, 216, 164, 138, 96, 253,
        208, 87, 76, 19, 182, 5, 190, 254, 173, 32, 183, 57, 150, 46, 120, 180]),
    (zeroPreimageXdr testnetId (paddedSalt (saltOf 1)),
      #v[36, 228, 4, 65, 40, 198, 242, 45, 94, 229, 46, 7, 144, 136, 26, 48,
        98, 70, 154, 236, 6, 48, 179, 18, 83, 136, 166, 122, 168, 41, 134, 12]),
    (zeroPreimageXdr testnetId (paddedSalt (saltOf 2)),
      #v[74, 195, 166, 88, 160, 219, 139, 88, 204, 54, 245, 77, 176, 5, 155, 217,
        197, 165, 187, 95, 14, 107, 215, 240, 105, 133, 82, 180, 109, 202, 111, 27])]

/-- The crates on the account whose key is zero and on the three salts. -/
def saltStellar : Stellar :=
  { zeroStellar with
    writeHashIdPreimage := fun preimage => match preimage with
      | .contractId networkId (.address (.account _) salt) => .ok (zeroPreimageXdr networkId salt)
      | _ => .error "length limit exceeded"
    sha256 := fun bytes => (saltDigests.lookup bytes).getD (Vector.replicate 32 0) }

/-- The metadata of code without sections. -/
def emptyCodeCrates : DeployCrates where
  parseMetadata _ := .ok "93a44bbb96c751218e4c00d479e4c14358122a389acca16205b1e4d0dc5f9476"
  decodeHex s := match Hex.decode s with
    | some bytes => .ok bytes
    | none => .error "Odd number of digits"
  decodeErrorText _ := ""

/-- A contract without constructor arguments. -/
def contractNamed (aliasName : String) : ResolvedContract :=
  { aliasName, path := aliasName, wasmArtifact := aliasName ++ ".wasm", ctorArgs := [] }

/-- A token and a vault. -/
def tokenAndVault : ResolvedProject := ⟨[contractNamed "token", contractNamed "vault"], by decide⟩

/-- Everything works, and the generated salt is that of the alias. -/
def allWorks (aliasName : String) : ContractAnswers where
  onChain := .ok false
  artifact := .ok [0, 97, 115, 109, 1, 0, 0, 0]
  deploy :=
    { generated := if aliasName = "token" then saltOf 1 else saltOf 2
      sequence := .ok 1
      upload := .ok ("", 100)
      sequenceAfterUpload := .ok 2
      create := .ok ("", 100) }
  timestamp := 0
  written := .ok ()

/-- A run on the test network. -/
def testnetSettings (salt : Option Salt) : Settings where
  networkKey := "testnet"
  networkId := testnetId
  sourceAccount := zeroParams.sourceAccount
  salt := salt
  skipDeployed := false

theorem zeroDeployer : decodeAccountId saltStellar zeroParams.sourceAccount =
    .ok ⟨.ed25519 (Vector.replicate 32 0)⟩ := rfl

theorem generated_allWorks : ∀ c ∈ tokenAndVault.contracts, ∀ c' ∈ tokenAndVault.contracts,
    (allWorks c.aliasName).deploy.generated = (allWorks c'.aliasName).deploy.generated →
      c.aliasName = c'.aliasName := by
  decide

/-- Without a salt, the token and the vault have distinct ids. -/
theorem preimages_distinct_tokenAndVault : ∃ state stop,
    deployProject saltStellar emptyCodeCrates .ok (testnetSettings none) .missing tokenAndVault
      allWorks = .ok (state, stop) ∧
    ((triedArgs state.events).map (·.preimage saltStellar testnetId)).Nodup := by
  have hpath : RecordPath.missing.read = .ok .default := rfl
  obtain ⟨state, stop, hrun, hiff⟩ := preimages_distinct_iff saltStellar emptyCodeCrates .ok
    (testnetSettings none) hpath tokenAndVault allWorks zeroDeployer generated_allWorks
  exact ⟨state, stop, hrun, hiff.mpr (.inl rfl)⟩

/-- With a salt, the creations of the token and of the vault are aimed at one id. -/
theorem tokenAndVault_one_salt :
    ¬ ∀ (stellar : Stellar) (crates : DeployCrates)
        (parseTypedArgs : List String → Except String (List String)) (settings : Settings)
        (path : RecordPath) (project : ResolvedProject) (answers : String → ContractAnswers)
        (deployer : AccountId) (state : DeployState) (stop : Option Stop),
      decodeAccountId stellar settings.sourceAccount = .ok deployer →
      (∀ c ∈ project.contracts, ∀ c' ∈ project.contracts,
        (answers c.aliasName).deploy.generated = (answers c'.aliasName).deploy.generated →
          c.aliasName = c'.aliasName) →
      deployProject stellar crates parseTypedArgs settings path project answers =
        .ok (state, stop) →
      ((triedArgs state.events).map (·.preimage stellar settings.networkId)).Nodup := by
  intro h
  have hnodup := h saltStellar emptyCodeCrates .ok (testnetSettings (some (saltOf 0))) .missing
    tokenAndVault allWorks _ _ _ zeroDeployer generated_allWorks rfl
  exact (List.nodup_cons.mp hnodup).1 List.mem_cons_self

end TwoContracts

end SorobanDevkit.Cli
