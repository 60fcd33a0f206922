import SorobanDevkit.Fuzz.HostRun
import SorobanDevkit.Fuzz.Typing

/-!
# State threading in local sequences

Each step of a sequence runs on a fresh host that is seeded from the state that is carried
(`execute_sequence_auth` of `sdkt-fuzz/src/sequence.rs`). The host is arbitrary: what it returns of
a successful invocation is a change record for each key of the footprint or created key, and nothing
of a failed one. The state of a contract is taken here by what it is, its entries by key and its
instance storage by key; seeding, observing and folding back then are plain state passing.

## Main results

* `lookup_dedupByKey_sortByKey` — seeding the instance storage keeps what is under each key.
* `applyStateDelta_eq` — folding back the observed entries.
* `local_sequence_threads` — sequences thread the state of the host.
-/

namespace SorobanDevkit.Fuzz

open Xdr

/-! ### The state of a contract -/

/-- The value of a contract's storage under a key. -/
def lookupStorage (storage : InstanceStorage) (k : ScVal) : Option ScVal :=
  (storage.find? fun e => e.1 = k).map Prod.snd

/-- The state of a contract: its entries by key, and its instance storage by key. -/
@[ext] structure ContractState where
  data : LedgerKey → Option LedgerEntry
  storage : ScVal → Option ScVal

/-- Keys of instances. -/
def isInstanceKey : LedgerKey → Bool
  | .contractData _ .ledgerKeyContractInstance _ => true
  | _ => false

/-- Keys of contract data that are neither instances nor nonces. -/
def isCarriedKey : LedgerKey → Bool
  | .contractData _ .ledgerKeyContractInstance _ => false
  | .contractData _ (.ledgerKeyNonce _) _ => false
  | .contractData .. => true
  | _ => false

/-- The storage of an instance. -/
def storageOf : Option LedgerEntry → InstanceStorage
  | some ⟨_, .contractData ⟨_, _, _, .contractInstance _ storage⟩, _⟩ => readStorageMap storage
  | _ => []

/-- The key of the instance of a contract. -/
def instanceKey (contract : ScAddress) : LedgerKey :=
  .contractData contract .ledgerKeyContractInstance .persistent

/-- The state of a contract in a ledger, its entries being those under some keys. -/
def contractStateOf (keys : LedgerKey → Bool) (contract : ScAddress)
    (ledger : LedgerKey → Option LedgerEntry) : ContractState where
  data key := if keys key then ledger key else none
  storage := lookupStorage (storageOf (ledger (instanceKey contract)))

/-- The carried state. -/
def SequenceState.contractState (state : SequenceState) : ContractState where
  data := KeyedList.lookup LedgerEntry.toKey state.dataEntries
  storage := lookupStorage state.instanceStorage

/-! ### What is assumed of the host -/

/-- A change record: a key, and its value unless it is read-only or removed. -/
structure ChangeRecord where
  key : LedgerKey
  value : Option LedgerEntry
  deriving DecidableEq

/-- The changes are records under distinct keys, among them those of the footprint, the read-only
ones without a value. A value is an entry under its key, and an instance under the key of one. -/
structure Reports (xdr : LedgerXdr) (footprint : LedgerFootprint) (records : List ChangeRecord)
    (changes : List LedgerEntryChange) : Prop where
  encoded : List.Forall₂ (fun r c => xdr.writeKey r.key = .ok c.encodedKey ∧
    afterXdr xdr r.value = .ok c.encodedNewValue) records changes
  distinct : (records.map ChangeRecord.key).Nodup
  covers : ∀ key ∈ footprint.readOnly.items ++ footprint.readWrite.items,
    key ∈ records.map ChangeRecord.key
  readOnly : ∀ r ∈ records, r.key ∈ footprint.readOnly.items → r.value = none
  toKey : ∀ r ∈ records, ∀ entry, r.value = some entry → entry.toKey = r.key
  instances : ∀ r ∈ records, isInstanceKey r.key = true → ∀ entry, r.value = some entry →
    ∃ data executable storage, entry.data = .contractData data ∧
      data.val = .contractInstance executable storage

/-- An invocation that succeeds is reported, and one that fails reports no change. -/
def HostApi.Reporting {Budget : Type} (xdr : LedgerXdr) (api : HostApi Budget) : Prop :=
  ∀ invocation resources result,
    api.writeResources resources = .ok invocation.encodedResources →
    api.invokeHostFunction invocation = .ok result →
      match result.encodedInvokeResult with
      | .ok _ => ∃ records, Reports xdr resources.footprint records result.ledgerChanges
      | .error _ => result.ledgerChanges = []

/-- A reported instance is one of the footprint. -/
def HostApi.CreatesNoInstance {Budget : Type} (xdr : LedgerXdr) (api : HostApi Budget) : Prop :=
  ∀ invocation resources result records,
    api.writeResources resources = .ok invocation.encodedResources →
    api.invokeHostFunction invocation = .ok result →
    Reports xdr resources.footprint records result.ledgerChanges →
      ∀ r ∈ records, isInstanceKey r.key = true →
        r.key ∈ resources.footprint.readOnly.items ++ resources.footprint.readWrite.items

/-! ### Threading -/

/-- What happened to an entry, by its value before and after. -/
def StateChange.between (before after : Option LedgerEntry) : StateChange :=
  match before, after with
  | some _, none => .deleted
  | none, none => .unchanged
  | none, some _ => .created
  | some old, some new => if old = new then .unchanged else .updated

/-- The ledger that the host left, from the one it was given, and the keys it reports. -/
inductive HostLeft {Budget : Type} (xdr : LedgerXdr) (api : HostApi Budget)
    (invocation : Invocation Budget) (result : InvokeHostFunctionResult)
    (given : LedgerKey → Option LedgerEntry) :
    (LedgerKey → Option LedgerEntry) → List LedgerKey → Prop
  | failed (error : HostError) (h : result.encodedInvokeResult = .error error) :
    HostLeft xdr api invocation result given given []
  | returned (bytes : List UInt8) (resources : SorobanResources) (records : List ChangeRecord)
    (h : result.encodedInvokeResult = .ok bytes)
    (hresources : api.writeResources resources = .ok invocation.encodedResources)
    (hreports : Reports xdr resources.footprint records result.ledgerChanges) :
    HostLeft xdr api invocation result given
      (fun key => if key ∈ resources.footprint.readOnly.items then given key
        else (records.find? fun r => r.key = key).bind ChangeRecord.value)
      (records.map ChangeRecord.key)

/-- Every reported key is observed once, in the order of the keys, with what happened to its
entry. -/
structure ObservesStep (xdr : LedgerXdr) (given left : LedgerKey → Option LedgerEntry)
    (reported : List LedgerKey) (state : List StateEntry) : Prop where
  ordered : state.Pairwise fun a b => compare a.keyXdr b.keyXdr = .lt
  listed : ∀ key ∈ reported, ∃ entry ∈ state, xdr.writeKey key = .ok entry.keyXdr
  classified : ∀ entry ∈ state, ∃ key ∈ reported, xdr.writeKey key = .ok entry.keyXdr ∧
    entry.change = .between (given key) (left key)

section

variable {Budget : Type} (crates : Crates) (xdr : LedgerXdr) (api : HostApi Budget)
  (executor : Executor) (environment : Environment) (caseId : String)
  (authPerStep : List (List (List UInt8))) (keys : LedgerKey → Bool)

/-- The contract of a campaign. -/
def Executor.contract : ScAddress :=
  .contract (contractIdFromAddress crates executor.config.networkId deployer deploymentSalt)

/-- **A step threads the state**: the host was run on exactly the state that was carried, the next
state is exactly what the host left, and the observation tells the two apart. A failed step leaves
the state. -/
structure StepThreads (i : ℕ) (state : SequenceState) (call : FunctionCall) (obs : Observation)
    (next : SequenceState) : Prop where
  observed : executeStep crates (api.toHost crates xdr) executor environment caseId authPerStep i
    state call = .ok obs
  distinct : (state.dataEntries.map LedgerEntry.toKey).Nodup
  threaded : ∃ prepared result left reported,
    prepare crates xdr api executor.wasm executor.config (executor.contract crates) call
      state.dataEntries state.instanceStorage environment ((authPerStep[i]?).getD []) =
        .ok prepared ∧
    api.invokeHostFunction prepared.invocation = .ok result ∧
    ∃ given : List LedgerEntry,
      List.Forall₂ (fun entry bytes => xdr.writeEntry entry = .ok bytes) given
        (prepared.invocation.encodedLedgerEntries.map Prod.fst) ∧
      contractStateOf keys (executor.contract crates) (KeyedList.lookup LedgerEntry.toKey given) =
        state.contractState ∧
      HostLeft xdr api prepared.invocation result (KeyedList.lookup LedgerEntry.toKey given) left
        reported ∧
      contractStateOf keys (executor.contract crates) left = next.contractState ∧
      ObservesStep xdr (KeyedList.lookup LedgerEntry.toKey given) left reported obs.state
  failed : obs.isSuccess = false → next = state

/-- The steps from index `i` on carry one state to another. -/
inductive Threads :
    (i : ℕ) → SequenceState → List FunctionCall → List StepObservation → SequenceState → Prop
  | nil (i : ℕ) (state : SequenceState) : Threads i state [] [] state
  | cons {i : ℕ} {state next last : SequenceState} {call : FunctionCall} {obs : Observation}
    {calls : List FunctionCall} {observed : List StepObservation}
    (hstep : StepThreads crates xdr api executor environment caseId authPerStep keys i
      state call obs
      next) (hrest : Threads (i + 1) next calls observed last) :
    Threads i state (call :: calls) (⟨i, call.function, obs⟩ :: observed) last

end

/-! ### Seeding -/

theorem lookupStorage_dedupAfter (last : ScMapEntry) (entries : List ScMapEntry) :
    lookupStorage (dedupAfter last entries) = lookupStorage (last :: entries) := by
  funext k
  induction entries generalizing last with
  | nil => rfl
  | cons e entries ih =>
    rw [dedupAfter]
    by_cases hsame : e.1 = last.1
    · rw [if_pos hsame, ih, lookupStorage, lookupStorage]
      by_cases hk : last.1 = k
      · rw [List.find?_cons_of_pos (by simpa using hk), List.find?_cons_of_pos (by simpa using hk)]
      · rw [List.find?_cons_of_neg (by simpa using hk), List.find?_cons_of_neg (by simpa using hk),
          List.find?_cons_of_neg (by simpa [hsame] using hk)]
    · rw [if_neg hsame, lookupStorage, lookupStorage, List.find?_cons, List.find?_cons]
      have hih := ih e
      rw [lookupStorage, lookupStorage] at hih
      split
      · rfl
      · exact hih

theorem lookupStorage_sortByKey (entries : List ScMapEntry) :
    lookupStorage (sortByKey entries) = lookupStorage entries := by
  funext k
  -- the sort is stable: the entries under a key keep their order
  have hsub : (entries.filter fun e => e.1 = k).Sublist (sortByKey entries) := by
    refine List.sublist_mergeSort (fun _ _ _ => Std.TransCmp.isLE_trans) ?_ ?_ List.filter_sublist
    · intro a b
      have hswap : ScVal.cmp b.1 a.1 = (ScVal.cmp a.1 b.1).swap := Std.OrientedCmp.eq_swap
      rw [hswap]
      cases ScVal.cmp a.1 b.1 <;> rfl
    · refine List.Pairwise.imp_of_mem (R := fun _ _ => True) (fun {a b} ha hb _ => ?_)
        (List.pairwise_of_forall fun _ _ => trivial)
      have hka : a.1 = k := by simpa using (List.mem_filter.mp ha).2
      have hkb : b.1 = k := by simpa using (List.mem_filter.mp hb).2
      have hrefl : ScVal.cmp k k = .eq := Std.ReflCmp.compare_self
      rw [hka, hkb, hrefl]
      rfl
  have hfilter : (sortByKey entries).filter (fun e => e.1 = k) = entries.filter fun e =>
    e.1 = k := by
    have hsub' := hsub.filter fun e => decide (e.1 = k)
    rw [List.filter_filter] at hsub'
    simp only [Bool.and_self] at hsub'
    exact (hsub'.eq_of_length ((sortByKey_perm entries).filter _).length_eq.symm).symm
  rw [lookupStorage, lookupStorage, ← List.head?_filter, ← List.head?_filter, hfilter]

/-- **Seeding the instance storage keeps what is under each key.** -/
theorem lookup_dedupByKey_sortByKey (storage : InstanceStorage) :
    lookupStorage (dedupByKey (sortByKey storage)) = lookupStorage storage := by
  rw [← lookupStorage_sortByKey storage]
  cases sortByKey storage with
  | nil => rfl
  | cons e entries => exact lookupStorage_dedupAfter e entries

theorem storageOf_instanceEntry (contract : ScAddress) (wasmHash : Bytes32)
    (storage : InstanceStorage) :
    lookupStorage (storageOf (some (instanceEntry contract wasmHash storage))) =
      lookupStorage storage := by
  rw [← lookup_dedupByKey_sortByKey storage]
  rw [instanceEntry, storageOf, readStorageMap]
  split_ifs with hnil
  · rw [hnil]
    rfl
  · rfl

/-! ### Folding back -/

/-- The state after a reported record, with what happened to its entry. -/
def carryRecord (state : SequenceState) (r : ChangeRecord × StateChange) : SequenceState :=
  if r.2 = .unchanged then state
  else if isInstanceKey r.1.key then { state with instanceStorage := storageOf r.1.value }
  else if isCarriedKey r.1.key then
    { state with
      dataEntries := KeyedList.replace LedgerEntry.toKey state.dataEntries r.1.key r.1.value }
  else state

/-- An observed entry of a record. -/
structure EntryOf (xdr : LedgerXdr) (r : ChangeRecord × StateChange)
    (entry : StateEntry) : Prop where
  key : xdr.writeKey r.1.key = .ok entry.keyXdr
  value : afterXdr xdr r.1.value = .ok entry.valueXdr
  change : entry.change = r.2

section

variable {crates : Crates} {xdr : LedgerXdr} {state : SequenceState}

theorem decodeEntry_of_afterXdr (hxdr : xdr.Documented crates) {value : Option LedgerEntry}
    {valueXdr : Option (List UInt8)} (h : afterXdr xdr value = .ok valueXdr) :
    value = none ∧ valueXdr = none ∨
      ∃ entry bytes, value = some entry ∧ valueXdr = some bytes ∧
        decodeEntry crates bytes = .ok entry := by
  cases value with
  | none =>
    cases h
    exact .inl ⟨rfl, rfl⟩
  | some entry =>
    obtain ⟨bytes, hwrite, rfl⟩ := Except.map_eq_ok_iff.mp h
    exact .inr ⟨entry, bytes, rfl, rfl, Except.mapError_eq_ok_iff.mpr (hxdr.fromXdrEntry hwrite)⟩

/-- **An observed entry is folded back as its record.** -/
theorem applyEntry_eq (hxdr : xdr.Documented crates) {r : ChangeRecord × StateChange}
    {entry : StateEntry} (h : EntryOf xdr r entry)
    (hinstances : isInstanceKey r.1.key = true → ∀ e, r.1.value = some e →
      ∃ data executable storage, e.data = .contractData data ∧
        data.val = .contractInstance executable storage) :
    applyEntry crates state entry = .ok (carryRecord state r) := by
  obtain ⟨⟨key, value⟩, change⟩ := r
  have hkey : crates.readLedgerKey entry.keyXdr = .ok key := hxdr.fromXdrKey h.key
  have hchange : entry.change = change := h.change
  have hvalue := decodeEntry_of_afterXdr hxdr h.value
  unfold applyEntry carryRecord
  rw [hchange]
  by_cases hunchanged : change = .unchanged
  · rw [if_pos hunchanged, if_pos hunchanged]
  · rw [if_neg hunchanged, if_neg hunchanged, hkey]
    simp only [Except.mapError_ok, bind, Except.bind]
    split
    · obtain ⟨rfl, hxdrValue⟩ | ⟨e, bytes, rfl, hxdrValue, hread⟩ := hvalue
      · rw [hxdrValue]
        rfl
      · obtain ⟨⟨contract, k, durability, val⟩, executable, storage, hdata, rfl⟩ :=
          hinstances rfl e rfl
        obtain ⟨seq, edata, ext⟩ := e
        cases hdata
        rw [hxdrValue]
        simp only [hread, isInstanceKey, if_true, storageOf]
    · rfl
    · next contract k durability hinstance hnonce =>
      have hnot : isInstanceKey (.contractData contract k durability) = false := by
        unfold isInstanceKey
        split
        · next heq => cases heq; exact (hinstance rfl).elim
        · rfl
      have hcarried : isCarriedKey (.contractData contract k durability) = true := by
        unfold isCarriedKey
        split
        · next heq => cases heq; exact (hinstance rfl).elim
        · next heq => cases heq; exact (hnonce _ rfl).elim
        · rfl
        · next hdata => exact (hdata _ _ _ rfl).elim
      simp only [hnot, hcarried, Bool.false_eq_true, if_false, if_true]
      obtain ⟨rfl, hxdrValue⟩ | ⟨e, bytes, rfl, hxdrValue, hread⟩ := hvalue
      · rw [hxdrValue, KeyedList.replace, Option.toList_none, List.append_nil]
      · rw [hxdrValue, KeyedList.replace, Option.toList_some]
        simp only [hread]
    · rfl
    · rfl

/-- **The observed entries are folded back as their records.** -/
theorem applyStateDelta_eq (hxdr : xdr.Documented crates) {rs : List (ChangeRecord × StateChange)}
    {obs : Observation} (hrs : List.Forall₂ (EntryOf xdr) rs obs.state)
    (hinstances : ∀ r ∈ rs, isInstanceKey r.1.key = true → ∀ e, r.1.value = some e →
      ∃ data executable storage, e.data = .contractData data ∧
        data.val = .contractInstance executable storage) :
    applyStateDelta crates state obs = .ok (rs.foldl carryRecord state) := by
  rw [applyStateDelta]
  generalize obs.state = entries at hrs
  induction hrs generalizing state with
  | nil => rfl
  | cons hr hrs ih =>
    obtain ⟨hinstance, hinstances⟩ := List.forall_mem_cons.mp hinstances
    rw [List.foldlM_cons, applyEntry_eq hxdr hr hinstance, List.foldl_cons, ← ih hinstances]
    rfl

/-! ### The state after the records -/

variable {rs : List (ChangeRecord × StateChange)}

/-- Records under one key are one record. -/
theorem pairwise_not_both (hdistinct : (rs.map fun r => r.1.key).Nodup)
    {p : ChangeRecord × StateChange → Bool} (key : LedgerKey)
    (hp : ∀ r ∈ rs, p r = true → r.1.key = key) :
    rs.Pairwise fun r r' => ¬ (p r = true ∧ p r' = true) := by
  refine (List.pairwise_map.mp hdistinct).imp_of_mem fun {r r'} hr hr' hne => ?_
  rintro ⟨h, h'⟩
  exact hne ((hp r hr h).trans (hp r' hr' h').symm)

theorem isInstanceKey_of_isCarriedKey {key : LedgerKey} (h : isCarriedKey key = true) :
    isInstanceKey key = false := by
  unfold isInstanceKey
  split
  · cases h
  · rfl

/-- The entry under a key after the records. -/
theorem lookup_carryRecords (hdistinct : (rs.map fun r => r.1.key).Nodup)
    (htoKey : ∀ r ∈ rs, ∀ entry, r.1.value = some entry → entry.toKey = r.1.key) {key : LedgerKey}
    (hcarried : isCarriedKey key = true) :
    KeyedList.lookup LedgerEntry.toKey (rs.foldl carryRecord state).dataEntries key =
      ((rs.find? fun r => r.1.key = key ∧ r.2 ≠ .unchanged).map fun r => r.1.value).getD
        (KeyedList.lookup LedgerEntry.toKey state.dataEntries key) := by
  refine LastWrite.foldl_field
    (g := fun s => KeyedList.lookup LedgerEntry.toKey s.dataEntries key) ?_ ?_ state
  · intro r hr s
    rw [carryRecord]
    by_cases hkey : r.1.key = key
    · rw [hkey, isInstanceKey_of_isCarriedKey hcarried, hcarried]
      by_cases hunchanged : r.2 = .unchanged
      · simp [hunchanged]
      · have hreplace := congrFun (KeyedList.lookup_replace (l := s.dataEntries)
          fun entry h => (htoKey r hr entry h).trans hkey) key
        rw [Function.update_self] at hreplace
        simpa [hunchanged, hkey] using hreplace
    · simp only [hkey, false_and, decide_false, Bool.false_eq_true, if_false]
      split_ifs with hunchanged hinstance hcarriedKey
      · rfl
      · rfl
      · have hreplace := congrFun (KeyedList.lookup_replace (l := s.dataEntries) (htoKey r hr)) key
        rwa [Function.update_of_ne (Ne.symm hkey)] at hreplace
      · rfl
  · refine pairwise_not_both hdistinct key fun r _ h => ?_
    simp only [decide_eq_true_eq] at h
    exact h.1

/-- The instance storage after the records, of which one is that of an instance at most. -/
theorem instanceStorage_carryRecords (hdistinct : (rs.map fun r => r.1.key).Nodup) {key : LedgerKey}
    (hinstance : ∀ r ∈ rs, isInstanceKey r.1.key = true → r.1.key = key)
    (hkey : isInstanceKey key = true) :
    (rs.foldl carryRecord state).instanceStorage =
      ((rs.find? fun r => r.1.key = key ∧ r.2 ≠ .unchanged).map fun r => storageOf r.1.value).getD
        state.instanceStorage := by
  refine LastWrite.foldl_field (g := fun s => s.instanceStorage) ?_ ?_ state
  · intro r hr s
    rw [carryRecord]
    by_cases hsame : r.1.key = key
    · rw [hsame, hkey]
      by_cases hunchanged : r.2 = .unchanged <;> simp [hunchanged]
    · have hnot : isInstanceKey r.1.key = false :=
        Bool.eq_false_of_not_eq_true fun h => hsame (hinstance r hr h)
      simp only [hsame, hnot, false_and, decide_false, Bool.false_eq_true, if_false]
      split_ifs <;> rfl
  · refine pairwise_not_both hdistinct key fun r _ h => ?_
    simp only [decide_eq_true_eq] at h
    exact h.1

/-- The carried entries after the records are under distinct keys that are carried. -/
theorem carryRecords_good (hdistinct : (state.dataEntries.map LedgerEntry.toKey).Nodup)
    (hcarried : ∀ entry ∈ state.dataEntries, isCarriedKey entry.toKey = true)
    (htoKey : ∀ r ∈ rs, ∀ entry, r.1.value = some entry → entry.toKey = r.1.key) :
    ((rs.foldl carryRecord state).dataEntries.map LedgerEntry.toKey).Nodup ∧
      ∀ entry ∈ (rs.foldl carryRecord state).dataEntries, isCarriedKey entry.toKey = true := by
  induction rs generalizing state with
  | nil => exact ⟨hdistinct, hcarried⟩
  | cons r rs ih =>
    obtain ⟨hr, htoKey⟩ := List.forall_mem_cons.mp htoKey
    rw [List.foldl_cons]
    refine ih ?_ ?_ htoKey
    · rw [carryRecord]
      split_ifs
      · exact hdistinct
      · exact hdistinct
      · exact KeyedList.nodup_replace hdistinct hr
      · exact hdistinct
    · rw [carryRecord]
      split_ifs with hunchanged hinstance hcarriedKey
      · exact hcarried
      · exact hcarried
      · intro entry hentry
        obtain hold | hnew := List.mem_append.mp hentry
        · exact hcarried entry (List.mem_of_mem_filter hold)
        · rw [hr entry (Option.mem_toList.mp hnew)]
          exact hcarriedKey
      · exact hcarried

/-! ### Observing -/

theorem exists_of_forall₂_right {α β : Type} {R : α → β → Prop} {l : List α} {l' : List β}
    (h : List.Forall₂ R l l') : ∀ b ∈ l', ∃ a ∈ l, R a b := by
  induction h with
  | nil => simp
  | cons hab _ ih =>
    refine List.forall_mem_cons.mpr ⟨⟨_, List.mem_cons_self, hab⟩, fun b hb => ?_⟩
    obtain ⟨a, ha, hab⟩ := ih b hb
    exact ⟨a, List.mem_cons_of_mem _ ha, hab⟩

theorem exists_of_forall₂_left {α β : Type} {R : α → β → Prop} {l : List α} {l' : List β}
    (h : List.Forall₂ R l l') : ∀ a ∈ l, ∃ b ∈ l', R a b :=
  exists_of_forall₂_right (R := flip R) h.flip

theorem writeKey_injective (hxdr : xdr.Documented crates) {key key' : LedgerKey}
    {bytes : List UInt8} (h : xdr.writeKey key = .ok bytes) (h' : xdr.writeKey key' = .ok bytes) :
    key = key' :=
  Except.ok.inj ((hxdr.readKey h).symm.trans (hxdr.readKey h'))

/-- The baseline holds the entries under the XDR of their keys. -/
theorem baselineMap_eq (hxdr : xdr.Documented crates) {entries : List LedgerEntry}
    {seeded : List SeededEntry}
    (hseeded : List.Forall₂ (fun entry seed => xdr.writeKey entry.toKey = .ok seed.keyXdr ∧
      xdr.writeEntry entry = .ok seed.valueXdr) entries seeded)
    (hdistinct : (entries.map LedgerEntry.toKey).Nodup) {key : LedgerKey} {keyXdr : List UInt8}
    (hkey : xdr.writeKey key = .ok keyXdr) :
    afterXdr xdr (KeyedList.lookup LedgerEntry.toKey entries key) =
      .ok (baselineMap seeded keyXdr) := by
  rw [baselineMap]
  cases hlast : LastWrite.lastOf seeded fun seed => seed.keyXdr = keyXdr with
  | some seed =>
    obtain ⟨hmem, hseed⟩ := LastWrite.lastOf_eq_some hlast
    obtain ⟨entry, hentry, hentryKey, hvalue⟩ := exists_of_forall₂_right hseeded seed hmem
    have hsame : entry.toKey = key := writeKey_injective hxdr (hseed ▸ hentryKey) hkey
    rw [(KeyedList.lookup_eq_some hdistinct).mpr ⟨hentry, hsame⟩]
    exact Except.map_eq_ok_iff.mpr ⟨seed.valueXdr, hvalue, rfl⟩
  | none =>
    have hnone : KeyedList.lookup LedgerEntry.toKey entries key = none := by
      refine KeyedList.lookup_eq_none.mpr fun entry hentry hsame => ?_
      obtain ⟨seed, hmem, hseed, -⟩ := exists_of_forall₂_left hseeded entry hentry
      obtain ⟨seed', hlast'⟩ := LastWrite.exists_lastOf (p := fun seed => seed.keyXdr = keyXdr) hmem
        (Except.ok.inj (hseed.symm.trans (hsame ▸ hkey)))
      rw [hlast] at hlast'
      cases hlast'
    rw [hnone]
    rfl

theorem between_eq_unchanged_iff {before after : Option LedgerEntry} :
    StateChange.between before after = .unchanged ↔ before = after := by
  cases before <;> cases after <;> simp [StateChange.between]

/-- What happened is told from the XDR of an entry. -/
theorem stateChange_eq (hxdr : xdr.Documented crates) {before after : Option LedgerEntry}
    {beforeXdr newXdr : Option (List UInt8)} (hbefore : afterXdr xdr before = .ok beforeXdr)
    (hafter : afterXdr xdr after = .ok newXdr) :
    stateChange beforeXdr newXdr = .between before after := by
  cases before with
  | none =>
    cases hbefore
    cases after with
    | none => cases hafter; rfl
    | some new =>
      obtain ⟨bytes, -, rfl⟩ := Except.map_eq_ok_iff.mp hafter
      rfl
  | some old =>
    obtain ⟨oldBytes, hold, rfl⟩ := Except.map_eq_ok_iff.mp hbefore
    cases after with
    | none => cases hafter; rfl
    | some new =>
      obtain ⟨newBytes, hnew, rfl⟩ := Except.map_eq_ok_iff.mp hafter
      have hsame : oldBytes = newBytes ↔ old = new := by
        constructor
        · rintro rfl
          exact Except.ok.inj ((hxdr.readEntry hold).symm.trans (hxdr.readEntry hnew))
        · rintro rfl
          exact Except.ok.inj (hold.symm.trans hnew)
      simp only [stateChange, StateChange.between, hsame]

/-- A record with what happened to its entry. -/
def classifyRecord (before : LedgerKey → Option LedgerEntry) (r : ChangeRecord) :
    ChangeRecord × StateChange :=
  (r, .between (before r.key) r.value)

/-- **The observed entries are the classified records**, in the order of their keys. -/
theorem stateEntries_eq (hxdr : xdr.Documented crates) {entries : List LedgerEntry}
    {seeded : List SeededEntry} {footprint : LedgerFootprint} {records : List ChangeRecord}
    {changes : List LedgerEntryChange}
    (hseeded : List.Forall₂ (fun entry seed => xdr.writeKey entry.toKey = .ok seed.keyXdr ∧
      xdr.writeEntry entry = .ok seed.valueXdr) entries seeded)
    (hdistinct : (entries.map LedgerEntry.toKey).Nodup)
    (hreports : Reports xdr footprint records changes) :
    ∃ rs, rs.Perm (records.map (classifyRecord (KeyedList.lookup LedgerEntry.toKey entries))) ∧
      List.Forall₂ (EntryOf xdr) rs (stateEntriesFromFootprint changes (baselineMap seeded)) := by
  have hforall : List.Forall₂ (EntryOf xdr)
      (records.map (classifyRecord (KeyedList.lookup LedgerEntry.toKey entries)))
      (changes.map fun c => ⟨c.encodedKey, c.encodedNewValue,
        stateChange (baselineMap seeded c.encodedKey) c.encodedNewValue⟩) := by
    rw [List.forall₂_map_left_iff, List.forall₂_map_right_iff]
    refine hreports.encoded.imp fun r c ⟨hkey, hvalue⟩ => ⟨hkey, hvalue, ?_⟩
    exact stateChange_eq hxdr (baselineMap_eq hxdr hseeded hdistinct hkey) hvalue
  have hperm := (List.perm_insertionSort StateEntry.KeyLE (changes.map fun c => (⟨c.encodedKey,
    c.encodedNewValue, stateChange (baselineMap seeded c.encodedKey) c.encodedNewValue⟩ :
      StateEntry))).symm
  have hcomp : (Relation.Comp (List.Forall₂ (EntryOf xdr)) List.Perm)
      (records.map (classifyRecord (KeyedList.lookup LedgerEntry.toKey entries)))
      (stateEntriesFromFootprint changes (baselineMap seeded)) := ⟨_, hforall, hperm⟩
  rw [List.forall₂_comp_perm_eq_perm_comp_forall₂] at hcomp
  obtain ⟨rs, hrs, hobserved⟩ := hcomp
  exact ⟨rs, hrs.symm, hobserved⟩

/-- The observed entries are in the order of their keys. -/
theorem stateEntries_ordered {changes : List LedgerEntryChange}
    {baseline : List UInt8 → Option (List UInt8)}
    (hdistinct : (changes.map LedgerEntryChange.encodedKey).Nodup) :
    (stateEntriesFromFootprint changes baseline).Pairwise
      fun a b => compare a.keyXdr b.keyXdr = .lt := by
  have hle : (stateEntriesFromFootprint changes baseline).Pairwise StateEntry.KeyLE :=
    List.pairwise_insertionSort _ _
  have hne : ((stateEntriesFromFootprint changes baseline).map StateEntry.keyXdr).Nodup := by
    refine ((List.perm_insertionSort _ _).map StateEntry.keyXdr).nodup_iff.mpr ?_
    rw [List.map_map]
    exact hdistinct
  refine (hle.and (List.pairwise_map.mp hne)).imp fun {a b} ⟨hab, hne⟩ => ?_
  cases h : compare a.keyXdr b.keyXdr with
  | lt => rfl
  | eq => exact absurd (Std.LawfulEqCmp.eq_of_compare h) hne
  | gt =>
    rw [StateEntry.KeyLE, h] at hab
    cases hab

/-! ### One step -/

/-- What happened to the entry of a record, if it did not stay. -/
theorem find?_classified {α : Type} {records : List ChangeRecord}
    {before : LedgerKey → Option LedgerEntry}
    (hrs : rs.Perm (records.map (classifyRecord before)))
    (hdistinct : (records.map ChangeRecord.key).Nodup) {r : ChangeRecord} (hr : r ∈ records)
    (g : ChangeRecord × StateChange → α) (d : α) :
    ((rs.find? fun x => x.1.key = r.key ∧ x.2 ≠ .unchanged).map g).getD d =
      if before r.key = r.value then d else g (classifyRecord before r) := by
  have hsame : ∀ x ∈ rs, x.1.key = r.key → x = classifyRecord before r := by
    intro x hx hkey
    obtain ⟨r', hr', rfl⟩ := List.mem_map.mp (hrs.mem_iff.mp hx)
    rw [List.inj_on_of_nodup_map hdistinct hr' hr hkey]
  cases hfind : rs.find? fun x => x.1.key = r.key ∧ x.2 ≠ .unchanged with
  | some x =>
    have hx := List.find?_some hfind
    simp only [decide_eq_true_eq] at hx
    obtain rfl := hsame x (List.mem_of_find?_eq_some hfind) hx.1
    rw [if_neg fun h => hx.2 (between_eq_unchanged_iff.mpr h)]
    rfl
  | none =>
    have hmem : classifyRecord before r ∈ rs := hrs.mem_iff.mpr (List.mem_map_of_mem hr)
    have hnot := List.find?_eq_none.mp hfind _ hmem
    simp only [classifyRecord, ne_eq, true_and, decide_eq_true_eq, not_not,
      between_eq_unchanged_iff] at hnot
    rw [if_pos hnot]
    rfl

theorem find?_classified_of_not_mem {α : Type} {records : List ChangeRecord}
    {before : LedgerKey → Option LedgerEntry}
    (hrs : rs.Perm (records.map (classifyRecord before))) {key : LedgerKey}
    (hkey : key ∉ records.map ChangeRecord.key) (g : ChangeRecord × StateChange → α) (d : α) :
    ((rs.find? fun x => x.1.key = key ∧ x.2 ≠ .unchanged).map g).getD d = d := by
  have hnone : (rs.find? fun x => x.1.key = key ∧ x.2 ≠ .unchanged) = none := by
    refine List.find?_eq_none.mpr fun x hx h => hkey ?_
    simp only [decide_eq_true_eq] at h
    obtain ⟨r, hr, rfl⟩ := List.mem_map.mp (hrs.mem_iff.mp hx)
    exact h.1 ▸ List.mem_map_of_mem hr
  rw [hnone]
  rfl

section

variable {Budget : Type} {api : HostApi Budget} {wasm : List UInt8} {contract : ScAddress}
  {prepared : Prepared Budget}
  (hgiven : Given crates xdr api wasm contract state.dataEntries state.instanceStorage prepared)

theorem toKey_instanceEntry (wasmHash : Bytes32) (storage : InstanceStorage) :
    (instanceEntry contract wasmHash storage).toKey = instanceKey contract := rfl

/-- What the host is given, the code apart. -/
theorem lookup_given {key : LedgerKey} (hkey : key ≠ (codeEntry crates wasm).toKey)
    (entries : List LedgerEntry) :
    KeyedList.lookup LedgerEntry.toKey (codeEntry crates wasm :: entries) key =
      KeyedList.lookup LedgerEntry.toKey entries key :=
  List.find?_cons_of_neg (by simpa using Ne.symm hkey)

theorem lookup_seeded {key : LedgerKey} (hkey : key ≠ instanceKey contract) (wasmHash : Bytes32)
    (storage : InstanceStorage) (entries : List LedgerEntry) :
    KeyedList.lookup LedgerEntry.toKey (instanceEntry contract wasmHash storage :: entries) key =
      KeyedList.lookup LedgerEntry.toKey entries key :=
  List.find?_cons_of_neg (by rw [toKey_instanceEntry]; simpa using Ne.symm hkey)

theorem lookup_instance (wasmHash : Bytes32) (storage : InstanceStorage)
    (entries : List LedgerEntry) :
    KeyedList.lookup LedgerEntry.toKey (instanceEntry contract wasmHash storage :: entries)
      (instanceKey contract) = some (instanceEntry contract wasmHash storage) :=
  List.find?_cons_of_pos (by rw [toKey_instanceEntry]; simp)

theorem ne_of_isCarriedKey {key : LedgerKey} (h : isCarriedKey key = true) :
    key ≠ (codeEntry crates wasm).toKey ∧ key ≠ instanceKey contract := by
  constructor
  · rintro rfl
    cases h
  · rintro rfl
    cases h

/-- **The host is given exactly the carried state.** -/
theorem contractStateOf_given
    (hcarried : ∀ entry ∈ state.dataEntries, isCarriedKey entry.toKey = true) :
    contractStateOf isCarriedKey contract (KeyedList.lookup LedgerEntry.toKey
      (codeEntry crates wasm :: instanceEntry contract (crates.sha256 wasm) state.instanceStorage ::
        state.dataEntries)) = state.contractState := by
  ext1
  · funext key
    rw [contractStateOf, SequenceState.contractState]
    by_cases hkey : isCarriedKey key = true
    · obtain ⟨hcode, hinstance⟩ : key ≠ (codeEntry crates wasm).toKey ∧
        key ≠ instanceKey contract :=
        ne_of_isCarriedKey hkey
      simp only [hkey, if_true]
      rw [lookup_given hcode, lookup_seeded hinstance]
    · simp only [hkey, if_false, Bool.false_eq_true]
      refine (KeyedList.lookup_eq_none.mpr fun entry hentry h => hkey ?_).symm
      rw [← h]
      exact hcarried entry hentry
  · rw [contractStateOf, SequenceState.contractState]
    have hcode : instanceKey contract ≠ (codeEntry crates wasm).toKey := by
      intro h
      cases h
    simp only [lookup_given hcode, lookup_instance, storageOf_instanceEntry]

/-- The entries that are given have no key of code. -/
theorem lookup_code (hgiven : Given crates xdr api wasm contract state.dataEntries
    state.instanceStorage prepared) :
    KeyedList.lookup LedgerEntry.toKey (instanceEntry contract (crates.sha256 wasm)
      state.instanceStorage :: state.dataEntries) (codeEntry crates wasm).toKey = none := by
  refine KeyedList.lookup_eq_none.mpr
    (List.forall_mem_cons.mpr ⟨fun h => ?_, fun entry hentry h => ?_⟩)
  · cases h
  · obtain ⟨data, hdata, -, -⟩ := checkBaselineEntry_eq_ok (hgiven.checked entry hentry)
    rw [LedgerEntry.toKey, hdata] at h
    cases h

/-- The ledger that a successful invocation leaves. -/
def ledgerLeft (footprint : LedgerFootprint) (records : List ChangeRecord)
    (given : LedgerKey → Option LedgerEntry) (key : LedgerKey) : Option LedgerEntry :=
  if key ∈ footprint.readOnly.items then given key
  else (records.find? fun r => r.key = key).bind ChangeRecord.value

theorem find?_record {records : List ChangeRecord}
    (hdistinct : (records.map ChangeRecord.key).Nodup)
    {r : ChangeRecord} (hr : r ∈ records) : (records.find? fun r' => r'.key = r.key) = some r := by
  have hlookup : KeyedList.lookup ChangeRecord.key records r.key = some r :=
    (KeyedList.lookup_eq_some hdistinct).mpr ⟨hr, rfl⟩
  exact hlookup

section

variable {footprint : LedgerFootprint} {records : List ChangeRecord}
  {changes : List LedgerEntryChange} {resources : SorobanResources}

/-- What happened to a reported entry is told from the ledger that was given and the one that is
left. -/
theorem classifyRecord_between
    (hgiven : Given crates xdr api wasm contract state.dataEntries state.instanceStorage prepared)
    (hreports : Reports xdr footprint records changes)
    (hreadOnly : footprint.readOnly.items = [(codeEntry crates wasm).toKey]) {r : ChangeRecord}
    (hr : r ∈ records) :
    StateChange.between (KeyedList.lookup LedgerEntry.toKey (instanceEntry contract
        (crates.sha256 wasm) state.instanceStorage :: state.dataEntries) r.key) r.value =
      StateChange.between
        (KeyedList.lookup LedgerEntry.toKey (codeEntry crates wasm :: instanceEntry contract
          (crates.sha256 wasm) state.instanceStorage :: state.dataEntries) r.key)
        (ledgerLeft footprint records (KeyedList.lookup LedgerEntry.toKey (codeEntry crates wasm ::
          instanceEntry contract (crates.sha256 wasm) state.instanceStorage :: state.dataEntries))
          r.key) := by
  rw [ledgerLeft, hreadOnly, find?_record hreports.distinct hr, Option.bind_some]
  by_cases hcode : r.key = (codeEntry crates wasm).toKey
  · have hmem : r.key ∈ footprint.readOnly.items := by
      rw [hreadOnly, hcode]
      exact List.mem_singleton_self _
    have hnone := hreports.readOnly r hr hmem
    rw [if_pos (List.mem_singleton.mpr hcode), between_eq_unchanged_iff.mpr rfl, hnone, hcode,
      lookup_code hgiven]
    rfl
  · rw [if_neg fun h => hcode (List.mem_singleton.mp h), lookup_given hcode]

/-- **The state after the records is exactly what the host left.** -/
theorem contractStateOf_left
    (hgiven : Given crates xdr api wasm contract state.dataEntries state.instanceStorage prepared)
    (hreports : Reports xdr footprint records changes)
    (hreadOnly : footprint.readOnly.items = [(codeEntry crates wasm).toKey])
    (hreadWrite : footprint.readWrite.items = (instanceEntry contract (crates.sha256 wasm)
      state.instanceStorage :: state.dataEntries).map LedgerEntry.toKey)
    (hinstances : ∀ r ∈ records, isInstanceKey r.key = true →
      r.key ∈ footprint.readOnly.items ++ footprint.readWrite.items)
    (hcarried : ∀ entry ∈ state.dataEntries, isCarriedKey entry.toKey = true)
    (hrs : rs.Perm (records.map (classifyRecord (KeyedList.lookup LedgerEntry.toKey
      (instanceEntry contract (crates.sha256 wasm) state.instanceStorage :: state.dataEntries))))) :
    contractStateOf isCarriedKey contract (ledgerLeft footprint records (KeyedList.lookup
      LedgerEntry.toKey (codeEntry crates wasm :: instanceEntry contract (crates.sha256 wasm)
        state.instanceStorage :: state.dataEntries))) =
      (rs.foldl carryRecord state).contractState := by
  have hdistinct : (rs.map fun x => x.1.key).Nodup := by
    rw [(hrs.map fun x => x.1.key).nodup_iff, List.map_map]
    exact hreports.distinct
  have htoKey : ∀ x ∈ rs, ∀ entry, x.1.value = some entry → entry.toKey = x.1.key := by
    intro x hx
    obtain ⟨r, hr, rfl⟩ := List.mem_map.mp (hrs.mem_iff.mp hx)
    exact hreports.toKey r hr
  ext1
  · funext key
    rw [contractStateOf, SequenceState.contractState]
    by_cases hkey : isCarriedKey key = true
    · obtain ⟨hcode, hinstance⟩ : key ≠ (codeEntry crates wasm).toKey ∧
        key ≠ instanceKey contract :=
        ne_of_isCarriedKey hkey
      simp only [hkey, if_true]
      rw [ledgerLeft, hreadOnly, if_neg fun h => hcode (List.mem_singleton.mp h),
        lookup_carryRecords hdistinct htoKey hkey]
      by_cases hmem : key ∈ records.map ChangeRecord.key
      · obtain ⟨r, hr, rfl⟩ := List.mem_map.mp hmem
        rw [find?_record hreports.distinct hr, Option.bind_some,
          find?_classified hrs hreports.distinct hr, lookup_seeded hinstance]
        split_ifs with hsame
        · exact hsame.symm
        · rfl
      · -- a key that is not reported is not in the footprint, so nothing is carried under it
        have hnone : KeyedList.lookup LedgerEntry.toKey state.dataEntries key = none := by
          refine KeyedList.lookup_eq_none.mpr fun entry hentry h => hmem ?_
          refine hreports.covers key (List.mem_append_right _ ?_)
          rw [hreadWrite, ← h]
          exact List.mem_map_of_mem (List.mem_cons_of_mem _ hentry)
        have hfind : (records.find? fun r => r.key = key) = none :=
          KeyedList.lookup_eq_none.mpr fun r hr h => hmem (h ▸ List.mem_map_of_mem hr)
        rw [find?_classified_of_not_mem hrs hmem, hnone, hfind]
        rfl
    · simp only [hkey, if_false, Bool.false_eq_true]
      have hgood := (carryRecords_good (List.nodup_cons.mp hgiven.distinct).2 hcarried htoKey).2
      refine (KeyedList.lookup_eq_none.mpr fun entry hentry h => hkey ?_).symm
      rw [← h]
      exact hgood entry hentry
  · rw [contractStateOf, SequenceState.contractState]
    have hown : ∀ x ∈ rs, isInstanceKey x.1.key = true → x.1.key = instanceKey contract := by
      intro x hx hinstance
      obtain ⟨r, hr, rfl⟩ := List.mem_map.mp (hrs.mem_iff.mp hx)
      have hmem := hinstances r hr hinstance
      rw [hreadOnly, hreadWrite, List.map_cons, toKey_instanceEntry] at hmem
      obtain hcode | hmem := List.mem_cons.mp hmem
      · rw [classifyRecord, hcode] at hinstance
        cases hinstance
      · obtain hsame | hmem := List.mem_cons.mp hmem
        · exact hsame
        · obtain ⟨entry, hentry, hkey⟩ := List.mem_map.mp hmem
          have hnot := isInstanceKey_of_isCarriedKey (hcarried entry hentry)
          rw [hkey] at hnot
          exact absurd hinstance (by rw [classifyRecord, hnot]; simp)
    obtain ⟨r, hr, hkey⟩ : ∃ r ∈ records, r.key = instanceKey contract := by
      have hmem := hreports.covers (instanceKey contract) (List.mem_append_right _
        (by rw [hreadWrite, List.map_cons, toKey_instanceEntry]; exact List.mem_cons_self))
      exact List.mem_map.mp hmem
    have hcode : instanceKey contract ≠ (codeEntry crates wasm).toKey := by
      intro h
      cases h
    simp only
    rw [ledgerLeft, hreadOnly, if_neg fun h => hcode (List.mem_singleton.mp h), ← hkey,
      find?_record hreports.distinct hr, Option.bind_some,
      instanceStorage_carryRecords hdistinct (hkey ▸ hown) (hkey ▸ rfl),
      find?_classified hrs hreports.distinct hr, hkey, lookup_instance]
    split_ifs with hsame
    · rw [← hsame, storageOf_instanceEntry]
    · rfl

end

end

section

variable {Budget : Type} {api : HostApi Budget} {executor : Executor} {environment : Environment}
  {caseId : String} {authPerStep : List (List (List UInt8))} {call : FunctionCall}
  {obs : Observation} {i : ℕ}

theorem executeStep_eq_run (host : Host) : executeStep crates host executor environment
    caseId authPerStep
    i state call = (host.run executor.wasm executor.config (executor.contract crates) call
      state.dataEntries state.instanceStorage environment ((authPerStep[i]?).getD [])).map
        fun execution =>
          { execution with
            caseId := caseId ++ "/step" ++ toString i
            function := call.function : Observation } := by
  rw [executeStep]
  cases authPerStep[i]? <;> rfl

theorem executionStatus_eq_ok {result : Except HostError (List UInt8)} {status : ExecutionStatus}
    (h : executionStatus crates result = .ok status) (execution : Execution)
    (hstatus : execution.status = status) :
    (∃ bytes, result = .ok bytes) ∧ execution.isSuccess = true ∨
      (∃ e, result = .error e) ∧ execution.isSuccess = false := by
  cases result with
  | ok bytes =>
    obtain ⟨val, -, h⟩ := Except.bind_eq_ok_iff.mp h
    refine .inl ⟨⟨bytes, rfl⟩, ?_⟩
    obtain rfl := Except.ok.inj h
    rw [Execution.isSuccess, hstatus]
    split_ifs <;> rfl
  | error e =>
    obtain ⟨⟨type, code⟩, -, h⟩ := Except.bind_eq_ok_iff.mp h
    refine .inr ⟨⟨e, rfl⟩, ?_⟩
    obtain rfl := Except.ok.inj h
    rw [Execution.isSuccess, hstatus]

/-- The keys of the changes are distinct. -/
theorem encodedKeys_nodup (hxdr : xdr.Documented crates) {footprint : LedgerFootprint}
    {records : List ChangeRecord} {changes : List LedgerEntryChange}
    (hreports : Reports xdr footprint records changes) :
    (changes.map LedgerEntryChange.encodedKey).Nodup := by
  have hdistinct := List.pairwise_map.mp hreports.distinct
  have hencoded := hreports.encoded
  rw [List.Nodup, List.pairwise_map]
  clear hreports
  induction hencoded with
  | nil => exact .nil
  | cons hrc hrest ih =>
    obtain ⟨hr, hdistinct⟩ := List.pairwise_cons.mp hdistinct
    refine .cons (fun c' hc' hsame => ?_) (ih hdistinct)
    obtain ⟨r', hr', hkey', -⟩ := exists_of_forall₂_right hrest c' hc'
    exact hr r' hr' (writeKey_injective hxdr hrc.1 (hsame ▸ hkey'))

/-- **A step threads the state.** What it observes is folded back, to a state whose keys are
distinct and carried. -/
theorem step_threads (hxdr : xdr.Documented crates) (hhost : api.Reporting xdr)
    (hinstances : api.CreatesNoInstance xdr)
    (hdistinct : (state.dataEntries.map LedgerEntry.toKey).Nodup)
    (hcarried : ∀ entry ∈ state.dataEntries, isCarriedKey entry.toKey = true)
    (h : executeStep crates (api.toHost crates xdr) executor environment caseId authPerStep i state
      call = .ok obs) :
    ∃ next, applyStateDelta crates state obs = .ok next ∧
      StepThreads crates xdr api executor environment caseId authPerStep isCarriedKey i
        state call obs
        next ∧
      (next.dataEntries.map LedgerEntry.toKey).Nodup ∧
      ∀ entry ∈ next.dataEntries, isCarriedKey entry.toKey = true := by
  have hstep := h
  rw [executeStep_eq_run] at h
  obtain ⟨execution, hrun, hobs⟩ := Except.map_eq_ok_iff.mp h
  obtain ⟨prepared, hprepared, hrun⟩ := Except.bind_eq_ok_iff.mp hrun
  obtain ⟨result, hresult, hrun⟩ := Except.bind_eq_ok_iff.mp hrun
  obtain ⟨status, hstatus, hrun⟩ := Except.bind_eq_ok_iff.mp hrun
  obtain ⟨events, -, hrun⟩ := Except.bind_eq_ok_iff.mp hrun
  obtain ⟨budget, -, hrun⟩ := Except.bind_eq_ok_iff.mp hrun
  obtain rfl := Except.ok.inj hrun
  have hresult := Except.mapError_eq_ok_iff.mp hresult
  have hgiven := prepare_eq_ok hprepared
  obtain ⟨resources, hresources, hreadOnly, hreadWrite⟩ := hgiven.resources
  have hreporting := hhost _ resources result hresources hresult
  have hstate : obs.state = stateEntriesFromFootprint result.ledgerChanges
      (baselineMap prepared.seeded) := by rw [← hobs]
  have hsuccess := executionStatus_eq_ok hstatus obs.toExecution (by rw [← hobs])
  obtain ⟨⟨bytes, hok⟩, hsucceeded⟩ | ⟨⟨e, hfailed⟩, hnot⟩ := hsuccess
  · rw [hok] at hreporting
    obtain ⟨records, hreports⟩ := hreporting
    obtain ⟨rs, hrs, hobserved⟩ := stateEntries_eq hxdr hgiven.seeded hgiven.distinct hreports
    rw [← hstate] at hobserved
    have htoKey : ∀ x ∈ rs, ∀ entry, x.1.value = some entry → entry.toKey = x.1.key := by
      intro x hx
      obtain ⟨r, hr, rfl⟩ := List.mem_map.mp (hrs.mem_iff.mp hx)
      exact hreports.toKey r hr
    have hinstance : ∀ x ∈ rs, isInstanceKey x.1.key = true → ∀ entry, x.1.value = some entry →
        ∃ data executable storage, entry.data = .contractData data ∧
          data.val = .contractInstance executable storage := by
      intro x hx
      obtain ⟨r, hr, rfl⟩ := List.mem_map.mp (hrs.mem_iff.mp hx)
      exact hreports.instances r hr
    refine ⟨rs.foldl carryRecord state, applyStateDelta_eq hxdr hobserved hinstance,
      ⟨hstep, hdistinct,
      ⟨prepared, result, _, _, hprepared, hresult, _, hgiven.entries,
        contractStateOf_given hcarried,
        .returned bytes resources records hok hresources hreports,
        contractStateOf_left hgiven hreports hreadOnly hreadWrite
          (hinstances _ resources result records hresources hresult hreports) hcarried hrs, ?_⟩,
      fun hfail => by rw [hsucceeded] at hfail; cases hfail⟩,
      carryRecords_good hdistinct hcarried htoKey⟩
    refine ⟨hstate ▸ stateEntries_ordered (encodedKeys_nodup hxdr hreports), ?_, ?_⟩
    · intro key hkey
      obtain ⟨r, hr, rfl⟩ := List.mem_map.mp hkey
      obtain ⟨entry, hentry, hof⟩ := exists_of_forall₂_left hobserved _
        (hrs.mem_iff.mpr (List.mem_map_of_mem hr))
      exact ⟨entry, hentry, hof.key⟩
    · intro entry hentry
      obtain ⟨x, hx, hof⟩ := exists_of_forall₂_right hobserved entry hentry
      obtain ⟨r, hr, rfl⟩ := List.mem_map.mp (hrs.mem_iff.mp hx)
      exact ⟨r.key, List.mem_map_of_mem hr, hof.key,
        hof.change.trans (classifyRecord_between hgiven hreports hreadOnly hr)⟩
  · rw [hfailed] at hreporting
    have hnil : obs.state = [] := by
      rw [hstate, hreporting]
      rfl
    refine ⟨state, by rw [applyStateDelta, hnil]; rfl, ⟨hstep, hdistinct, ⟨prepared, result, _, _,
      hprepared, hresult, _, hgiven.entries, contractStateOf_given hcarried, .failed e hfailed,
      contractStateOf_given hcarried, ?_⟩, fun _ => rfl⟩, hdistinct, hcarried⟩
    rw [hnil]
    exact ⟨.nil, by simp, by simp⟩

theorem executeStep_ne_duplicateKey
    (hdistinct : (state.dataEntries.map LedgerEntry.toKey).Nodup) :
    executeStep crates (api.toHost crates xdr) executor environment caseId authPerStep
      i state call ≠
      .error duplicateKey := by
  intro h
  rw [executeStep_eq_run] at h
  have herror : ∀ {α β : Type} {x : Except FuzzError α} {f : α → β} {e : FuzzError},
      x.map f = .error e → x = .error e := by
    intro α β x f e hx
    cases x with
    | error e' => exact congrArg Except.error (Except.error.inj hx)
    | ok a => cases hx
  obtain h | ⟨prepared, -, h⟩ := Except.bind_eq_error_iff.mp (herror h)
  · exact prepare_ne_duplicateKey hdistinct h
  obtain h | ⟨result, -, h⟩ := Except.bind_eq_error_iff.mp h
  · obtain ⟨e, -, he⟩ := Except.mapError_eq_error_iff.mp h
    cases he
  · exact observe_ne_duplicateKey h

/-! ### Runs -/

/-- **The steps of a run thread the state**, up to the first that the executor refuses. -/
theorem executeFrom_threads (executor : Executor) (environment : Environment) (caseId : String)
    (authPerStep : List (List (List UInt8))) (i : ℕ) (calls : List FunctionCall)
    (hxdr : xdr.Documented crates) (hhost : api.Reporting xdr)
    (hinstances : api.CreatesNoInstance xdr)
    (hdistinct : (state.dataEntries.map LedgerEntry.toKey).Nodup)
    (hcarried : ∀ entry ∈ state.dataEntries, isCarriedKey entry.toKey = true) :
    match executeFrom crates (api.toHost crates xdr) executor environment caseId authPerStep i state
      calls with
    | .ok (observed, last) => Threads crates xdr api executor environment caseId authPerStep
        isCarriedKey i state calls observed last
    | .error e => e ≠ duplicateKey ∧ ∃ before call after observed last,
        calls = before ++ call :: after ∧
        Threads crates xdr api executor environment caseId authPerStep isCarriedKey i state before
          observed last ∧
        executeStep crates (api.toHost crates xdr) executor environment caseId authPerStep
          (i + before.length) last call = .error e := by
  induction calls generalizing i state with
  | nil => exact .nil i state
  | cons call calls ih =>
    rw [executeFrom]
    cases hstep : executeStep crates (api.toHost crates xdr) executor environment caseId
      authPerStep i
        state call with
    | error e =>
      refine ⟨?_, [], call, calls, [], state, rfl, .nil i state, hstep⟩
      rintro rfl
      exact executeStep_ne_duplicateKey hdistinct hstep
    | ok obs =>
      obtain ⟨next, hnext, hthreads, hdistinct', hcarried'⟩ :=
        step_threads hxdr hhost hinstances hdistinct hcarried hstep
      have hrest := ih (i + 1) hdistinct' hcarried'
      simp only [bind, Except.bind, hnext]
      cases hfrom : executeFrom crates (api.toHost crates xdr) executor environment
        caseId authPerStep
          (i + 1) next calls with
      | ok pair =>
        rw [hfrom] at hrest
        exact .cons hthreads hrest
      | error e =>
        rw [hfrom] at hrest
        obtain ⟨hne, before, call', after, observed, last, rfl, hbefore, herror⟩ := hrest
        refine ⟨hne, call :: before, call', after, _, last, rfl, .cons hthreads hbefore, ?_⟩
        rwa [List.length_cons, Nat.add_comm before.length, ← Nat.add_assoc]

theorem Threads.length_eq {keys : LedgerKey → Bool} {calls : List FunctionCall}
    {observed : List StepObservation} {last : SequenceState}
    (h : Threads crates xdr api executor environment caseId authPerStep keys i state calls observed
      last) : observed.length = calls.length := by
  induction h with
  | nil => rfl
  | cons _ _ ih => rw [List.length_cons, List.length_cons, ih]

/-- A baseline of carried keys is carried as it is. -/
theorem addBaseline_eq {baseline : List LedgerEntry}
    (hcarried : ∀ entry ∈ baseline, isCarriedKey entry.toKey = true) :
    state.addBaseline baseline = .ok
      { state with dataEntries := state.dataEntries ++ baseline } := by
  induction baseline generalizing state with
  | nil => rw [SequenceState.addBaseline, List.append_nil]
  | cons entry baseline ih =>
    obtain ⟨hentry, hcarried⟩ := List.forall_mem_cons.mp hcarried
    rw [LedgerEntry.toKey] at hentry
    rw [SequenceState.addBaseline]
    split
    · next hdata => rw [hdata] at hentry; cases hentry
    · next hdata => rw [hdata] at hentry; cases hentry
    · rw [ih hcarried, List.append_assoc, List.singleton_append]
    · next hdata => rw [hdata] at hentry; cases hentry
    · next hdata => rw [hdata] at hentry; cases hentry

/-- **Local sequences thread the state of the host.** For a host that creates no instance, every
step of a sequence is run on exactly the state that the host left after the step before, contract
data apart from nonces and the instance storage; the keys of what is carried stay distinct, so that
no step is refused for a key that occurs twice. -/
theorem local_sequence_threads (executor : Executor) (environment : Environment) (caseId : String)
    (authPerStep : List (List (List UInt8))) (baseline : List LedgerEntry)
    (steps : List FunctionCall) (hxdr : xdr.Documented crates) (hhost : api.Reporting xdr)
    (hinstances : api.CreatesNoInstance xdr) (hdistinct : (baseline.map LedgerEntry.toKey).Nodup)
    (hcarried : ∀ entry ∈ baseline, isCarriedKey entry.toKey = true) :
    (∀ run, executeSequenceAuth crates (api.toHost crates xdr) executor baseline environment steps
        caseId authPerStep = .ok run →
      Threads crates xdr api executor environment caseId authPerStep isCarriedKey 0 ⟨baseline, []⟩
        steps run.steps run.state) ∧
    ∀ e, executeSequenceAuth crates (api.toHost crates xdr) executor baseline
      environment steps caseId
        authPerStep = .error e →
      e ≠ duplicateKey ∧ (steps = [] ∨ ∃ before call after observed last,
        steps = before ++ call :: after ∧
        Threads crates xdr api executor environment caseId authPerStep isCarriedKey 0 ⟨baseline, []⟩
          before observed last ∧
        executeStep crates (api.toHost crates xdr) executor environment caseId authPerStep
          before.length last call = .error e) := by
  have hstart : ((⟨baseline, []⟩ : SequenceState).dataEntries.map LedgerEntry.toKey).Nodup :=
    hdistinct
  have hfrom := executeFrom_threads executor environment caseId authPerStep 0 steps hxdr hhost
    hinstances hstart hcarried
  have hbaseline : SequenceState.fromBaseline baseline = .ok ⟨baseline, []⟩ := by
    rw [SequenceState.fromBaseline, addBaseline_eq hcarried, List.nil_append]
  rw [executeSequenceAuth]
  by_cases hempty : steps = []
  · rw [if_pos hempty]
    refine ⟨fun run h => (by cases h), fun e h => ⟨?_, .inl hempty⟩⟩
    rintro rfl
    cases h
  · rw [if_neg hempty, hbaseline]
    simp only [bind, Except.bind]
    cases hrun : executeFrom crates (api.toHost crates xdr) executor environment caseId
      authPerStep 0
        ⟨baseline, []⟩ steps with
    | error e =>
      rw [hrun] at hfrom
      obtain ⟨hne, before, call, after, observed, last, hsteps, hthreads, herror⟩ := hfrom
      rw [Nat.zero_add] at herror
      refine ⟨fun run h => (by cases h), ?_⟩
      rintro _ ⟨⟩
      exact ⟨hne, .inr ⟨before, call, after, observed, last, hsteps, hthreads, herror⟩⟩
    | ok pair =>
      rw [hrun] at hfrom
      obtain ⟨observed, last⟩ := pair
      have hlength := hfrom.length_eq
      simp only
      cases hlast : observed.getLast? with
      | some final =>
        refine ⟨?_, fun e h => (by cases h)⟩
        rintro _ ⟨⟩
        exact hfrom
      | none =>
        rw [List.getLast?_eq_none_iff.mp hlast] at hlength
        exact absurd (List.length_eq_zero_iff.mp hlength.symm) hempty

end

end

section Campaign

/-- The encoding of resources: the two parts of the footprint, and the limits. -/
def resourcesCodec : Codec ((List LedgerKey × List LedgerKey) × UInt32 × UInt32 × UInt32) :=
  ((Codec.list ledgerKeyCodec).pair (.list ledgerKeyCodec)).pair (Codec.u32.pair (.pair .u32 .u32))

/-- The changes of records. -/
def changesOf (records : List ChangeRecord) : List LedgerEntryChange :=
  records.map fun r => ⟨ledgerKeyCodec.write r.key, r.value.map ledgerEntryCodec.write⟩

/-- A host that answers for one footprint, with some records. -/
def footprintHost (footprint : List LedgerKey × List LedgerKey) (records : List ChangeRecord) :
    HostApi Unit where
  protocolVersion := 28
  load _ := .ok ()
  makeBudget _ := .ok ()
  entrySizeForRent _ _ n := .ok n
  writeInvokeContract args := .ok (bigEndian 4 0 ++ writeInvokeContractArgs args)
  writeResources resources := .ok (resourcesCodec.write
    ((resources.footprint.readOnly.items, resources.footprint.readWrite.items),
      resources.instructions, resources.diskReadBytes, resources.writeBytes))
  writeAccountId
    | ⟨.ed25519 key⟩ => .ok (bigEndian 4 0 ++ key.toList)
  readContractEvent _ := .error "xdr value invalid"
  invokeHostFunction invocation :=
    if (resourcesCodec.decode invocation.encodedResources).map Prod.fst = some footprint then
      .ok {
        encodedInvokeResult := .ok (scValCodec.write .void)
        ledgerChanges := changesOf records
        encodedContractEvents := []
        budget := .ok ⟨0, 0, 0, 0⟩ }
    else .error "unexpected footprint"

variable {footprint : List LedgerKey × List LedgerKey} {records : List ChangeRecord}

theorem footprintHost_invoke {invocation : Invocation Unit} {result : InvokeHostFunctionResult}
    {resources : SorobanResources}
    (hresources : (footprintHost footprint records).writeResources resources =
      .ok invocation.encodedResources)
    (h : (footprintHost footprint records).invokeHostFunction invocation = .ok result) :
    (resources.footprint.readOnly.items, resources.footprint.readWrite.items) = footprint ∧
      result.encodedInvokeResult = .ok (scValCodec.write .void) ∧
      result.ledgerChanges = changesOf records := by
  simp only [footprintHost] at h
  split at h
  · next hfootprint =>
    cases h
    rw [← Except.ok.inj hresources, Codec.decode_write] at hfootprint
    exact ⟨Option.some.inj hfootprint, rfl, rfl⟩
  · cases h

/-- Records are read back from their changes. -/
theorem reports_unique {fp : LedgerFootprint} {records' : List ChangeRecord}
    (h : Reports codecLedgerXdr fp records' (changesOf records)) : records' = records := by
  have hencoded := h.encoded
  rw [changesOf, List.forall₂_map_right_iff] at hencoded
  refine List.forall₂_eq_eq_eq ▸ hencoded.imp fun r r' ⟨hkey, hvalue⟩ => ?_
  have hsameKey : r.key = r'.key := writeKey_injective codecLedgerXdr_documented hkey rfl
  have hsameValue : r.value = r'.value := by
    obtain ⟨hnone, hnone'⟩ | ⟨entry, bytes, hsome, hbytes, hread⟩ :=
      decodeEntry_of_afterXdr codecLedgerXdr_documented hvalue
    · rw [hnone, Option.map_eq_none_iff.mp hnone']
    · obtain ⟨entry', hentry', rfl⟩ := Option.map_eq_some_iff.mp hbytes
      have hread' := Except.mapError_eq_ok_iff.mp hread
      rw [codecLedgerXdr_documented.fromXdrEntry rfl] at hread'
      rw [hsome, hentry', Except.ok.inj hread']
  obtain ⟨key, value⟩ := r
  obtain ⟨key', value'⟩ := r'
  rw [ChangeRecord.mk.injEq]
  exact ⟨hsameKey, hsameValue⟩

/-- The module of a contract with a function that returns a void value. -/
def counterModule : List UInt8 :=
  [0x00, 0x61, 0x73, 0x6d, 0x01, 0x00, 0x00, 0x00, 0x01, 0x05, 0x01, 0x60, 0x00, 0x01, 0x7e, 0x03,
    0x02, 0x01, 0x00, 0x07, 0x09, 0x01, 0x05, 0x63, 0x6f, 0x75, 0x6e, 0x74, 0x00, 0x00, 0x0a, 0x06,
    0x01, 0x04, 0x00, 0x42, 0x02, 0x0b, 0x00, 0x1e, 0x11, 0x63, 0x6f, 0x6e, 0x74, 0x72, 0x61, 0x63,
    0x74, 0x65, 0x6e, 0x76, 0x6d, 0x65, 0x74, 0x61, 0x76, 0x30, 0x00, 0x00, 0x00, 0x00, 0x00, 0x00,
    0x00, 0x17, 0x00, 0x00, 0x00, 0x00]

/-- Its hash. -/
def counterHash : Bytes32 := Vector.ofFn fun i =>
  [0x56, 0xc2, 0x2b, 0xc5, 0xc1, 0xb8, 0x36, 0xd4, 0xc6, 0xae, 0x73, 0xab, 0xce, 0x18, 0x7e, 0x50,
    0xe9, 0x19, 0xce, 0xe8, 0x77, 0x62, 0x21, 0xb8, 0x3a, 0x56, 0x4a, 0x30, 0xcc, 0x4b, 0xd8,
    0x07].getD i 0

/-- The executor of the contract. -/
def counterExecutor : Executor := ⟨counterModule, counterHash, .default⟩

/-- The contract of the campaign. -/
def counterContract : ScAddress := .contract (Vector.ofFn fun i =>
  [0x57, 0xb2, 0xf9, 0x4c, 0x4d, 0x5d, 0x56, 0xe4, 0xc0, 0x3f, 0x6f, 0xf2, 0xbf, 0x7a, 0xd8, 0xf4,
    0x6a, 0x83, 0x81, 0x30, 0xdb, 0xfc, 0xba, 0xb8, 0x05, 0xd2, 0x52, 0x7a, 0xd8, 0x3c, 0x93,
    0xe5].getD i 0)

theorem contract_counterExecutor : counterExecutor.contract codecCrates = counterContract := by
  decide +kernel

/-- Its instance, without storage. -/
def counterInstance : LedgerEntry := instanceEntry counterContract counterHash []

/-- The key of its code. -/
def counterCode : LedgerKey := .contractCode counterHash

/-- Its counter. -/
def countEntry (n : UInt32) : LedgerEntry :=
  ⟨100, .contractData ⟨counterContract, .u32 1, .persistent, .u32 n⟩, []⟩

/-- A host that reports one record besides those of the code and the instance. -/
def campaignHost (data : List LedgerKey) (r : ChangeRecord) : HostApi Unit :=
  footprintHost ([counterCode], instanceKey counterContract :: data)
    [⟨counterCode, none⟩, ⟨instanceKey counterContract, some counterInstance⟩, r]

theorem campaignHost_reporting {data : List LedgerKey} {r : ChangeRecord}
    (hcode : r.key ≠ counterCode) (hinstance : r.key ≠ instanceKey counterContract)
    (hdata : ∀ key ∈ data, key = r.key)
    (htoKey : ∀ entry, r.value = some entry → entry.toKey = r.key)
    (hvalue : isInstanceKey r.key = true → ∀ entry, r.value = some entry →
      ∃ d executable storage, entry.data = .contractData d ∧
        d.val = .contractInstance executable storage) :
    (campaignHost data r).Reporting codecLedgerXdr := by
  intro invocation resources result hresources hinvoke
  obtain ⟨hfootprint, hok, hchanges⟩ := footprintHost_invoke hresources hinvoke
  obtain ⟨hreadOnly, hreadWrite⟩ := Prod.mk.inj hfootprint
  rw [hok, hchanges]
  refine ⟨[⟨counterCode, none⟩, ⟨instanceKey counterContract, some counterInstance⟩, r],
    ⟨?_, ?_, ?_, ?_, ?_, ?_⟩⟩
  · rw [changesOf, List.forall₂_map_right_iff, List.forall₂_same]
    intro r' _
    refine ⟨rfl, ?_⟩
    cases r'.value <;> rfl
  · have hne : counterCode ≠ instanceKey counterContract := by
      intro h
      cases h
    simp [hcode.symm, hinstance.symm, hne]
  · rw [hreadOnly, hreadWrite]
    intro key hkey
    simp only [List.cons_append, List.nil_append, List.mem_cons] at hkey
    obtain rfl | rfl | hkey := hkey
    · simp
    · simp
    · simp [hdata key hkey]
  · rw [hreadOnly]
    intro r' hr' hkey
    simp only [List.mem_cons, List.not_mem_nil, or_false] at hr' hkey
    obtain rfl | rfl | rfl := hr'
    · rfl
    · cases hkey
    · exact absurd hkey hcode
  · intro r' hr'
    simp only [List.mem_cons, List.not_mem_nil, or_false] at hr'
    obtain rfl | rfl | rfl := hr'
    · simp
    · rintro entry ⟨⟩
      rfl
    · exact htoKey
  · intro r' hr'
    simp only [List.mem_cons, List.not_mem_nil, or_false] at hr'
    obtain rfl | rfl | rfl := hr'
    · simp
    · rintro - entry ⟨⟩
      exact ⟨_, _, _, rfl, rfl⟩
    · exact hvalue

theorem campaignHost_createsNoInstance {data : List LedgerKey} {r : ChangeRecord}
    (hr : isInstanceKey r.key = false) :
      (campaignHost data r).CreatesNoInstance codecLedgerXdr := by
  intro invocation resources result records hresources hinvoke hreports r' hr' hinstance
  obtain ⟨hfootprint, -, hchanges⟩ := footprintHost_invoke hresources hinvoke
  rw [hchanges] at hreports
  rw [reports_unique hreports] at hr'
  simp only [List.mem_cons, List.not_mem_nil, or_false] at hr'
  rw [(Prod.mk.inj hfootprint).2]
  obtain rfl | rfl | rfl := hr'
  · cases hinstance
  · exact List.mem_append_right _ List.mem_cons_self
  · rw [hr] at hinstance
    cases hinstance

/-- What a run carries at its end. -/
theorem exists_run (host : Host) (baseline : List LedgerEntry) (steps : List FunctionCall)
    (last : SequenceState)
    (h : (executeSequenceAuth codecCrates host counterExecutor baseline .default steps "case"
      []).toOption.map SequenceRun.state = some last) :
    ∃ run, executeSequenceAuth codecCrates host counterExecutor baseline .default steps "case" [] =
      .ok run ∧ run.state = last := by
  obtain ⟨run, hrun, hlast⟩ := Option.map_eq_some_iff.mp h
  exact ⟨run, Except.toOption_eq_some_iff.mp hrun, hlast⟩

/-- A host that counts to four. -/
def countingHost : HostApi Unit :=
  campaignHost [(countEntry 3).toKey] ⟨(countEntry 3).toKey, some (countEntry 4)⟩

/-- Two counts thread the counter. -/
theorem local_sequence_threads_counter : ∃ run,
    executeSequenceAuth codecCrates (countingHost.toHost codecCrates codecLedgerXdr) counterExecutor
        [countEntry 3] .default [⟨"count", []⟩, ⟨"count", []⟩] "case" [] = .ok run ∧
      Threads codecCrates codecLedgerXdr countingHost counterExecutor .default "case" []
        isCarriedKey 0
        ⟨[countEntry 3], []⟩ [⟨"count", []⟩, ⟨"count", []⟩] run.steps run.state := by
  have hreporting : countingHost.Reporting codecLedgerXdr :=
    campaignHost_reporting (by decide) (by decide) (by simp) (by rintro entry ⟨⟩; rfl)
      (fun h => by cases h)
  have hcreates : countingHost.CreatesNoInstance codecLedgerXdr :=
    campaignHost_createsNoInstance rfl
  have hdistinct : ([countEntry 3].map LedgerEntry.toKey).Nodup := List.nodup_singleton _
  have hcarried : ∀ entry ∈ [countEntry 3], isCarriedKey entry.toKey = true :=
    List.forall_mem_singleton.mpr rfl
  have hthreads := local_sequence_threads counterExecutor .default "case" [] [countEntry 3]
    [⟨"count", []⟩, ⟨"count", []⟩] codecLedgerXdr_documented hreporting hcreates hdistinct hcarried
  obtain ⟨run, hrun, -⟩ := exists_run (countingHost.toHost codecCrates codecLedgerXdr)
    [countEntry 3]
    [⟨"count", []⟩, ⟨"count", []⟩] ⟨[countEntry 4], []⟩ (by decide +kernel)
  exact ⟨run, hrun, hthreads.1 run hrun⟩

/-- Keys that are neither those of code, of instances nor of nonces. -/
def isStateKey : LedgerKey → Bool
  | .contractCode _ => false
  | .contractData _ .ledgerKeyContractInstance _ => false
  | .contractData _ (.ledgerKeyNonce _) _ => false
  | _ => true

/-- What a step on the host of a campaign threads. -/
theorem contractState_of_threads {r : ChangeRecord} {last : SequenceState}
    {observed : List StepObservation}
    (h : Threads codecCrates codecLedgerXdr (campaignHost [] r) counterExecutor .default "case" []
      isStateKey 0 ⟨[], []⟩ [⟨"create", []⟩] observed last) :
    ∃ given : LedgerKey → Option LedgerEntry,
      contractStateOf isStateKey counterContract
        (fun key => if key ∈ [counterCode] then given key else
        ([⟨counterCode, none⟩, ⟨instanceKey counterContract, some counterInstance⟩, r].find?
          fun r' => r'.key = key).bind ChangeRecord.value) = last.contractState := by
  cases h with
  | cons hstep hrest =>
    cases hrest
    obtain ⟨prepared, result, left, reported, hprepared, hresult, given, -, -, hleft, hnext, -⟩ :=
      hstep.threaded
    obtain ⟨resources, hresources, -, -⟩ := (prepare_eq_ok hprepared).resources
    obtain ⟨-, hok, -⟩ := footprintHost_invoke hresources hresult
    cases hleft with
    | failed e herror => cases hok.symm.trans herror
    | returned bytes resources' records _ hresources' hreports =>
      obtain ⟨hfootprint, -, hchanges⟩ := footprintHost_invoke hresources' hresult
      rw [hchanges] at hreports
      rw [reports_unique hreports, (Prod.mk.inj hfootprint).1, contract_counterExecutor] at hnext
      exact ⟨_, hnext⟩

/-- An entry that is neither contract data nor code. -/
def accountEntry : LedgerEntry := ⟨0, .other [1] [2], []⟩

/-- The instance of another contract, with storage. -/
def childInstance : LedgerEntry :=
  instanceEntry (.contract (Vector.replicate 32 1)) counterHash [(.u32 1, .u32 2)]

/-- **What a host creates is not threaded**: an entry that is neither contract data nor code is
dropped, and the storage of another contract's instance becomes that of the campaign's. -/
theorem created_entries_are_not_threaded :
    ((campaignHost [] ⟨accountEntry.toKey, some accountEntry⟩).Reporting codecLedgerXdr ∧
      ∃ run, executeSequenceAuth codecCrates
          ((campaignHost [] ⟨accountEntry.toKey, some accountEntry⟩).toHost codecCrates
            codecLedgerXdr)
          counterExecutor [] .default [⟨"create", []⟩] "case" [] = .ok run ∧
        ¬ Threads codecCrates codecLedgerXdr
          (campaignHost [] ⟨accountEntry.toKey, some accountEntry⟩) counterExecutor .default "case"
            []
          isStateKey 0 ⟨[], []⟩ [⟨"create", []⟩] run.steps run.state) ∧
    (campaignHost [] ⟨childInstance.toKey, some childInstance⟩).Reporting codecLedgerXdr ∧
      ∃ run, executeSequenceAuth codecCrates
          ((campaignHost [] ⟨childInstance.toKey, some childInstance⟩).toHost codecCrates
            codecLedgerXdr)
          counterExecutor [] .default [⟨"create", []⟩] "case" [] = .ok run ∧
        ¬ Threads codecCrates codecLedgerXdr
          (campaignHost [] ⟨childInstance.toKey, some childInstance⟩) counterExecutor
            .default "case" []
          isStateKey 0 ⟨[], []⟩ [⟨"create", []⟩] run.steps run.state := by
  refine ⟨⟨campaignHost_reporting (by decide) (by decide) (by simp) (by rintro entry ⟨⟩; rfl)
    (fun h => by cases h), ?_⟩, campaignHost_reporting (by decide) (by decide) (by simp)
    (by rintro entry ⟨⟩; rfl) (by rintro - entry ⟨⟩; exact ⟨_, _, _, rfl, rfl⟩), ?_⟩
  · obtain ⟨run, hrun, hlast⟩ := exists_run ((campaignHost [] ⟨accountEntry.toKey,
      some accountEntry⟩).toHost codecCrates codecLedgerXdr) [] [⟨"create", []⟩] ⟨[], []⟩
      (by decide +kernel)
    refine ⟨run, hrun, fun hthreads => ?_⟩
    rw [hlast] at hthreads
    obtain ⟨given, hstate⟩ := contractState_of_threads hthreads
    have hdata : some accountEntry = none :=
      congrFun (congrArg ContractState.data hstate) accountEntry.toKey
    cases hdata
  · obtain ⟨run, hrun, hlast⟩ := exists_run ((campaignHost [] ⟨childInstance.toKey,
      some childInstance⟩).toHost codecCrates codecLedgerXdr) [] [⟨"create", []⟩]
      ⟨[], [(.u32 1, .u32 2)]⟩ (by decide +kernel)
    refine ⟨run, hrun, fun hthreads => ?_⟩
    rw [hlast] at hthreads
    obtain ⟨given, hstate⟩ := contractState_of_threads hthreads
    have hstorage : lookupStorage (storageOf (some counterInstance)) (.u32 1) = some (.u32 2) :=
      congrFun (congrArg ContractState.storage hstate) (.u32 1)
    rw [counterInstance, storageOf_instanceEntry] at hstorage
    cases hstorage

end Campaign

end SorobanDevkit.Fuzz
