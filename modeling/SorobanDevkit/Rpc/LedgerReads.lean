import SorobanDevkit.Library.Chunks
import SorobanDevkit.Library.Effects
import SorobanDevkit.Library.LastWrite
import SorobanDevkit.Rpc.Submission

/-!
# Ledger reads

`fetch_ledger_entries` of `sdkt-rpc/src/storage.rs` reads any number of ledger entries with
`getLedgerEntries`, of which one request takes at most `MAX_LEDGER_KEYS` keys. The batches are
merged by the keys that the node echoes.

A node is given by its answers, which may depend on the requests made before.
-/

namespace SorobanDevkit.Rpc

/-! ### Reads -/

/-- `LedgerEntryResult`. -/
structure LedgerEntryResult where
  key : String
  xdr : String
  lastModifiedLedgerSeq : UInt32
  liveUntilLedgerSeq : Option UInt32
  value : Option String
  deriving DecidableEq

/-- `StorageResponse`. -/
structure StorageResponse where
  entries : List LedgerEntryResult
  latestLedger : UInt32
  deriving DecidableEq

/-- `RpcError`, as far as reads make it. -/
inductive LedgerReadError
  | tooManyLedgerKeys (count max : ℕ)
  | request (error : RpcError)
  deriving DecidableEq

/-- `MAX_LEDGER_KEYS`. -/
def maxLedgerKeys : ℕ := 200

/-- The answers of a node to `getLedgerEntries`, after the requests made before. -/
structure LedgerNode where
  answer : (sent : List (List String)) → (keys : List String) → Answers StorageResponse

variable (node : LedgerNode)

/-- What comes of a request. -/
def LedgerNode.outcome (sent : List (List String)) (keys : List String) :
    Except RpcError StorageResponse :=
  (node.answer sent keys).outcome

/-- A computation that makes requests. -/
abbrev Reading (α : Type) := Effect (List (List String)) LedgerReadError α

/-- `get_contract_storage`. -/
def getContractStorage (keys : List String) : Reading StorageResponse := fun sent =>
  if maxLedgerKeys < keys.length then
    (.error (.tooManyLedgerKeys keys.length maxLedgerKeys), sent)
  else ((node.outcome sent keys).mapError .request, sent ++ [keys])

/-- The batch size of a read. -/
def batchSize (maxEntries : ℕ) : ℕ :=
  if maxEntries = 0 then maxLedgerKeys else min maxEntries maxLedgerKeys

/-- The entries under their keys. -/
abbrev EntryTable := String → Option LedgerEntryResult

/-- The entries of a response, added to those before. -/
def EntryTable.insertAll (table : EntryTable) (entries : List LedgerEntryResult) : EntryTable :=
  entries.foldl (LastWrite.write LedgerEntryResult.key) table

/-- The batches that follow the first. -/
def readBatches (latestLedger : UInt32) : List (List String) → EntryTable → Reading EntryTable
  | [], entries => pure entries
  | batch :: rest, entries => do
    let response ← getContractStorage node batch
    if response.latestLedger ≠ latestLedger then
      Effect.lift (.error (.request (.rpc ("getLedgerEntries batches span different ledgers (" ++
        toString latestLedger ++ " and " ++ toString response.latestLedger ++
        "); retry the complete read"))))
    else readBatches latestLedger rest (entries.insertAll response.entries)

/-- `fetch_ledger_entries`. -/
def fetchLedgerEntries (keys : List String) (maxEntries : ℕ) : Reading StorageResponse :=
  if keys.length ≤ batchSize maxEntries then getContractStorage node keys
  else do
    let result ← getContractStorage node (keys.take (batchSize maxEntries))
    let entries ← readBatches node result.latestLedger
      (Chunks.chunks (batchSize maxEntries) (keys.drop (batchSize maxEntries)))
      (EntryTable.insertAll (fun _ => none) result.entries)
    pure { result with entries := keys.filterMap entries }

/-- The requests of a complete read. -/
def batches (keys : List String) (maxEntries : ℕ) : List (List String) :=
  if keys.length ≤ batchSize maxEntries then [keys]
  else keys.take (batchSize maxEntries) ::
    Chunks.chunks (batchSize maxEntries) (keys.drop (batchSize maxEntries))

/-! ### Batches -/

variable {keys : List String} {maxEntries : ℕ}

theorem batchSize_pos (maxEntries : ℕ) : 0 < batchSize maxEntries := by
  rw [batchSize, maxLedgerKeys]
  split <;> omega

theorem batchSize_le (maxEntries : ℕ) : batchSize maxEntries ≤ maxLedgerKeys := by
  rw [batchSize]
  split <;> omega

/-- **The batches are the keys in sequence.** -/
theorem flatten_batches (keys : List String) (maxEntries : ℕ) :
    (batches keys maxEntries).flatten = keys := by
  rw [batches]
  split
  · exact List.flatten_singleton
  · rw [List.flatten_cons, Chunks.flatten_chunks (batchSize_pos maxEntries),
      List.take_append_drop]

/-- No batch is longer than the batch size. -/
theorem length_le_of_mem_batches {batch : List String} (h : batch ∈ batches keys maxEntries) :
    batch.length ≤ batchSize maxEntries := by
  rw [batches] at h
  split at h
  · next hle =>
    rw [List.mem_singleton.mp h]
    exact hle
  · rcases List.mem_cons.mp h with rfl | hrest
    · rw [List.length_take]
      exact Nat.min_le_left _ _
    · exact Chunks.length_le_of_mem_chunks hrest

/-! ### The requests of a read -/

/-- The answers to requests in sequence. -/
inductive LedgerNode.Answered :
    List (List String) → List (List String) → List StorageResponse → Prop
  | nil (sent) : Answered sent [] []
  | cons {sent batch rest response responses} (h : node.outcome sent batch = .ok response)
    (hrest : Answered (sent ++ [batch]) rest responses) :
    Answered sent (batch :: rest) (response :: responses)

variable {node} {sent requests : List (List String)} {responses : List StorageResponse}
  {response : StorageResponse}

theorem LedgerNode.Answered.length_eq (h : node.Answered sent requests responses) :
    responses.length = requests.length := by
  induction h with
  | nil => rfl
  | cons _ _ ih => rw [List.length_cons, List.length_cons, ih]

/-- Every request is answered, in its place. -/
theorem LedgerNode.Answered.outcome (h : node.Answered sent requests responses) {i : ℕ}
    (hi : i < requests.length) :
    ∃ response ∈ responses,
      node.outcome (sent ++ requests.take i) (requests[i]) = .ok response := by
  induction h generalizing i with
  | nil => exact absurd hi (Nat.not_lt_zero i)
  | @cons sent batch rest response responses h _ ih =>
    cases i with
    | zero => exact ⟨response, List.mem_cons_self, by simpa using h⟩
    | succ i =>
      obtain ⟨response', hmem, houtcome⟩ := ih (Nat.lt_of_succ_lt_succ hi)
      refine ⟨response', List.mem_cons_of_mem _ hmem, ?_⟩
      rw [List.append_assoc] at houtcome
      exact houtcome

theorem getContractStorage_eq_ok_iff {sent' : List (List String)}
    (hlen : keys.length ≤ maxLedgerKeys) :
    getContractStorage node keys sent = (.ok response, sent') ↔
      node.outcome sent keys = .ok response ∧ sent' = sent ++ [keys] := by
  rw [getContractStorage, if_neg (Nat.not_lt.mpr hlen), Prod.mk.injEq]
  refine and_congr ?_ eq_comm
  cases node.outcome sent keys with
  | error e => exact iff_of_false (fun h => by cases h) (fun h => by cases h)
  | ok r => exact ⟨fun h => by cases h; rfl, fun h => by cases h; rfl⟩

theorem EntryTable.insertAll_append (table : EntryTable)
    (entries entries' : List LedgerEntryResult) :
    table.insertAll (entries ++ entries') = (table.insertAll entries).insertAll entries' :=
  List.foldl_append

/-- **When the batches after the first are read**, and what is added by them. -/
theorem readBatches_eq_ok_iff {latestLedger : UInt32} {table table' : EntryTable}
    {sent' : List (List String)} (hlen : ∀ batch ∈ requests, batch.length ≤ maxLedgerKeys) :
    readBatches node latestLedger requests table sent = (.ok table', sent') ↔
      ∃ responses, node.Answered sent requests responses ∧
        (∀ response ∈ responses, response.latestLedger = latestLedger) ∧
        table' = table.insertAll (responses.flatMap StorageResponse.entries) ∧
        sent' = sent ++ requests := by
  induction requests generalizing sent table with
  | nil =>
    rw [readBatches, Effect.pure_eq_ok_iff]
    constructor
    · rintro ⟨rfl, rfl⟩
      exact ⟨[], .nil _, fun _ h => absurd h List.not_mem_nil, rfl, (List.append_nil _).symm⟩
    · rintro ⟨responses, hanswered, -, rfl, rfl⟩
      cases hanswered
      exact ⟨rfl, (List.append_nil _).symm⟩
  | cons batch rest ih =>
    obtain ⟨hbatch, hrest⟩ := List.forall_mem_cons.mp hlen
    simp only [readBatches, Effect.bind_eq_ok_iff, getContractStorage_eq_ok_iff hbatch]
    constructor
    · rintro ⟨response, sent'', ⟨houtcome, rfl⟩, h⟩
      split at h
      · rw [Effect.lift_eq_ok_iff] at h
        cases h.1
      · next hledger =>
        obtain ⟨responses, hanswered, hledgers, rfl, rfl⟩ := (ih hrest).mp h
        refine ⟨response :: responses, .cons houtcome hanswered,
          List.forall_mem_cons.mpr ⟨not_not.mp hledger, hledgers⟩, ?_, ?_⟩
        · rw [List.flatMap_cons, EntryTable.insertAll_append]
        · rw [List.append_assoc, List.singleton_append]
    · rintro ⟨responses, hanswered, hledgers, rfl, rfl⟩
      cases hanswered with
      | @cons _ _ _ response responses houtcome hanswered =>
        obtain ⟨hledger, hledgers⟩ := List.forall_mem_cons.mp hledgers
        refine ⟨response, _, ⟨houtcome, rfl⟩, ?_⟩
        rw [if_neg (not_not.mpr hledger), ih hrest]
        refine ⟨responses, hanswered, hledgers, ?_, ?_⟩
        · rw [List.flatMap_cons, EntryTable.insertAll_append]
        · rw [List.append_assoc, List.singleton_append]

/-- The response of a complete read, from the answers to its requests. -/
def mergedResponse (keys : List String) (maxEntries : ℕ) (response : StorageResponse)
    (responses : List StorageResponse) : StorageResponse :=
  if keys.length ≤ batchSize maxEntries then response
  else { response with
    entries := keys.filterMap
      (EntryTable.insertAll (fun _ => none)
        ((response :: responses).flatMap StorageResponse.entries)) }

/-- **When a read succeeds**: every batch is answered, and at one ledger. -/
theorem fetchLedgerEntries_eq_ok_iff {sent : List (List String)} :
    fetchLedgerEntries node keys maxEntries [] = (.ok response, sent) ↔
      ∃ first responses, node.Answered [] (batches keys maxEntries) (first :: responses) ∧
        (∀ r ∈ responses, r.latestLedger = first.latestLedger) ∧
        response = mergedResponse keys maxEntries first responses ∧
        sent = batches keys maxEntries := by
  have hsize := batchSize_le maxEntries
  rw [fetchLedgerEntries, batches]
  split
  · next hle =>
    rw [getContractStorage_eq_ok_iff (Nat.le_trans hle hsize), List.nil_append]
    constructor
    · rintro ⟨houtcome, rfl⟩
      exact ⟨response, [], .cons houtcome (.nil _), fun _ h => absurd h List.not_mem_nil,
        (if_pos hle).symm, rfl⟩
    · rintro ⟨first, responses, hanswered, -, rfl, rfl⟩
      cases hanswered with
      | cons houtcome hrest =>
        rw [mergedResponse, if_pos hle]
        exact ⟨houtcome, rfl⟩
  · next hle =>
    have htake : (keys.take (batchSize maxEntries)).length ≤ maxLedgerKeys := by
      rw [List.length_take]
      omega
    have hchunks : ∀ batch ∈ Chunks.chunks (batchSize maxEntries)
        (keys.drop (batchSize maxEntries)), batch.length ≤ maxLedgerKeys :=
      fun batch h => Nat.le_trans (Chunks.length_le_of_mem_chunks h) hsize
    simp only [Effect.bind_eq_ok_iff, getContractStorage_eq_ok_iff htake,
      readBatches_eq_ok_iff hchunks, Effect.pure_eq_ok_iff, List.nil_append]
    constructor
    · rintro ⟨first, _, ⟨houtcome, rfl⟩, table, _, ⟨responses, hanswered, hledgers, rfl, rfl⟩,
        rfl, rfl⟩
      refine ⟨first, responses, .cons houtcome hanswered, hledgers, ?_, rfl⟩
      rw [mergedResponse, if_neg hle, List.flatMap_cons, EntryTable.insertAll_append]
    · rintro ⟨first, responses, hanswered, hledgers, rfl, rfl⟩
      cases hanswered with
      | cons houtcome hanswered =>
        refine ⟨first, _, ⟨houtcome, rfl⟩, _, _, ⟨responses, hanswered, hledgers, rfl, rfl⟩,
          ?_, rfl⟩
        rw [mergedResponse, if_neg hle, List.flatMap_cons, EntryTable.insertAll_append]

/-- Every request so far has at most as many keys as a node takes. -/
def Bounded (sent : List (List String)) : Prop := ∀ request ∈ sent, request.length ≤ maxLedgerKeys

/-- A request that is too long is not sent. -/
theorem getContractStorage_bounded (keys : List String) :
    Effect.Keeps (fun sent sent' => Bounded sent → Bounded sent')
      (getContractStorage node keys) := by
  intro sent hsent
  rw [getContractStorage]
  split
  · exact hsent
  · next hlen =>
    intro request hrequest
    rcases List.mem_append.mp hrequest with h | h
    · exact hsent request h
    · rw [List.mem_singleton.mp h]
      exact Nat.not_lt.mp hlen

theorem readBatches_bounded (latestLedger : UInt32) (requests : List (List String))
    (table : EntryTable) :
    Effect.Keeps (fun sent sent' => Bounded sent → Bounded sent')
      (readBatches node latestLedger requests table) := by
  induction requests generalizing table with
  | nil => exact Effect.keeps_pure (fun _ => id) _
  | cons batch rest ih =>
    refine Effect.Keeps.bind (fun _ _ _ h h' hs => h' (h hs)) (getContractStorage_bounded batch) ?_
    intro response
    split
    · exact Effect.keeps_lift (fun _ => id) _
    · exact ih _

/-- **No request of a read is longer than a node takes**, whatever comes of it. -/
theorem fetchLedgerEntries_bounded (keys : List String) (maxEntries : ℕ) :
    Bounded (fetchLedgerEntries node keys maxEntries []).2 := by
  have hkeeps : Effect.Keeps (fun sent sent' => Bounded sent → Bounded sent')
      (fetchLedgerEntries node keys maxEntries) := by
    rw [fetchLedgerEntries]
    split
    · exact getContractStorage_bounded keys
    · refine Effect.Keeps.bind (fun _ _ _ h h' hs => h' (h hs)) (getContractStorage_bounded _) ?_
      intro result
      refine Effect.Keeps.bind (fun _ _ _ h h' hs => h' (h hs)) (readBatches_bounded _ _ _) ?_
      exact fun _ => Effect.keeps_pure (fun _ => id) _
  exact hkeeps [] fun _ h => absurd h List.not_mem_nil

/-! ### A node that stays at a ledger -/

/-- The entries of a ledger. -/
structure LedgerState where
  get? : String → Option LedgerEntryResult
  key_of_get? : ∀ k e, get? k = some e → e.key = k

/-- The node answers each request at one ledger, with the entries among the requested keys, in any
order. -/
def LedgerNode.Serves (node : LedgerNode) (state : LedgerState) (ledger : UInt32) : Prop :=
  ∀ sent keys, keys.length ≤ maxLedgerKeys →
    ∃ response, node.outcome sent keys = .ok response ∧ response.latestLedger = ledger ∧
      ∀ e, e ∈ response.entries ↔ ∃ k ∈ keys, state.get? k = some e

variable {state : LedgerState} {ledger : UInt32}

/-- The answers of such a node. -/
theorem LedgerNode.Serves.exists_answered (h : node.Serves state ledger)
    (hlen : ∀ request ∈ requests, request.length ≤ maxLedgerKeys) (sent : List (List String)) :
    ∃ responses, node.Answered sent requests responses ∧
      (∀ response ∈ responses, response.latestLedger = ledger) ∧
      ∀ e, e ∈ responses.flatMap StorageResponse.entries ↔
        ∃ k ∈ requests.flatten, state.get? k = some e := by
  induction requests generalizing sent with
  | nil => exact ⟨[], .nil _, fun _ h => absurd h List.not_mem_nil, by simp⟩
  | cons keys rest ih =>
    obtain ⟨hkeys, hrest⟩ := List.forall_mem_cons.mp hlen
    obtain ⟨response, houtcome, hledger, hmem⟩ := h sent keys hkeys
    obtain ⟨responses, hanswered, hledgers, hmems⟩ := ih hrest (sent ++ [keys])
    refine ⟨response :: responses, .cons houtcome hanswered,
      List.forall_mem_cons.mpr ⟨hledger, hledgers⟩, fun e => ?_⟩
    rw [List.flatMap_cons, List.mem_append, hmem, hmems, List.flatten_cons]
    simp only [List.mem_append, or_and_right, exists_or]

/-- The table of what is in the ledger under some keys. -/
theorem LedgerState.insertAll_eq (state : LedgerState) {entries : List LedgerEntryResult}
    (hmem : ∀ e, e ∈ entries ↔ ∃ k ∈ keys, state.get? k = some e) {k : String} (hk : k ∈ keys) :
    EntryTable.insertAll (fun _ => none) entries k = state.get? k := by
  have hown : ∀ e ∈ entries, state.get? e.key = some e := by
    intro e he
    obtain ⟨k', -, hget⟩ := (hmem e).mp he
    rw [state.key_of_get? k' e hget]
    exact hget
  rw [EntryTable.insertAll, LastWrite.foldl_write, Option.or_none]
  cases hlast : LastWrite.lastOf entries fun e => e.key = k with
  | some e =>
    obtain ⟨he, hkey⟩ := LastWrite.lastOf_eq_some hlast
    rw [← hkey]
    exact (hown e he).symm
  | none =>
    cases hget : state.get? k with
    | none => rfl
    | some e =>
      obtain ⟨e', he'⟩ := LastWrite.exists_lastOf (p := fun e => e.key = k)
        ((hmem e).mpr ⟨k, hk, hget⟩) (state.key_of_get? k e hget)
      rw [hlast] at he'
      cases he'

/-- **A read of a node that stays at a ledger** finds what is in the ledger, and in several batches
it finds it in the order of the keys. -/
theorem LedgerNode.Serves.fetchLedgerEntries (h : node.Serves state ledger) (keys : List String)
    (maxEntries : ℕ) :
    ∃ response,
      fetchLedgerEntries node keys maxEntries [] = (.ok response, batches keys maxEntries) ∧
        response.latestLedger = ledger ∧
        (∀ e, e ∈ response.entries ↔ ∃ k ∈ keys, state.get? k = some e) ∧
        (batchSize maxEntries < keys.length → response.entries = keys.filterMap state.get?) := by
  have hlen : ∀ request ∈ batches keys maxEntries, request.length ≤ maxLedgerKeys :=
    fun request hrequest =>
      Nat.le_trans (length_le_of_mem_batches hrequest) (batchSize_le maxEntries)
  obtain ⟨responses, hanswered, hledgers, hmem⟩ := h.exists_answered hlen []
  rw [flatten_batches] at hmem
  obtain ⟨first, responses, rfl⟩ : ∃ first rest, responses = first :: rest := by
    have hlength := hanswered.length_eq
    cases responses with
    | nil =>
      rw [batches] at hlength
      split at hlength <;> cases hlength
    | cons first rest => exact ⟨first, rest, rfl⟩
  obtain ⟨hfirst, hrest⟩ := List.forall_mem_cons.mp hledgers
  refine ⟨_, fetchLedgerEntries_eq_ok_iff.mpr ⟨first, responses, hanswered,
    fun r hr => (hrest r hr).trans hfirst.symm, rfl, rfl⟩, ?_⟩
  rw [mergedResponse]
  split
  · next hle =>
    obtain rfl : responses = [] := by
      have hlength := hanswered.length_eq
      rw [batches, if_pos hle] at hlength
      exact List.length_eq_zero_iff.mp (Nat.succ.inj hlength)
    rw [List.flatMap_singleton] at hmem
    exact ⟨hfirst, hmem, fun hlt => absurd hle (Nat.not_le.mpr hlt)⟩
  · have hentries : keys.filterMap (EntryTable.insertAll (fun _ => none)
        ((first :: responses).flatMap StorageResponse.entries)) = keys.filterMap state.get? :=
      List.filterMap_congr fun k hk => state.insertAll_eq hmem hk
    rw [hentries]
    exact ⟨hfirst, fun e => List.mem_filterMap, fun _ => rfl⟩

/-! ### Batched reads -/

/-- What comes of a batch of a read, after the batches before it. -/
def LedgerNode.batchOutcome (node : LedgerNode) (keys : List String) (maxEntries i : ℕ) :
    Option (Except RpcError StorageResponse) :=
  (batches keys maxEntries)[i]?.map (node.outcome ((batches keys maxEntries).take i))

/-- What a batch reports, when a read succeeds. -/
theorem batchOutcome_of_eq_ok {sent : List (List String)} {i : ℕ}
    {outcome : Except RpcError StorageResponse}
    (h : fetchLedgerEntries node keys maxEntries [] = (.ok response, sent))
    (hi : node.batchOutcome keys maxEntries i = some outcome) :
    ∃ r, outcome = .ok r ∧ r.latestLedger = response.latestLedger := by
  obtain ⟨first, responses, hanswered, hledgers, rfl, -⟩ := fetchLedgerEntries_eq_ok_iff.mp h
  obtain ⟨batch, hbatch, rfl⟩ := Option.map_eq_some_iff.mp hi
  obtain ⟨hlt, rfl⟩ := List.getElem?_eq_some_iff.mp hbatch
  obtain ⟨r, hr, houtcome⟩ := hanswered.outcome hlt
  have hledger : (mergedResponse keys maxEntries first responses).latestLedger =
      first.latestLedger := by
    rw [mergedResponse]
    split <;> rfl
  refine ⟨r, houtcome, ?_⟩
  rw [hledger]
  rcases List.mem_cons.mp hr with rfl | hr
  · rfl
  · exact hledgers r hr

/-- A read whose batches cannot all be reported at one ledger fails. -/
theorem exists_error_of_batches
    (h : ∀ latestLedger, ∃ i outcome, node.batchOutcome keys maxEntries i = some outcome ∧
      ∀ r, outcome = .ok r → r.latestLedger ≠ latestLedger) :
    ∃ e, (fetchLedgerEntries node keys maxEntries []).1 = .error e := by
  cases hfetch : fetchLedgerEntries node keys maxEntries [] with
  | mk result sent =>
    cases result with
    | error e => exact ⟨e, rfl⟩
    | ok response =>
      obtain ⟨i, outcome, hi, hne⟩ := h response.latestLedger
      obtain ⟨r, hr, hledger⟩ := batchOutcome_of_eq_ok hfetch hi
      exact absurd hledger (hne r hr)

/-- **A read in batches is one big read.** No request is too long, and a read of which a batch fails
or two batches are of different ledgers fails. When the node stays at a ledger, the requests cover
the keys, what is found does not depend on the batch size, and in several batches it is found in the
order of the keys. -/
theorem batched_read_faithful (node : LedgerNode) (keys : List String) (maxEntries : ℕ) :
    (∀ request ∈ (fetchLedgerEntries node keys maxEntries []).2,
        request.length ≤ maxLedgerKeys) ∧
      ((∃ i e, node.batchOutcome keys maxEntries i = some (.error e)) →
        ∃ e, (fetchLedgerEntries node keys maxEntries []).1 = .error e) ∧
      ((∃ i j r r', node.batchOutcome keys maxEntries i = some (.ok r) ∧
          node.batchOutcome keys maxEntries j = some (.ok r') ∧ r.latestLedger ≠ r'.latestLedger) →
        ∃ e, (fetchLedgerEntries node keys maxEntries []).1 = .error e) ∧
      ∀ (state : LedgerState) (ledger : UInt32), node.Serves state ledger →
        (fetchLedgerEntries node keys maxEntries []).2.flatten = keys ∧
          ∃ response, (fetchLedgerEntries node keys maxEntries []).1 = .ok response ∧
            response.latestLedger = ledger ∧
            (∀ e, e ∈ response.entries ↔ ∃ k ∈ keys, state.get? k = some e) ∧
            (∀ maxEntries', ∃ response',
              (fetchLedgerEntries node keys maxEntries' []).1 = .ok response' ∧
                ∀ e, e ∈ response.entries ↔ e ∈ response'.entries) ∧
            (batchSize maxEntries < keys.length →
              response.entries = keys.filterMap state.get?) := by
  refine ⟨fetchLedgerEntries_bounded keys maxEntries, ?_, ?_, ?_⟩
  · rintro ⟨i, e, hi⟩
    exact exists_error_of_batches fun _ => ⟨i, _, hi, fun r hr => by cases hr⟩
  · rintro ⟨i, j, r, r', hi, hj, hne⟩
    refine exists_error_of_batches fun latestLedger => ?_
    by_cases hr : r.latestLedger = latestLedger
    · refine ⟨j, _, hj, fun _ h => ?_⟩
      cases h
      exact fun h' => hne (hr.trans h'.symm)
    · refine ⟨i, _, hi, fun _ h => ?_⟩
      cases h
      exact hr
  · intro state ledger hserves
    obtain ⟨response, hfetch, hledger, hmem, hordered⟩ :=
      hserves.fetchLedgerEntries keys maxEntries
    refine ⟨?_, response, by rw [hfetch], hledger, hmem, fun maxEntries' => ?_, hordered⟩
    · rw [hfetch]
      exact flatten_batches keys maxEntries
    · obtain ⟨response', hfetch', -, hmem', -⟩ := hserves.fetchLedgerEntries keys maxEntries'
      exact ⟨response', by rw [hfetch'], fun e => (hmem e).trans (hmem' e).symm⟩

/-- The entry of a key in a ledger of two entries. -/
def twoEntries (key : String) : Option LedgerEntryResult :=
  if key = "a" ∨ key = "b" then some ⟨key, "AAAA", 900, some 1100, none⟩ else none

/-- A node that answers in the reverse order, once for each key. -/
def reverseNode : LedgerNode where
  answer _ keys :=
    ⟨.result (some ⟨(keys.filterMap twoEntries).reverse, 1000⟩), .result none⟩

/-- Four keys are read one by one. -/
theorem batched_read_faithful_reverse :
    ∃ response, (fetchLedgerEntries reverseNode ["a", "c", "b", "a"] 1 []).1 = .ok response ∧
      response.entries = ["a", "c", "b", "a"].filterMap twoEntries := by
  have hserves : reverseNode.Serves ⟨twoEntries, fun k e h => by
      rw [twoEntries] at h
      split at h <;> cases h
      rfl⟩ 1000 := fun sent keys _ =>
    ⟨_, rfl, rfl, fun e => List.mem_reverse.trans List.mem_filterMap⟩
  obtain ⟨-, response, hok, -, -, -, hordered⟩ :=
    (batched_read_faithful reverseNode ["a", "c", "b", "a"] 1).2.2.2 _ 1000 hserves
  exact ⟨response, hok, hordered (by decide)⟩

end SorobanDevkit.Rpc
