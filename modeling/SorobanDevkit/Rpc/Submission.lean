import SorobanDevkit.Library.Base64
import SorobanDevkit.Library.Polling
import SorobanDevkit.Library.Strings

/-!
# Submission

A transaction is sent to an RPC node and polled for until it settles (`sdkt-rpc/src/submission.rs`).
Each request is made at most twice (`sdkt-rpc/src/client.rs`).

The node is given by its answers, and the clock by the time that has passed at each poll. The XDR of
results is read by a crate.
-/

namespace SorobanDevkit.Rpc

open Strings (trim)

/-! ### Requests -/

/-- `RpcError`, as far as submission makes it. -/
inductive RpcError
  | rpc (message : String)
  | jsonRpc (code : Int) (message : String) (data : Option String)
  | reqwest (error : String)
  | httpStatus (status : ℕ)
  deriving DecidableEq

/-- What comes back for one attempt of a request. -/
inductive HttpAnswer (α : Type)
  /-- A timeout, or no connection. -/
  | unreachable (error : String)
  | failed (error : String)
  /-- A status that is not a success. -/
  | status (code : ℕ)
  | undecodable (error : String)
  | error (code : Option Int) (message : String) (data : Option String)
  | result (value : Option α)

/-- The error to retry on, or the outcome of the request. -/
def HttpAnswer.attempt {α : Type} : HttpAnswer α → Except RpcError α ⊕ RpcError
  | .unreachable e => .inr (.reqwest e)
  | .failed e => .inl (.error (.reqwest e))
  | .status code =>
    if code = 429 ∨ (500 ≤ code ∧ code < 600) then .inr (.httpStatus code)
    else .inl (.error (.httpStatus code))
  | .undecodable e => .inl (.error (.reqwest e))
  | .error (some code) message data => .inl (.error (.jsonRpc code message data))
  | .error none message _ => .inl (.error (.rpc message))
  | .result (some value) => .inl (.ok value)
  | .result none => .inl (.error (.rpc "Missing result in JSON-RPC response"))

/-- The answers to the two attempts of a request. -/
structure Answers (α : Type) where
  first : HttpAnswer α
  second : HttpAnswer α

namespace Answers

variable {α : Type} (answers : Answers α)

/-- `SorobanRpcClient::request`. -/
def outcome : Except RpcError α :=
  match answers.first.attempt with
  | .inl outcome => outcome
  | .inr _ =>
    match answers.second.attempt with
    | .inl outcome => outcome
    | .inr e => .error e

/-- The number of attempts. -/
def attempts : ℕ :=
  match answers.first.attempt with
  | .inl _ => 1
  | .inr _ => 2

end Answers

/-! ### Responses -/

/-- `SendTransactionResponse`. -/
structure SendTransactionResponse where
  hash : String
  status : String
  latestLedger : Option String
  errorResultXdr : Option String
  diagnosticEvents : List String
  errorResult : Option String
  deriving DecidableEq

/-- `TransactionStatus`. -/
inductive TransactionStatus
  | pending
  | success
  | failed
  | notFound
  deriving DecidableEq

/-- `to_ascii_lowercase`. -/
def toAsciiLowercase (s : String) : String := String.ofList (s.toList.map Char.toLower)

/-- `eq_ignore_ascii_case`. -/
def EqIgnoreAsciiCase (s t : String) : Prop := toAsciiLowercase s = toAsciiLowercase t

instance (s t : String) : Decidable (EqIgnoreAsciiCase s t) :=
  inferInstanceAs (Decidable (_ = _))

/-- `TransactionStatus::from_str`. -/
def TransactionStatus.fromStr (s : String) : TransactionStatus :=
  match toAsciiLowercase s with
  | "success" => .success
  | "failed" | "error" => .failed
  | "not_found" => .notFound
  | _ => .pending

/-- `TransactionStatusResponse`. -/
structure TransactionStatusResponse where
  status : String
  latestLedger : Option String
  resultXdr : Option String
  resultMetaXdr : Option String
  error : Option String
  deriving DecidableEq

/-- `status_enum`. -/
def TransactionStatusResponse.statusEnum (res : TransactionStatusResponse) : TransactionStatus :=
  .fromStr res.status

/-- `SubmissionResult`. -/
structure SubmissionResult where
  hash : String
  status : TransactionStatus
  resultXdr : Option String
  events : List String
  latestLedger : Option String
  errorCode : Option String
  errorResultXdr : Option String
  diagnosticEvents : List String
  deriving DecidableEq

/-- `PollConfig`, in nanoseconds. -/
structure PollConfig where
  timeout : ℕ
  deriving DecidableEq

/-- `as_secs`. -/
def asSecs (nanoseconds : ℕ) : ℕ := nanoseconds / 1000000000

/-! ### Settled transactions -/

/-- A contract event, given by its XDR. -/
abbrev ContractEvent := List UInt8

/-- `TransactionEventStage`. -/
inductive TransactionEventStage
  | beforeAllTxs
  | afterTx
  | afterAllTxs
  deriving DecidableEq

/-- `TransactionMeta`, as far as it has events. -/
inductive TransactionMeta
  | early
  | v3 (sorobanEvents : Option (List ContractEvent))
  | v4 (events : List (TransactionEventStage × ContractEvent))
      (operations : List (List ContractEvent))

/-- The forms of a transaction result without operation results. -/
inductive TransactionResultCode
  | txSuccess
  | txTooEarly
  | txTooLate
  | txMissingOperation
  | txBadSeq
  | txBadAuth
  | txInsufficientBalance
  | txNoAccount
  | txInsufficientFee
  | txBadAuthExtra
  | txInternalError
  | txNotSupported
  | txBadSponsorship
  | txBadMinSeqAgeOrGap
  | txMalformed
  | txSorobanInvalid
  | txFrozenKeyAccessed
  deriving DecidableEq

/-- `InvokeHostFunctionResult`. -/
inductive InvokeHostFunctionResult
  | success
  | malformed
  | trapped
  | resourceLimitExceeded
  | entryArchived
  | insufficientRefundableFee
  deriving DecidableEq

/-- `OperationResult`. -/
inductive OperationResult
  | invokeHostFunction (r : InvokeHostFunctionResult)
  | otherInner
  | opBadAuth
  | opNoAccount
  | opNotSupported
  | opTooManySubentries
  | opExceededWorkLimit
  | opTooManySponsoring
  deriving DecidableEq

/-- `InnerTransactionResultResult`, and `TransactionResultResult` without a fee bump. -/
inductive InnerTransactionResult
  | txFailed (ops : List OperationResult)
  | code (c : TransactionResultCode)
  deriving DecidableEq

/-- `TransactionResultResult`. -/
inductive TransactionResultResult
  | feeBump (inner : InnerTransactionResult)
  | plain (result : InnerTransactionResult)
  deriving DecidableEq

/-- The XDR of settled transactions. -/
structure SettledXdr where
  readMeta : List UInt8 → Option TransactionMeta
  readResult : List UInt8 → Option TransactionResultResult

/-- `describe_operation_result`. -/
def describeOperationResult : OperationResult → Option String
  | .invokeHostFunction .success => some "invoke_host_function_success"
  | .invokeHostFunction .malformed => some "invoke_host_function_malformed"
  | .invokeHostFunction .trapped => some "invoke_host_function_trapped"
  | .invokeHostFunction .resourceLimitExceeded =>
    some "invoke_host_function_resource_limit_exceeded"
  | .invokeHostFunction .entryArchived => some "invoke_host_function_entry_archived"
  | .invokeHostFunction .insufficientRefundableFee =>
    some "invoke_host_function_insufficient_refundable_fee"
  | .otherInner => none
  | .opBadAuth => some "op_bad_auth"
  | .opNoAccount => some "op_no_account"
  | .opNotSupported => some "op_not_supported"
  | .opTooManySubentries => some "op_too_many_subentries"
  | .opExceededWorkLimit => some "op_exceeded_work_limit"
  | .opTooManySponsoring => some "op_too_many_sponsoring"

/-- `describe_failed_ops`. -/
def describeFailedOps (ops : List OperationResult) : String :=
  ((ops.filterMap describeOperationResult).find? fun code =>
    code ≠ "invoke_host_function_success").getD "tx_failed"

/-- The text of a result code. -/
def TransactionResultCode.text : TransactionResultCode → String
  | .txSuccess => "tx_success"
  | .txTooEarly => "tx_too_early"
  | .txTooLate => "tx_too_late"
  | .txMissingOperation => "tx_missing_operation"
  | .txBadSeq => "tx_bad_seq"
  | .txBadAuth => "tx_bad_auth"
  | .txInsufficientBalance => "tx_insufficient_balance"
  | .txNoAccount => "tx_no_account"
  | .txInsufficientFee => "tx_insufficient_fee"
  | .txBadAuthExtra => "tx_bad_auth_extra"
  | .txInternalError => "tx_internal_error"
  | .txNotSupported => "tx_not_supported"
  | .txBadSponsorship => "tx_bad_sponsorship"
  | .txBadMinSeqAgeOrGap => "tx_bad_min_seq_age_or_gap"
  | .txMalformed => "tx_malformed"
  | .txSorobanInvalid => "tx_soroban_invalid"
  | .txFrozenKeyAccessed => "tx_frozen_key_accessed"

/-- `describe_transaction_result`. -/
def describeTransactionResult : TransactionResultResult → String
  | .feeBump (.txFailed ops) | .plain (.txFailed ops) => describeFailedOps ops
  | .feeBump (.code c) | .plain (.code c) => c.text

section

variable (xdr : SettledXdr)

/-- The events of a transaction in the order of their stages. -/
def TransactionMeta.contractEvents : TransactionMeta → List ContractEvent
  | .early => []
  | .v3 sorobanEvents => sorobanEvents.getD []
  | .v4 events operations =>
    let staged stage := (events.filter fun e => e.1 = stage).map Prod.snd
    staged .beforeAllTxs ++ operations.flatten ++ staged .afterTx ++ staged .afterAllTxs

/-- `extract_contract_events`. -/
def extractContractEvents (resultMetaXdr : Option String) : List String :=
  match resultMetaXdr.bind Base64.decode |>.bind xdr.readMeta with
  | none => []
  | some txMeta => txMeta.contractEvents.map Base64.encode

/-- `decode_transaction_result_code`. -/
def decodeTransactionResultCode (encoded : String) : Option String := do
  let raw ← Base64.decode encoded
  let result ← xdr.readResult raw
  some (describeTransactionResult result)

/-- `settled_error_code`. -/
def settledErrorCode (res : TransactionStatusResponse) : String :=
  match (res.error.map trim).filter (· ≠ "") with
  | some err => err
  | none => (res.resultXdr.bind (decodeTransactionResultCode xdr)).getD "tx_failed"

/-! ### Submission -/

/-- The answers of a node: to `sendTransaction`, and to `getTransaction` for a hash, poll after
poll. -/
structure Node where
  send : Answers SendTransactionResponse
  get : (hash : String) → (poll : ℕ) → Answers TransactionStatusResponse

/-- A request as it is sent. -/
inductive Request
  | sendTransaction (transaction : String)
  | getTransaction (hash : String)
  deriving DecidableEq

variable (node : Node) (elapsed : ℕ → ℕ)

/-- `send_transaction`. -/
def sendTransaction (envelope : String) : Except RpcError SendTransactionResponse × List Request :=
  if trim envelope = "" then (.error (.rpc "Transaction envelope is empty"), [])
  else (node.send.outcome, List.replicate node.send.attempts (.sendTransaction envelope))

/-- One round of the loop of `poll_transaction`, and how it ends if it does. -/
def pollRound (hash : String) (config : PollConfig) (poll : ℕ) :
    Option (Except RpcError SubmissionResult) :=
  match (node.get hash poll).outcome with
  | .error e => some (.error e)
  | .ok res =>
    match res.statusEnum with
    | .success => some (.ok {
        hash := hash
        status := .success
        resultXdr := res.resultXdr
        events := extractContractEvents xdr res.resultMetaXdr
        latestLedger := res.latestLedger
        errorCode := none
        errorResultXdr := none
        diagnosticEvents := [] })
    | .failed => some (.ok {
        hash := hash
        status := .failed
        resultXdr := res.resultXdr
        events := []
        latestLedger := res.latestLedger
        errorCode := some (settledErrorCode xdr res)
        errorResultXdr := res.resultXdr
        diagnosticEvents := extractContractEvents xdr res.resultMetaXdr })
    | .notFound | .pending =>
      if config.timeout ≤ elapsed poll then
        some (.error (.rpc ("Transaction polling timed out after " ++
          toString (asSecs config.timeout) ++ "s (hash: " ++ hash ++ ")")))
      else none

/-- The requests of a round. -/
def roundRequests (hash : String) (poll : ℕ) : List Request :=
  List.replicate (node.get hash poll).attempts (.getTransaction hash)

/-- `poll_transaction`, with its requests. -/
def pollTransaction (hash : String) (config : PollConfig) (fuel : ℕ) :
    Option (Except RpcError SubmissionResult × List Request) :=
  Polling.run (pollRound xdr node elapsed hash config) (roundRequests node hash) fuel 0

/-- The result of a transaction that is rejected at once. -/
def SendTransactionResponse.rejected (sent : SendTransactionResponse) : SubmissionResult where
  hash := sent.hash
  status := .failed
  resultXdr := none
  events := []
  latestLedger := sent.latestLedger
  errorCode := sent.errorResult
  errorResultXdr := sent.errorResultXdr
  diagnosticEvents := sent.diagnosticEvents

/-- The result of a transaction that is not waited for. -/
def SendTransactionResponse.submitted (sent : SendTransactionResponse) : SubmissionResult where
  hash := sent.hash
  status := .pending
  resultXdr := none
  events := []
  latestLedger := none
  errorCode := none
  errorResultXdr := none
  diagnosticEvents := []

/-- `submit_and_wait`, with its requests. -/
def submitAndWait (envelope : String) (wait : Bool) (config : PollConfig) (fuel : ℕ) :
    Option (Except RpcError SubmissionResult × List Request) :=
  match sendTransaction node envelope with
  | (.error e, requests) => some (.error e, requests)
  | (.ok sent, requests) =>
    if EqIgnoreAsciiCase sent.status "ERROR" then some (.ok sent.rejected, requests)
    else if !wait then some (.ok sent.submitted, requests)
    else
      (pollTransaction xdr node elapsed sent.hash config fuel).map fun (outcome, polls) =>
        (outcome, requests ++ polls)

end

/-! ### Outcomes -/

section

variable (xdr : SettledXdr) (node : Node) (elapsed : ℕ → ℕ) (envelope : String) (wait : Bool)
  (config : PollConfig)

/-- Submission ends with the outcome, after the requests. -/
def Submits (outcome : Except RpcError SubmissionResult) (requests : List Request) : Prop :=
  ∃ fuel, submitAndWait xdr node elapsed envelope wait config fuel = some (outcome, requests)

/-- The node answered a poll with one of the statuses. -/
def Polled (hash : String) (statuses : List String) : Prop :=
  ∃ poll res, (node.get hash poll).outcome = .ok res ∧
    ∃ status ∈ statuses, EqIgnoreAsciiCase res.status status

/-- **The outcome of submission says what the node answered.** -/
structure SubmissionFaithful (outcome : Except RpcError SubmissionResult)
    (requests : List Request) : Prop where
  success : ∀ r, outcome = .ok r → r.status = .success → ∃ sent, node.send.outcome = .ok sent ∧
    r.hash = sent.hash ∧ Polled node sent.hash ["SUCCESS"]
  failed : ∀ r, outcome = .ok r → r.status = .failed → ∃ sent, node.send.outcome = .ok sent ∧
    r.hash = sent.hash ∧ (EqIgnoreAsciiCase sent.status "ERROR" ∨
      Polled node sent.hash ["FAILED", "ERROR"])
  pending : ∀ r, outcome = .ok r → r.status = .pending → wait = false ∧
    ∃ sent, node.send.outcome = .ok sent ∧ r.hash = sent.hash ∧
      (EqIgnoreAsciiCase sent.status "PENDING" ∨ EqIgnoreAsciiCase sent.status "DUPLICATE")
  settled : ∀ r, outcome = .ok r → r.status ≠ .notFound
  rejected : ∀ sent, node.send.outcome = .ok sent → EqIgnoreAsciiCase sent.status "ERROR" →
    requests = (sendTransaction node envelope).2
  last : ∀ sent, node.send.outcome = .ok sent → ∀ poll res,
    (node.get sent.hash poll).outcome = .ok res →
      (res.statusEnum = .success ∨ res.statusEnum = .failed) →
        ∃ n ≤ poll + 1, requests = (sendTransaction node envelope).2 ++
          (List.range n).flatMap (roundRequests node sent.hash)

end

section

variable {xdr : SettledXdr} {node : Node} {elapsed : ℕ → ℕ} {envelope : String} {wait : Bool}
  {config : PollConfig} {hash : String} {outcome : Except RpcError SubmissionResult}
  {requests : List Request}

theorem fromStr_eq_success {s : String} (h : TransactionStatus.fromStr s = .success) :
    EqIgnoreAsciiCase s "SUCCESS" := by
  unfold TransactionStatus.fromStr at h
  split at h
  · next hs => exact hs
  · cases h
  · cases h
  · cases h
  · cases h

theorem fromStr_eq_failed {s : String} (h : TransactionStatus.fromStr s = .failed) :
    EqIgnoreAsciiCase s "FAILED" ∨ EqIgnoreAsciiCase s "ERROR" := by
  unfold TransactionStatus.fromStr at h
  split at h
  · cases h
  · next hs => exact .inl hs
  · next hs => exact .inr hs
  · cases h
  · cases h

/-- What a round ends with is what the node answered, unless it is an error. -/
theorem pollRound_eq_some_ok {poll : ℕ} {r : SubmissionResult}
    (h : pollRound xdr node elapsed hash config poll = some (.ok r)) :
    r.hash = hash ∧ ∃ res, (node.get hash poll).outcome = .ok res ∧ r.status = res.statusEnum ∧
      (r.status = .success ∨ r.status = .failed) := by
  unfold pollRound at h
  split at h
  · cases h
  · next res hres =>
    split at h
    · next hstatus =>
      cases h
      exact ⟨rfl, res, hres, hstatus.symm, .inl rfl⟩
    · next hstatus =>
      cases h
      exact ⟨rfl, res, hres, hstatus.symm, .inr rfl⟩
    · split_ifs at h
      cases h
    · split_ifs at h
      cases h

/-- A settled answer ends the loop. -/
theorem pollRound_ne_none_of_settled {poll : ℕ} {res : TransactionStatusResponse}
    (hres : (node.get hash poll).outcome = .ok res)
    (hsettled : res.statusEnum = .success ∨ res.statusEnum = .failed) :
    pollRound xdr node elapsed hash config poll ≠ none := by
  unfold pollRound
  rw [hres]
  obtain hstatus | hstatus := hsettled <;> simp [hstatus]

/-- So does the timeout. -/
theorem pollRound_ne_none_of_timeout {poll : ℕ} (h : config.timeout ≤ elapsed poll) :
    pollRound xdr node elapsed hash config poll ≠ none := by
  unfold pollRound
  split
  · simp
  · split
    · simp
    · simp
    · simp [h]
    · simp [h]

/-- **The outcome of submission and the requests it makes.** -/
theorem submits_iff : Submits xdr node elapsed envelope wait config outcome requests ↔
    (∃ e, (sendTransaction node envelope).1 = .error e ∧ outcome = .error e ∧
      requests = (sendTransaction node envelope).2) ∨
    ∃ sent, (sendTransaction node envelope).1 = .ok sent ∧
      ((EqIgnoreAsciiCase sent.status "ERROR" ∧ outcome = .ok sent.rejected ∧
        requests = (sendTransaction node envelope).2) ∨
      (¬ EqIgnoreAsciiCase sent.status "ERROR" ∧ wait = false ∧ outcome = .ok sent.submitted ∧
        requests = (sendTransaction node envelope).2) ∨
      (¬ EqIgnoreAsciiCase sent.status "ERROR" ∧ wait = true ∧ ∃ n,
        pollRound xdr node elapsed sent.hash config n = some outcome ∧
        (∀ j < n, pollRound xdr node elapsed sent.hash config j = none) ∧
        requests = (sendTransaction node envelope).2 ++
          (List.range (n + 1)).flatMap (roundRequests node sent.hash))) := by
  unfold Submits submitAndWait
  obtain ⟨answer, sends⟩ := sendTransaction node envelope
  cases answer with
  | error e => simp [eq_comm]
  | ok sent =>
    dsimp only
    by_cases herror : EqIgnoreAsciiCase sent.status "ERROR"
    · simp [herror, eq_comm]
    · cases wait with
      | false => simp [herror, eq_comm]
      | true =>
        have hrun : (∃ fuel, (pollTransaction xdr node elapsed sent.hash config fuel).map
            (fun p => (p.1, sends ++ p.2)) = some (outcome, requests)) ↔
            ∃ polls, (∃ fuel, pollTransaction xdr node elapsed sent.hash config fuel =
              some (outcome, polls)) ∧ requests = sends ++ polls := by
          constructor
          · rintro ⟨fuel, h⟩
            obtain ⟨⟨o, polls⟩, hpolls, hpair⟩ := Option.map_eq_some_iff.mp h
            cases hpair
            exact ⟨polls, ⟨fuel, hpolls⟩, rfl⟩
          · rintro ⟨polls, ⟨fuel, hpolls⟩, rfl⟩
            exact ⟨fuel, Option.map_eq_some_iff.mpr ⟨_, hpolls, rfl⟩⟩
        simp only [herror, if_false, Bool.not_true, Bool.false_eq_true]
        rw [hrun]
        simp only [pollTransaction, Polling.run_eq_some_iff]
        constructor
        · rintro ⟨polls, ⟨n, hn, hbefore, rfl⟩, rfl⟩
          exact .inr ⟨sent, rfl, .inr (.inr ⟨herror, trivial, n, hn, hbefore, rfl⟩)⟩
        · rintro (⟨e, he, -⟩ | ⟨sent', hsent, ⟨hstates, -⟩ | ⟨-, hwait, -⟩ |
            ⟨-, -, n, hn, hbefore, rfl⟩⟩)
          · cases he
          · cases hsent
            exact absurd hstates herror
          · cases hwait
          · cases hsent
            exact ⟨_, ⟨n, hn, hbefore, rfl⟩, rfl⟩

/-- Submission ends, and in one way, if time passes. -/
theorem exists_submits (hclock : ∀ d, ∃ n, d ≤ elapsed n) :
    ∃ outcome requests, Submits xdr node elapsed envelope wait config outcome requests := by
  cases hanswer : (sendTransaction node envelope).1 with
  | error e => exact ⟨_, _, submits_iff.mpr (.inl ⟨e, hanswer, rfl, rfl⟩)⟩
  | ok sent =>
    by_cases herror : EqIgnoreAsciiCase sent.status "ERROR"
    · exact ⟨_, _, submits_iff.mpr (.inr ⟨sent, hanswer, .inl ⟨herror, rfl, rfl⟩⟩)⟩
    · cases hwait : wait with
      | false =>
        exact ⟨_, _, submits_iff.mpr (.inr ⟨sent, hanswer, .inr (.inl ⟨herror, rfl, rfl, rfl⟩)⟩)⟩
      | true =>
        obtain ⟨n, hn⟩ := hclock config.timeout
        obtain ⟨b, l, hrun⟩ : ∃ b l fuel, Polling.run (pollRound xdr node elapsed sent.hash config)
            (roundRequests node sent.hash) fuel 0 = some (b, l) :=
          Polling.exists_run (pollRound_ne_none_of_timeout hn)
        obtain ⟨m, hm, hbefore, rfl⟩ := Polling.run_eq_some_iff.mp hrun
        exact ⟨b, _, submits_iff.mpr
          (.inr ⟨sent, hanswer, .inr (.inr ⟨herror, rfl, m, hm, hbefore, rfl⟩)⟩)⟩

theorem submits_unique {outcome' : Except RpcError SubmissionResult} {requests' : List Request}
    (h : Submits xdr node elapsed envelope wait config outcome requests)
    (h' : Submits xdr node elapsed envelope wait config outcome' requests') :
    outcome = outcome' ∧ requests = requests' := by
  obtain ⟨fuel, h⟩ := h
  obtain ⟨fuel', h'⟩ := h'
  unfold submitAndWait at h h'
  generalize sendTransaction node envelope = answer at h h'
  obtain ⟨answer, sends⟩ := answer
  cases answer with
  | error e =>
    cases h
    cases h'
    exact ⟨rfl, rfl⟩
  | ok sent =>
    dsimp only at h h'
    split_ifs at h h' with herror hwait
    · cases h
      cases h'
      exact ⟨rfl, rfl⟩
    · cases h
      cases h'
      exact ⟨rfl, rfl⟩
    · obtain ⟨⟨o, polls⟩, hpolls, hpair⟩ := Option.map_eq_some_iff.mp h
      cases hpair
      obtain ⟨⟨o', polls'⟩, hpolls', hpair⟩ := Option.map_eq_some_iff.mp h'
      cases hpair
      obtain ⟨rfl, rfl⟩ := Polling.run_unique ⟨fuel, hpolls⟩ ⟨fuel', hpolls'⟩
      exact ⟨rfl, rfl⟩

/-- A transaction that is sent is answered by the node. -/
theorem sendTransaction_eq_ok {sent : SendTransactionResponse}
    (h : (sendTransaction node envelope).1 = .ok sent) :
    trim envelope ≠ "" ∧ node.send.outcome = .ok sent := by
  unfold sendTransaction at h
  split_ifs at h with hblank
  exact ⟨hblank, h⟩

/-- The transaction that is reported as pending was queued. -/
def QueuedIfUnwaited (node : Node) (envelope : String) (wait : Bool) : Prop :=
  wait = false → trim envelope ≠ "" → ∀ sent, node.send.outcome = .ok sent →
    EqIgnoreAsciiCase sent.status "ERROR" ∨ EqIgnoreAsciiCase sent.status "PENDING" ∨
      EqIgnoreAsciiCase sent.status "DUPLICATE"

/-- An outcome without a poll is faithful if its status is. -/
theorem faithful_of_unpolled {r : SubmissionResult} {sent : SendTransactionResponse}
    (hsent : node.send.outcome = .ok sent) (hhash : r.hash = sent.hash)
    (hstatus : (r.status = .failed ∧ EqIgnoreAsciiCase sent.status "ERROR") ∨
      (r.status = .pending ∧ wait = false ∧ (EqIgnoreAsciiCase sent.status "PENDING" ∨
        EqIgnoreAsciiCase sent.status "DUPLICATE"))) :
    SubmissionFaithful node envelope wait (.ok r) (sendTransaction node envelope).2 where
  success r' hr hsuccess := by
    cases hr
    obtain ⟨hfailed, -⟩ | ⟨hpending, -⟩ := hstatus
    · rw [hfailed] at hsuccess
      cases hsuccess
    · rw [hpending] at hsuccess
      cases hsuccess
  failed r' hr hfailed := by
    cases hr
    obtain ⟨-, herror⟩ | ⟨hpending, -⟩ := hstatus
    · exact ⟨sent, hsent, hhash, .inl herror⟩
    · rw [hpending] at hfailed
      cases hfailed
  pending r' hr hpending := by
    cases hr
    obtain ⟨hfailed, -⟩ | ⟨-, hwait, hqueued⟩ := hstatus
    · rw [hfailed] at hpending
      cases hpending
    · exact ⟨hwait, sent, hsent, hhash, hqueued⟩
  settled r' hr hnotFound := by
    cases hr
    obtain ⟨hfailed, -⟩ | ⟨hpending, -⟩ := hstatus
    · rw [hfailed] at hnotFound
      cases hnotFound
    · rw [hpending] at hnotFound
      cases hnotFound
  rejected _ _ _ := rfl
  last _ _ poll _ _ _ := ⟨0, Nat.zero_le _, by simp⟩

/-- The outcome of polling is faithful. -/
theorem faithful_of_polled {sent : SendTransactionResponse} (hsent : node.send.outcome = .ok sent)
    (herror : ¬ EqIgnoreAsciiCase sent.status "ERROR") {n : ℕ}
    (hn : pollRound xdr node elapsed sent.hash config n = some outcome)
    (hbefore : ∀ j < n, pollRound xdr node elapsed sent.hash config j = none) :
    SubmissionFaithful node envelope wait outcome ((sendTransaction node envelope).2 ++
      (List.range (n + 1)).flatMap (roundRequests node sent.hash)) where
  success r hr hsuccess := by
    rw [hr] at hn
    obtain ⟨hhash, res, hres, hstatus, -⟩ := pollRound_eq_some_ok hn
    rw [hsuccess] at hstatus
    exact ⟨sent, hsent, hhash, n, res, hres, _, List.mem_singleton_self _,
      fromStr_eq_success hstatus.symm⟩
  failed r hr hfailed := by
    rw [hr] at hn
    obtain ⟨hhash, res, hres, hstatus, -⟩ := pollRound_eq_some_ok hn
    rw [hfailed] at hstatus
    refine ⟨sent, hsent, hhash, .inr ⟨n, res, hres, ?_⟩⟩
    obtain hstates | hstates := fromStr_eq_failed hstatus.symm
    · exact ⟨"FAILED", by simp, hstates⟩
    · exact ⟨"ERROR", by simp, hstates⟩
  pending r hr hpending := by
    rw [hr] at hn
    obtain ⟨-, -, -, -, hstatus⟩ := pollRound_eq_some_ok hn
    rw [hpending] at hstatus
    exact absurd hstatus (by simp)
  settled r hr hnotFound := by
    rw [hr] at hn
    obtain ⟨-, -, -, -, hstatus⟩ := pollRound_eq_some_ok hn
    rw [hnotFound] at hstatus
    exact absurd hstatus (by simp)
  rejected sent' hsent' hstates := by
    rw [hsent] at hsent'
    cases hsent'
    exact absurd hstates herror
  last sent' hsent' poll res hres hsettled := by
    rw [hsent] at hsent'
    cases hsent'
    refine ⟨n + 1, Nat.succ_le_succ (Nat.le_of_not_lt fun hlt => ?_), rfl⟩
    exact pollRound_ne_none_of_settled hres hsettled (hbefore poll hlt)

/-- An outcome of submission is faithful if a transaction that is not waited for was queued. -/
theorem Submits.faithful (hqueued : QueuedIfUnwaited node envelope wait)
    (h : Submits xdr node elapsed envelope wait config outcome requests) :
    SubmissionFaithful node envelope wait outcome requests := by
  obtain ⟨e, hanswer, rfl, rfl⟩ | ⟨sent, hanswer, h⟩ := submits_iff.mp h
  · exact ⟨nofun, nofun, nofun, nofun, fun _ _ _ => rfl,
      fun _ _ poll _ _ _ => ⟨0, Nat.zero_le _, by simp⟩⟩
  · obtain ⟨hblank, hsent⟩ := sendTransaction_eq_ok hanswer
    obtain ⟨herror, rfl, rfl⟩ | ⟨herror, rfl, rfl, rfl⟩ | ⟨herror, -, n, hn, hbefore, rfl⟩ := h
    · exact faithful_of_unpolled hsent rfl (.inl ⟨rfl, herror⟩)
    · exact faithful_of_unpolled hsent rfl
        (.inr ⟨rfl, rfl, (hqueued rfl hblank sent hsent).resolve_left herror⟩)
    · exact faithful_of_polled hsent herror hn hbefore

/-- **Submission is faithful exactly if a transaction that is not waited for was queued**, or else
rejected. It ends, in one way, with an error or what the node answered. -/
theorem submission_faithful_iff (hclock : ∀ d, ∃ n, d ≤ elapsed n) :
    (∃ outcome requests, Submits xdr node elapsed envelope wait config outcome requests ∧
      (∀ outcome' requests', Submits xdr node elapsed envelope wait config outcome' requests' →
        outcome' = outcome ∧ requests' = requests) ∧
      SubmissionFaithful node envelope wait outcome requests) ↔
        QueuedIfUnwaited node envelope wait := by
  constructor
  · rintro ⟨outcome, requests, hsubmits, -, hfaithful⟩ hwait hblank sent hsent
    by_cases herror : EqIgnoreAsciiCase sent.status "ERROR"
    · exact .inl herror
    · have hanswer : (sendTransaction node envelope).1 = .ok sent := by
        rw [sendTransaction, if_neg hblank, hsent]
      have hunwaited : Submits xdr node elapsed envelope wait config (.ok sent.submitted)
          (sendTransaction node envelope).2 :=
        submits_iff.mpr (.inr ⟨sent, hanswer, .inr (.inl ⟨herror, hwait, rfl, rfl⟩)⟩)
      obtain ⟨rfl, -⟩ := submits_unique hsubmits hunwaited
      obtain ⟨-, sent', hsent', -, hqueued⟩ := hfaithful.pending _ rfl rfl
      rw [hsent] at hsent'
      cases hsent'
      exact .inr hqueued
  · intro hqueued
    obtain ⟨outcome, requests, hsubmits⟩ := exists_submits hclock
    refine ⟨outcome, requests, hsubmits, fun outcome' requests' h' => ?_, hsubmits.faithful hqueued⟩
    obtain ⟨rfl, rfl⟩ := submits_unique hsubmits h'
    exact ⟨rfl, rfl⟩

end

section Statuses

/-- XDR of which nothing is read. -/
def noXdr : SettledXdr := ⟨fun _ => none, fun _ => none⟩

/-- A node that answers at once, and never has a transaction. -/
def nodeAnswering (status : String) : Node where
  send := ⟨.result (some ⟨"c0ffee", status, none, none, [], none⟩), .result none⟩
  get _ _ := ⟨.result (some ⟨"NOT_FOUND", none, none, none, none⟩), .result none⟩

/-- A second passes with each poll. -/
def secondsPassed (poll : ℕ) : ℕ := poll * 1000000000

theorem secondsPassed_unbounded (d : ℕ) : ∃ n, d ≤ secondsPassed n :=
  ⟨d, Nat.le_mul_of_pos_right d (by decide)⟩

/-- A queued transaction is faithfully reported as pending. -/
theorem submission_faithful_iff_pending : ∃ outcome requests,
    Submits noXdr (nodeAnswering "PENDING") secondsPassed "AAAA" false ⟨0⟩ outcome requests ∧
      SubmissionFaithful (nodeAnswering "PENDING") "AAAA" false outcome requests := by
  have hqueued : QueuedIfUnwaited (nodeAnswering "PENDING") "AAAA" false := by
    intro _ _ sent hsent
    cases hsent
    exact .inr (.inl rfl)
  obtain ⟨outcome, requests, hsubmits, -, hfaithful⟩ : ∃ outcome requests,
      Submits noXdr (nodeAnswering "PENDING") secondsPassed "AAAA" false ⟨0⟩ outcome requests ∧ _ :=
    (submission_faithful_iff secondsPassed_unbounded).mpr hqueued
  exact ⟨outcome, requests, hsubmits, hfaithful⟩

/-- A transaction that the node tells to send again is reported as pending. -/
theorem unqueued_transaction_is_pending : ¬ ∃ outcome requests,
    Submits noXdr (nodeAnswering "TRY_AGAIN_LATER") secondsPassed "AAAA" false ⟨0⟩ outcome
      requests ∧
      SubmissionFaithful (nodeAnswering "TRY_AGAIN_LATER") "AAAA" false outcome requests := by
  rintro ⟨outcome, requests, hsubmits, hfaithful⟩
  have hunwaited : Submits noXdr (nodeAnswering "TRY_AGAIN_LATER") secondsPassed "AAAA" false ⟨0⟩
      (.ok (⟨"c0ffee", "TRY_AGAIN_LATER", none, none, [], none⟩ :
        SendTransactionResponse).submitted) [.sendTransaction "AAAA"] :=
    ⟨0, by decide +kernel⟩
  obtain ⟨rfl, -⟩ := submits_unique hsubmits hunwaited
  obtain ⟨-, sent, hsent, -, hqueued⟩ := hfaithful.pending _ rfl rfl
  cases hsent
  revert hqueued
  decide +kernel

end Statuses

end SorobanDevkit.Rpc
