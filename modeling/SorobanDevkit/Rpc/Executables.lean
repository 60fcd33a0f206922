import SorobanDevkit.Library.HexAsBase64
import SorobanDevkit.Rpc.AccountSequence
import SorobanDevkit.Xdr.LedgerEntryLayout
import SorobanDevkit.Xdr.StrkeyText

/-!
# The code of deployed contracts

`probe_deployed_executable` and `resolve_inspection_wasm_hash` of `sdkt-rpc/src/inspect.rs` report
the hash of the code that a contract runs. The entry of the instance has the hash, or names an entry
of another contract that has it. The name is a string of bytes that goes through a text on its way
to the key of that entry.

The types and writers of XDR, and the texts of addresses, are parameters.

## Main results

* `probe_wasmHash` — the two functions agree.
* `resolve_external_eq_ok_iff` — what is read for the name of an entry.
* `faithful_iff` — for which executables both report what is named.
-/

namespace SorobanDevkit.Rpc

/-! ### Ledgers and nodes -/

/-- The node that answers with what is in a ledger. -/
def LedgerState.serving (state : LedgerState) (ledger : UInt32) : LedgerNode where
  answer _ keys := ⟨.result (some ⟨keys.filterMap state.get?, ledger⟩), .result none⟩

theorem LedgerState.serves_serving (state : LedgerState) (ledger : UInt32) :
    (state.serving ledger).Serves state ledger := by
  intro sent keys _
  exact ⟨⟨keys.filterMap state.get?, ledger⟩, rfl, rfl, fun e => List.mem_filterMap⟩

/-- A ledger with two entries. -/
def LedgerState.pair (e e' : LedgerEntryResult) : LedgerState where
  get? k := if k = e.key then some e else if k = e'.key then some e' else none
  key_of_get? k found h := by
    split at h
    · next hk => rw [← Option.some.inj h, hk]
    · split at h
      · next hk => rw [← Option.some.inj h, hk]
      · cases h

/-- A node that stays at a ledger answers for one key with what is under it. -/
theorem LedgerNode.Serves.request_one {node : LedgerNode}
    {state : LedgerState} {ledger : UInt32} (h : node.Serves state ledger) (key : String)
    (sent : List (List String)) : ∃ response,
      getContractStorage node [key] sent = (.ok response, sent ++ [[key]]) ∧
        response.entries.head? = state.get? key := by
  have hone : [key].length ≤ maxLedgerKeys := Nat.succ_le_succ (Nat.zero_le 199)
  obtain ⟨response, houtcome, -, hmem⟩ := h sent [key] hone
  refine ⟨response, (getContractStorage_eq_ok_iff hone).mpr ⟨houtcome, rfl⟩, ?_⟩
  have hmem' : ∀ e, e ∈ response.entries ↔ state.get? key = some e := by
    simpa using hmem
  cases hentries : response.entries with
  | nil =>
    cases hget : state.get? key with
    | none => rfl
    | some e =>
      have he := (hmem' e).mpr hget
      rw [hentries] at he
      cases he
  | cons e entries =>
    have he := (hmem' e).mp (by rw [hentries]; exact List.mem_cons_self)
    rw [he]
    rfl

namespace Executables

open Strings (trim)
open Xdr (Bytes32 ScAddress Strkey VecM)
open Xdr.EntryLayout
open Xdr.Payload (DecodeError hexDecode)

/-! ### The functions -/

/-- The largest length of an `ScString`. -/
def scStringMax : ℕ := 4294967295

/-- The crates `stellar-xdr` and `stellar-strkey`, and the texts of errors. -/
structure ProbeCrates (ScVal Other Ext : Type) extends EntryXdr ScVal Other Ext where
  /-- `Strkey::from_string`. -/
  strkey : String → Except String Strkey
  /-- `ScAddress::to_string`. -/
  addressText : ScAddress → String
  /-- `ScVal::LedgerKeyContractInstance`. -/
  ledgerKeyContractInstance : ScVal
  /-- `ScVal::ExecutableTag`. -/
  executableTag : VecM scStringMax UInt8 → ScVal
  /-- The bytes of a value `ScVal::Bytes`. -/
  bytes : ScVal → Option (List UInt8)
  /-- `ScVal::name`. -/
  name : ScVal → String
  /-- The XDR of the key of contract data. -/
  writeDataKey : ScAddress → ScVal → Durability → Except String (List UInt8)
  decodeText : DecodeError → String
  readText : LedgerReadError → String

section

variable {ScVal Other Ext : Type} (crates : ProbeCrates ScVal Other Ext)

/-- Thirty-two bytes. -/
def toBytes32 (bytes : List UInt8) : Option Bytes32 :=
  if h : bytes.length = 32 then some ⟨bytes.toArray, h⟩ else none

/-- `parse_contract_id_bytes`. -/
def parseContractIdBytes (contract : String) : Except DecodeError Bytes32 :=
  match crates.strkey (trim contract) with
  | .ok (.contract id) => .ok id
  | _ =>
    match hexDecode (trim contract) with
    | .error e => .error (.hex e)
    | .ok bytes =>
      match toBytes32 bytes with
      | none => .error (.extraction "contract must be a C... StrKey or 32-byte hex")
      | some id => .ok id

/-- `LedgerKeyParams`, as far as they are used here. -/
inductive LedgerKeyParams (ScVal : Type)
  | contractData (contractIdHex : String)
  | contractDataEntry (contract : String) (key : ScVal) (durability : Durability)

/-- `encode_ledger_key`. -/
def encodeLedgerKey (params : LedgerKeyParams ScVal) : Except DecodeError String := do
  let raw ← match params with
    | .contractData contractIdHex =>
      match hexDecode contractIdHex with
      | .error e => .error (.hex e)
      | .ok bytes =>
        match toBytes32 bytes with
        | none => .error (.extraction "Contract ID must be 32 bytes")
        | some id => (crates.writeDataKey (.contract id) crates.ledgerKeyContractInstance
            .persistent).mapError .xdrWrite
    | .contractDataEntry contract key durability => do
      let id ← parseContractIdBytes crates contract
      (crates.writeDataKey (.contract id) key durability).mapError .xdrWrite
  .ok (Base64.encode raw)

/-- `decode_contract_id`. -/
def decodeContractId (contractId : String) : Except DecodeError Bytes32 :=
  match crates.strkey contractId with
  | .error e => .error (.extraction ("Invalid contract ID: " ++ e))
  | .ok (.contract id) => .ok id
  | .ok _ => .error (.extraction "Expected Contract ID")

/-- `contract_id_to_hex`. -/
def contractIdToHex (contractId : String) : Except LedgerReadError String :=
  match (hexDecode contractId).toOption.bind toBytes32 with
  | some _ => .ok contractId
  | none =>
    match decodeContractId crates contractId with
    | .ok id => .ok (Hex.encode id.toList)
    | .error e => .error (.request (.rpc
        ("Invalid contract ID '" ++ contractId ++ "': " ++ crates.decodeText e)))

/-- `ExecutableResolutionError`. -/
inductive ExecutableResolutionError
  | decode (e : DecodeError)
  | unsupported (kind : String)
  | external (owner : ScAddress) (tag source : String)
  deriving DecidableEq

/-- The text of an error. -/
def ExecutableResolutionError.text : ExecutableResolutionError → String
  | .decode e => crates.decodeText e
  | .unsupported kind =>
    "contract executable is `" ++ kind ++ "` (Protocol 28): it is not a Wasm contract " ++
      "and has no Wasm hash to report"
  | .external owner tag source =>
    "could not resolve the CAP-85 external executable reference (owner " ++
      crates.addressText owner ++ ", tag \"" ++ tag ++ "\"): " ++ source

/-- `executable_tag_key`. -/
def executableTagKey (owner : ScAddress) (tag : String) : Except String String :=
  match owner with
  | .contract _ =>
    if h : (Utf8Lossy.encode tag).length ≤ scStringMax then
      (encodeLedgerKey crates (.contractDataEntry (crates.addressText owner)
        (crates.executableTag ⟨Utf8Lossy.encode tag, h⟩) .persistent)).mapError crates.decodeText
    else .error "executable tag exceeds the maximum ScString length"
  | _ => .error ("executable owner " ++ crates.addressText owner ++
      " is not a contract address; " ++ "only a contract can hold an executable tag entry")

/-- `parse_external_executable_hash`. -/
def parseExternalExecutableHash (value : ScVal) : Except DecodeError String :=
  match crates.bytes value with
  | none => .error (.extraction ("CAP-85 executable tag entry holds " ++ crates.name value ++
      ", expected a 32-byte Bytes Wasm hash"))
  | some bytes =>
    if bytes.length ≠ 32 then
      .error (.extraction ("CAP-85 executable tag entry holds " ++ toString bytes.length ++
        " bytes, expected 32"))
    else .ok (Hex.encode bytes)

/-- The part of `resolve_external_executable` after the request. -/
def hashOfResponse (owner : ScAddress) (tag : String) (response : StorageResponse) :
    Except ExecutableResolutionError String :=
  match response.entries with
  | [] => .error (.external owner tag
      ("owner " ++ crates.addressText owner ++ " has no executable tag entry named \"" ++ tag ++
        "\" (it may never have been created, or the entry may have expired)"))
  | entry :: _ => do
    let value ← (extractContractDataValue crates.toEntryXdr entry.xdr).mapError fun e =>
      .external owner tag
        ("could not decode the owner's executable tag entry: " ++ crates.decodeText e)
    (parseExternalExecutableHash crates value.val).mapError fun e =>
      .external owner tag (crates.decodeText e)

variable (node : LedgerNode)

/-- A computation of a hash that makes requests. -/
abbrev Resolving (α : Type) := Effect (List (List String)) ExecutableResolutionError α

/-- `resolve_external_executable`. -/
def resolveExternalExecutable (owner : ScAddress) (tag : String) : Resolving String := do
  let key ← Effect.lift ((executableTagKey crates owner tag).mapError (.external owner tag))
  let response ← Effect.mapError (fun e => .external owner tag (crates.readText e))
    (getContractStorage node [key])
  Effect.lift (hashOfResponse crates owner tag response)

/-- `resolve_inspection_wasm_hash`. -/
def resolveInspectionWasmHash (entryXdr : String) : Resolving String := do
  let executable ← Effect.lift
    ((extractContractExecutable crates.toEntryXdr entryXdr).mapError .decode)
  match executable with
  | .wasm hash => pure (Hex.encode hash.toList)
  | .stellarAsset => Effect.lift (.error (.unsupported "stellar_asset"))
  | .externalRef owner tag => resolveExternalExecutable crates node owner tag

/-- `DeployedExecutable`. -/
structure DeployedExecutable where
  instanceFound : Bool
  executable : Option ContractExecutableRef
  wasmHash : Option String
  decodeError : Option String
  resolveError : Option String
  error : Option String

/-- What is reported of an executable that is decoded. -/
def DeployedExecutable.decoded (executable : ContractExecutableRef)
    (wasmHash resolveError : Option String) : DeployedExecutable :=
  ⟨true, some executable, wasmHash, none, resolveError, none⟩

/-- `probe_deployed_executable`. -/
def probeDeployedExecutable (contractId : String) : Reading DeployedExecutable := do
  let contractIdHex ← Effect.lift (contractIdToHex crates contractId)
  let key ← Effect.lift ((encodeLedgerKey crates (.contractData contractIdHex)).mapError
    fun e => .request (.rpc ("Failed to encode ledger key: " ++ crates.decodeText e)))
  let response ← getContractStorage node [key]
  match response.entries with
  | [] => pure ⟨false, none, none, none, none, none⟩
  | entry :: _ =>
    match extractContractExecutable crates.toEntryXdr entry.xdr with
    | .error e => pure ⟨true, none, none, some (crates.decodeText e), none, none⟩
    | .ok (.wasm hash) => pure (.decoded (.wasm hash) (some (Hex.encode hash.toList)) none)
    | .ok .stellarAsset => pure (.decoded .stellarAsset none none)
    | .ok (.externalRef owner tag) => fun sent =>
      let (result, sent) := resolveExternalExecutable crates node owner tag sent
      match result with
      | .ok hash => (.ok (.decoded (.externalRef owner tag) (some hash) none), sent)
      | .error e => (.ok (.decoded (.externalRef owner tag) none (some (e.text crates))), sent)

/-! ### What the ledger has -/

/-- What is documented of the crates. Addresses of contracts are read back, keys are told apart by
their values, and there is a value for each hash. -/
structure ProbeCrates.Documented : Prop where
  xdr : crates.toEntryXdr.Documented
  strkey_addressText : ∀ id,
    crates.strkey (trim (crates.addressText (.contract id))) = .ok (.contract id)
  exists_writeDataKey : ∀ contract key durability,
    ∃ raw, crates.writeDataKey contract key durability = .ok raw
  writeDataKey_inj : ∀ contract contract' key key' durability durability' raw,
    crates.writeDataKey contract key durability = .ok raw →
      crates.writeDataKey contract' key' durability' = .ok raw → key = key'
  executableTag_inj : Function.Injective crates.executableTag
  executableTag_ne : ∀ tag, crates.executableTag tag ≠ crates.ledgerKeyContractInstance
  exists_bytes : ∀ hash : Bytes32, ∃ value, crates.bytes value = some hash.toList

/-- The entry that a ledger has under a key of contract data. -/
def entryUnder (state : LedgerState) (contract : ScAddress) (key : ScVal) (durability : Durability)
    (entry : LedgerEntryResult) : Prop :=
  ∃ raw, crates.writeDataKey contract key durability = .ok raw ∧
    state.get? (Base64.encode raw) = some entry

/-- The hash in the entry of a contract for a tag, if that is a value of 32 bytes. -/
def StoredHash (state : LedgerState) (id : Bytes32) (tag : List UInt8) (hash : String) : Prop :=
  ∃ h : tag.length ≤ scStringMax, ∃ entry data bytes,
    entryUnder crates state (.contract id) (crates.executableTag ⟨tag, h⟩) .persistent entry ∧
      extractContractDataValue crates.toEntryXdr entry.xdr = .ok data ∧
      crates.bytes data.val = some bytes ∧ bytes.length = 32 ∧ hash = Hex.encode bytes

/-- The hash that an executable names. -/
def Named (state : LedgerState) : Executable → String → Prop
  | .wasm own, hash => hash = Hex.encode own.toList
  | .stellarAsset, _ => False
  | .externalRef owner tag, hash => ∃ id, owner = .contract id ∧ StoredHash crates state id tag hash

/-- The text of an entry, in either layout. -/
def IsEntryText (data : DataEntry ScVal) (text : String) : Prop :=
  (∃ seq ext, text = Base64.encode (crates.writeEntry ⟨seq, .contractData data, ext⟩)) ∨
  (∃ id trailing, data.contract = .contract id ∧
    text = Base64.encode (crates.writeData (.contractData data) ++ trailing))

/-- For every node and ledger with the instance of a contract, both functions report the hash that
its executable names. -/
def Faithful (data : DataEntry ScVal) (executable : Executable) : Prop :=
  ∀ node state ledger contractId contractIdHex key entry sent hash,
    LedgerNode.Serves node state ledger → contractIdToHex crates contractId = .ok contractIdHex →
    encodeLedgerKey crates (.contractData contractIdHex) = .ok key →
    state.get? key = some entry → IsEntryText crates data entry.xdr →
    ∃ report sent', probeDeployedExecutable crates node contractId sent = (.ok report, sent') ∧
      (report.wasmHash = some hash ↔
        (resolveInspectionWasmHash crates node entry.xdr sent).1 = .ok hash) ∧
      (report.wasmHash = some hash ↔ Named crates state executable hash)

variable {crates}

/-! ### References to entries of other contracts -/

/-- The key of the entry for a tag. -/
theorem executableTagKey_contract (h : crates.Documented) (id : Bytes32) (tag : String)
    (hlength : (Utf8Lossy.encode tag).length ≤ scStringMax) : ∃ raw,
      crates.writeDataKey (.contract id) (crates.executableTag ⟨Utf8Lossy.encode tag, hlength⟩)
        .persistent = .ok raw ∧
      executableTagKey crates (.contract id) tag = .ok (Base64.encode raw) := by
  obtain ⟨raw, hraw⟩ := h.exists_writeDataKey (.contract id)
    (crates.executableTag ⟨Utf8Lossy.encode tag, hlength⟩) .persistent
  refine ⟨raw, hraw, ?_⟩
  have hid : parseContractIdBytes crates (crates.addressText (.contract id)) = .ok id := by
    rw [parseContractIdBytes, h.strkey_addressText]
  simp only [executableTagKey, dif_pos hlength, encodeLedgerKey, hid]
  show Except.mapError crates.decodeText (do
    let raw ← (crates.writeDataKey (.contract id)
      (crates.executableTag ⟨Utf8Lossy.encode tag, hlength⟩) .persistent).mapError .xdrWrite
    .ok (Base64.encode raw)) = _
  rw [hraw]
  rfl

theorem parseExternalExecutableHash_eq_ok_iff {value : ScVal} {hash : String} :
    parseExternalExecutableHash crates value = .ok hash ↔
      ∃ bytes, crates.bytes value = some bytes ∧ bytes.length = 32 ∧ hash = Hex.encode bytes := by
  rw [parseExternalExecutableHash]
  cases crates.bytes value with
  | none => simp
  | some bytes =>
    by_cases hlength : bytes.length = 32
    · simp [hlength, eq_comm]
    · simp [hlength]

theorem hashOfResponse_eq_ok_iff {owner : ScAddress} {tag : String} {response : StorageResponse}
    {hash : String} : hashOfResponse crates owner tag response = .ok hash ↔
      ∃ entry data bytes, response.entries.head? = some entry ∧
        extractContractDataValue crates.toEntryXdr entry.xdr = .ok data ∧
        crates.bytes data.val = some bytes ∧ bytes.length = 32 ∧ hash = Hex.encode bytes := by
  rw [hashOfResponse]
  cases response.entries with
  | nil => exact iff_of_false (fun h => by cases h) (fun ⟨_, _, _, h, _⟩ => by cases h)
  | cons entry entries =>
    simp only [Except.bind_eq_ok_iff, Except.mapError_eq_ok_iff,
      parseExternalExecutableHash_eq_ok_iff, List.head?_cons, Option.some.injEq]
    constructor
    · rintro ⟨data, hdata, bytes, hbytes⟩
      exact ⟨entry, data, bytes, rfl, hdata, hbytes⟩
    · rintro ⟨_, data, bytes, rfl, hdata, hbytes⟩
      exact ⟨data, hdata, bytes, hbytes⟩

/-- **The entry that is read** is the one of the owner, if it is a contract, for the bytes of the
text of the tag. -/
theorem resolve_external_eq_ok_iff (h : crates.Documented) {node : LedgerNode}
    {state : LedgerState} {ledger : UInt32} (hserves : node.Serves state ledger)
    (owner : ScAddress) (tag : String) (sent : List (List String)) (hash : String) :
    (resolveExternalExecutable crates node owner tag sent).1 = .ok hash ↔
      ∃ id, owner = .contract id ∧ StoredHash crates state id (Utf8Lossy.encode tag) hash := by
  by_cases hid : ∃ id, owner = .contract id
  · obtain ⟨id, rfl⟩ := hid
    by_cases hlength : (Utf8Lossy.encode tag).length ≤ scStringMax
    · obtain ⟨raw, hraw, hkey⟩ := executableTagKey_contract h id tag hlength
      obtain ⟨response, hresponse, hhead⟩ := hserves.request_one (Base64.encode raw) sent
      have hlift : (Effect.lift ((executableTagKey crates (.contract id) tag).mapError
          (.external (.contract id) tag)) : Resolving String) sent =
            (.ok (Base64.encode raw), sent) := by
        rw [Effect.lift, hkey]
        rfl
      have hrequest : Effect.mapError
          (fun e => ExecutableResolutionError.external (.contract id) tag (crates.readText e))
          (getContractStorage node [Base64.encode raw]) sent =
            (.ok response, sent ++ [[Base64.encode raw]]) :=
        Effect.mapError_eq_ok_iff.mpr hresponse
      rw [resolveExternalExecutable, Effect.bind_of_ok hlift, Effect.bind_of_ok hrequest,
        Effect.lift, hashOfResponse_eq_ok_iff, hhead]
      constructor
      · rintro ⟨entry, data, bytes, hget, hrest⟩
        exact ⟨id, rfl, hlength, entry, data, bytes, ⟨raw, hraw, hget⟩, hrest⟩
      · rintro ⟨id', hid, _, entry, data, bytes, ⟨raw', hraw', hget⟩, hrest⟩
        obtain rfl := ScAddress.contract.inj hid
        obtain rfl := Except.ok.inj (hraw'.symm.trans hraw)
        exact ⟨entry, data, bytes, hget, hrest⟩
    · have hkey : executableTagKey crates (.contract id) tag =
          .error "executable tag exceeds the maximum ScString length" := dif_neg hlength
      have hlift : (Effect.lift ((executableTagKey crates (.contract id) tag).mapError
          (.external (.contract id) tag)) : Resolving String) sent =
            (.error (.external (.contract id) tag
              "executable tag exceeds the maximum ScString length"), sent) := by
        rw [Effect.lift, hkey]
        rfl
      rw [resolveExternalExecutable, Effect.bind_of_error hlift]
      refine iff_of_false (fun heq => by cases heq) ?_
      rintro ⟨id', hid', hle, -⟩
      exact hlength hle
  · have hkey : ∃ message, executableTagKey crates owner tag = .error message := by
      cases owner with
      | contract id => exact absurd ⟨id, rfl⟩ hid
      | _ => exact ⟨_, rfl⟩
    obtain ⟨message, hkey⟩ := hkey
    have hlift : (Effect.lift ((executableTagKey crates owner tag).mapError
        (.external owner tag)) : Resolving String) sent =
          (.error (.external owner tag message), sent) := by
      rw [Effect.lift, hkey]
      rfl
    rw [resolveExternalExecutable, Effect.bind_of_error hlift]
    refine iff_of_false (fun heq => by cases heq) ?_
    rintro ⟨id, howner, -⟩
    exact hid ⟨id, howner⟩

/-! ### Both functions -/

/-- The hash that is read for an executable as it is decoded. -/
def Read (crates : ProbeCrates ScVal Other Ext) (state : LedgerState) :
    ContractExecutableRef → String → Prop
  | .wasm own, hash => hash = Hex.encode own.toList
  | .stellarAsset, _ => False
  | .externalRef owner tag, hash =>
    ∃ id, owner = .contract id ∧ StoredHash crates state id (Utf8Lossy.encode tag) hash

/-- In either layout the data of the entry are found. -/
theorem extract_of_isEntryText {α : Type} {select : DataEntry ScVal → Except DecodeError α}
    (h : crates.Documented) {data : DataEntry ScVal} (hselect : NoParseError (select data))
    {text : String} (htext : IsEntryText crates data text) :
    extract crates.toEntryXdr select text = select data := by
  obtain ⟨seq, ext, rfl⟩ | ⟨id, trailing, hcontract, rfl⟩ := htext
  · exact extract_standard h.xdr hselect seq ext
  · exact extract_live h.xdr hcontract trailing

/-- A text is that of one entry. -/
theorem IsEntryText.unique (h : crates.Documented) {data data' : DataEntry ScVal} {text : String}
    (htext : IsEntryText crates data text) (htext' : IsEntryText crates data' text) :
    data = data' := by
  have hfound (data : DataEntry ScVal) (htext : IsEntryText crates data text) :
      extract crates.toEntryXdr .ok text = .ok data :=
    extract_of_isEntryText h (fun _ _ heq => by cases heq) htext
  exact Except.ok.inj ((hfound data htext).symm.trans (hfound data' htext'))

/-- In either layout the executable of the instance is found. -/
theorem extractContractExecutable_of_isEntryText (h : crates.Documented) {data : DataEntry ScVal}
    {executable : Executable} (hdata : crates.instanceExecutable data.val = some executable)
    {text : String} (htext : IsEntryText crates data text) :
    extractContractExecutable crates.toEntryXdr text = .ok (mapExecutable executable) := by
  have hselect : executableFromContractData crates.toEntryXdr data =
      .ok (mapExecutable executable) := by
    rw [executableFromContractData, hdata]
  rw [extractContractExecutable, ← hselect]
  exact extract_of_isEntryText h (noParseError_executable data) htext

section Serves

variable (h : crates.Documented) {node : LedgerNode} {state : LedgerState} {ledger : UInt32}
  (hserves : node.Serves state ledger)

include h hserves

/-- The inspection reports what is read for the executable. -/
theorem resolveInspection_eq_ok_iff {text : String} {executable : ContractExecutableRef}
    (htext : extractContractExecutable crates.toEntryXdr text = .ok executable)
    (sent : List (List String)) (hash : String) :
    (resolveInspectionWasmHash crates node text sent).1 = .ok hash ↔
      Read crates state executable hash := by
  have hlift : (Effect.lift ((extractContractExecutable crates.toEntryXdr text).mapError .decode) :
      Resolving ContractExecutableRef) sent = (.ok executable, sent) := by
    rw [Effect.lift, htext]
    rfl
  rw [resolveInspectionWasmHash, Effect.bind_of_ok hlift]
  cases executable with
  | wasm own => exact ⟨fun heq => (Except.ok.inj heq).symm, fun heq => congrArg _ heq.symm⟩
  | stellarAsset => exact iff_of_false (fun heq => by cases heq) id
  | externalRef owner tag => exact resolve_external_eq_ok_iff h hserves owner tag sent hash

/-- **The probe reports what is read for the executable**, too. -/
theorem probe_eq_ok {contractId contractIdHex key : String} {entry : LedgerEntryResult}
    {executable : ContractExecutableRef}
    (hid : contractIdToHex crates contractId = .ok contractIdHex)
    (hkey : encodeLedgerKey crates (.contractData contractIdHex) = .ok key)
    (hget : state.get? key = some entry)
    (htext : extractContractExecutable crates.toEntryXdr entry.xdr = .ok executable)
    (sent : List (List String)) :
    ∃ report sent', probeDeployedExecutable crates node contractId sent = (.ok report, sent') ∧
      ∀ hash, report.wasmHash = some hash ↔ Read crates state executable hash := by
  have hlift : (Effect.lift (contractIdToHex crates contractId) : Reading String) sent =
      (.ok contractIdHex, sent) := by
    rw [Effect.lift, hid]
  have hlift' : (Effect.lift ((encodeLedgerKey crates (.contractData contractIdHex)).mapError
      fun e => .request (.rpc ("Failed to encode ledger key: " ++ crates.decodeText e))) :
        Reading String) sent = (.ok key, sent) := by
    rw [Effect.lift, hkey]
    rfl
  obtain ⟨response, hresponse, hhead⟩ := hserves.request_one key sent
  rw [hget] at hhead
  obtain ⟨entries, hentries⟩ : ∃ entries, response.entries = entry :: entries :=
    List.head?_eq_some_iff.mp hhead
  rw [probeDeployedExecutable, Effect.bind_of_ok hlift, Effect.bind_of_ok hlift',
    Effect.bind_of_ok hresponse, hentries]
  dsimp only
  rw [htext]
  cases executable with
  | wasm own =>
    exact ⟨_, _, rfl, fun hash =>
      ⟨fun heq => (Option.some.inj heq).symm, fun heq => congrArg _ heq.symm⟩⟩
  | stellarAsset => exact ⟨_, _, rfl, fun hash => iff_of_false (fun heq => by cases heq) id⟩
  | externalRef owner tag =>
    have hresolve := resolve_external_eq_ok_iff h hserves owner tag (sent ++ [[key]])
    cases hrun : resolveExternalExecutable crates node owner tag (sent ++ [[key]]) with
    | mk result sent' =>
      rw [hrun] at hresolve
      dsimp only
      rw [hrun]
      cases result with
      | ok own =>
        refine ⟨_, _, rfl, fun hash => ?_⟩
        rw [Read, ← hresolve hash]
        simp [DeployedExecutable.decoded]
      | error e =>
        refine ⟨_, _, rfl, fun hash => ?_⟩
        rw [Read, ← hresolve hash]
        simp [DeployedExecutable.decoded]

end Serves

/-- The executable as it is decoded is read as it is named, if its tag is a text. -/
theorem read_iff_named {executable : Executable}
    (htext : ∀ id tag, executable = .externalRef (.contract id) tag →
      ∃ text, tag = Utf8Lossy.encode text) (state : LedgerState) (hash : String) :
    Read crates state (mapExecutable executable) hash ↔ Named crates state executable hash := by
  cases executable with
  | wasm own => exact Iff.rfl
  | stellarAsset => exact Iff.rfl
  | externalRef owner tag =>
    have htag : ∀ id, owner = .contract id →
        Utf8Lossy.encode (String.ofList (Utf8Lossy.decode tag)) = tag := by
      rintro id rfl
      obtain ⟨text, rfl⟩ := htext id tag rfl
      rw [Utf8Lossy.decode_encode, String.ofList_toList]
    rw [mapExecutable, Read, Named]
    refine exists_congr fun id => and_congr_right fun hid => ?_
    rw [htag id hid]

/-! ### A ledger with an entry for a tag -/

/-- An entry with contract data. -/
def entryOf (crates : ProbeCrates ScVal Other Ext) (ext : Ext) (key : String)
    (data : DataEntry ScVal) : LedgerEntryResult where
  key := key
  xdr := Base64.encode (crates.writeEntry ⟨0, .contractData data, ext⟩)
  lastModifiedLedgerSeq := 0
  liveUntilLedgerSeq := none
  value := none

/-- The key of the instance of a contract, given by its hex. -/
theorem encodeLedgerKey_contractData {id : Bytes32} {raw : List UInt8}
    (hraw : crates.writeDataKey (.contract id) crates.ledgerKeyContractInstance .persistent =
      .ok raw) :
    contractIdToHex crates (Hex.encode id.toList) = .ok (Hex.encode id.toList) ∧
      encodeLedgerKey crates (.contractData (Hex.encode id.toList)) =
        .ok (Base64.encode raw) := by
  have hbytes : toBytes32 id.toList = some id := by
    rw [toBytes32, dif_pos (by simp), Option.some.injEq, ← Vector.toArray_inj]
    exact Array.toArray_toList
  have hhex : hexDecode (Hex.encode id.toList) = .ok id.toList := by
    rw [hexDecode, Hex.decode_encode]
  constructor
  · rw [contractIdToHex, hhex]
    show (match toBytes32 id.toList with
      | some _ => _
      | none => _) = _
    rw [hbytes]
  · simp only [encodeLedgerKey, hhex, hbytes, hraw]
    rfl

/-- If both report what a reference to a contract names in every ledger, the tag is a text. -/
theorem exists_text_of_faithful (h : crates.Documented) (ext : Ext) {data : DataEntry ScVal}
    {id : Bytes32} {tag : List UInt8}
    (hdata : crates.instanceExecutable data.val = some (.externalRef (.contract id) tag))
    (hle : tag.length ≤ scStringMax)
    (hfaithful : Faithful crates data (.externalRef (.contract id) tag)) :
    ∃ text, tag = Utf8Lossy.encode text := by
  obtain ⟨raw, hraw⟩ := h.exists_writeDataKey (.contract id) (crates.executableTag ⟨tag, hle⟩)
    .persistent
  let owner : Bytes32 := Vector.replicate 32 0
  obtain ⟨raw', hraw'⟩ := h.exists_writeDataKey (.contract owner) crates.ledgerKeyContractInstance
    .persistent
  obtain ⟨value, hvalue⟩ := h.exists_bytes (Vector.replicate 32 0)
  have hkeys : Base64.encode raw' ≠ Base64.encode raw := fun heq => by
    obtain rfl := Base64.encode_injective heq
    exact h.executableTag_ne _ (h.writeDataKey_inj _ _ _ _ _ _ _ hraw hraw')
  let stored := entryOf crates ext (Base64.encode raw)
    ⟨.contract id, crates.executableTag ⟨tag, hle⟩, .persistent, value⟩
  let own := entryOf crates ext (Base64.encode raw') data
  let state := LedgerState.pair stored own
  have hget : state.get? (Base64.encode raw') = some own :=
    (if_neg hkeys).trans (if_pos rfl)
  have htext : IsEntryText crates data own.xdr := .inl ⟨0, ext, rfl⟩
  obtain ⟨hhex, hkey⟩ := encodeLedgerKey_contractData hraw'
  have hextract := extractContractExecutable_of_isEntryText h hdata htext
  obtain ⟨report, sent', hrun, -, hnamed⟩ := hfaithful (state.serving 0) state 0 _ _ _ own []
    (Hex.encode (Vector.replicate 32 0).toList) (state.serves_serving 0) hhex hkey hget htext
  obtain ⟨report', sent'', hrun', hread⟩ :=
    probe_eq_ok h (state.serves_serving 0) hhex hkey hget hextract []
  rw [hrun] at hrun'
  obtain rfl := Except.ok.inj (Prod.mk.inj hrun').1
  have hstored : StoredHash crates state id tag (Hex.encode (Vector.replicate 32 0).toList) :=
    ⟨hle, stored, _, _, ⟨raw, hraw, if_pos rfl⟩,
      extract_standard h.xdr (fun _ _ hok => by cases hok) 0 ext, hvalue, by simp, rfl⟩
  obtain ⟨id', hid', hle', entry, -, -, ⟨raw'', hraw'', hget''⟩, -⟩ :=
    (hread _).mp (hnamed.mpr ⟨id, rfl, hstored⟩)
  obtain rfl := ScAddress.contract.inj hid'
  have hraw''' : raw'' = raw ∨ raw'' = raw' := by
    have hpair : (if Base64.encode raw'' = Base64.encode raw then some stored
      else if Base64.encode raw'' = Base64.encode raw' then some own else none) = some entry :=
      hget''
    split at hpair
    · next heq => exact .inl (Base64.encode_injective heq)
    · split at hpair
      · next heq => exact .inr (Base64.encode_injective heq)
      · cases hpair
  obtain rfl | rfl := hraw'''
  · have htag := h.executableTag_inj (h.writeDataKey_inj _ _ _ _ _ _ _ hraw'' hraw)
    exact ⟨_, (congrArg VecM.items htag).symm⟩
  · exact absurd (h.writeDataKey_inj _ _ _ _ _ _ _ hraw'' hraw') (h.executableTag_ne _)
/-- **Both functions report what an executable names exactly if the tag, of a reference to a
contract, is a text.** -/
theorem faithful_iff (h : crates.Documented) (ext : Ext) {data : DataEntry ScVal}
    {executable : Executable} (hdata : crates.instanceExecutable data.val = some executable)
    (hallowed : ∀ owner tag, executable = .externalRef owner tag → tag.length ≤ scStringMax) :
    Faithful crates data executable ↔
      ∀ id tag, executable = .externalRef (.contract id) tag →
        ∃ text, tag = Utf8Lossy.encode text := by
  constructor
  · rintro hfaithful id tag rfl
    exact exists_text_of_faithful h ext hdata (hallowed _ _ rfl) hfaithful
  · intro htext node state ledger contractId contractIdHex key entry sent hash hserves hid hkey hget
      hentry
    have hextract := extractContractExecutable_of_isEntryText h hdata hentry
    obtain ⟨report, sent', hrun, hread⟩ := probe_eq_ok h hserves hid hkey hget hextract sent
    refine ⟨report, sent', hrun, ?_, ?_⟩
    · rw [hread, resolveInspection_eq_ok_iff h hserves hextract]
    · rw [hread, read_iff_named htext]

end

/-! ### Values of instances, tags and hashes -/

/-- The values that instances and their references are made of. -/
inductive ProbeVal
  | bytes (bytes : VecM scStringMax UInt8)
  | wasmInstance (hash : Bytes32)
  | externalInstance (owner : ScAddress) (tag : VecM scStringMax UInt8)
  | ledgerKeyContractInstance
  | executableTag (tag : VecM scStringMax UInt8)

theorem scStringMax_lt : scStringMax < 256 ^ 4 := by decide

/-- The encoding of a string. -/
def scStringCodec : Codec (VecM scStringMax UInt8) :=
  (bytesCodec scStringMax scStringMax_lt).toCodec

/-- The encoding of an instance without storage: its executable has an arm of its own. -/
def instanceCodec : Codec (Bytes32 ⊕ (ScAddress × VecM scStringMax UInt8)) :=
  .union (fun | .inl _ => 0 | .inr _ => 2) (by rintro (_ | _) <;> simp)
    (fun
      | .inl hash => (Codec.pair (.fixed 32) (.discriminated 0 .empty)).write (hash, ())
      | .inr reference => (Codec.pair (.pair addressCodec scStringCodec)
          (.discriminated 0 .empty)).write (reference, ()))
    (fun arm bytes =>
      match arm with
      | 0 => ((Codec.pair (.fixed 32) (.discriminated 0 .empty)).read bytes).map
          fun ((hash, _), rest) => (.inl hash, rest)
      | 2 => ((Codec.pair (.pair addressCodec scStringCodec)
          (.discriminated 0 .empty)).read bytes).map fun ((reference, _), rest) =>
            (.inr reference, rest)
      | _ => none)
    (by rintro (hash | reference) rest <;> simp only [Codec.read_write, Option.map_some])

/-- The encoding of these values. -/
def probeValCodec : Codec ProbeVal :=
  .union
    (fun
      | .bytes _ => 13
      | .wasmInstance _ => 19
      | .externalInstance .. => 19
      | .ledgerKeyContractInstance => 20
      | .executableTag _ => 22)
    (by rintro (_ | _ | _ | _ | _) <;> simp)
    (fun
      | .bytes b => scStringCodec.write b
      | .wasmInstance hash => instanceCodec.write (.inl hash)
      | .externalInstance owner tag => instanceCodec.write (.inr (owner, tag))
      | .ledgerKeyContractInstance => []
      | .executableTag tag => scStringCodec.write tag)
    (fun arm bytes =>
      match arm with
      | 13 => (scStringCodec.read bytes).map fun (b, rest) => (.bytes b, rest)
      | 19 => (instanceCodec.read bytes).map fun (executable, rest) =>
          (executable.elim .wasmInstance fun r => .externalInstance r.1 r.2, rest)
      | 20 => some (.ledgerKeyContractInstance, bytes)
      | 22 => (scStringCodec.read bytes).map fun (tag, rest) => (.executableTag tag, rest)
      | _ => none)
    (by
      rintro (b | hash | ⟨owner, tag⟩ | _ | tag) rest
      · simp only [Codec.read_write, Option.map_some]
      · simp only [Codec.read_write, Option.map_some, Sum.elim_inl]
      · simp only [Codec.read_write, Option.map_some, Sum.elim_inr]
      · rfl
      · simp only [Codec.read_write, Option.map_some])

/-- The encoding of the key of contract data. -/
def dataKeyCodec : Codec (ScAddress × ProbeVal × Durability) :=
  .discriminated 6 (.pair addressCodec (.pair probeValCodec durabilityCodec))

/-- The crates with these values. -/
def probeCrates : ProbeCrates ProbeVal Bytes32 Unit where
  toEntryXdr := entryXdrOf probeValCodec fun
    | .wasmInstance hash => some (.wasm hash)
    | .externalInstance owner tag => some (.externalRef owner tag.items)
    | _ => none
  strkey := Xdr.parseStrkey
  addressText
    | .contract id => Xdr.strkeyText 16 id.toList
    | .account ⟨.ed25519 key⟩ => Xdr.strkeyText 48 key.toList
    | _ => ""
  ledgerKeyContractInstance := .ledgerKeyContractInstance
  executableTag := .executableTag
  bytes
    | .bytes b => some b.items
    | _ => none
  name
    | .bytes _ => "Bytes"
    | .wasmInstance _ => "ContractInstance"
    | .externalInstance .. => "ContractInstance"
    | .ledgerKeyContractInstance => "LedgerKeyContractInstance"
    | .executableTag _ => "ExecutableTag"
  writeDataKey contract key durability := .ok (dataKeyCodec.write (contract, key, durability))
  decodeText _ := "decoding failed"
  readText _ := "reading failed"

/-- Keys are told apart by their values. -/
theorem key_eq_of_write {contract contract' : ScAddress} {key key' : ProbeVal}
    {durability durability' : Durability}
    (h : dataKeyCodec.write (contract, key, durability) =
      dataKeyCodec.write (contract', key', durability')) : key = key' := by
  have hread := dataKeyCodec.read_write (contract, key, durability) []
  have hread' := dataKeyCodec.read_write (contract', key', durability') []
  rw [h, hread'] at hread
  have hpair : (contract', key', durability') = (contract, key, durability) :=
    congrArg Prod.fst (Option.some.inj hread)
  exact (congrArg (fun p => p.2.1) hpair).symm

theorem probeCrates_documented : probeCrates.Documented where
  xdr := entryXdrOf_documented probeValCodec _
  strkey_addressText id := by
    have haddress : probeCrates.addressText (.contract id) = Xdr.strkeyText 16 id.toList := rfl
    have hstrkey : probeCrates.strkey = Xdr.parseStrkey := rfl
    rw [haddress, hstrkey, Xdr.trim_strkeyText, Xdr.parseStrkey_strkeyText]
  exists_writeDataKey contract key durability := ⟨_, rfl⟩
  writeDataKey_inj _ _ _ _ _ _ _ hraw hraw' :=
    key_eq_of_write ((Except.ok.inj hraw).trans (Except.ok.inj hraw').symm)
  executableTag_inj tag tag' heq := ProbeVal.executableTag.inj heq
  executableTag_ne tag heq := by cases heq
  exists_bytes hash :=
    ⟨.bytes ⟨hash.toList, Vector.length_toList.trans_le (by decide)⟩, rfl⟩

/-- The instance of a contract with an executable. -/
def probeInstance (val : ProbeVal) : DataEntry ProbeVal where
  contract := .contract (.replicate 32 0x11)
  key := .ledgerKeyContractInstance
  durability := .persistent
  val := val

/-- A reference with a tag that is a text is reported by both. -/
theorem faithful_token : Faithful probeCrates
    (probeInstance
      (.externalInstance (.contract (.replicate 32 0x22)) ⟨[116, 111, 107], by decide⟩))
    (.externalRef (.contract (.replicate 32 0x22)) [116, 111, 107]) := by
  refine (faithful_iff probeCrates_documented () rfl ?_).mpr ?_
  · intro owner tag heq
    obtain ⟨-, rfl⟩ := Executable.externalRef.inj heq
    decide
  · intro id tag heq
    obtain ⟨-, rfl⟩ := Executable.externalRef.inj heq
    exact ⟨"tok", by decide⟩

/-- A reference with a tag of one byte that is no text: the entry for another tag is read. -/
theorem not_faithful_byte : ¬ ∀ tag : VecM scStringMax UInt8, Faithful probeCrates
    (probeInstance (.externalInstance (.contract (.replicate 32 0x22)) tag))
    (.externalRef (.contract (.replicate 32 0x22)) tag.items) := by
  intro h
  obtain ⟨text, htext⟩ := exists_text_of_faithful probeCrates_documented () rfl
    (by decide : [255].length ≤ scStringMax) (h ⟨[255], by decide⟩)
  have hdecode := Utf8Lossy.decode_encode text
  rw [← htext] at hdecode
  have hlist : text.toList = [Utf8Lossy.replacement] := hdecode.symm.trans (by decide)
  have hencode : Utf8Lossy.encode text = [0xEF, 0xBF, 0xBD] := by
    rw [Utf8Lossy.encode, hlist]
    decide
  rw [hencode] at htext
  cases htext

end Executables

end SorobanDevkit.Rpc
