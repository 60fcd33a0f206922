import SorobanDevkit.Xdr.Payload

/-!
# Two layouts of ledger entries

The `stellar-xdr` crate writes a ledger entry with the number of the ledger of its last change
first, and some servers send the data of the entry first. `extract_wasm_hash`,
`extract_contract_executable` and `extract_contract_data_value` of `sdkt-xdr/src/lib.rs` read the
bytes in the first layout and, if that fails to parse, in the second.

Contract data that come first are never read in the first layout: their number of the arm is taken
for the ledger, their extension for the arm of an account, and the kind of the contract's address
for the kind of the account's key, which it is not.

Contract values, the entries of other kinds and the extensions of entries are parameters.
-/

namespace SorobanDevkit.Xdr

namespace EntryLayout

open Payload (detectAndDecode)

/-! ### Ledger entries -/

/-- `ContractExecutable`, with the reference of CAP-85 to an entry of another contract. -/
inductive Executable
  | wasm (hash : Bytes32)
  | stellarAsset
  | externalRef (executableOwner : ScAddress) (tag : List UInt8)
  deriving DecidableEq

/-- `ContractDataDurability`. -/
inductive Durability
  | temporary
  | persistent
  deriving DecidableEq

/-- `ContractDataEntry`. Its extension has one form. -/
structure DataEntry (ScVal : Type) where
  contract : ScAddress
  key : ScVal
  durability : Durability
  val : ScVal
  deriving DecidableEq

/-- `LedgerEntryData`. -/
inductive EntryData (ScVal Other : Type)
  | contractData (data : DataEntry ScVal)
  | other (data : Other)

/-- `LedgerEntry`. -/
structure Entry (ScVal Other Ext : Type) where
  lastModifiedLedgerSeq : UInt32
  data : EntryData ScVal Other
  ext : Ext

/-- The readers and writers of the `stellar-xdr` crate without limits, and the executable of a value
`ScVal::ContractInstance`. -/
structure EntryXdr (ScVal Other Ext : Type) where
  readEntry : List UInt8 → Except String (Entry ScVal Other Ext × List UInt8)
  readData : List UInt8 → Except String (EntryData ScVal Other × List UInt8)
  writeEntry : Entry ScVal Other Ext → List UInt8
  writeData : EntryData ScVal Other → List UInt8
  instanceExecutable : ScVal → Option Executable

/-- What is documented of them. The readers invert the writers. An entry is its ledger, its data and
its extension, one after the other. Data begin with the number of their arm; contract data are arm 6
and begin with an extension that has only arm 0 and an address, of which a contract is arm 1. An
account is arm 0 and begins with a public key, which has only arm 0. -/
structure EntryXdr.Documented {ScVal Other Ext : Type} (xdr : EntryXdr ScVal Other Ext) : Prop where
  read_write_entry : ∀ entry rest, xdr.readEntry (xdr.writeEntry entry ++ rest) = .ok (entry, rest)
  read_write_data : ∀ data rest, xdr.readData (xdr.writeData data ++ rest) = .ok (data, rest)
  entry_layout : ∀ entry, ∃ ext, xdr.writeEntry entry =
    bigEndian 4 entry.lastModifiedLedgerSeq.toNat ++ (xdr.writeData entry.data ++ ext)
  read_entry_data : ∀ n rest, n < 2 ^ 32 → (∃ e, xdr.readData rest = .error e) →
    ∃ e, xdr.readEntry (bigEndian 4 n ++ rest) = .error e
  contract_layout : ∀ data id, data.contract = .contract id → ∃ rest,
    xdr.writeData (.contractData data) =
      bigEndian 4 6 ++ (bigEndian 4 0 ++ (bigEndian 4 1 ++ rest))
  account_key : ∀ n rest, n ≠ 0 → n < 2 ^ 32 →
    ∃ e, xdr.readData (bigEndian 4 0 ++ (bigEndian 4 n ++ rest)) = .error e

/-! ### The two readings -/

section Extract

variable {ScVal Other Ext α : Type} (xdr : EntryXdr ScVal Other Ext)
  (select : DataEntry ScVal → Except Payload.DecodeError α)

/-- What is taken out of the data of an entry. -/
def selectData : EntryData ScVal Other → Except Payload.DecodeError α
  | .contractData data => select data
  | .other _ => .error (.extraction "Not a ContractData entry")

/-- `extract_wasm_hash_standard` and its like: the layout with the ledger first. -/
def extractStandard (raw : List UInt8) : Except Payload.DecodeError α := do
  let (entry, _) ← (xdr.readEntry raw).mapError (.xdrParse "LedgerEntry")
  selectData select entry.data

/-- `extract_wasm_hash_from_live_ledger_entry` and its like: the layout with the data first. -/
def extractLive (raw : List UInt8) : Except Payload.DecodeError α := do
  let (data, _) ← (xdr.readData raw).mapError (.xdrParse "LedgerEntryData(live)")
  selectData select data

/-- The common form of the three functions. -/
def extract (base64LedgerEntry : String) : Except Payload.DecodeError α := do
  let raw ← detectAndDecode base64LedgerEntry true
  match extractStandard xdr select raw with
  | .ok a => .ok a
  | .error (.xdrParse _ _) => extractLive xdr select raw
  | .error e => .error e

/-! ### What is extracted -/

/-- `extract_hash_from_contract_data`. -/
def extractHashFromContractData (data : DataEntry ScVal) : Except Payload.DecodeError String :=
  match xdr.instanceExecutable data.val with
  | none => .error (.extraction "Not a ContractInstance")
  | some (.wasm hash) => .ok (Hex.encode hash.toList)
  | some _ => .error (.extraction "Not a Wasm executable")

/-- `ContractExecutableRef`. -/
inductive ContractExecutableRef
  | wasm (hash : Bytes32)
  | stellarAsset
  | externalRef (owner : ScAddress) (tag : String)
  deriving DecidableEq

/-- `map_executable`. -/
def mapExecutable : Executable → ContractExecutableRef
  | .wasm hash => .wasm hash
  | .stellarAsset => .stellarAsset
  | .externalRef owner tag => .externalRef owner (String.ofList (Utf8Lossy.decode tag))

/-- `executable_from_contract_data`. -/
def executableFromContractData (data : DataEntry ScVal) :
    Except Payload.DecodeError ContractExecutableRef :=
  match xdr.instanceExecutable data.val with
  | none => .error (.extraction "Not a ContractInstance")
  | some executable => .ok (mapExecutable executable)

/-- `extract_wasm_hash`. -/
def extractWasmHash (base64LedgerEntry : String) : Except Payload.DecodeError String :=
  extract xdr (extractHashFromContractData xdr) base64LedgerEntry

/-- `extract_contract_executable`. -/
def extractContractExecutable (base64LedgerEntry : String) :
    Except Payload.DecodeError ContractExecutableRef :=
  extract xdr (executableFromContractData xdr) base64LedgerEntry

/-- `extract_contract_data_value`. -/
def extractContractDataValue (base64LedgerEntry : String) : Except Payload.DecodeError
    (DataEntry ScVal) :=
  extract xdr .ok base64LedgerEntry

end Extract

/-! ### The layouts are told apart -/

section Layouts

variable {ScVal Other Ext α : Type} {xdr : EntryXdr ScVal Other Ext}
  {select : DataEntry ScVal → Except Payload.DecodeError α}

/-- What is taken out of contract data fails, if at all, without a parse error. -/
def NoParseError (outcome : Except Payload.DecodeError α) : Prop :=
  ∀ type e, outcome ≠ .error (.xdrParse type e)

/-- Contract data are read in the layout with the ledger first. -/
theorem extractStandard_write (h : xdr.Documented) (data : DataEntry ScVal) (seq : UInt32)
    (ext : Ext) :
    extractStandard xdr select (xdr.writeEntry ⟨seq, .contractData data, ext⟩) = select data := by
  have hread := h.read_write_entry ⟨seq, .contractData data, ext⟩ []
  rw [List.append_nil] at hread
  rw [extractStandard, hread]
  rfl

/-- Contract data are read in the layout with the data first, whatever follows. -/
theorem extractLive_write (h : xdr.Documented) (data : DataEntry ScVal) (trailing : List UInt8) :
    extractLive xdr select (xdr.writeData (.contractData data) ++ trailing) = select data := by
  rw [extractLive, h.read_write_data]
  rfl

/-- **Data that come first are not read in the first layout.** The kind of the contract's address is
no kind of key. -/
theorem standard_fails_on_live (select : DataEntry ScVal → Except Payload.DecodeError α)
    (h : xdr.Documented)
    {data : DataEntry ScVal} {id : Bytes32}
    (hcontract : data.contract = .contract id) (trailing : List UInt8) :
    ∃ e, extractStandard xdr select (xdr.writeData (.contractData data) ++ trailing) =
      .error (.xdrParse "LedgerEntry" e) := by
  obtain ⟨rest, hwrite⟩ := h.contract_layout data id hcontract
  have haccount := h.account_key 1 (rest ++ trailing) (by decide) (by decide)
  obtain ⟨e, he⟩ := h.read_entry_data 6 _ (by decide) haccount
  refine ⟨e, ?_⟩
  rw [extractStandard, hwrite]
  simp only [List.append_assoc, he]
  rfl

theorem writeEntry_ne_nil (h : xdr.Documented) (entry : Entry ScVal Other Ext) :
    xdr.writeEntry entry ≠ [] := by
  obtain ⟨ext, hwrite⟩ := h.entry_layout entry
  rw [hwrite, bigEndian_four]
  exact List.cons_ne_nil _ _

/-- The text with the ledger first gives what is taken out of the data. -/
theorem extract_standard (h : xdr.Documented) {data : DataEntry ScVal}
    (hselect : NoParseError (select data)) (seq : UInt32) (ext : Ext) :
    extract xdr select (Base64.encode (xdr.writeEntry ⟨seq, .contractData data, ext⟩)) =
      select data := by
  rw [extract, Payload.detectAndDecode_encode (writeEntry_ne_nil h _)]
  simp only [bind, Except.bind, extractStandard_write h]
  cases hdata : select data with
  | ok a => rfl
  | error e =>
    cases e with
    | xdrParse type e => exact absurd hdata (hselect type e)
    | _ => rfl

/-- The text with the data first gives the same. -/
theorem extract_live (h : xdr.Documented) {data : DataEntry ScVal} {id : Bytes32}
    (hcontract : data.contract = .contract id) (trailing : List UInt8) :
    extract xdr select (Base64.encode (xdr.writeData (.contractData data) ++ trailing)) =
      select data := by
  obtain ⟨rest, hwrite⟩ := h.contract_layout data id hcontract
  have hne : xdr.writeData (.contractData data) ++ trailing ≠ [] := by
    rw [hwrite, bigEndian_four]
    exact List.cons_ne_nil _ _
  obtain ⟨e, he⟩ := standard_fails_on_live select h hcontract trailing
  rw [extract, Payload.detectAndDecode_encode hne]
  simp only [bind, Except.bind, he, extractLive_write h]

theorem noParseError_hash (data : DataEntry ScVal) :
    NoParseError (extractHashFromContractData xdr data) := by
  intro type e
  rw [extractHashFromContractData]
  split <;> simp

theorem noParseError_executable (data : DataEntry ScVal) :
    NoParseError (executableFromContractData xdr data) := by
  intro type e
  rw [executableFromContractData]
  split <;> simp

/-- **The layouts are never confused.** For the data of a contract, each function returns the same
for the layout with the ledger first and for the layout with the data first, whatever follows the
data: what there is to take out of them. -/
theorem layouts_agree (h : xdr.Documented) (data : DataEntry ScVal) (id : Bytes32)
    (hcontract : data.contract = .contract id) (seq : UInt32) (ext : Ext) (trailing : List UInt8) :
    let standard := Base64.encode (xdr.writeEntry ⟨seq, .contractData data, ext⟩)
    let live := Base64.encode (xdr.writeData (.contractData data) ++ trailing)
    (extractWasmHash xdr standard = extractHashFromContractData xdr data ∧
      extractWasmHash xdr live = extractHashFromContractData xdr data) ∧
    (extractContractExecutable xdr standard = executableFromContractData xdr data ∧
      extractContractExecutable xdr live = executableFromContractData xdr data) ∧
    (extractContractDataValue xdr standard = .ok data ∧
      extractContractDataValue xdr live = .ok data) := by
  refine ⟨⟨?_, ?_⟩, ⟨?_, ?_⟩, ?_, ?_⟩
  · exact extract_standard h (noParseError_hash data) seq ext
  · exact extract_live h hcontract trailing
  · exact extract_standard h (noParseError_executable data) seq ext
  · exact extract_live h hcontract trailing
  · exact extract_standard h (fun _ _ hdata => by cases hdata) seq ext
  · exact extract_live h hcontract trailing

end Layouts

/-! ### The instances of contracts with code of their own -/

/-- The key of an instance, and an instance with a hash and no storage. -/
inductive InstanceVal
  | ledgerKeyContractInstance
  | wasmInstance (hash : Bytes32)
  deriving DecidableEq

/-- The encoding of an address. -/
def addressCodec : Codec ScAddress :=
  .union
    (fun
      | .account _ => 0
      | .contract _ => 1
      | .muxedAccount .. => 2
      | .claimableBalance _ => 3
      | .liquidityPool _ => 4)
    (by rintro (_ | _ | _ | _ | _) <;> simp)
    (fun
      | .account ⟨.ed25519 key⟩ => (Codec.discriminated 0 (.fixed 32)).write key
      | .contract id => (Codec.fixed 32).write id
      | .muxedAccount id key => (Codec.pair .u64 (.fixed 32)).write (id, key)
      | .claimableBalance id => (Codec.discriminated 0 (.fixed 32)).write id
      | .liquidityPool id => (Codec.fixed 32).write id)
    (fun arm bytes =>
      match arm with
      | 0 => ((Codec.discriminated 0 (.fixed 32)).read bytes).map fun (key, rest) =>
          (.account ⟨.ed25519 key⟩, rest)
      | 1 => ((Codec.fixed 32).read bytes).map fun (id, rest) => (.contract id, rest)
      | 2 => ((Codec.pair .u64 (.fixed 32)).read bytes).map fun ((id, key), rest) =>
          (.muxedAccount id key, rest)
      | 3 => ((Codec.discriminated 0 (.fixed 32)).read bytes).map fun (id, rest) =>
          (.claimableBalance id, rest)
      | 4 => ((Codec.fixed 32).read bytes).map fun (id, rest) => (.liquidityPool id, rest)
      | _ => none)
    (by
      intro address rest
      rcases address with ⟨⟨key⟩⟩ | id | ⟨id, key⟩ | id |
        id <;> simp only [Codec.read_write, Option.map_some])

/-- The encoding of the values of instances. -/
def valCodec : Codec InstanceVal :=
  .union
    (fun
      | .ledgerKeyContractInstance => 20
      | .wasmInstance _ => 19)
    (by rintro (_ | _) <;> simp)
    (fun
      | .ledgerKeyContractInstance => []
      | .wasmInstance hash =>
        (Codec.discriminated 0 (.pair (.fixed 32) (.discriminated 0 .empty))).write (hash, ()))
    (fun arm bytes =>
      match arm with
      | 19 => ((Codec.discriminated 0 (.pair (.fixed 32) (.discriminated 0 .empty))).read bytes).map
          fun ((hash, _), rest) => (.wasmInstance hash, rest)
      | 20 => some (.ledgerKeyContractInstance, bytes)
      | _ => none)
    (by
      rintro (_ | hash) rest
      · rfl
      · simp only [Codec.read_write, Option.map_some])

/-- The encoding of a durability. -/
def durabilityCodec : Codec Durability :=
  .union (fun | .temporary => 0 | .persistent => 1) (by rintro (_ | _) <;> simp) (fun _ => [])
    (fun arm bytes =>
      match arm with
      | 0 => some (.temporary, bytes)
      | 1 => some (.persistent, bytes)
      | _ => none)
    (by rintro (_ | _) rest <;> rfl)

section ValueEncoding

variable {ScVal : Type} (value : Codec ScVal)

/-- The encoding of contract data, with that of values. -/
def dataEntryCodec : Codec (DataEntry ScVal) :=
  (Codec.pair addressCodec (.pair value (.pair durabilityCodec value))).ofInverse
    (fun data => (data.contract, data.key, data.durability, data.val))
    (fun (contract, key, durability, val) => ⟨contract, key, durability, val⟩) (fun _ => rfl)

/-- The encoding of data: of a contract, or of an account, of which there is the key only. -/
def entryDataCodec : Codec (EntryData ScVal Bytes32) :=
  .union (fun | .contractData _ => 6 | .other _ => 0) (by rintro (_ | _) <;> simp)
    (fun
      | .contractData data => (Codec.discriminated 0 (dataEntryCodec value)).write data
      | .other key => (Codec.discriminated 0 (.fixed 32)).write key)
    (fun arm bytes =>
      match arm with
      | 0 => ((Codec.discriminated 0 (.fixed 32)).read bytes).map fun (key, rest) =>
        (.other key, rest)
      | 6 => ((Codec.discriminated 0 (dataEntryCodec value)).read bytes).map fun (data, rest) =>
          (.contractData data, rest)
      | _ => none)
    (by rintro (data | key) rest <;> simp only [Codec.read_write, Option.map_some])

/-- The encoding of an entry. Its extension is arm 0. -/
def entryCodec : Codec (Entry ScVal Bytes32 Unit) :=
  (Codec.pair .u32 (.pair (entryDataCodec value) (.discriminated 0 .empty))).ofInverse
    (fun entry => (entry.lastModifiedLedgerSeq, entry.data, entry.ext))
    (fun (seq, data, ext) => ⟨seq, data, ext⟩) (fun _ => rfl)

/-- The readers and writers of these entries. -/
def entryXdrOf (instanceExecutable : ScVal → Option Executable) : EntryXdr ScVal Bytes32 Unit where
  readEntry := (entryCodec value).readOr "xdr value invalid"
  readData := (entryDataCodec value).readOr "xdr value invalid"
  writeEntry := (entryCodec value).write
  writeData := (entryDataCodec value).write
  instanceExecutable := instanceExecutable

theorem entryXdrOf_documented (instanceExecutable : ScVal → Option Executable) :
    (entryXdrOf value instanceExecutable).Documented where
  read_write_entry := (entryCodec value).readOr_write "xdr value invalid"
  read_write_data := (entryDataCodec value).readOr_write "xdr value invalid"
  entry_layout entry := ⟨_, rfl⟩
  read_entry_data n rest hn hdata := by
    have hnone := Codec.readOr_eq_error_iff.mp hdata
    refine Codec.readOr_eq_error_iff.mpr ?_
    simp only [entryCodec, Codec.ofInverse, Codec.pair, Codec.u32_read hn, hnone, bind,
      Option.bind, Option.map]
  contract_layout data id hcontract := by
    obtain ⟨contract, key, durability, val⟩ := data
    obtain rfl : contract = .contract id := hcontract
    refine ⟨(Codec.fixed 32).write id ++
      (Codec.pair value (.pair durabilityCodec value)).write (key, durability, val), ?_⟩
    rw [← List.append_assoc (bigEndian 4 1)]
    rfl
  account_key n rest hne hn := by
    have hlength := length_bigEndian 4 0
    have harm : ofBigEndian (bigEndian 4 0) = 0 := ofBigEndian_bigEndian (by decide)
    have hkey : ¬ bigEndian 4 0 <+: bigEndian 4 n ++ rest := by
      rw [bigEndian_prefix_iff (by decide) (hn.trans_eq (by decide))]
      exact hne.symm
    refine Codec.readOr_eq_error_iff.mpr ?_
    simp only [entryDataCodec, Codec.union, List.take_left' hlength, List.drop_left' hlength,
      List.length_append, hlength, Nat.le_add_right, if_true]
    simp only [harm, Codec.discriminated, if_neg hkey, Option.map_none]

end ValueEncoding

/-- The readers and writers of these entries, with the values of instances. -/
def instanceXdr : EntryXdr InstanceVal Bytes32 Unit :=
  entryXdrOf valCodec fun
    | .ledgerKeyContractInstance => none
    | .wasmInstance hash => some (.wasm hash)

theorem instanceXdr_documented : instanceXdr.Documented := entryXdrOf_documented valCodec _

/-- The instance of a contract. -/
def instanceData : DataEntry InstanceVal where
  contract := .contract (.replicate 32 0x11)
  key := .ledgerKeyContractInstance
  durability := .persistent
  val := .wasmInstance (.replicate 32 0x2a)

/-- The text of its entry with the ledger first. -/
def standardText : String :=
  Base64.encode (instanceXdr.writeEntry ⟨77, .contractData instanceData, ()⟩)

/-- The text of its entry with the data first, and then the ledger and the extension. -/
def liveText : String :=
  Base64.encode (instanceXdr.writeData (.contractData instanceData) ++ [0, 0, 0, 77, 0, 0, 0, 0])

theorem layouts_agree_instance :
    extractWasmHash instanceXdr liveText = extractWasmHash instanceXdr standardText ∧
      extractContractExecutable instanceXdr liveText =
        extractContractExecutable instanceXdr standardText ∧
      extractContractDataValue instanceXdr liveText = .ok instanceData := by
  obtain ⟨⟨hash, hash'⟩, ⟨executable, executable'⟩, -, value⟩ :=
    layouts_agree instanceXdr_documented instanceData (.replicate 32 0x11) rfl 77 ()
      [0, 0, 0, 77, 0, 0, 0, 0]
  exact ⟨hash'.trans hash.symm, executable'.trans executable.symm, value⟩

end EntryLayout

end SorobanDevkit.Xdr
