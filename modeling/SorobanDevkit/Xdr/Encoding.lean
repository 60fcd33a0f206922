import SorobanDevkit.Library.Codec
import SorobanDevkit.Xdr.LedgerEntryLayout
import SorobanDevkit.Xdr.ScVal

/-!
# An encoding of values and ledger entries

A union is written as its discriminant followed by its payload, as in XDR. Here discriminants take
one byte and lengths are written in unary, so that values of every length have an encoding; what is
assumed of the encoding of the XDR crate, that reading inverts writing, is proved of this one. What
has no such parts, like the preimage of a contract id, is written in XDR.

## Main definitions

* `scValCodec`, `ledgerKeyCodec`, `ledgerEntryCodec`.

## Main results

* `readScVal_writeScVal` — a value is read back.
-/

namespace SorobanDevkit.Xdr

/-! ### Flat values -/

/-- Hashes and keys. -/
def bytes32Codec : Codec Bytes32 := .vector 32

/-- Byte strings. -/
def stringCodec : Codec (List UInt8) := .list .byte

/-- The position of an error type. -/
def ScErrorType.toByte : ScErrorType → UInt8
  | .contract => 0
  | .wasmVm => 1
  | .context => 2
  | .storage => 3
  | .object => 4
  | .crypto => 5
  | .events => 6
  | .budget => 7
  | .value => 8
  | .auth => 9

/-- The error type at a position. -/
def ScErrorType.ofByte : UInt8 → ScErrorType
  | 0 => .contract
  | 1 => .wasmVm
  | 2 => .context
  | 3 => .storage
  | 4 => .object
  | 5 => .crypto
  | 6 => .events
  | 7 => .budget
  | 8 => .value
  | _ => .auth

/-- Error types. -/
def errorTypeCodec : Codec ScErrorType :=
  Codec.byte.ofInverse ScErrorType.toByte ScErrorType.ofByte fun t => by cases t <;> rfl

/-- The discriminant of an address. -/
def ScAddress.tag : ScAddress → UInt8
  | .account _ => 0
  | .contract _ => 1
  | .muxedAccount .. => 2
  | .claimableBalance _ => 3
  | .liquidityPool _ => 4

/-- The payload of an address. -/
def ScAddress.payload : ScAddress → List UInt8
  | .account ⟨.ed25519 key⟩ => bytes32Codec.write key
  | .contract id => bytes32Codec.write id
  | .muxedAccount id key => (Codec.u64.pair bytes32Codec).write (id, key)
  | .claimableBalance id => bytes32Codec.write id
  | .liquidityPool id => bytes32Codec.write id

/-- The address with a discriminant. -/
def ScAddress.readPayload (tag : UInt8) (bytes : List UInt8) : Option (ScAddress × List UInt8) :=
  match tag with
  | 0 => (bytes32Codec.read bytes).map fun (key, rest) => (.account ⟨.ed25519 key⟩, rest)
  | 1 => (bytes32Codec.read bytes).map fun (id, rest) => (.contract id, rest)
  | 2 => ((Codec.u64.pair bytes32Codec).read bytes).map fun ((id, key), rest) =>
      (.muxedAccount id key, rest)
  | 3 => (bytes32Codec.read bytes).map fun (id, rest) => (.claimableBalance id, rest)
  | 4 => (bytes32Codec.read bytes).map fun (id, rest) => (.liquidityPool id, rest)
  | _ => none

/-- Addresses. -/
def addressCodec : Codec ScAddress :=
  .tagged ScAddress.tag ScAddress.payload ScAddress.readPayload fun a rest => by
    cases a <;>
      simp only [ScAddress.tag, ScAddress.payload, ScAddress.readPayload, Codec.read_write,
        Option.map_some]

/-- The payload of a flat value. -/
def Scalar.payload : Scalar → List UInt8
  | .bool b => Codec.bool.write b
  | .void | .ledgerKeyContractInstance => []
  | .error type code => (errorTypeCodec.pair .u32).write (type, code)
  | .u32 n => Codec.u32.write n
  | .i32 n => Codec.i32.write n
  | .u64 n | .timepoint n | .duration n => Codec.u64.write n
  | .i64 n | .ledgerKeyNonce n => Codec.i64.write n
  | .u128 hi lo => (Codec.u64.pair .u64).write (hi, lo)
  | .i128 hi lo => (Codec.i64.pair .u64).write (hi, lo)
  | .u256 a b c d => (Codec.u64.pair (.pair .u64 (.pair .u64 .u64))).write (a, b, c, d)
  | .i256 a b c d => (Codec.i64.pair (.pair .u64 (.pair .u64 .u64))).write (a, b, c, d)
  | .bytes b | .string b | .symbol b | .executableTag b => stringCodec.write b
  | .address a => addressCodec.write a

/-- The flat value with a discriminant. -/
def Scalar.readPayload (tag : UInt8) (bytes : List UInt8) : Option (Scalar × List UInt8) :=
  match tag with
  | 0 => (Codec.bool.read bytes).map fun (b, rest) => (.bool b, rest)
  | 1 => some (.void, bytes)
  | 2 => ((errorTypeCodec.pair .u32).read bytes).map fun ((type, code), rest) =>
      (.error type code, rest)
  | 3 => (Codec.u32.read bytes).map fun (n, rest) => (.u32 n, rest)
  | 4 => (Codec.i32.read bytes).map fun (n, rest) => (.i32 n, rest)
  | 5 => (Codec.u64.read bytes).map fun (n, rest) => (.u64 n, rest)
  | 6 => (Codec.i64.read bytes).map fun (n, rest) => (.i64 n, rest)
  | 7 => (Codec.u64.read bytes).map fun (n, rest) => (.timepoint n, rest)
  | 8 => (Codec.u64.read bytes).map fun (n, rest) => (.duration n, rest)
  | 9 => ((Codec.u64.pair .u64).read bytes).map fun ((hi, lo), rest) => (.u128 hi lo, rest)
  | 10 => ((Codec.i64.pair .u64).read bytes).map fun ((hi, lo), rest) => (.i128 hi lo, rest)
  | 11 => ((Codec.u64.pair (.pair .u64 (.pair .u64 .u64))).read bytes).map
      fun ((a, b, c, d), rest) => (.u256 a b c d, rest)
  | 12 => ((Codec.i64.pair (.pair .u64 (.pair .u64 .u64))).read bytes).map
      fun ((a, b, c, d), rest) => (.i256 a b c d, rest)
  | 13 => (stringCodec.read bytes).map fun (b, rest) => (.bytes b, rest)
  | 14 => (stringCodec.read bytes).map fun (s, rest) => (.string s, rest)
  | 15 => (stringCodec.read bytes).map fun (s, rest) => (.symbol s, rest)
  | 18 => (addressCodec.read bytes).map fun (a, rest) => (.address a, rest)
  | 20 => some (.ledgerKeyContractInstance, bytes)
  | 21 => (Codec.i64.read bytes).map fun (n, rest) => (.ledgerKeyNonce n, rest)
  | 22 => (stringCodec.read bytes).map fun (tag, rest) => (.executableTag tag, rest)
  | _ => none

/-- Flat values. -/
def scalarCodec : Codec Scalar :=
  .tagged (fun s => UInt8.ofNat s.discriminant) Scalar.payload Scalar.readPayload fun s rest => by
    cases s <;>
      simp [Scalar.discriminant, Scalar.payload, Scalar.readPayload, Codec.read_write]

/-- Executables of contracts. -/
def executableCodec : Codec ContractExecutable :=
  ((Codec.list bytes32Codec).pair (.list (addressCodec.pair stringCodec))).ofInverse
    (fun
      | .wasm hash => ([hash], [])
      | .stellarAsset => ([], [])
      | .externalRef owner tag => ([], [(owner, tag)]))
    (fun
      | (hash :: _, _) => .wasm hash
      | ([], reference :: _) => .externalRef reference.1 reference.2
      | ([], []) => .stellarAsset)
    fun e => by cases e <;> rfl

/-! ### Values -/

/-- An optional list whose parts are given by their encoding and their number. -/
def writeOptionalList (n : ℕ) (parts : List UInt8) : List UInt8 := 1 :: Codec.nat.write n ++ parts

/-- Read an optional list. -/
def readOptionalList {α : Type} (read : List UInt8 → Option (α × List UInt8)) :
    List UInt8 → Option (Option (List α) × List UInt8)
  | [] => none
  | b :: bytes =>
    if b = 0 then some (none, bytes)
    else do
      let (n, bytes) ← Codec.nat.read bytes
      let (items, bytes) ← readMany read n bytes
      some (some items, bytes)

theorem readOptionalList_some {α : Type} {read : List UInt8 → Option (α × List UInt8)}
    {write : α → List UInt8} {items : List α}
    (h : ∀ a ∈ items, ∀ rest, read (write a ++ rest) = some (a, rest)) (rest : List UInt8) :
    readOptionalList read (writeOptionalList items.length (items.flatMap write) ++ rest) =
      some (some items, rest) := by
  rw [writeOptionalList, List.cons_append, List.cons_append, readOptionalList,
    if_neg (by decide), List.append_assoc, Codec.read_write]
  simp only [Option.bind_eq_bind, Option.bind_some, readMany_flatMap h]

mutual

/-- Write a value. -/
def writeScVal : ScVal → List UInt8
  | .scalar s => scalarCodec.write s
  | .vec none => [16, 0]
  | .vec (some items) => 16 :: writeOptionalList items.length (writeItems items)
  | .map none => [17, 0]
  | .map (some entries) => 17 :: writeOptionalList entries.length (writeEntries entries)
  | .contractInstance executable none => 19 :: executableCodec.write executable ++ [0]
  | .contractInstance executable (some entries) =>
    19 :: executableCodec.write executable ++
      writeOptionalList entries.length (writeEntries entries)

/-- Write the items of a vector. -/
def writeItems : List ScVal → List UInt8
  | [] => []
  | v :: items => writeScVal v ++ writeItems items

/-- Write the entries of a map. -/
def writeEntries : List (ScVal × ScVal) → List UInt8
  | [] => []
  | (k, v) :: entries => (writeScVal k ++ writeScVal v) ++ writeEntries entries

end

/-- Write a map entry. -/
def writeEntry (e : ScVal × ScVal) : List UInt8 := writeScVal e.1 ++ writeScVal e.2

theorem writeItems_eq (items : List ScVal) : writeItems items = items.flatMap writeScVal := by
  induction items with
  | nil => rfl
  | cons v items ih => rw [writeItems, ih, List.flatMap_cons]

theorem writeEntries_eq (entries : List (ScVal × ScVal)) :
    writeEntries entries = entries.flatMap writeEntry := by
  induction entries with
  | nil => rfl
  | cons e entries ih => rw [writeEntries, ih, List.flatMap_cons, writeEntry]

/-- Read a map entry. -/
def readEntry (read : List UInt8 → Option (ScVal × List UInt8)) (bytes : List UInt8) :
    Option ((ScVal × ScVal) × List UInt8) := do
  let (k, bytes) ← read bytes
  let (v, bytes) ← read bytes
  some ((k, v), bytes)

/-- Read a value with at most `fuel` levels. -/
def readScVal : (fuel : ℕ) → List UInt8 → Option (ScVal × List UInt8)
  | 0, _ | _ + 1, [] => none
  | fuel + 1, tag :: bytes =>
    if tag = 16 then
      (readOptionalList (readScVal fuel) bytes).map fun (items, rest) => (.vec items, rest)
    else if tag = 17 then
      (readOptionalList (readEntry (readScVal fuel)) bytes).map fun (entries, rest) =>
        (.map entries, rest)
    else if tag = 19 then do
      let (executable, bytes) ← executableCodec.read bytes
      let (storage, bytes) ← readOptionalList (readEntry (readScVal fuel)) bytes
      some (.contractInstance executable storage, bytes)
    else (Scalar.readPayload tag bytes).map fun (s, rest) => (.scalar s, rest)

theorem Scalar.discriminant_ne (s : Scalar) :
    UInt8.ofNat s.discriminant ≠ 16 ∧ UInt8.ofNat s.discriminant ≠ 17 ∧
      UInt8.ofNat s.discriminant ≠ 19 := by
  cases s <;> simp only [Scalar.discriminant] <;> decide

theorem readScVal_scalar (fuel : ℕ) (s : Scalar) (rest : List UInt8) :
    readScVal (fuel + 1) (scalarCodec.write s ++ rest) = some (.scalar s, rest) := by
  obtain ⟨h₁, h₂, h₃⟩ := s.discriminant_ne
  have hread := scalarCodec.read_write s rest
  change readScVal (fuel + 1) (UInt8.ofNat s.discriminant :: (s.payload ++ rest)) = _
  rw [readScVal, if_neg h₁, if_neg h₂, if_neg h₃]
  change Scalar.readPayload (UInt8.ofNat s.discriminant) (s.payload ++ rest) = _ at hread
  rw [hread, Option.map_some]

theorem readEntry_writeEntry {read : List UInt8 → Option (ScVal × List UInt8)}
    {e : ScVal × ScVal} (hk : ∀ rest, read (writeScVal e.1 ++ rest) = some (e.1, rest))
    (hv : ∀ rest, read (writeScVal e.2 ++ rest) = some (e.2, rest)) (rest : List UInt8) :
    readEntry read (writeEntry e ++ rest) = some (e, rest) := by
  rw [writeEntry, List.append_assoc, readEntry, hk]
  simp only [Option.bind_eq_bind, Option.bind_some, hv]

theorem length_writeScVal_pos (v : ScVal) : 0 < (writeScVal v).length := by
  unfold writeScVal
  split <;> exact Nat.succ_pos _

mutual

/-- **A value is read back**, with as many levels as its encoding has bytes. -/
theorem readScVal_writeScVal : (v : ScVal) → ∀ fuel rest, (writeScVal v).length ≤ fuel + 1 →
    readScVal (fuel + 1) (writeScVal v ++ rest) = some (v, rest)
  | .scalar s, fuel, rest, _ => readScVal_scalar fuel s rest
  | .vec none, _, _, _ => rfl
  | .vec (some items), fuel, rest, h => by
    have hitems : (writeItems items).length ≤ fuel := by
      simp only [writeScVal, writeOptionalList, List.length_cons, List.length_append] at h
      omega
    have hread := readOptionalList_some (readScVal_of_mem_items items fuel hitems) rest
    rw [writeScVal, writeItems_eq, List.cons_append, readScVal, if_pos rfl, hread,
      Option.map_some]
  | .map none, _, _, _ => rfl
  | .map (some entries), fuel, rest, h => by
    have hentries : (writeEntries entries).length ≤ fuel := by
      simp only [writeScVal, writeOptionalList, List.length_cons, List.length_append] at h
      omega
    have hread := readOptionalList_some (readScVal_of_mem_entries entries fuel hentries) rest
    rw [writeScVal, writeEntries_eq, List.cons_append, readScVal, if_neg (by decide), if_pos rfl,
      hread, Option.map_some]
  | .contractInstance executable none, fuel, rest, _ => by
    rw [writeScVal, List.cons_append, List.cons_append, readScVal, if_neg (by decide),
      if_neg (by decide), if_pos rfl, List.append_assoc, Codec.read_write]
    rfl
  | .contractInstance executable (some entries), fuel, rest, h => by
    have hentries : (writeEntries entries).length ≤ fuel := by
      simp only [writeScVal, writeOptionalList, List.length_cons, List.length_append] at h
      omega
    have hread := readOptionalList_some (readScVal_of_mem_entries entries fuel hentries) rest
    rw [writeScVal, writeEntries_eq, List.cons_append, List.cons_append, readScVal,
      if_neg (by decide), if_neg (by decide), if_pos rfl, List.append_assoc, Codec.read_write]
    simp only [Option.bind_eq_bind, Option.bind_some, hread]

theorem readScVal_of_mem_items : (items : List ScVal) → ∀ fuel,
    (writeItems items).length ≤ fuel → ∀ v ∈ items, ∀ rest,
      readScVal fuel (writeScVal v ++ rest) = some (v, rest)
  | [], _, _, _, hv => by cases hv
  | w :: items, fuel, h, v, hv => by
    rw [writeItems, List.length_append] at h
    intro rest
    rcases List.mem_cons.mp hv with heq | hmem
    · have hpos := length_writeScVal_pos w
      obtain ⟨fuel, rfl⟩ := Nat.exists_eq_add_one_of_ne_zero (n := fuel) (by omega)
      rw [heq]
      exact readScVal_writeScVal w fuel rest (by omega)
    · exact readScVal_of_mem_items items fuel (by omega) v hmem rest

theorem readScVal_of_mem_entries : (entries : List (ScVal × ScVal)) → ∀ fuel,
    (writeEntries entries).length ≤ fuel → ∀ e ∈ entries, ∀ rest,
      readEntry (readScVal fuel) (writeEntry e ++ rest) = some (e, rest)
  | [], _, _, _, he => by cases he
  | (k, v) :: entries, fuel, h, e, he => by
    rw [writeEntries, List.length_append, List.length_append] at h
    intro rest
    rcases List.mem_cons.mp he with heq | hmem
    · have hpos := length_writeScVal_pos k
      obtain ⟨fuel, rfl⟩ := Nat.exists_eq_add_one_of_ne_zero (n := fuel) (by omega)
      rw [heq]
      exact readEntry_writeEntry (fun rest => readScVal_writeScVal k fuel rest (by omega))
        (fun rest => readScVal_writeScVal v fuel rest (by omega)) rest
    · exact readScVal_of_mem_entries entries fuel (by omega) e hmem rest

end

/-- Values. -/
def scValCodec : Codec ScVal where
  write := writeScVal
  read bytes := readScVal (bytes.length + 1) bytes
  read_write v rest := readScVal_writeScVal v _ rest (by rw [List.length_append]; omega)

/-! ### Ledger entries and authorization entries -/

/-- Durabilities. -/
def durabilityCodec : Codec ContractDataDurability :=
  Codec.bool.ofInverse (fun d => d = .persistent) (fun b => if b then .persistent else .temporary)
    fun d => by cases d <;> rfl

/-- The discriminant of a ledger key. -/
def LedgerKey.tag : LedgerKey → UInt8
  | .contractData .. => 6
  | .contractCode _ => 7
  | .other _ => 0

/-- The payload of a ledger key. -/
def LedgerKey.payload : LedgerKey → List UInt8
  | .contractData contract key durability =>
    (addressCodec.pair (scValCodec.pair durabilityCodec)).write (contract, key, durability)
  | .contractCode hash => bytes32Codec.write hash
  | .other key => stringCodec.write key

/-- The ledger key with a discriminant. -/
def LedgerKey.readPayload (tag : UInt8) (bytes : List UInt8) : Option (LedgerKey × List UInt8) :=
  match tag with
  | 6 => ((addressCodec.pair (scValCodec.pair durabilityCodec)).read bytes).map
      fun ((contract, key, durability), rest) => (.contractData contract key durability, rest)
  | 7 => (bytes32Codec.read bytes).map fun (hash, rest) => (.contractCode hash, rest)
  | _ => (stringCodec.read bytes).map fun (key, rest) => (.other key, rest)

/-- Ledger keys. -/
def ledgerKeyCodec : Codec LedgerKey :=
  .tagged LedgerKey.tag LedgerKey.payload LedgerKey.readPayload fun key rest => by
    cases key <;> simp [LedgerKey.tag, LedgerKey.payload, LedgerKey.readPayload, Codec.read_write]

/-- The discriminant of the data of a ledger entry. -/
def LedgerEntryData.tag : LedgerEntryData → UInt8
  | .contractData _ => 6
  | .contractCode .. => 7
  | .other .. => 0

/-- The payload of the data of a ledger entry. -/
def LedgerEntryData.payload : LedgerEntryData → List UInt8
  | .contractData data =>
    (addressCodec.pair (scValCodec.pair (durabilityCodec.pair scValCodec))).write
      (data.contract, data.key, data.durability, data.val)
  | .contractCode hash code => (bytes32Codec.pair stringCodec).write (hash, code)
  | .other key data => (stringCodec.pair stringCodec).write (key, data)

/-- The data of a ledger entry with a discriminant. -/
def LedgerEntryData.readPayload (tag : UInt8) (bytes : List UInt8) :
    Option (LedgerEntryData × List UInt8) :=
  match tag with
  | 6 => ((addressCodec.pair (scValCodec.pair (durabilityCodec.pair scValCodec))).read bytes).map
      fun ((contract, key, durability, val), rest) =>
        (.contractData { contract, key, durability, val }, rest)
  | 7 => ((bytes32Codec.pair stringCodec).read bytes).map fun ((hash, code), rest) =>
      (.contractCode hash code, rest)
  | _ => ((stringCodec.pair stringCodec).read bytes).map fun ((key, data), rest) =>
      (.other key data, rest)

/-- The data of ledger entries. -/
def ledgerEntryDataCodec : Codec LedgerEntryData :=
  .tagged LedgerEntryData.tag LedgerEntryData.payload LedgerEntryData.readPayload
    fun data rest => by
      cases data <;> simp [LedgerEntryData.tag, LedgerEntryData.payload,
        LedgerEntryData.readPayload, Codec.read_write]

/-- Ledger entries. -/
def ledgerEntryCodec : Codec LedgerEntry :=
  (Codec.u32.pair (ledgerEntryDataCodec.pair stringCodec)).ofInverse
    (fun entry => (entry.lastModifiedLedgerSeq, entry.data, entry.ext))
    (fun (lastModifiedLedgerSeq, data, ext) => { lastModifiedLedgerSeq, data, ext })
    fun _ => rfl

/-! ### Preimages and authorization entries -/

/-- The XDR of the preimage of a contract id. -/
def writeContractIdPreimage : ContractIdPreimage → List UInt8
  | .address address salt => bigEndian 4 0 ++ EntryLayout.addressCodec.write address ++ salt.toList
  | .asset asset => bigEndian 4 1 ++ asset

/-- The XDR of the preimage of a hash. -/
def writeHashIdPreimage : HashIdPreimage → List UInt8
  | .contractId networkId preimage =>
    bigEndian 4 8 ++ networkId.toList ++ writeContractIdPreimage preimage

/-- The encoding of a call. -/
def writeInvokeContractArgs (args : InvokeContractArgs) : List UInt8 :=
  EntryLayout.addressCodec.write args.contractAddress ++
    stringCodec.write args.functionName.items ++ (Codec.list scValCodec).write args.args.items

/-- The encoding of credentials. -/
def writeCredentials : SorobanCredentials → List UInt8
  | .sourceAccount => bigEndian 4 0
  | .addressV2 address nonce signatureExpirationLedger signature =>
    bigEndian 4 2 ++ EntryLayout.addressCodec.write address ++
      (Codec.i64.pair .u32).write (nonce, signatureExpirationLedger) ++ scValCodec.write signature

/-- The encoding of an authorization entry: its credentials, and the call of a contract without
further calls. -/
def writeAuthEntry (entry : SorobanAuthorizationEntry) : List UInt8 :=
  writeCredentials entry.credentials ++ bigEndian 4 0 ++
    writeInvokeContractArgs entry.rootInvocation ++ bigEndian 4 0

end SorobanDevkit.Xdr
