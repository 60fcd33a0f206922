import SorobanDevkit.Library.CanonicalCodec
import SorobanDevkit.Rpc.LedgerReads
import SorobanDevkit.Xdr.StrkeyText

/-!
# Sequence numbers of accounts

`get_next_sequence` of `sdkt-rpc/src/account.rs` asks a node for the entry of an account and adds
one to its sequence number. The bytes of the entry are read as a ledger entry, which has the number
of a ledger first, and if that fails as the data of one.

The data of an account begin with two zero words, the number of the arm and the kind of the key.
Read as a ledger entry these are the ledger and the number of the arm, and the account that is read
begins four bytes late. Whether this reading succeeds depends on all that follows.

The readers and writers of XDR and of keys are parameters.
-/

namespace SorobanDevkit.Rpc

open Xdr (AccountId Bytes32 PublicKey Strkey VecM)

/-! ### Accounts -/

/-- `SignerKey`. -/
inductive SignerKey
  | ed25519 (key : Bytes32)
  | preAuthTx (hash : Bytes32)
  | hashX (hash : Bytes32)
  | ed25519SignedPayload (key : Bytes32) (payload : VecM 64 UInt8)
  deriving DecidableEq

/-- `Signer`. -/
structure Signer where
  key : SignerKey
  weight : UInt32
  deriving DecidableEq

/-- `AccountEntryExtensionV3`. -/
structure AccountEntryExtensionV3 where
  seqLedger : UInt32
  seqTime : UInt64
  deriving DecidableEq

/-- `AccountEntryExtensionV2`. -/
structure AccountEntryExtensionV2 where
  numSponsored : UInt32
  numSponsoring : UInt32
  signerSponsoringIds : VecM 20 (Option AccountId)
  ext : Option AccountEntryExtensionV3
  deriving DecidableEq

/-- `AccountEntryExtensionV1`, with its `Liabilities`. -/
structure AccountEntryExtensionV1 where
  buying : Int64
  selling : Int64
  ext : Option AccountEntryExtensionV2
  deriving DecidableEq

/-- `AccountEntry`. -/
structure AccountEntry where
  accountId : AccountId
  balance : Int64
  seqNum : Int64
  numSubEntries : UInt32
  inflationDest : Option AccountId
  flags : UInt32
  homeDomain : VecM 32 UInt8
  thresholds : Vector UInt8 4
  signers : VecM 20 Signer
  ext : Option AccountEntryExtensionV1
  deriving DecidableEq

/-- `LedgerEntryData`. -/
inductive LedgerEntryData (Other : Type)
  | account (entry : AccountEntry)
  | other (data : Other)
  deriving DecidableEq

/-- `LedgerEntry`. -/
structure LedgerEntry (Other Ext : Type) where
  lastModifiedLedgerSeq : UInt32
  data : LedgerEntryData Other
  ext : Ext
  deriving DecidableEq

/-- The readers and writers of the crate `stellar-xdr` without limits. Their errors are given by
their texts. -/
structure LedgerEntryXdr (Other Ext : Type) where
  readEntry : List UInt8 → Except String (LedgerEntry Other Ext × List UInt8)
  readData : List UInt8 → Except String (LedgerEntryData Other × List UInt8)
  writeEntry : LedgerEntry Other Ext → List UInt8
  writeData : LedgerEntryData Other → List UInt8

/-- What is documented of them. The readers invert the writers, and an entry of an account that is
read is one that is written. An entry is its ledger, its data and its extension, one after the
other. Data begin with the number of their arm; an account is arm 0 and begins with a public key,
which has only arm 0. -/
structure LedgerEntryXdr.Documented {Other Ext : Type} (xdr : LedgerEntryXdr Other Ext) : Prop where
  read_write_entry : ∀ entry rest, xdr.readEntry (xdr.writeEntry entry ++ rest) = .ok (entry, rest)
  read_write_data : ∀ data rest, xdr.readData (xdr.writeData data ++ rest) = .ok (data, rest)
  account_entry_read : ∀ bytes seq account ext rest,
    xdr.readEntry bytes = .ok (⟨seq, .account account, ext⟩, rest) →
      bytes = xdr.writeEntry ⟨seq, .account account, ext⟩ ++ rest
  account_arm : ∀ n bytes entry rest,
    xdr.readEntry (bigEndian 4 n ++ (bigEndian 4 0 ++ bytes)) = .ok (entry, rest) →
      ∃ account, entry.data = .account account
  entry_layout : ∀ entry, ∃ ext, xdr.writeEntry entry =
    bigEndian 4 entry.lastModifiedLedgerSeq.toNat ++ (xdr.writeData entry.data ++ ext)
  account_layout : ∀ account : AccountEntry, ∃ key rest,
    account.accountId = ⟨.ed25519 key⟩ ∧ xdr.writeData (.account account) =
      bigEndian 4 0 ++ (bigEndian 4 0 ++ (key.toList ++ rest))
  other_layout : ∀ data rest, ¬ bigEndian 4 0 <+: xdr.writeData (.other data) ++ rest

/-! ### The next sequence number -/

/-- The crates that a sequence number is fetched with. -/
structure SequenceCrates (Other Ext : Type) extends LedgerEntryXdr Other Ext where
  strkey : String → Except String Strkey
  /-- The key of the entry of an account. -/
  writeAccountKey : AccountId → Except String (List UInt8)
  /-- What is wrong with a text that is not base64. -/
  base64Error : String → String

section

variable {Other Ext : Type}

/-- An error that is a text. -/
def LedgerReadError.text (message : String) : LedgerReadError := .request (.rpc message)

/-- `parse_ledger_entry_data`. -/
def parseLedgerEntryData (xdr : LedgerEntryXdr Other Ext) (entryBytes : List UInt8) :
    Except LedgerReadError (LedgerEntryData Other) :=
  match xdr.readEntry entryBytes with
  | .ok (entry, _) => .ok entry.data
  | .error _ =>
    match xdr.readData entryBytes with
    | .ok (data, _) => .ok data
    | .error e => .error (.text ("Failed to decode ledger entry data: " ++ e))

/-- `parse_account_entry`. -/
def parseAccountEntry (xdr : LedgerEntryXdr Other Ext) (entryBytes : List UInt8) :
    Except LedgerReadError AccountEntry := do
  match ← parseLedgerEntryData xdr entryBytes with
  | .account entry => .ok entry
  | .other _ => .error (.text "Not an account entry")

variable (crates : SequenceCrates Other Ext) (node : LedgerNode)

/-- The key of the account of an address, as it is asked for. -/
def accountKeyOf (address : String) : Except LedgerReadError String := do
  let key ← (crates.strkey address).mapError fun e => .text ("Invalid address: " ++ e)
  match key with
  | .publicKeyEd25519 pubkey =>
    let key ← (crates.writeAccountKey ⟨.ed25519 pubkey⟩).mapError fun e =>
      .text ("Failed to serialize ledger key: " ++ e)
    .ok (Base64.encode key)
  | _ => .error (.text "Expected Ed25519 public key")

/-- What a response says of the next sequence number. -/
def nextSequenceOf (response : StorageResponse) : Except LedgerReadError Int64 :=
  match response.entries with
  | [] => .error (.text "Account not found on network")
  | entry :: _ =>
    match Base64.decode entry.xdr with
    | none => .error (.text ("Failed to decode account XDR: " ++ crates.base64Error entry.xdr))
    | some entryBytes => do
      let account ← parseAccountEntry crates.toLedgerEntryXdr entryBytes
      .ok (account.seqNum + 1)

/-- `get_next_sequence`. -/
def getNextSequence (address : String) : Reading Int64 := do
  let key ← Effect.lift (accountKeyOf crates address)
  let response ← getContractStorage node [key]
  Effect.lift (nextSequenceOf crates response)

/-! ### Layouts -/

/-- The bytes of an account are found to be the account, and its next sequence number is fetched
from every node that has them. -/
def FoundIn (account : AccountEntry) (bytes : List UInt8) : Prop :=
  parseLedgerEntryData crates.toLedgerEntryXdr bytes = .ok (.account account) ∧
    ∀ node address key response entry entries, accountKeyOf crates address = .ok key →
      node.outcome [] [key] = .ok response → response.entries = entry :: entries →
        entry.xdr = Base64.encode bytes →
          ∃ n, (getNextSequence crates node address []).1 = .ok n ∧
            n.toInt = account.seqNum.toInt + 1

/-- An account is found in both layouts. -/
def LayoutIndependent (account : AccountEntry) : Prop :=
  (∀ seq ext, FoundIn crates account (crates.writeEntry ⟨seq, .account account, ext⟩)) ∧
    FoundIn crates account (crates.writeData (.account account))

/-- The data of an account begin with a ledger entry. -/
def Misreadable (xdr : LedgerEntryXdr Other Ext) (account : AccountEntry) : Prop :=
  ∃ entry rest, xdr.writeData (.account account) = xdr.writeEntry entry ++ rest

end

section

variable {Other Ext : Type} {crates : SequenceCrates Other Ext} {account : AccountEntry}
  {bytes : List UInt8}

theorem toInt_add_one {n : Int64} (h : n.toInt < 0x7fffffffffffffff) :
    (n + 1).toInt = n.toInt + 1 := by
  have hle := n.le_toInt
  have hone : (1 : Int64).toInt = 1 := rfl
  rw [Int64.toInt_add, hone]
  exact Int.bmod_eq_of_le_mul_two (by omega) (by omega)

/-- The next sequence number is fetched where the bytes are found to be the account. -/
theorem foundIn_iff (hseq : account.seqNum.toInt < 0x7fffffffffffffff) :
    FoundIn crates account bytes ↔
      parseLedgerEntryData crates.toLedgerEntryXdr bytes = .ok (.account account) := by
  refine ⟨And.left, fun hparse => ⟨hparse, ?_⟩⟩
  intro node address key response entry entries hkey houtcome hentries hxdr
  refine ⟨account.seqNum + 1, ?_, toInt_add_one hseq⟩
  have hnext : nextSequenceOf crates response = .ok (account.seqNum + 1) := by
    simp only [nextSequenceOf, hentries, hxdr, Base64.decode_encode, parseAccountEntry, hparse]
    rfl
  have hone : [key].length ≤ maxLedgerKeys := Nat.succ_le_succ (Nat.zero_le 199)
  have hrequest : getContractStorage node [key] [] = (.ok response, [[key]]) :=
    (getContractStorage_eq_ok_iff hone).mpr ⟨houtcome, rfl⟩
  have hrun : getNextSequence crates node address [] = (.ok (account.seqNum + 1), [[key]]) :=
    Effect.bind_eq_ok_iff.mpr ⟨key, [], Effect.lift_eq_ok_iff.mpr ⟨hkey, rfl⟩,
      Effect.bind_eq_ok_iff.mpr ⟨response, _, hrequest, Effect.lift_eq_ok_iff.mpr ⟨hnext, rfl⟩⟩⟩
  rw [hrun]

/-- An account is found with the ledger first. -/
theorem parse_writeEntry (h : crates.Documented) (seq : UInt32) (ext : Ext) :
    parseLedgerEntryData crates.toLedgerEntryXdr
      (crates.writeEntry ⟨seq, .account account, ext⟩) = .ok (.account account) := by
  have hread := h.read_write_entry ⟨seq, .account account, ext⟩ []
  rw [List.append_nil] at hread
  rw [parseLedgerEntryData, hread]

/-- The data of an account are shorter than an entry with them. -/
theorem length_writeData_lt (h : crates.Documented) (entry : LedgerEntry Other Ext) :
    (crates.writeData entry.data).length < (crates.writeEntry entry).length := by
  obtain ⟨ext, hwrite⟩ := h.entry_layout entry
  rw [hwrite, List.length_append, List.length_append, length_bigEndian]
  omega

/-- **The data of an account are found to be the account unless they begin with an entry.** -/
theorem parse_writeData_iff (h : crates.Documented) :
    parseLedgerEntryData crates.toLedgerEntryXdr (crates.writeData (.account account)) =
        .ok (.account account) ↔
      ¬ Misreadable crates.toLedgerEntryXdr account := by
  constructor
  · rintro hparse ⟨entry, rest, hbytes⟩
    have hlength := length_writeData_lt h entry
    rw [parseLedgerEntryData, hbytes, h.read_write_entry] at hparse
    rw [Except.ok.inj hparse, hbytes, List.length_append] at hlength
    omega
  · intro hmisread
    have hdata := h.read_write_data (.account account) []
    rw [List.append_nil] at hdata
    rw [parseLedgerEntryData]
    cases hread : crates.readEntry (crates.writeData (.account account)) with
    | error e =>
      simp only [hdata]
    | ok read =>
      obtain ⟨⟨seq, data, ext⟩, rest⟩ := read
      obtain ⟨key, tail, -, hwrite⟩ := h.account_layout account
      obtain ⟨account', rfl⟩ : ∃ account', data = .account account' := by
        rw [hwrite] at hread
        exact h.account_arm 0 _ _ rest hread
      exact absurd ⟨_, rest, h.account_entry_read _ seq account' ext rest hread⟩ hmisread

/-- **The key of an account that can be misread begins with four zeros.** -/
theorem Misreadable.key_zero (h : crates.Documented)
    (hmisread : Misreadable crates.toLedgerEntryXdr account) :
    ∃ key, account.accountId = ⟨.ed25519 key⟩ ∧ bigEndian 4 0 <+: key.toList := by
  obtain ⟨entry, rest, hbytes⟩ := hmisread
  obtain ⟨key, tail, hkey, hwrite⟩ := h.account_layout account
  refine ⟨key, hkey, ?_⟩
  obtain ⟨ext, hentry⟩ := h.entry_layout entry
  rw [hwrite, hentry, List.append_assoc, List.append_assoc] at hbytes
  have hdata := List.append_inj_right hbytes (by simp)
  cases hkind : entry.data with
  | other data =>
    rw [hkind] at hdata
    refine absurd ?_ (h.other_layout data (ext ++ rest))
    rw [← hdata]
    exact List.prefix_append _ _
  | account account' =>
    obtain ⟨key', tail', -, hwrite'⟩ := h.account_layout account'
    rw [hkind, hwrite', List.append_assoc, List.append_cancel_left_eq, List.append_assoc] at hdata
    refine List.prefix_of_prefix_length_le ?_ (List.prefix_append key.toList tail) ?_
    · rw [hdata]
      exact List.prefix_append _ _
    · rw [length_bigEndian, Vector.length_toList]
      omega

/-- **The next sequence number does not depend on the layout** exactly if the data of the account
cannot be misread. -/
theorem layoutIndependent_iff (crates : SequenceCrates Other Ext) (h : crates.Documented)
    (account : AccountEntry) (hseq : account.seqNum.toInt < 0x7fffffffffffffff) :
    LayoutIndependent crates account ↔ ¬ Misreadable crates.toLedgerEntryXdr account := by
  rw [LayoutIndependent, foundIn_iff hseq, parse_writeData_iff h]
  exact and_iff_right fun seq ext => (foundIn_iff hseq).mpr (parse_writeEntry h seq ext)

end

/-! ### The encoding of accounts -/

section Encoding

open CanonicalCodec

theorem arm_one : 1 < 256 ^ 4 ∧ 1 ≠ 0 := by decide

theorem arm_two : 2 < 256 ^ 4 ∧ 2 ≠ 0 := by decide

theorem arm_three : 3 < 256 ^ 4 ∧ 3 ≠ 0 := by decide

theorem twenty_lt : 20 < 256 ^ 4 := by decide

theorem thirtyTwo_lt : 32 < 256 ^ 4 := by decide

theorem sixtyFour_lt : 64 < 256 ^ 4 := by decide

/-- The encoding of the id of an account. -/
def accountIdCodec : CanonicalCodec AccountId :=
  ((fixed 32).discriminated 0).ofInverse (fun id => match id with | ⟨.ed25519 key⟩ => key)
    (fun key => ⟨.ed25519 key⟩) (fun ⟨.ed25519 _⟩ => rfl) fun _ => rfl

/-- The encoding of a vector of bounded length. -/
def vecCodec {α : Type} (max : ℕ) (hmax : max < 256 ^ 4) (c : CanonicalCodec α) :
    CanonicalCodec (VecM max α) :=
  (bounded max hmax c).ofInverse (fun v => ⟨v.items, v.bounded⟩) (fun l => ⟨l.1, l.2⟩)
    (fun _ => rfl) fun _ => rfl

/-- The encoding of bytes of bounded number. -/
def bytesCodec (max : ℕ) (hmax : max < 256 ^ 4) : CanonicalCodec (VecM max UInt8) :=
  (padded max hmax).ofInverse (fun v => ⟨v.items, v.bounded⟩) (fun l => ⟨l.1, l.2⟩)
    (fun _ => rfl) fun _ => rfl

/-- The encoding of the key of a signer. -/
def signerKeyCodec : CanonicalCodec SignerKey :=
  (armOr 0 (fixed 32) (armOr 1 (fixed 32) (armOr 2 (fixed 32)
      (((fixed 32).pair (bytesCodec 64 sixtyFour_lt)).discriminated 3)
      (not_prefix_discriminated (by decide) (by decide) (by decide) _))
    (not_prefix_armOr (by decide) (by decide) (by decide) _
      (not_prefix_discriminated (by decide) (by decide) (by decide) _)))
    (not_prefix_armOr (by decide) (by decide) (by decide) _
      (not_prefix_armOr (by decide) (by decide) (by decide) _
        (not_prefix_discriminated (by decide) (by decide) (by decide) _)))).ofInverse
    (fun
      | .ed25519 key => .inl key
      | .preAuthTx hash => .inr (.inl hash)
      | .hashX hash => .inr (.inr (.inl hash))
      | .ed25519SignedPayload key payload => .inr (.inr (.inr (key, payload))))
    (fun
      | .inl key => .ed25519 key
      | .inr (.inl hash) => .preAuthTx hash
      | .inr (.inr (.inl hash)) => .hashX hash
      | .inr (.inr (.inr (key, payload))) => .ed25519SignedPayload key payload)
    (fun key => by cases key <;> rfl)
    (fun v => by rcases v with _ | _ | _ | ⟨_, _⟩ <;> rfl)

/-- The encoding of a signer. -/
def signerCodec : CanonicalCodec Signer :=
  (signerKeyCodec.pair u32).ofInverse (fun s => (s.key, s.weight)) (fun (key, weight) =>
    ⟨key, weight⟩) (fun _ => rfl) fun _ => rfl

/-- The encoding of the third extension, which begins with an extension of its own that has only arm
0. -/
def extensionV3Codec : CanonicalCodec AccountEntryExtensionV3 :=
  ((u32.pair u64).discriminated 0).ofInverse (fun e => (e.seqLedger, e.seqTime))
    (fun (ledger, time) => ⟨ledger, time⟩) (fun _ => rfl) fun _ => rfl

/-- The encoding of the second extension. -/
def extensionV2Codec : CanonicalCodec AccountEntryExtensionV2 :=
  (u32.pair (u32.pair ((vecCodec 20 twenty_lt (optionArm 1 arm_one
      accountIdCodec)).pair (optionArm 3 arm_three extensionV3Codec)))).ofInverse
    (fun e => (e.numSponsored, e.numSponsoring, e.signerSponsoringIds, e.ext))
    (fun (sponsored, sponsoring, ids, ext) => ⟨sponsored, sponsoring, ids, ext⟩) (fun _ => rfl)
    fun _ => rfl

/-- The encoding of the first extension. -/
def extensionV1Codec : CanonicalCodec AccountEntryExtensionV1 :=
  (i64.pair (i64.pair (optionArm 2 arm_two extensionV2Codec))).ofInverse
    (fun e => (e.buying, e.selling, e.ext)) (fun (buying, selling, ext) => ⟨buying, selling, ext⟩)
    (fun _ => rfl) fun _ => rfl

/-- The encoding of an account, from its id on. -/
def accountCodec : CanonicalCodec AccountEntry :=
  (accountIdCodec.pair (i64.pair (i64.pair (u32.pair ((optionArm 1 arm_one
      accountIdCodec).pair (u32.pair ((bytesCodec 32 thirtyTwo_lt).pair ((fixed 4).pair
    ((vecCodec 20 twenty_lt signerCodec).pair
      (optionArm 1 arm_one extensionV1Codec)))))))))).ofInverse
    (fun a => (a.accountId, a.balance, a.seqNum, a.numSubEntries, a.inflationDest, a.flags,
      a.homeDomain, a.thresholds, a.signers, a.ext))
    (fun (id, balance, seqNum, numSubEntries, inflationDest, flags, homeDomain, thresholds, signers,
        ext) =>
      ⟨id, balance, seqNum, numSubEntries, inflationDest, flags, homeDomain, thresholds, signers,
        ext⟩)
    (fun _ => rfl) fun _ => rfl

/-- `TtlEntry`, the data of an entry of another kind. -/
structure TtlData where
  keyHash : Bytes32
  liveUntilLedgerSeq : UInt32
  deriving DecidableEq

/-- The encoding of the data of other kinds: of times to live. -/
def otherCodec : CanonicalCodec TtlData :=
  (((fixed 32).pair u32).discriminated 9).ofInverse (fun d => (d.keyHash, d.liveUntilLedgerSeq))
    (fun (hash, seq) => ⟨hash, seq⟩) (fun _ => rfl) fun _ => rfl

/-- Data of other kinds do not begin with the number of accounts. -/
theorem not_prefix_other (d : TtlData) (rest : List UInt8) :
    ¬ bigEndian 4 0 <+: otherCodec.write d ++ rest :=
  not_prefix_discriminated (by decide) (by decide) (by decide) _ _ rest

/-- The encoding of data. -/
def dataCodec : CanonicalCodec (LedgerEntryData TtlData) :=
  (armOr 0 accountCodec otherCodec not_prefix_other).ofInverse
    (fun
      | .account entry => .inl entry
      | .other data => .inr data)
    (fun
      | .inl entry => .account entry
      | .inr data => .other data)
    (fun data => by cases data <;> rfl) fun v => by cases v <;> rfl

/-- The encoding of the extension of an entry: none, or the id of a sponsor, if any. -/
def entryExtCodec : CanonicalCodec (Option (Option AccountId)) :=
  optionArm 1 arm_one (((optionArm 1 arm_one accountIdCodec).pair (empty.discriminated 0)).ofInverse
    (fun sponsor => (sponsor, ())) (fun (sponsor, ()) => sponsor) (fun _ => rfl) fun _ => rfl)

/-- The encoding of an entry. -/
def entryCodec : CanonicalCodec (LedgerEntry TtlData (Option (Option AccountId))) :=
  (u32.pair (dataCodec.pair entryExtCodec)).ofInverse
    (fun e => (e.lastModifiedLedgerSeq, e.data, e.ext)) (fun (seq, data, ext) => ⟨seq, data, ext⟩)
    (fun _ => rfl) fun _ => rfl

/-- The readers and writers of accounts and of times to live. -/
def accountCrates : SequenceCrates TtlData (Option (Option AccountId)) where
  readEntry := entryCodec.readOr "xdr value invalid"
  readData := dataCodec.readOr "xdr value invalid"
  writeEntry := entryCodec.write
  writeData := dataCodec.write
  strkey := Xdr.parseStrkey
  writeAccountKey id := .ok ((accountIdCodec.discriminated 0).write id)
  base64Error _ := "Invalid padding"

theorem readOr_eq_ok_iff {α : Type} {c : CanonicalCodec α} {e : String} {bytes rest : List UInt8}
    {a : α} : c.readOr e bytes = .ok (a, rest) ↔ c.read bytes = some (a, rest) := by
  rw [Codec.readOr]
  cases c.read bytes with
  | none => exact iff_of_false (fun h => by cases h) (fun h => by cases h)
  | some read => exact ⟨fun h => by cases h; rfl, fun h => by cases h; rfl⟩

theorem accountCrates_documented : accountCrates.Documented where
  read_write_entry := entryCodec.readOr_write "xdr value invalid"
  read_write_data := dataCodec.readOr_write "xdr value invalid"
  account_entry_read bytes seq account ext rest h :=
    entryCodec.canonical bytes _ rest (readOr_eq_ok_iff.mp h)
  account_arm n bytes entry rest h := by
    have hbytes := entryCodec.canonical _ entry rest (readOr_eq_ok_iff.mp h)
    have hwrite : entryCodec.write entry = bigEndian 4 entry.lastModifiedLedgerSeq.toNat ++
        (dataCodec.write entry.data ++ entryExtCodec.write entry.ext) := rfl
    rw [hwrite, List.append_assoc, List.append_assoc] at hbytes
    have hdata := List.append_inj_right hbytes (by simp)
    cases hkind : entry.data with
    | account account => exact ⟨account, rfl⟩
    | other data =>
      rw [hkind] at hdata
      refine absurd ?_ (not_prefix_other data (entryExtCodec.write entry.ext ++ rest))
      show bigEndian 4 0 <+: dataCodec.write (.other data) ++ _
      rw [← hdata]
      exact List.prefix_append _ _
  entry_layout entry := ⟨_, rfl⟩
  account_layout account := by
    obtain ⟨tail, htail⟩ : ∃ tail, accountCodec.write account =
        accountIdCodec.write account.accountId ++ tail := ⟨_, rfl⟩
    obtain ⟨⟨key⟩, hkey⟩ : ∃ key, account.accountId = ⟨key⟩ := ⟨_, rfl⟩
    refine ⟨key, tail, hkey, ?_⟩
    show bigEndian 4 0 ++ accountCodec.write account = _
    rw [htail, hkey, ← List.append_assoc (bigEndian 4 0) key.toList]
    rfl
  other_layout := not_prefix_other

/-! ### An account that is misread -/

/-- A key that begins with zeros. -/
def zeroId (zeros : ℕ) (b : UInt8) : Bytes32 := .ofFn fun i => if i.val < zeros then 0 else b

/-- An account without thresholds that has one signer, whose key begins with zeros too. -/
def vanityAccount : AccountEntry where
  accountId := ⟨.ed25519 (zeroId 4 7)⟩
  balance := 10000000
  seqNum := 4294967301
  numSubEntries := 1
  inflationDest := none
  flags := 0
  homeDomain := .default
  thresholds := .replicate 4 0
  signers := ⟨[⟨.ed25519 (zeroId 8 9), 1⟩], Nat.succ_le_succ (Nat.zero_le 19)⟩
  ext := none

/-- The entry that its data begin with. -/
def misreadEntry : LedgerEntry TtlData (Option (Option AccountId)) where
  lastModifiedLedgerSeq := 0
  data := .account {
    accountId := ⟨.ed25519 (.ofFn fun i => if i.val < 28 then 7 else 0)⟩
    balance := 0x0098968000000001
    seqNum := 21474836481
    numSubEntries := 0
    inflationDest := none
    flags := 0
    homeDomain := .default
    thresholds := .ofFn fun i => if i.val < 3 then 0 else 1
    signers := .default
    ext := none }
  ext := none

theorem vanityAccount_misreadable :
    Misreadable accountCrates.toLedgerEntryXdr vanityAccount :=
  ⟨misreadEntry, List.replicate 24 9 ++ [0, 0, 0, 1, 0, 0, 0, 0], by decide +kernel⟩

/-- The data of the account are read as another account. -/
theorem not_layoutIndependent_vanity :
    vanityAccount.seqNum.toInt < 0x7fffffffffffffff ∧
      ¬ LayoutIndependent accountCrates vanityAccount :=
  ⟨by decide, fun h =>
    (parse_writeData_iff accountCrates_documented).mp h.2.1 vanityAccount_misreadable⟩

/-- An account with the key of ones, which is found in both layouts. -/
theorem layoutIndependent_ones :
    LayoutIndependent accountCrates
      { vanityAccount with accountId := ⟨.ed25519 (zeroId 0 1)⟩ } := by
  refine (layoutIndependent_iff accountCrates accountCrates_documented _ (by decide)).mpr ?_
  intro hmisread
  obtain ⟨key, hkey, hzero⟩ := hmisread.key_zero accountCrates_documented
  cases hkey
  exact absurd hzero (by decide)

end Encoding

end SorobanDevkit.Rpc
