import SorobanDevkit.Library.Fallible
import SorobanDevkit.Library.Sha256
import SorobanDevkit.Xdr.Envelope
import SorobanDevkit.Xdr.Network

/-!
# Signing envelopes

`sign_envelope_with` and `verify_signature` of `sdkt-xdr/src/sign.rs`. A signature is put behind
those of an envelope, whose vector has room for twenty; when there is none, an `expect` panics. The
hash of an envelope, the curve and the signer are parameters.
-/

namespace SorobanDevkit.Xdr

/-! ### Signers -/

/-- `SigningError`, as far as an envelope that has been read can meet it. -/
inductive SigningError
  | xdr (message : String)
  | sign (message : String)
  deriving DecidableEq

/-- `Signer`. -/
structure Signer where
  publicKeyBytes : Bytes32
  signHash : Bytes32 → Except SigningError (List UInt8)

/-- The crates `stellar-xdr`, `sha2` and `ed25519-dalek`, as far as they hash an envelope for a
network and check the key and the signature of a hash. -/
structure SigningCrates (Auth : Type) where
  sha256 : List UInt8 → Bytes32
  hash : ReviewedEnvelope Auth → Bytes32 → Except String Bytes32
  isKey : Bytes32 → Bool
  verify : (key hash : Bytes32) → (signature : List UInt8) → Bool

namespace ReviewedEnvelope

variable {Auth : Type}

/-- The signatures of an envelope. -/
def signatures : ReviewedEnvelope Auth → VecM 20 DecoratedSignature
  | txV0 _ signatures => signatures
  | tx _ signatures => signatures
  | txFeeBump _ signatures => signatures

/-- The envelope with other signatures. -/
def withSignatures (signatures : VecM 20 DecoratedSignature) :
    ReviewedEnvelope Auth → ReviewedEnvelope Auth
  | txV0 body _ => txV0 body signatures
  | tx body _ => tx body signatures
  | txFeeBump body _ => txFeeBump body signatures

variable {envelope : ReviewedEnvelope Auth} {sigs sigs' : VecM 20 DecoratedSignature}

@[simp] theorem signatures_withSignatures : (envelope.withSignatures sigs).signatures = sigs := by
  cases envelope <;> rfl

@[simp] theorem withSignatures_withSignatures :
    (envelope.withSignatures sigs).withSignatures sigs' = envelope.withSignatures sigs' := by
  cases envelope <;> rfl

end ReviewedEnvelope

section

variable {Auth : Type}

/-- What is documented of the crates: the hash does not depend on the signatures. -/
def SigningCrates.Documented (crates : SigningCrates Auth) : Prop :=
  ∀ envelope sigs network,
    crates.hash (envelope.withSignatures sigs) network = crates.hash envelope network

/-- What is documented of a signer: its key is one, and what it signs is accepted. -/
structure Signer.Documented (crates : SigningCrates Auth) (signer : Signer) : Prop where
  key : crates.isKey signer.publicKeyBytes = true
  accepted : ∀ hash signature, signer.signHash hash = .ok signature → signature.length = 64 →
    crates.verify signer.publicKeyBytes hash signature = true

/-- `append_signature`. There is no value when the vector has no room. -/
def appendSignature (envelope : ReviewedEnvelope Auth) (sig : DecoratedSignature) :
    Option (ReviewedEnvelope Auth) :=
  (VecM.tryFrom (envelope.signatures.items ++ [sig])).map fun sigs => envelope.withSignatures sigs

/-- The last four bytes of a key. -/
def hintOf (key : Bytes32) : Vector UInt8 4 := Vector.ofFn fun i => key.toList.getD (28 + i) 0

variable (crates : SigningCrates Auth)

/-- The signature that `sign_envelope_with` appends. -/
def decoratedSignature (envelope : ReviewedEnvelope Auth) (signer : Signer) (network : Network) :
    Except SigningError DecoratedSignature := do
  let txHash ← (crates.hash envelope (network.networkId crates.sha256)).mapError .xdr
  let signature ← signer.signHash txHash
  Except.ensure (signature.length = 64)
    (.sign ("expected 64-byte ED25519 signature, got " ++ toString signature.length))
  match VecM.tryFrom signature with
  | none => .error (.sign "signature exceeds 64 bytes")
  | some signature => .ok ⟨hintOf signer.publicKeyBytes, signature⟩

/-- `sign_envelope_with`. -/
def signEnvelopeWith (envelope : ReviewedEnvelope Auth) (signer : Signer) (network : Network) :
    Option (Except SigningError (ReviewedEnvelope Auth)) :=
  match decoratedSignature crates envelope signer network with
  | .error e => some (.error e)
  | .ok sig => (appendSignature envelope sig).map .ok

/-- `verify_signature`. -/
def verifySignature (envelope : ReviewedEnvelope Auth) (signer : Signer)
    (network : Network) : Bool :=
  match crates.hash envelope (network.networkId crates.sha256) with
  | .error _ => false
  | .ok txHash =>
    crates.isKey signer.publicKeyBytes &&
      envelope.signatures.items.any fun s =>
        s.hint = hintOf signer.publicKeyBytes && s.signature.items.length = 64 &&
          crates.verify signer.publicKeyBytes txHash s.signature.items

/-! ### What is appended -/

variable {crates} {envelope envelope' : ReviewedEnvelope Auth} {signer : Signer} {network : Network}
  {sig : DecoratedSignature}

theorem appendSignature_eq_some_iff : appendSignature envelope sig = some envelope' ↔
    ∃ sigs : VecM 20 DecoratedSignature, sigs.items = envelope.signatures.items ++ [sig] ∧
      envelope.withSignatures sigs = envelope' := by
  rw [appendSignature, Option.map_eq_some_iff]
  exact exists_congr fun sigs => and_congr_left fun _ => VecM.tryFrom_eq_some_iff

/-- There is room for a signature unless there are twenty. -/
theorem appendSignature_eq_none_iff :
    appendSignature envelope sig = none ↔ envelope.signatures.items.length = 20 := by
  have hbounded := envelope.signatures.bounded
  rw [appendSignature, Option.map_eq_none_iff, VecM.tryFrom_eq_none_iff, List.length_append,
    List.length_singleton]
  omega

theorem signEnvelopeWith_eq_ok_iff :
    signEnvelopeWith crates envelope signer network = some (.ok envelope') ↔
      ∃ sig, decoratedSignature crates envelope signer network = .ok sig ∧
        appendSignature envelope sig = some envelope' := by
  rw [signEnvelopeWith]
  cases decoratedSignature crates envelope signer network with
  | error e => simp
  | ok sig => simp

theorem signEnvelopeWith_eq_none_iff :
    signEnvelopeWith crates envelope signer network = none ↔
      envelope.signatures.items.length = 20 ∧
        ∃ sig, decoratedSignature crates envelope signer network = .ok sig := by
  rw [signEnvelopeWith]
  cases decoratedSignature crates envelope signer network with
  | error e => simp
  | ok sig => simp [appendSignature_eq_none_iff]

/-- The signature is the same whatever signatures there are. -/
theorem decoratedSignature_withSignatures (h : crates.Documented)
    (sigs : VecM 20 DecoratedSignature) :
    decoratedSignature crates (envelope.withSignatures sigs) signer network =
      decoratedSignature crates envelope signer network := by
  rw [decoratedSignature, h, decoratedSignature]

/-- What is appended is accepted. -/
theorem decoratedSignature_ok (hsigner : signer.Documented crates)
    (h : decoratedSignature crates envelope signer network = .ok sig) :
    ∃ txHash, crates.hash envelope (network.networkId crates.sha256) = .ok txHash ∧
      sig.hint = hintOf signer.publicKeyBytes ∧ sig.signature.items.length = 64 ∧
        crates.verify signer.publicKeyBytes txHash sig.signature.items = true := by
  obtain ⟨txHash, hhash, h⟩ := Except.bind_eq_ok_iff.mp h
  obtain ⟨signature, hsign, h⟩ := Except.bind_eq_ok_iff.mp h
  obtain ⟨_, hlength, h⟩ := Except.bind_eq_ok_iff.mp h
  have hlength := Except.ensure_eq_ok_iff.mp hlength
  rw [VecM.tryFrom, dif_pos hlength.le] at h
  cases h
  exact ⟨txHash, Except.mapError_eq_ok_iff.mp hhash, rfl, hlength,
    hsigner.accepted txHash signature hsign hlength⟩

theorem verifySignature_eq_true_iff : verifySignature crates envelope signer network = true ↔
    ∃ txHash, crates.hash envelope (network.networkId crates.sha256) = .ok txHash ∧
      crates.isKey signer.publicKeyBytes = true ∧ ∃ s ∈ envelope.signatures.items,
        s.hint = hintOf signer.publicKeyBytes ∧ s.signature.items.length = 64 ∧
          crates.verify signer.publicKeyBytes txHash s.signature.items = true := by
  rw [verifySignature]
  cases crates.hash envelope (network.networkId crates.sha256) with
  | error e => simp
  | ok txHash => simp [and_assoc]

/-- What is appended leaves the rest as it was. -/
theorem appendSignature_ok (h : appendSignature envelope sig = some envelope') :
    envelope'.signatures.items = envelope.signatures.items ++ [sig] ∧
      envelope' = envelope.withSignatures envelope'.signatures := by
  obtain ⟨sigs, hsigs, rfl⟩ := appendSignature_eq_some_iff.mp h
  simpa using hsigs

theorem exists_appendSignature (h : envelope.signatures.items.length < 20) :
    ∃ envelope', appendSignature envelope sig = some envelope' :=
  Option.ne_none_iff_exists'.mp fun hnone => h.ne (appendSignature_eq_none_iff.mp hnone)

/-! ### Signing -/

variable (crates) in
/-- Signing does not panic. What is signed has one signature more, behind the others, and nothing
else is changed. The signature is valid, and those that were valid still are. Two signers may sign
in either order. -/
structure SignsCleanly (envelope : ReviewedEnvelope Auth) (signer : Signer) (network : Network) :
    Prop where
  noPanic : signEnvelopeWith crates envelope signer network ≠ none
  appends : ∀ envelope', signEnvelopeWith crates envelope signer network = some (.ok envelope') →
    ∃ sig, envelope'.signatures.items = envelope.signatures.items ++ [sig] ∧
      envelope' = envelope.withSignatures envelope'.signatures
  valid : ∀ envelope', signEnvelopeWith crates envelope signer network = some (.ok envelope') →
    verifySignature crates envelope' signer network = true
  stays : ∀ envelope' other network',
    signEnvelopeWith crates envelope signer network = some (.ok envelope') →
    verifySignature crates envelope other network' = true →
    verifySignature crates envelope' other network' = true
  commutes : ∀ other network' once twice,
    signEnvelopeWith crates envelope signer network = some (.ok once) →
    signEnvelopeWith crates once other network' = some (.ok twice) →
    ∃ once' twice', signEnvelopeWith crates envelope other network' = some (.ok once') ∧
      signEnvelopeWith crates once' signer network = some (.ok twice') ∧
      twice'.signatures.items.Perm twice.signatures.items ∧
      twice' = twice.withSignatures twice'.signatures

/-- A signature that is valid stays so. -/
theorem verifySignature_append (h : crates.Documented)
    (happend : appendSignature envelope sig = some envelope')
    (hvalid : verifySignature crates envelope signer network = true) :
    verifySignature crates envelope' signer network = true := by
  obtain ⟨hitems, heq⟩ := appendSignature_ok happend
  obtain ⟨txHash, hhash, hkey, s, hs, hsig⟩ := verifySignature_eq_true_iff.mp hvalid
  refine verifySignature_eq_true_iff.mpr ⟨txHash, ?_, hkey, s, ?_, hsig⟩
  · rw [heq, h, hhash]
  · rw [hitems]
    exact List.mem_append_left _ hs

/-- The signature that is appended is valid. -/
theorem verifySignature_sign (h : crates.Documented) (hsigner : signer.Documented crates)
    (hsig : decoratedSignature crates envelope signer network = .ok sig)
    (happend : appendSignature envelope sig = some envelope') :
    verifySignature crates envelope' signer network = true := by
  obtain ⟨hitems, heq⟩ := appendSignature_ok happend
  obtain ⟨txHash, hhash, hsig⟩ := decoratedSignature_ok hsigner hsig
  refine verifySignature_eq_true_iff.mpr ⟨txHash, ?_, hsigner.key, sig, ?_, hsig⟩
  · rw [heq, h, hhash]
  · rw [hitems]
    exact List.mem_append_right _ (List.mem_singleton_self sig)

/-- Two signers may sign in either order. -/
theorem sign_comm (h : crates.Documented) {other : Signer} {network' : Network}
    {once twice : ReviewedEnvelope Auth}
    (honce : signEnvelopeWith crates envelope signer network = some (.ok once))
    (htwice : signEnvelopeWith crates once other network' = some (.ok twice)) :
    ∃ once' twice', signEnvelopeWith crates envelope other network' = some (.ok once') ∧
      signEnvelopeWith crates once' signer network = some (.ok twice') ∧
      twice'.signatures.items.Perm twice.signatures.items ∧
      twice' = twice.withSignatures twice'.signatures := by
  obtain ⟨sig, hsig, happend⟩ := signEnvelopeWith_eq_ok_iff.mp honce
  obtain ⟨sig', hsig', happend'⟩ := signEnvelopeWith_eq_ok_iff.mp htwice
  obtain ⟨hitems, heq⟩ := appendSignature_ok happend
  obtain ⟨hitems', heq'⟩ := appendSignature_ok happend'
  -- there is room for both
  have hroom := twice.signatures.bounded
  rw [hitems', hitems] at hroom
  simp only [List.length_append, List.length_singleton] at hroom
  obtain ⟨once', honce'⟩ : ∃ once', appendSignature envelope sig' = some once' :=
    exists_appendSignature (by omega)
  obtain ⟨hother, hbody⟩ := appendSignature_ok honce'
  obtain ⟨twice', htwice'⟩ : ∃ twice', appendSignature once' sig = some twice' :=
    exists_appendSignature (by rw [hother, List.length_append, List.length_singleton]; omega)
  obtain ⟨hother', hbody'⟩ := appendSignature_ok htwice'
  refine ⟨once', twice', signEnvelopeWith_eq_ok_iff.mpr ⟨sig', ?_, honce'⟩,
    signEnvelopeWith_eq_ok_iff.mpr ⟨sig, ?_, htwice'⟩, ?_, ?_⟩
  · rw [heq, decoratedSignature_withSignatures h] at hsig'
    exact hsig'
  · rw [hbody, decoratedSignature_withSignatures h]
    exact hsig
  · rw [hother', hother, hitems', hitems, List.append_assoc, List.append_assoc]
    exact (List.Perm.swap sig sig' []).append_left _
  · rw [hbody', hbody, heq', heq]
    simp

/-- **When signing does not panic**: there is room for a signature, or none is made. -/
theorem signsCleanly_iff (crates : SigningCrates Auth) (h : crates.Documented)
    (envelope : ReviewedEnvelope Auth) (signer : Signer) (hsigner : signer.Documented crates)
    (network : Network) :
    SignsCleanly crates envelope signer network ↔
      (envelope.signatures.items.length < 20 ∨
        ∀ sig, decoratedSignature crates envelope signer network ≠ .ok sig) := by
  have hbounded := envelope.signatures.bounded
  constructor
  · intro hclean
    have hpanic := mt signEnvelopeWith_eq_none_iff.mpr hclean.noPanic
    by_cases hroom : envelope.signatures.items.length < 20
    · exact .inl hroom
    · exact .inr fun sig hsig => hpanic ⟨by omega, sig, hsig⟩
  · intro hcond
    refine ⟨fun hnone => ?_, fun envelope' hok => ?_, fun envelope' hok => ?_,
      fun envelope' other network' hok hvalid => ?_,
      fun other network' once twice honce htwice => sign_comm h honce htwice⟩
    · obtain ⟨hfull, sig, hsig⟩ := signEnvelopeWith_eq_none_iff.mp hnone
      rcases hcond with hroom | hfails
      · omega
      · exact hfails sig hsig
    · obtain ⟨sig, -, happend⟩ := signEnvelopeWith_eq_ok_iff.mp hok
      exact ⟨sig, appendSignature_ok happend⟩
    · obtain ⟨sig, hsig, happend⟩ := signEnvelopeWith_eq_ok_iff.mp hok
      exact verifySignature_sign h hsigner hsig happend
    · obtain ⟨sig, -, happend⟩ := signEnvelopeWith_eq_ok_iff.mp hok
      exact verifySignature_append h happend hvalid

end

/-! ### An envelope without operations -/

/-- The public key of a seed. -/
def seedKey : Bytes32 := Vector.ofFn fun i =>
  [0x79, 0xb5, 0x56, 0x2e, 0x8f, 0xe6, 0x54, 0xf9, 0x40, 0x78, 0xb1, 0x12, 0xe8, 0xa9, 0x8b, 0xa7,
    0x90, 0x1f, 0x85, 0x3a, 0xe6, 0x95, 0xbe, 0xd7, 0xe0, 0xe3, 0x91, 0x0b, 0xad, 0x04, 0x96,
    0x64].getD i 0

/-- The hash of an envelope of its account for the testnet. -/
def emptyHash : Bytes32 := Vector.ofFn fun i =>
  [0x7a, 0x05, 0xb5, 0xb7, 0x8a, 0xbb, 0x11, 0xeb, 0x04, 0x72, 0xee, 0x3b, 0xff, 0xdc, 0xbd, 0x45,
    0x4e, 0x7a, 0x2f, 0xa2, 0x65, 0xa3, 0x8f, 0xe0, 0x14, 0x6b, 0x2d, 0x10, 0x69, 0xc9, 0xf0,
    0xd1].getD i 0

/-- The signature of the hash. -/
def emptySignature : List UInt8 :=
  [0x1e, 0x82, 0xda, 0x02, 0x15, 0xcf, 0x1c, 0x00, 0x63, 0xbd, 0xc9, 0x18, 0xc6, 0xfe, 0x9f, 0x89,
    0x88, 0x6c, 0x9c, 0x26, 0x2c, 0x4a, 0x6a, 0xe5, 0x60, 0x84, 0xd1, 0xf3, 0x45, 0xe5, 0x77, 0x90,
    0x19, 0x42, 0x04, 0x92, 0xe5, 0xee, 0x28, 0xeb, 0xa4, 0x8c, 0xc1, 0x74, 0xc2, 0x60, 0x24, 0xf3,
    0x55, 0x74, 0xc4, 0x6d, 0xbc, 0x04, 0x21, 0x48, 0x5d, 0x0a, 0x5f, 0x8c, 0xe0, 0xcb, 0xe8, 0x04]

/-- The public key of another seed. -/
def cosignerKey : Bytes32 := Vector.ofFn fun i =>
  [0x13, 0x98, 0xf6, 0x2c, 0x6d, 0x1a, 0x45, 0x7c, 0x51, 0xba, 0x6a, 0x4b, 0x5f, 0x3d, 0xbd, 0x2f,
    0x69, 0xfc, 0xa9, 0x32, 0x16, 0x21, 0x8d, 0xc8, 0x99, 0x7e, 0x41, 0x6b, 0xd1, 0x7d, 0x93,
    0xca].getD i 0

/-- Its signature of the hash. -/
def cosignature : List UInt8 :=
  [0xc5, 0x70, 0x54, 0xb5, 0x96, 0x50, 0x9f, 0x55, 0x42, 0x5c, 0xcb, 0x0f, 0x4f, 0x62, 0x3a, 0x99,
    0x9b, 0xb6, 0x02, 0x72, 0x7a, 0x62, 0x52, 0x97, 0xd6, 0x87, 0x3d, 0x7b, 0xec, 0xe5, 0x0c, 0x81,
    0xf9, 0x8e, 0x03, 0x7e, 0x59, 0x53, 0x5f, 0x60, 0xb4, 0x41, 0x28, 0x3c, 0x56, 0x50, 0xe8, 0x01,
    0x4e, 0xad, 0xd1, 0xb9, 0x7c, 0x7f, 0x40, 0x9d, 0xa0, 0x3c, 0x58, 0xab, 0x55, 0x57, 0x0d, 0x05]

/-- The crates, as they are for this hash and these keys. -/
def emptyCrates : SigningCrates Unit where
  sha256 := Sha256.digest
  hash _ _ := .ok emptyHash
  isKey key := key = seedKey || key = cosignerKey
  verify key hash signature := hash = emptyHash &&
    (key = seedKey && signature = emptySignature || key = cosignerKey && signature = cosignature)

/-- The signer with the seed, for this hash. -/
def seedSigner : Signer where
  publicKeyBytes := seedKey
  signHash hash :=
    if hash = emptyHash then .ok emptySignature else .error (.sign "signing failed")

/-- An envelope of the account without operations, with some signatures. -/
def emptyEnvelope (signatures : VecM 20 DecoratedSignature) : ReviewedEnvelope Unit :=
  .tx {
    sourceAccount := .ed25519 seedKey
    fee := 100
    seqNum := 1
    cond := .none
    memo := .none
    operations := .default
    ext := .v0 } signatures

theorem seedSigner_documented : seedSigner.Documented emptyCrates where
  key := by simp [emptyCrates, seedSigner]
  accepted hash signature hsign _ := by
    rw [seedSigner] at hsign
    simp only at hsign
    split at hsign
    · next hhash =>
      cases hsign
      simp [emptyCrates, seedSigner, hhash]
    · cases hsign

/-- The envelope with the signature of the other key. -/
def cosignedEnvelope : ReviewedEnvelope Unit :=
  emptyEnvelope ⟨[⟨hintOf cosignerKey, ⟨cosignature, by decide⟩⟩], by decide⟩

/-- An envelope that another key has signed is signed, and both signatures are valid. -/
theorem signsCleanly_cosigned : SignsCleanly emptyCrates cosignedEnvelope seedSigner .testnet ∧
    ∃ envelope, signEnvelopeWith emptyCrates cosignedEnvelope seedSigner .testnet =
        some (.ok envelope) ∧
      verifySignature emptyCrates envelope seedSigner .testnet = true ∧
      verifySignature emptyCrates envelope ⟨cosignerKey, fun _ => .ok cosignature⟩ .testnet =
        true := by
  have hclean : SignsCleanly emptyCrates cosignedEnvelope seedSigner .testnet :=
    (signsCleanly_iff emptyCrates (fun _ _ _ => rfl) cosignedEnvelope seedSigner
      seedSigner_documented .testnet).mpr (.inl (by decide))
  have hcosigned : verifySignature emptyCrates cosignedEnvelope
      ⟨cosignerKey, fun _ => .ok cosignature⟩ .testnet = true := by decide +kernel
  obtain ⟨envelope, henvelope⟩ : ∃ envelope,
      signEnvelopeWith emptyCrates cosignedEnvelope seedSigner .testnet = some (.ok envelope) :=
    ⟨_, rfl⟩
  exact ⟨hclean, envelope, henvelope, hclean.valid envelope henvelope,
    hclean.stays envelope _ _ henvelope hcosigned⟩

/-- An envelope with twenty signatures. -/
def fullEnvelope : ReviewedEnvelope Unit :=
  emptyEnvelope ⟨List.replicate 20 ⟨hintOf seedKey, ⟨[], Nat.zero_le 64⟩⟩, by simp⟩

/-- Signing it panics. -/
theorem sign_fullEnvelope_panics :
    signEnvelopeWith emptyCrates fullEnvelope seedSigner .testnet = none ∧
      ¬ SignsCleanly emptyCrates fullEnvelope seedSigner .testnet := by
  have hnone : signEnvelopeWith emptyCrates fullEnvelope seedSigner .testnet = none :=
    signEnvelopeWith_eq_none_iff.mpr ⟨by simp [fullEnvelope, emptyEnvelope,
      ReviewedEnvelope.signatures], ⟨hintOf seedKey, emptySignature, by decide⟩, by
        rw [decoratedSignature]
        rfl⟩
  exact ⟨hnone, fun h => h.noPanic hnone⟩

end SorobanDevkit.Xdr
