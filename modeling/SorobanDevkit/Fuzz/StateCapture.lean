import SorobanDevkit.Library.Base64
import SorobanDevkit.Library.Fallible
import SorobanDevkit.Library.Strings
import SorobanDevkit.Xdr.Encoding

/-!
# State capture

The state that a simulation used is captured from the ledger, and the capture is verified as far as
that can be checked (`sdkt-fuzz/src/state_capture.rs`).
-/

namespace SorobanDevkit.Fuzz

open Strings (trim)
open Xdr

/-! ### XDR of ledger keys and entries -/

/-- The XDR of ledger keys and entries, without limits. Reading ignores what is after the value;
errors are given by their texts. -/
structure LedgerXdr where
  writeKey : LedgerKey → Except String (List UInt8)
  readKey : List UInt8 → Except String LedgerKey
  writeEntry : LedgerEntry → Except String (List UInt8)
  readEntry : List UInt8 → Except String LedgerEntry
  base64Error : String → String

section

variable (xdr : LedgerXdr)

/-- `encode_key`. -/
def encodeKey (key : LedgerKey) : Except String String :=
  (xdr.writeKey key).map Base64.encode

/-- The bytes of a base64 text. -/
def decodeBase64 (text : String) : Except String (List UInt8) :=
  match Base64.decode (trim text) with
  | some raw => .ok raw
  | none => .error (xdr.base64Error (trim text))

/-- `decode_key`. -/
def decodeKey (keyB64 : String) : Except String LedgerKey := do
  let raw ← decodeBase64 xdr keyB64
  xdr.readKey raw

/-- `state_capture::decode_entry`. -/
def decodeXdrEntry (entryB64 : String) : Except String LedgerEntry := do
  let raw ← decodeBase64 xdr entryB64
  xdr.readEntry raw

/-- `encode_entry`. -/
def encodeEntry (entry : LedgerEntry) : Except String String :=
  (xdr.writeEntry entry).map Base64.encode

end

/-- XDR that is composed of known encodings. -/
def codecLedgerXdr : LedgerXdr where
  writeKey key := .ok (ledgerKeyCodec.write key)
  readKey bytes := ((ledgerKeyCodec.read bytes).map Prod.fst).elim (.error "xdr value invalid") .ok
  writeEntry entry := .ok (ledgerEntryCodec.write entry)
  readEntry bytes :=
    ((ledgerEntryCodec.read bytes).map Prod.fst).elim (.error "xdr value invalid") .ok
  base64Error _ := "Invalid padding"

/-! ### Captures -/

/-- `EntrySource`. -/
inductive EntrySource
  | ledgerEntriesRead
  | absentAtRead
  deriving DecidableEq

/-- `CapturedEntry`. -/
structure CapturedEntry where
  keyB64 : String
  entry : LedgerEntry
  lastModifiedLedgerSeq : UInt32
  liveUntilLedgerSeq : Option UInt32
  source : EntrySource
  deriving DecidableEq

/-- `StateUnverified`. -/
inductive StateUnverified
  | stateOlderThanSimulation (fetchLatestLedger simulationLatestLedger : UInt32)
  | entryNotLive (keyB64 : String) (liveUntilLedgerSeq simulationLatestLedger : UInt32)
  | entryModifiedAfterSimulation (keyB64 : String)
      (lastModifiedLedgerSeq simulationLatestLedger : UInt32)
  | footprintKeyMissing (keyB64 : String)
  | footprintKeyAbsentUnverified (keyB64 : String)
  | valueMismatchWithSimulation (keyB64 : String)
  deriving DecidableEq

/-- `StateCaptureOutcome`. -/
inductive StateCaptureOutcome
  | verified (entries : List CapturedEntry) (fetchLatestLedger simulationLatestLedger : UInt32)
  | blocked (reason : StateUnverified) (entries : List CapturedEntry)
      (fetchLatestLedger simulationLatestLedger : UInt32)
  deriving DecidableEq

namespace StateCaptureOutcome

/-- `is_blocked`. -/
def isBlocked : StateCaptureOutcome → Bool
  | .verified .. => false
  | .blocked .. => true

/-- `entries`. -/
def entries : StateCaptureOutcome → List CapturedEntry
  | .verified entries .. | .blocked _ entries .. => entries

/-- `fetch_latest_ledger`. -/
def fetchLatestLedger : StateCaptureOutcome → UInt32
  | .verified _ fetch _ | .blocked _ _ fetch _ => fetch

/-- `simulation_latest_ledger`. -/
def simulationLatestLedger : StateCaptureOutcome → UInt32
  | .verified _ _ simulation | .blocked _ _ _ simulation => simulation

end StateCaptureOutcome

/-- `RawCapture`. -/
structure RawCapture where
  keyB64 : String
  entry : Option LedgerEntry
  lastModifiedLedgerSeq : UInt32
  liveUntilLedgerSeq : Option UInt32
  deriving DecidableEq

section

variable (xdr : LedgerXdr)

/-- `absent_placeholder`. -/
def absentPlaceholder (keyB64 : String) : LedgerEntry :=
  let (contract, key, durability) :=
    match decodeKey xdr keyB64 with
    | .ok (.contractData contract key durability) => (contract, key, durability)
    | _ => (.contract (Vector.replicate 32 0), .ledgerKeyContractInstance, .persistent)
  ⟨0, .contractData ⟨contract, key, durability, .void⟩, []⟩

/-- The captured entry of a raw capture. -/
def RawCapture.captured (r : RawCapture) : CapturedEntry where
  keyB64 := r.keyB64
  entry := r.entry.getD (absentPlaceholder xdr r.keyB64)
  lastModifiedLedgerSeq := r.lastModifiedLedgerSeq
  liveUntilLedgerSeq := r.liveUntilLedgerSeq
  source := if r.entry.isSome then .ledgerEntriesRead else .absentAtRead

/-- Why an entry is not the one at the simulation ledger, if that shows. -/
def CapturedEntry.unverified (simulation : UInt32) (e : CapturedEntry) : Option StateUnverified :=
  match e.liveUntilLedgerSeq with
  | some liveUntil =>
    -- a zero is what is reported for an entry without a time to live
    if liveUntil ≠ 0 ∧ liveUntil < simulation then
      some (.entryNotLive e.keyB64 liveUntil simulation)
    else modified
  | none => modified
where
  modified : Option StateUnverified :=
    if e.source = .ledgerEntriesRead ∧ simulation < e.lastModifiedLedgerSeq then
      some (.entryModifiedAfterSimulation e.keyB64 e.lastModifiedLedgerSeq simulation)
    else none

/-- `build_capture`. -/
def buildCapture (footprintKeys : List String) (raw : List RawCapture)
    (fetch simulation : UInt32) : StateCaptureOutcome :=
  let entries := raw.map (·.captured xdr)
  match footprintKeys.find? fun key => ∀ r ∈ raw, r.keyB64 ≠ key with
  | some key => .blocked (.footprintKeyMissing key) entries fetch simulation
  | none =>
    if fetch < simulation then
      .blocked (.stateOlderThanSimulation fetch simulation) entries fetch simulation
    else
      match entries.findSome? (·.unverified simulation) with
      | some reason => .blocked reason entries fetch simulation
      | none => .verified entries fetch simulation

/-- Why a captured entry is not the one the simulation reports to have used, if that shows. -/
def valueMismatch (entries : List CapturedEntry) : String × String → Option StateUnverified
  | (keyB64, beforeB64) =>
    match entries.find? fun e => e.keyB64 = keyB64 with
    | none => none
    | some captured =>
      if captured.source ≠ .ledgerEntriesRead then none
      else
        match encodeEntry xdr captured.entry with
        | .error _ => none
        | .ok capturedB64 =>
          if capturedB64 ≠ beforeB64 then some (.valueMismatchWithSimulation keyB64) else none

/-- `verify_against_state_changes`. -/
def verifyAgainstStateChanges (outcome : StateCaptureOutcome)
    (stateChanges : List (String × String)) : StateCaptureOutcome :=
  match stateChanges.findSome? (valueMismatch xdr outcome.entries) with
  | some reason =>
    .blocked reason outcome.entries outcome.fetchLatestLedger outcome.simulationLatestLedger
  | none => outcome

end

/-! ### Verified captures -/

/-- No reported end of life is before the ledger. Zero is no end of life. -/
def LiveAt (ledger : UInt32) (liveUntil : Option UInt32) : Prop :=
  ∀ n, liveUntil = some n → n = 0 ∨ ledger ≤ n

theorem unverified_eq_none_iff {simulation : UInt32} {e : CapturedEntry} :
    e.unverified simulation = none ↔ LiveAt simulation e.liveUntilLedgerSeq ∧
      (e.source = .ledgerEntriesRead → e.lastModifiedLedgerSeq ≤ simulation) := by
  have hmodified : CapturedEntry.unverified.modified simulation e = none ↔
      (e.source = .ledgerEntriesRead → e.lastModifiedLedgerSeq ≤ simulation) := by
    rw [CapturedEntry.unverified.modified]
    split_ifs with h
    · simp [h.1, h.2]
    · simpa using h
  rw [CapturedEntry.unverified]
  split
  · next liveUntil hlive =>
    split_ifs with h
    · have hnot : ¬ LiveAt simulation e.liveUntilLedgerSeq := fun hl =>
        (hl liveUntil hlive).elim h.1 (UInt32.not_le.mpr h.2)
      simp [hnot]
    · have hl : LiveAt simulation e.liveUntilLedgerSeq := by
        intro n hn
        rw [hlive] at hn
        cases hn
        by_cases hzero : liveUntil = 0
        · exact .inl hzero
        · exact .inr (UInt32.not_lt.mp fun hlt => h ⟨hzero, hlt⟩)
      rw [hmodified]
      simp [hl]
  · next hlive =>
    rw [hmodified]
    simp [LiveAt, hlive]

/-- The captures account for the footprint, and they are as new as the simulation, live and
unmodified at its ledger. -/
structure CapturePasses (footprintKeys : List String) (raw : List RawCapture)
    (fetch simulation : UInt32) : Prop where
  footprint : ∀ key ∈ footprintKeys, ∃ r ∈ raw, r.keyB64 = key
  fresh : simulation ≤ fetch
  live : ∀ r ∈ raw, LiveAt simulation r.liveUntilLedgerSeq
  stable : ∀ r ∈ raw, r.entry ≠ none → r.lastModifiedLedgerSeq ≤ simulation

section

variable {xdr : LedgerXdr} {footprintKeys : List String} {raw : List RawCapture}
  {fetch simulation : UInt32} {stateChanges : List (String × String)}
  {outcome : StateCaptureOutcome} {entries : List CapturedEntry} {f s : UInt32}

theorem captured_source_eq {r : RawCapture} :
    (r.captured xdr).source = .ledgerEntriesRead ↔ r.entry ≠ none := by
  cases h : r.entry <;> simp [RawCapture.captured, h]

/-- What a capture that is built as verified has passed. -/
theorem buildCapture_eq_verified_iff :
    buildCapture xdr footprintKeys raw fetch simulation = .verified entries f s ↔
      CapturePasses footprintKeys raw fetch simulation ∧
        entries = raw.map (·.captured xdr) ∧ f = fetch ∧ s = simulation := by
  have hfootprint : (footprintKeys.find? fun key => ∀ r ∈ raw, r.keyB64 ≠ key) = none ↔
      ∀ key ∈ footprintKeys, ∃ r ∈ raw, r.keyB64 = key := by
    simp [List.find?_eq_none]
  have hstable : (raw.map (·.captured xdr)).findSome? (·.unverified simulation) = none ↔
      ∀ r ∈ raw, LiveAt simulation r.liveUntilLedgerSeq ∧
        (r.entry ≠ none → r.lastModifiedLedgerSeq ≤ simulation) := by
    rw [List.findSome?_eq_none_iff, List.forall_mem_map]
    exact forall₂_congr fun r _ => by
      rw [unverified_eq_none_iff, captured_source_eq]
      rfl
  rw [buildCapture]
  split
  · next key hkey =>
    refine ⟨fun h => (by cases h), fun h => ?_⟩
    rw [hfootprint.mpr h.1.footprint] at hkey
    cases hkey
  · next hnone =>
    split_ifs with hfresh
    · exact ⟨fun h => (by cases h), fun h => absurd h.1.fresh (UInt32.not_le.mpr hfresh)⟩
    · split
      · next reason hreason =>
        refine ⟨fun h => (by cases h), fun h => ?_⟩
        rw [hstable.mpr fun r hr => ⟨h.1.live r hr, h.1.stable r hr⟩] at hreason
        cases hreason
      · next hlive =>
        have hpasses : CapturePasses footprintKeys raw fetch simulation :=
          ⟨hfootprint.mp hnone, UInt32.not_lt.mp hfresh, fun r hr => (hstable.mp hlive r hr).1,
            fun r hr => (hstable.mp hlive r hr).2⟩
        constructor
        · intro h
          cases h
          exact ⟨hpasses, rfl, rfl, rfl⟩
        · rintro ⟨-, rfl, rfl, rfl⟩
          rfl

/-- Verification only blocks. -/
theorem verifyAgainstStateChanges_eq_verified_iff :
    verifyAgainstStateChanges xdr outcome stateChanges = .verified entries f s ↔
      outcome = .verified entries f s ∧
        ∀ change ∈ stateChanges, valueMismatch xdr outcome.entries change = none := by
  rw [← List.findSome?_eq_none_iff, verifyAgainstStateChanges]
  cases hmismatch : stateChanges.findSome? (valueMismatch xdr outcome.entries) with
  | none => simp
  | some reason => simp

/-- Verification compares the first capture of a key, if it was read and has an encoding. -/
theorem valueMismatch_eq_none_iff {change : String × String} :
    valueMismatch xdr (raw.map (·.captured xdr)) change = none ↔
      ∀ r, (raw.find? fun r => r.keyB64 = change.1) = some r → ∀ entry, r.entry = some entry →
        ∀ captured, encodeEntry xdr entry = .ok captured → captured = change.2 := by
  obtain ⟨keyB64, beforeB64⟩ := change
  have hfind : ((raw.map (·.captured xdr)).find? fun e => e.keyB64 = keyB64) =
      (raw.find? fun r => r.keyB64 = keyB64).map (·.captured xdr) :=
    List.find?_map
  rw [valueMismatch, hfind]
  cases hr : raw.find? fun r => r.keyB64 = keyB64 with
  | none => simp
  | some r =>
    cases hentry : r.entry with
    | none => simp [RawCapture.captured, hentry]
    | some entry =>
      cases hencode : encodeEntry xdr entry with
      | error e => simp [RawCapture.captured, hentry, hencode]
      | ok captured => simp [RawCapture.captured, hentry, hencode]

/-! ### What verification skips -/

end

section

variable (xdr : LedgerXdr) (footprintKeys : List String) (raw : List RawCapture)
  (fetch simulation : UInt32) (stateChanges : List (String × String))

/-- **A verified capture is the state the simulation used**: it has an entry for every key of the
footprint, the entries that were read are live and unmodified at the simulation ledger, and every
entry of a key for which the simulation reports a value was read and has that value. A blocked
capture stays blocked. -/
structure CaptureFaithful : Prop where
  footprint : ∀ entries f s, verifyAgainstStateChanges xdr
    (buildCapture xdr footprintKeys raw fetch simulation) stateChanges = .verified entries f s →
      ∀ key ∈ footprintKeys, ∃ e ∈ entries, e.keyB64 = key
  stable : ∀ entries f s, verifyAgainstStateChanges xdr
    (buildCapture xdr footprintKeys raw fetch simulation) stateChanges = .verified entries f s →
      ∀ e ∈ entries, e.source = .ledgerEntriesRead →
        e.lastModifiedLedgerSeq ≤ simulation ∧ LiveAt simulation e.liveUntilLedgerSeq
  before : ∀ entries f s, verifyAgainstStateChanges xdr
    (buildCapture xdr footprintKeys raw fetch simulation) stateChanges = .verified entries f s →
      ∀ change ∈ stateChanges, ∀ e ∈ entries, e.keyB64 = change.1 →
        e.source = .ledgerEntriesRead ∧ encodeEntry xdr e.entry = .ok change.2
  blocked : ∀ outcome : StateCaptureOutcome, outcome.isBlocked = true →
    (verifyAgainstStateChanges xdr outcome stateChanges).isBlocked = true

/-- **The captures of a key are compared as a whole**: verification looks at the first one, if it
was read and has an encoding. Here each was read, each has an encoding, and no two of them
differ. -/
structure ComparedWhole (key : String) : Prop where
  read : ∀ r ∈ raw, r.keyB64 = key → r.entry ≠ none
  encodable : ∀ r ∈ raw, r.keyB64 = key → ∀ entry, r.entry = some entry →
    ∃ text, encodeEntry xdr entry = .ok text
  alike : ∀ r ∈ raw, r.keyB64 = key → ∀ r' ∈ raw, r'.keyB64 = key → ∀ entry entry',
    r.entry = some entry → r'.entry = some entry' → encodeEntry xdr entry = encodeEntry xdr entry'

/-- The first captures of the reported keys that were read and have an encoding have the reported
values. -/
def FirstAgree : Prop :=
  ∀ change ∈ stateChanges, ∀ r, (raw.find? fun r => r.keyB64 = change.1) = some r →
    ∀ entry, r.entry = some entry → ∀ captured, encodeEntry xdr entry = .ok captured →
      captured = change.2

end

section

variable {xdr : LedgerXdr} {footprintKeys : List String} {raw : List RawCapture}
  {fetch simulation : UInt32} {stateChanges : List (String × String)}
  {outcome : StateCaptureOutcome} {entries : List CapturedEntry} {f s : UInt32}

/-- What a verified capture has passed. -/
theorem verified_iff : verifyAgainstStateChanges xdr
    (buildCapture xdr footprintKeys raw fetch simulation) stateChanges = .verified entries f s ↔
      CapturePasses footprintKeys raw fetch simulation ∧ FirstAgree xdr raw stateChanges ∧
        entries = raw.map (·.captured xdr) ∧ f = fetch ∧ s = simulation := by
  rw [verifyAgainstStateChanges_eq_verified_iff]
  constructor
  · rintro ⟨hbuild, hmismatch⟩
    obtain ⟨hpasses, rfl, hfs⟩ := buildCapture_eq_verified_iff.mp hbuild
    rw [hbuild] at hmismatch
    exact ⟨hpasses, fun change hchange => valueMismatch_eq_none_iff.mp (hmismatch change hchange),
      rfl, hfs⟩
  · rintro ⟨hpasses, hagree, rfl, hfs⟩
    have hbuild : buildCapture xdr footprintKeys raw fetch simulation =
        .verified (raw.map (·.captured xdr)) f s :=
      buildCapture_eq_verified_iff.mpr ⟨hpasses, rfl, hfs⟩
    refine ⟨hbuild, fun change hchange => ?_⟩
    rw [hbuild]
    exact valueMismatch_eq_none_iff.mpr (hagree change hchange)

theorem verifyAgainstStateChanges_isBlocked (h : outcome.isBlocked = true) :
    (verifyAgainstStateChanges xdr outcome stateChanges).isBlocked = true := by
  rw [verifyAgainstStateChanges]
  split
  · rfl
  · exact h

/-- If the first capture of a reported key agrees, all do, exactly if the captures of the key are
compared as a whole. -/
theorem comparedWhole_iff (hagree : FirstAgree xdr raw stateChanges) {change : String × String}
    (hchange : change ∈ stateChanges) :
    ComparedWhole xdr raw change.1 ↔ ∀ r ∈ raw, r.keyB64 = change.1 →
      ∃ entry, r.entry = some entry ∧ encodeEntry xdr entry = .ok change.2 := by
  constructor
  · intro h r hr hkey
    obtain ⟨first, hfirst⟩ := Option.isSome_iff_exists.mp
      (List.find?_isSome (p := fun r => decide (r.keyB64 = change.1)).mpr
        ⟨r, hr, decide_eq_true hkey⟩)
    have hmem := List.mem_of_find?_eq_some hfirst
    have hfirstKey : first.keyB64 = change.1 := by simpa using List.find?_some hfirst
    obtain ⟨entry₀, hentry₀⟩ := Option.ne_none_iff_exists'.mp (h.read first hmem hfirstKey)
    obtain ⟨text, htext⟩ := h.encodable first hmem hfirstKey entry₀ hentry₀
    obtain ⟨entry, hentry⟩ := Option.ne_none_iff_exists'.mp (h.read r hr hkey)
    refine ⟨entry, hentry, ?_⟩
    rw [h.alike r hr hkey first hmem hfirstKey entry entry₀ hentry hentry₀, htext,
      hagree change hchange first hfirst entry₀ hentry₀ text htext]
  · intro h
    have heq : ∀ r ∈ raw, r.keyB64 = change.1 → ∀ entry, r.entry = some entry →
        encodeEntry xdr entry = .ok change.2 := by
      intro r hr hkey entry hentry
      obtain ⟨entry', hentry', hencode⟩ := h r hr hkey
      rw [hentry] at hentry'
      cases hentry'
      exact hencode
    refine ⟨fun r hr hkey hnone => ?_,
      fun r hr hkey entry hentry => ⟨_, heq r hr hkey entry hentry⟩,
      fun r hr hkey r' hr' hkey' entry entry' hentry hentry' => ?_⟩
    · obtain ⟨entry, hentry, -⟩ := h r hr hkey
      rw [hnone] at hentry
      cases hentry
    · rw [heq r hr hkey entry hentry, heq r' hr' hkey' entry' hentry']

/-- **A verified capture is the state the simulation used exactly if the captures of every reported
key are compared as a whole**, where a capture that fails another check is not verified at all. -/
theorem capture_faithful_iff :
    CaptureFaithful xdr footprintKeys raw fetch simulation stateChanges ↔
      (CapturePasses footprintKeys raw fetch simulation → FirstAgree xdr raw stateChanges →
        ∀ change ∈ stateChanges, ComparedWhole xdr raw change.1) := by
  constructor
  · intro h hpasses hagree change hchange
    refine (comparedWhole_iff hagree hchange).mpr fun r hr hkey => ?_
    obtain ⟨hsource, hencode⟩ := h.before _ _ _ (verified_iff.mpr ⟨hpasses, hagree, rfl, rfl, rfl⟩)
      change hchange (r.captured xdr) (List.mem_map_of_mem hr) hkey
    obtain ⟨entry, hentry⟩ := Option.ne_none_iff_exists'.mp (captured_source_eq.mp hsource)
    refine ⟨entry, hentry, ?_⟩
    rwa [RawCapture.captured, hentry] at hencode
  · intro h
    refine ⟨fun entries f s hv key hkey => ?_, fun entries f s hv e he hsource => ?_,
      fun entries f s hv change hchange e he hkey => ?_,
      fun _ => verifyAgainstStateChanges_isBlocked⟩
    · obtain ⟨hpasses, -, rfl, -⟩ := verified_iff.mp hv
      obtain ⟨r, hr, rfl⟩ := hpasses.footprint key hkey
      exact ⟨r.captured xdr, List.mem_map_of_mem hr, rfl⟩
    · obtain ⟨hpasses, -, rfl, -⟩ := verified_iff.mp hv
      obtain ⟨r, hr, rfl⟩ := List.mem_map.mp he
      exact ⟨hpasses.stable r hr (captured_source_eq.mp hsource), hpasses.live r hr⟩
    · obtain ⟨hpasses, hagree, rfl, -⟩ := verified_iff.mp hv
      obtain ⟨r, hr, rfl⟩ := List.mem_map.mp he
      obtain ⟨entry, hentry, hencode⟩ := (comparedWhole_iff hagree hchange).mp
        (h hpasses hagree change hchange) r hr hkey
      refine ⟨captured_source_eq.mpr (by simp [hentry]), ?_⟩
      rw [RawCapture.captured, hentry]
      exact hencode

end

section Counter

/-- A counter of a contract. -/
def counterEntry : LedgerEntry :=
  ⟨90, .contractData ⟨.contract (Vector.replicate 32 0), .u32 1, .persistent, .u32 3⟩, []⟩

/-- The key of the counter. -/
def counterKeyB64 : String := Base64.encode (ledgerKeyCodec.write counterEntry.toKey)

/-- The value of the counter that the simulation reports. -/
def counterEntryB64 : String := Base64.encode (ledgerEntryCodec.write counterEntry)

/-- A counter that the simulation has read and the capture has not is verified. -/
theorem absent_capture_is_verified :
    ¬ CaptureFaithful codecLedgerXdr [counterKeyB64] [⟨counterKeyB64, none, 0, none⟩] 100 100
      [(counterKeyB64, counterEntryB64)] := by
  intro h
  have hpasses : CapturePasses [counterKeyB64] [⟨counterKeyB64, none, 0, none⟩] 100 100 :=
    ⟨by simp, UInt32.le_refl 100, by simp [LiveAt], by simp⟩
  have hagree : FirstAgree codecLedgerXdr [⟨counterKeyB64, none, 0, none⟩]
      [(counterKeyB64, counterEntryB64)] := by
    simp [FirstAgree]
  obtain ⟨hsource, -⟩ := h.before _ _ _ (verified_iff.mpr ⟨hpasses, hagree, rfl, rfl, rfl⟩)
    (counterKeyB64, counterEntryB64) (by simp) _ (List.mem_singleton_self _) rfl
  exact captured_source_eq.mp hsource rfl

end Counter

end SorobanDevkit.Fuzz
