import SorobanDevkit.Fuzz.Artifact
import SorobanDevkit.Fuzz.StateCapture
import SorobanDevkit.Library.History

/-!
# Chaining a simulation to the next one

The state changes that a simulation reports (`decode_state_change` in
`sdkt-fuzz/src/state_capture.rs`) are applied to the state it started from, for the next one to
start from what it left (`state_changes_into_sequence_state` in `sdkt-fuzz/src/sequence.rs`).

## Main results

* `decodeStateChange_encoded` — a row is decoded from its encoding.
* `stateChangesIntoSequenceState_eq_ok_iff` — which rows are applied, and to what state.
* `applyStateDelta_observed` — the state after the rows as an observation.
* `state_changes_replay` — chaining is an exact replay.
-/

namespace SorobanDevkit.Fuzz

open Xdr

/-! ### Rows -/

/-- `StateChangeKind`. -/
inductive StateChangeKind
  | created
  | updated
  | deleted
  deriving DecidableEq

namespace StateChangeKind

/-- The kind as a row reports it. -/
def text : StateChangeKind → String
  | .created => "created"
  | .updated => "updated"
  | .deleted => "deleted"

/-- `Debug` of a kind. -/
def debug : StateChangeKind → String
  | .created => "Created"
  | .updated => "Updated"
  | .deleted => "Deleted"

/-- The kind of the change back. -/
def inverse : StateChangeKind → StateChangeKind
  | .created => .deleted
  | .updated => .updated
  | .deleted => .created

/-- The kind of an observed change. -/
def stateChange : StateChangeKind → StateChange
  | .created => .created
  | .updated => .updated
  | .deleted => .deleted

/-- The values that a row of the kind has. -/
def Presence (kind : StateChangeKind) (before after : Option LedgerEntry) : Prop :=
  match kind with
  | .created => before = none ∧ after ≠ none
  | .updated => before ≠ none ∧ after ≠ none
  | .deleted => before ≠ none ∧ after = none

instance (kind : StateChangeKind) (before after : Option LedgerEntry) :
    Decidable (kind.Presence before after) := by
  cases kind <;> exact inferInstanceAs (Decidable (_ ∧ _))

end StateChangeKind

/-- `DecodedStateChange`. -/
structure DecodedStateChange where
  keyB64 : String
  kind : StateChangeKind
  before : Option LedgerEntry
  after : Option LedgerEntry
  deriving DecidableEq

/-- The row of the change back. -/
def DecodedStateChange.inverse (row : DecodedStateChange) : DecodedStateChange where
  keyB64 := row.keyB64
  kind := row.kind.inverse
  before := row.after
  after := row.before

/-- `StateChangeDecodeError`. -/
inductive StateChangeDecodeError
  | malformedRow (detail : String)
  | unknownKind (value : String)
  | badXdr (field detail : String)
  | keyMismatch (rowKeyB64 entryKeyB64 : String)
  deriving DecidableEq

section

variable (xdr : LedgerXdr)

/-- A value of a row. -/
def decodeSide (field : String) :
    Option String → Except StateChangeDecodeError (Option LedgerEntry)
  | none => .ok none
  | some v => ((decodeXdrEntry xdr v).mapError (.badXdr field)).map some

/-- A value has the key of its row. -/
def checkEntryKey (keyB64 : String) (entry : LedgerEntry) : Except StateChangeDecodeError Unit := do
  let entryKey ← (encodeKey xdr entry.toKey).mapError (.badXdr "key")
  if entryKey ≠ keyB64 then .error (.keyMismatch keyB64 entryKey) else .ok ()

/-- The kind that a row reports. -/
def decodeKind : String → Except StateChangeDecodeError StateChangeKind
  | "created" => .ok .created
  | "updated" => .ok .updated
  | "deleted" => .ok .deleted
  | other => .error (.unknownKind other)

/-- `decode_state_change`. -/
def decodeStateChange (keyB64 kind : String) (beforeB64 afterB64 : Option String) :
    Except StateChangeDecodeError DecodedStateChange := do
  let kind ← decodeKind kind
  let before ← decodeSide xdr "before" beforeB64
  let after ← decodeSide xdr "after" afterB64
  if ¬ kind.Presence before after then
    .error (.malformedRow ("kind " ++ kind.debug ++
      " requires before/after presence that the row does not have (before=" ++
      toString before.isSome ++ ", after=" ++ toString after.isSome ++ ")"))
  else do
    (before.toList ++ after.toList).forM (checkEntryKey xdr keyB64)
    .ok { keyB64, kind, before, after }

/-- `is_executor_owned_key`. -/
def isExecutorOwnedKey : LedgerKey → Bool
  | .contractCode _ => true
  | .contractData _ .ledgerKeyContractInstance _ => true
  | .contractData _ (.ledgerKeyNonce _) _ => true
  | _ => false

/-! ### The next state -/

/-- `ChainError`. -/
inductive ChainError
  | unsupportedKey (keyB64 : String)
  | unsupportedEntry (keyB64 : String)
  | keyMismatch (keyB64 : String)
  | baselineMismatch (keyB64 kind detail : String)
  deriving DecidableEq

/-- The value before a row is the one the baseline holds. -/
def checkBefore (row : DecodedStateChange) (key : LedgerKey) (baselineEntry : Option LedgerEntry) :
    Except ChainError Unit :=
  let mismatch detail := .error (.baselineMismatch row.keyB64 row.kind.text detail)
  match baselineEntry with
  | none => mismatch "key does not exist in the baseline"
  | some baselineEntry =>
    match row.before with
    | none => mismatch (row.kind.text ++ " row carries no before value")
    | some before =>
      if before.toKey ≠ key then mismatch "before value decodes to a different key than reported"
      else if before ≠ baselineEntry then mismatch "before value does not match the baseline entry"
      else .ok ()

/-- The value after a row, if it is contract data under the key of the row. -/
def checkAfter (row : DecodedStateChange) (key : LedgerKey) : Except ChainError LedgerEntry :=
  match row.after with
  | none => .error (.unsupportedEntry row.keyB64)
  | some after =>
    if after.toKey ≠ key then .error (.keyMismatch row.keyB64)
    else
      match after.data with
      | .contractData _ => .ok after
      | _ => .error (.unsupportedEntry row.keyB64)

/-- The entries after a row of contract data. -/
def chainEntries (entries : List LedgerEntry) (row : DecodedStateChange) (key : LedgerKey) :
    Except ChainError (List LedgerEntry) :=
  let baselineEntry := entries.find? fun e => e.toKey = key
  match row.kind with
  | .created =>
    if baselineEntry ≠ none then
      .error (.baselineMismatch row.keyB64 "created" "key already exists in the baseline")
    else do
      let after ← checkAfter row key
      .ok (entries ++ [after])
  | .updated => do
    checkBefore row key baselineEntry
    let after ← checkAfter row key
    .ok ((entries.filter fun e => e.toKey ≠ key) ++ [after])
  | .deleted => do
    checkBefore row key baselineEntry
    .ok (entries.filter fun e => e.toKey ≠ key)

/-- The state after a row. -/
def chainRow (state : SequenceState) (row : DecodedStateChange) :
    Except ChainError SequenceState := do
  let key ← (decodeKey xdr row.keyB64).mapError fun _ => .unsupportedKey row.keyB64
  if isExecutorOwnedKey key then .ok state
  else
    match key with
    | .contractData .. => do
      let dataEntries ← chainEntries state.dataEntries row key
      .ok { state with dataEntries }
    | _ => .error (.unsupportedKey row.keyB64)

/-- `state_changes_into_sequence_state`. -/
def stateChangesIntoSequenceState (baseline : SequenceState) (changes : List DecodedStateChange) :
    Except ChainError SequenceState :=
  changes.foldlM (chainRow xdr) baseline

/-- The XDR of the value after a row. -/
def afterXdr : Option LedgerEntry → Except String (Option (List UInt8))
  | some entry => (xdr.writeEntry entry).map some
  | none => .ok none

/-- A row as an observed entry, its key and value given by their XDR
(`RpcStateChange::from_decoded`). -/
def observedRow (row : DecodedStateChange) : Except String StateEntry := do
  let keyXdr ← decodeBase64 xdr row.keyB64
  let valueXdr ← afterXdr xdr row.after
  .ok ⟨keyXdr, valueXdr, row.kind.stateChange⟩

end

/-! ### What is assumed of the encodings -/

/-- Keys and entries are read back from their encodings, also when these are all there is to read,
and every entry has an encoding. -/
structure LedgerXdr.Documented (crates : Crates) (xdr : LedgerXdr) : Prop where
  writeEntry : ∀ entry, ∃ bytes, xdr.writeEntry entry = .ok bytes
  readKey : ∀ {key bytes}, xdr.writeKey key = .ok bytes → xdr.readKey bytes = .ok key
  readEntry : ∀ {entry bytes}, xdr.writeEntry entry = .ok bytes → xdr.readEntry bytes = .ok entry
  fromXdrKey : ∀ {key bytes}, xdr.writeKey key = .ok bytes → crates.readLedgerKey bytes = .ok key
  fromXdrEntry : ∀ {entry bytes}, xdr.writeEntry entry = .ok bytes →
    crates.readLedgerEntry bytes = .ok entry

theorem codecLedgerXdr_documented : codecLedgerXdr.Documented codecCrates where
  writeEntry _ := ⟨_, rfl⟩
  readKey h := by cases h; simp [codecLedgerXdr]
  readEntry h := by cases h; simp [codecLedgerXdr]
  fromXdrKey h := by cases h; simp [codecCrates]
  fromXdrEntry h := by cases h; simp [codecCrates]

section

variable {crates : Crates} {xdr : LedgerXdr} {key : LedgerKey} {text : String}
  {row : DecodedStateChange}

theorem decodeBase64_encode (bytes : List UInt8) :
    decodeBase64 xdr (Base64.encode bytes) = .ok bytes := by
  rw [decodeBase64, Base64.trim_encode, Base64.decode_encode]

theorem decodeKey_of_encodeKey (hxdr : xdr.Documented crates) (h : encodeKey xdr key = .ok text) :
    decodeKey xdr text = .ok key := by
  obtain ⟨bytes, hwrite, rfl⟩ := Except.map_eq_ok_iff.mp h
  exact Except.bind_eq_ok_iff.mpr ⟨bytes, decodeBase64_encode bytes, hxdr.readKey hwrite⟩

theorem decodeXdrEntry_of_encodeEntry (hxdr : xdr.Documented crates) {entry : LedgerEntry}
    (h : encodeEntry xdr entry = .ok text) : decodeXdrEntry xdr text = .ok entry := by
  obtain ⟨bytes, hwrite, rfl⟩ := Except.map_eq_ok_iff.mp h
  exact Except.bind_eq_ok_iff.mpr ⟨bytes, decodeBase64_encode bytes, hxdr.readEntry hwrite⟩

/-! ### Decoded rows -/

/-- The row reports a change under the key. -/
structure IsRow (xdr : LedgerXdr) (key : LedgerKey) (row : DecodedStateChange) : Prop where
  keyB64 : encodeKey xdr key = .ok row.keyB64
  presence : row.kind.Presence row.before row.after
  before : ∀ entry, row.before = some entry → entry.toKey = key
  after : ∀ entry, row.after = some entry → entry.toKey = key

theorem IsRow.inverse (h : IsRow xdr key row) : IsRow xdr key row.inverse where
  keyB64 := h.keyB64
  presence := by
    have hpresence := h.presence
    rw [DecodedStateChange.inverse]
    cases hkind : row.kind <;> rw [hkind] at hpresence <;> exact ⟨hpresence.2, hpresence.1⟩
  before := h.after
  after := h.before

theorem checkEntryKey_eq_ok_iff {entry : LedgerEntry} :
    checkEntryKey xdr text entry = .ok () ↔ encodeKey xdr entry.toKey = .ok text := by
  rw [checkEntryKey, Except.bind_eq_ok_iff]
  constructor
  · rintro ⟨entryKey, hkey, h⟩
    split_ifs at h with hne
    rw [← not_not.mp hne]
    exact Except.mapError_eq_ok_iff.mp hkey
  · intro h
    exact ⟨text, Except.mapError_eq_ok_iff.mpr h, by rw [if_neg (not_not.mpr rfl)]⟩

/-- What is decoded is a row of a key. -/
theorem exists_isRow (hxdr : xdr.Documented crates) {keyB64 kind : String}
    {beforeB64 afterB64 : Option String}
    (h : decodeStateChange xdr keyB64 kind beforeB64 afterB64 = .ok row) :
    ∃ key, IsRow xdr key row := by
  obtain ⟨kind, -, h⟩ := Except.bind_eq_ok_iff.mp h
  obtain ⟨before, -, h⟩ := Except.bind_eq_ok_iff.mp h
  obtain ⟨after, -, h⟩ := Except.bind_eq_ok_iff.mp h
  split_ifs at h with hpresence
  obtain ⟨⟨⟩, hkeys, h⟩ := Except.bind_eq_ok_iff.mp h
  cases h
  have hentry : ∀ entry ∈ before.toList ++ after.toList,
      encodeKey xdr entry.toKey = .ok keyB64 :=
    fun entry hmem => checkEntryKey_eq_ok_iff.mp (Except.forM_eq_ok_iff.mp hkeys entry hmem)
  -- the row has a value, and the key of the row is its key
  obtain ⟨entry, hmem⟩ : ∃ entry, entry ∈ before.toList ++ after.toList := by
    cases before with
    | some entry => exact ⟨entry, by simp⟩
    | none =>
      cases after with
      | some entry => exact ⟨entry, by simp⟩
      | none => cases kind <;> simp [StateChangeKind.Presence] at hpresence
  have hsame : ∀ other ∈ before.toList ++ after.toList, other.toKey = entry.toKey := by
    intro other hother
    have hkey := decodeKey_of_encodeKey hxdr (hentry entry hmem)
    rw [decodeKey_of_encodeKey hxdr (hentry other hother)] at hkey
    exact Except.ok.inj hkey
  exact ⟨entry.toKey, hentry entry hmem, hpresence,
    fun other h => hsame other (List.mem_append_left _ (Option.mem_toList.mpr h)),
    fun other h => hsame other (List.mem_append_right _ (Option.mem_toList.mpr h))⟩

theorem decodeSide_eq_ok (hxdr : xdr.Documented crates) (field : String)
    {value : Option LedgerEntry} {valueB64 : Option String}
    (h : List.Forall₂ (fun entry v => encodeEntry xdr entry = .ok v) value.toList
      valueB64.toList) : decodeSide xdr field valueB64 = .ok value := by
  cases value with
  | none =>
    cases valueB64 with
    | none => rfl
    | some v => cases h
  | some entry =>
    cases valueB64 with
    | none => cases h
    | some v =>
      cases h with
      | cons hv =>
        rw [decodeSide, decodeXdrEntry_of_encodeEntry hxdr hv]
        rfl

/-- **A row is decoded from its encoding.** -/
theorem decodeStateChange_encoded (hxdr : xdr.Documented crates) (h : IsRow xdr key row)
    {beforeB64 afterB64 : Option String}
    (hbefore : List.Forall₂ (fun entry v => encodeEntry xdr entry = .ok v) row.before.toList
      beforeB64.toList)
    (hafter : List.Forall₂ (fun entry v => encodeEntry xdr entry = .ok v) row.after.toList
      afterB64.toList) :
    decodeStateChange xdr row.keyB64 row.kind.text beforeB64 afterB64 = .ok row := by
  have hkind : decodeKind row.kind.text = .ok row.kind := by cases row.kind <;> rfl
  refine Except.bind_eq_ok_iff.mpr ⟨row.kind, hkind, Except.bind_eq_ok_iff.mpr
    ⟨row.before, decodeSide_eq_ok hxdr "before" hbefore, Except.bind_eq_ok_iff.mpr
      ⟨row.after, decodeSide_eq_ok hxdr "after" hafter, ?_⟩⟩⟩
  rw [if_neg (not_not.mpr h.presence)]
  refine Except.bind_eq_ok_iff.mpr ⟨⟨⟩, Except.forM_eq_ok_iff.mpr fun entry hentry => ?_, rfl⟩
  rw [checkEntryKey_eq_ok_iff]
  obtain hmem | hmem := List.mem_append.mp hentry
  · rw [h.before entry (Option.mem_toList.mp hmem), h.keyB64]
  · rw [h.after entry (Option.mem_toList.mp hmem), h.keyB64]

end

/-! ### The changes that rows make -/

/-- The change that a row makes, unless its key is owned by the executor. -/
def rowChange (xdr : LedgerXdr) (row : DecodedStateChange) : Option
    (Change LedgerKey LedgerEntry) :=
  match decodeKey xdr row.keyB64 with
  | .ok key => if isExecutorOwnedKey key then none else some ⟨key, row.before, row.after⟩
  | .error _ => none

/-- The changes that rows make, one after the other. -/
def rowChanges (xdr : LedgerXdr) (rows : List DecodedStateChange) :
    List (Change LedgerKey LedgerEntry) :=
  rows.filterMap (rowChange xdr)

section

variable {crates : Crates} {xdr : LedgerXdr} {key : LedgerKey} {row : DecodedStateChange}
  {rows : List DecodedStateChange} {entries entries' : List LedgerEntry}
  {baseline state state' : SequenceState}

theorem rowChange_inverse (row : DecodedStateChange) :
    rowChange xdr row.inverse = (rowChange xdr row).map Change.inverse := by
  unfold rowChange DecodedStateChange.inverse
  dsimp only
  cases decodeKey xdr row.keyB64 with
  | error e => rfl
  | ok key =>
    dsimp only
    split_ifs <;> rfl

theorem rowChanges_inverse :
    rowChanges xdr (rows.reverse.map DecodedStateChange.inverse) =
      (rowChanges xdr rows).reverse.map Change.inverse := by
  have hcomp : rowChange xdr ∘ DecodedStateChange.inverse =
      fun row => (rowChange xdr row).map Change.inverse := by
    funext row
    rw [Function.comp_apply, rowChange_inverse]
  rw [rowChanges, List.filterMap_map, hcomp, rowChanges, ← List.filterMap_reverse,
    List.map_filterMap]

theorem rowChange_of_isRow (hxdr : xdr.Documented crates) (h : IsRow xdr key row) :
    rowChange xdr row =
      if isExecutorOwnedKey key then none else some ⟨key, row.before, row.after⟩ := by
  rw [rowChange, decodeKey_of_encodeKey hxdr h.keyB64]

/-- The changes are under the keys of their values. -/
theorem rowChanges_toKey (hxdr : xdr.Documented crates)
    (hrows : ∀ row ∈ rows, ∃ key, IsRow xdr key row) :
    ∀ c ∈ rowChanges xdr rows, ∀ entry, c.after = some entry → entry.toKey = c.key := by
  intro c hc
  obtain ⟨row, hrow, hchange⟩ := List.mem_filterMap.mp hc
  obtain ⟨key, h⟩ := hrows row hrow
  rw [rowChange_of_isRow hxdr h] at hchange
  split_ifs at hchange
  cases hchange
  exact h.after

/-! ### The entries after a row -/

theorem checkBefore_eq_ok_iff (h : IsRow xdr key row) (hbefore : row.before ≠ none)
    {baselineEntry : Option LedgerEntry} :
    checkBefore row key baselineEntry = .ok () ↔ baselineEntry = row.before := by
  obtain ⟨before, hrow⟩ := Option.ne_none_iff_exists'.mp hbefore
  unfold checkBefore
  rw [hrow]
  cases baselineEntry with
  | none => simp
  | some entry => simp [h.before before hrow, eq_comm]

theorem checkAfter_eq_ok (h : IsRow xdr key row) (hkey : key.IsContractData) {after : LedgerEntry}
    (hafter : row.after = some after) : checkAfter row key = .ok after := by
  have htoKey := h.after after hafter
  rw [checkAfter, hafter]
  dsimp only
  rw [if_neg (not_not.mpr htoKey)]
  rw [← htoKey, LedgerEntry.toKey] at hkey
  cases hdata : after.data with
  | contractData data => rfl
  | contractCode hash code => rw [hdata] at hkey; exact hkey.elim
  | other key data => rw [hdata] at hkey; exact hkey.elim

/-- A row of contract data is applied if it replaces what the entries hold. -/
theorem chainEntries_eq_ok_iff (h : IsRow xdr key row) (hkey : key.IsContractData) :
    chainEntries entries row key = .ok entries' ↔
      KeyedList.lookup LedgerEntry.toKey entries key = row.before ∧
        entries' = KeyedList.replace LedgerEntry.toKey entries key row.after := by
  have hpresence := h.presence
  have hlookup : (entries.find? fun e => e.toKey = key) =
      KeyedList.lookup LedgerEntry.toKey entries key := rfl
  unfold chainEntries
  rw [hlookup]
  cases hkind : row.kind with
  | created =>
    rw [hkind] at hpresence
    obtain ⟨after, hafter⟩ := Option.ne_none_iff_exists'.mp hpresence.2
    rw [hpresence.1]
    by_cases hnone : KeyedList.lookup LedgerEntry.toKey entries key = none
    · dsimp only
      rw [if_neg (not_not.mpr hnone), checkAfter_eq_ok h hkey hafter,
        KeyedList.replace_of_lookup_eq_none hnone, hafter]
      simp [hnone, bind, Except.bind, eq_comm]
    · dsimp only
      rw [if_pos hnone]
      simp [hnone]
  | updated =>
    rw [hkind] at hpresence
    obtain ⟨after, hafter⟩ := Option.ne_none_iff_exists'.mp hpresence.2
    dsimp only
    rw [Except.bind_eq_ok_iff]
    simp only [checkBefore_eq_ok_iff h hpresence.1, checkAfter_eq_ok h hkey hafter, hafter]
    simp [KeyedList.replace, bind, Except.bind, eq_comm]
  | deleted =>
    rw [hkind] at hpresence
    dsimp only
    rw [Except.bind_eq_ok_iff]
    simp only [checkBefore_eq_ok_iff h hpresence.1, hpresence.2]
    simp [KeyedList.replace, eq_comm]

/-- A row is skipped if its key is owned by the executor. -/
theorem chainRow_of_rowChange_eq_none (hxdr : xdr.Documented crates) (h : IsRow xdr key row)
    (hchange : rowChange xdr row = none) : chainRow xdr state row = .ok state := by
  rw [rowChange_of_isRow hxdr h] at hchange
  split_ifs at hchange with howned
  refine Except.bind_eq_ok_iff.mpr
    ⟨key, Except.mapError_eq_ok_iff.mpr (decodeKey_of_encodeKey hxdr h.keyB64), ?_⟩
  rw [if_pos howned]

/-- Else it is applied if its key is contract data and it replaces what the state holds. -/
theorem chainRow_eq_ok_iff (hxdr : xdr.Documented crates) (h : IsRow xdr key row)
    {c : Change LedgerKey LedgerEntry} (hchange : rowChange xdr row = some c) :
    chainRow xdr state row = .ok state' ↔ c.key.IsContractData ∧
      KeyedList.lookup LedgerEntry.toKey state.dataEntries c.key = c.before ∧
      state' = { state with
        dataEntries := KeyedList.replace LedgerEntry.toKey state.dataEntries c.key c.after } := by
  have hkey : ((decodeKey xdr row.keyB64).mapError fun _ =>
      ChainError.unsupportedKey row.keyB64) = .ok key :=
    Except.mapError_eq_ok_iff.mpr (decodeKey_of_encodeKey hxdr h.keyB64)
  rw [rowChange_of_isRow hxdr h] at hchange
  split_ifs at hchange with howned
  cases hchange
  rw [chainRow, hkey]
  cases key with
  | contractData contract k durability =>
    change (if isExecutorOwnedKey (.contractData contract k durability) = true then _ else
      chainEntries state.dataEntries row _ >>= fun dataEntries =>
        .ok { state with dataEntries }) = _ ↔ _
    rw [if_neg howned, Except.bind_eq_ok_iff]
    constructor
    · rintro ⟨entries', hentries, hstate⟩
      obtain ⟨hbefore, rfl⟩ := (chainEntries_eq_ok_iff h trivial).mp hentries
      cases hstate
      exact ⟨trivial, hbefore, rfl⟩
    · rintro ⟨-, hbefore, rfl⟩
      exact ⟨_, (chainEntries_eq_ok_iff h trivial).mpr ⟨hbefore, rfl⟩, rfl⟩
  | contractCode hash => exact absurd rfl howned
  | other bytes =>
    refine ⟨fun hother => ?_, fun hother => hother.1.elim⟩
    cases hother

/-- **Rows are applied exactly if the changes they make are to contract data and form a history of
the entries**, and they are applied one after the other. -/
theorem stateChangesIntoSequenceState_eq_ok_iff (hxdr : xdr.Documented crates)
    (hrows : ∀ row ∈ rows, ∃ key, IsRow xdr key row) :
    stateChangesIntoSequenceState xdr baseline rows = .ok state ↔
      (∀ c ∈ rowChanges xdr rows, c.key.IsContractData) ∧
        History.ValidFrom (KeyedList.lookup LedgerEntry.toKey baseline.dataEntries)
          (rowChanges xdr rows) ∧
        state = { baseline with
          dataEntries :=
            KeyedList.carry LedgerEntry.toKey baseline.dataEntries (rowChanges xdr rows) } := by
  induction rows generalizing baseline with
  | nil =>
    simp [stateChangesIntoSequenceState, rowChanges, History.ValidFrom, KeyedList.carry, pure,
      Except.pure, eq_comm]
  | cons row rows ih =>
    obtain ⟨⟨key, hrow⟩, hrows⟩ := List.forall_mem_cons.mp hrows
    rw [stateChangesIntoSequenceState, List.foldlM_cons, Except.bind_eq_ok_iff]
    cases hchange : rowChange xdr row with
    | none =>
      have hcons : rowChanges xdr (row :: rows) = rowChanges xdr rows :=
        List.filterMap_cons_none hchange
      rw [hcons, ← ih hrows, chainRow_of_rowChange_eq_none hxdr hrow hchange]
      simp [stateChangesIntoSequenceState]
    | some c =>
      have hcons : rowChanges xdr (row :: rows) = c :: rowChanges xdr rows :=
        List.filterMap_cons_some hchange
      have hafter : ∀ entry, c.after = some entry → entry.toKey = c.key := by
        rw [rowChange_of_isRow hxdr hrow] at hchange
        split_ifs at hchange
        cases hchange
        exact hrow.after
      rw [hcons, List.forall_mem_cons, History.ValidFrom, ← KeyedList.lookup_replace hafter]
      constructor
      · rintro ⟨next, hnext, hrest⟩
        obtain ⟨hkey, hbefore, rfl⟩ := (chainRow_eq_ok_iff hxdr hrow hchange).mp hnext
        obtain ⟨hkeys, hvalid, rfl⟩ := (ih hrows).mp hrest
        exact ⟨⟨hkey, hkeys⟩, ⟨hbefore, hvalid⟩, rfl⟩
      · rintro ⟨⟨hkey, hkeys⟩, ⟨hbefore, hvalid⟩, rfl⟩
        exact ⟨_, (chainRow_eq_ok_iff hxdr hrow hchange).mpr ⟨hkey, hbefore, rfl⟩,
          (ih hrows).mpr ⟨hkeys, hvalid, rfl⟩⟩

/-! ### The rows as an observation -/

/-- The XDR of an observed row. -/
theorem observedRow_eq_ok (hxdr : xdr.Documented crates) (h : IsRow xdr key row)
    {entry : StateEntry}
    (hentry : observedRow xdr row = .ok entry) :
    entry.change ≠ .unchanged ∧ crates.readLedgerKey entry.keyXdr = .ok key ∧
      ((entry.valueXdr = none ∧ row.after = none) ∨ ∃ valueXdr after,
        entry.valueXdr = some valueXdr ∧ row.after = some after ∧
          decodeEntry crates valueXdr = .ok after) := by
  obtain ⟨keyXdr, hkeyXdr, hentry⟩ := Except.bind_eq_ok_iff.mp hentry
  obtain ⟨valueXdr, hvalueXdr, hentry⟩ := Except.bind_eq_ok_iff.mp hentry
  cases hentry
  have hchange : row.kind.stateChange ≠ .unchanged := by cases row.kind <;> decide
  refine ⟨hchange, ?_, ?_⟩
  · obtain ⟨bytes, hwrite, hbytes⟩ := Except.map_eq_ok_iff.mp h.keyB64
    rw [← hbytes, decodeBase64_encode] at hkeyXdr
    cases hkeyXdr
    exact hxdr.fromXdrKey hwrite
  · cases hafter : row.after with
    | none =>
      rw [hafter] at hvalueXdr
      cases hvalueXdr
      exact .inl ⟨rfl, rfl⟩
    | some after =>
      rw [hafter] at hvalueXdr
      obtain ⟨bytes, hwrite, rfl⟩ := Except.map_eq_ok_iff.mp hvalueXdr
      exact .inr ⟨bytes, after, rfl, rfl,
        Except.mapError_eq_ok_iff.mpr (hxdr.fromXdrEntry hwrite)⟩

theorem exists_observedRow (hxdr : xdr.Documented crates) (h : IsRow xdr key row) :
    ∃ entry, observedRow xdr row = .ok entry := by
  obtain ⟨bytes, hwrite, hbytes⟩ := Except.map_eq_ok_iff.mp h.keyB64
  obtain ⟨valueXdr, hvalueXdr⟩ : ∃ valueXdr, afterXdr xdr row.after = .ok valueXdr := by
    cases row.after with
    | none => exact ⟨none, rfl⟩
    | some after =>
      obtain ⟨value, hvalue⟩ := hxdr.writeEntry after
      exact ⟨some value, Except.map_eq_ok_iff.mpr ⟨value, hvalue, rfl⟩⟩
  exact ⟨_, Except.bind_eq_ok_iff.mpr ⟨bytes, hbytes ▸ decodeBase64_encode bytes,
    Except.bind_eq_ok_iff.mpr ⟨valueXdr, hvalueXdr, rfl⟩⟩⟩

/-- An observed row under a key that is owned by the executor leaves the entries. -/
theorem applyEntry_of_rowChange_eq_none (hxdr : xdr.Documented crates) (h : IsRow xdr key row)
    (hchange : rowChange xdr row = none) {entry : StateEntry}
    (hentry : observedRow xdr row = .ok entry) :
    ∃ storage, applyEntry crates state entry = .ok { state with instanceStorage := storage } := by
  obtain ⟨hchanged, hkey, hvalue⟩ := observedRow_eq_ok hxdr h hentry
  rw [rowChange_of_isRow hxdr h] at hchange
  split_ifs at hchange with howned
  unfold applyEntry
  rw [if_neg hchanged, hkey]
  simp only [Except.mapError_ok, bind, Except.bind]
  split
  · split
    · next valueXdr hvalueXdr =>
      obtain ⟨hnone, -⟩ | ⟨bytes, after, hsome, -, hread⟩ := hvalue
      · rw [hnone] at hvalueXdr
        cases hvalueXdr
      · rw [hsome] at hvalueXdr
        cases hvalueXdr
        rw [hread]
        dsimp only
        split <;> exact ⟨_, rfl⟩
    · exact ⟨_, rfl⟩
  · exact ⟨_, rfl⟩
  · next contract k durability hinstance hnonce =>
    have hfree : isExecutorOwnedKey (.contractData contract k durability) = false := by
      unfold isExecutorOwnedKey
      split
      · next heq => cases heq
      · next heq => cases heq; exact (hinstance rfl).elim
      · next heq => cases heq; exact (hnonce _ rfl).elim
      · rfl
    rw [hfree] at howned
    cases howned
  · exact ⟨_, rfl⟩
  · exact ⟨_, rfl⟩

/-- An observed row of contract data replaces what is under its key. -/
theorem applyEntry_of_rowChange_eq_some (hxdr : xdr.Documented crates) (h : IsRow xdr key row)
    {c : Change LedgerKey LedgerEntry} (hchange : rowChange xdr row = some c)
    (hdata : c.key.IsContractData) {entry : StateEntry}
    (hentry : observedRow xdr row = .ok entry) :
    applyEntry crates state entry = .ok { state with
      dataEntries := KeyedList.replace LedgerEntry.toKey state.dataEntries c.key c.after } := by
  obtain ⟨hchanged, hkey, hvalue⟩ := observedRow_eq_ok hxdr h hentry
  rw [rowChange_of_isRow hxdr h] at hchange
  split_ifs at hchange with howned
  cases hchange
  unfold applyEntry
  rw [if_neg hchanged, hkey]
  simp only [Except.mapError_ok, bind, Except.bind]
  split
  · exact absurd rfl howned
  · exact absurd rfl howned
  · obtain ⟨hnone, hafter⟩ | ⟨valueXdr, after, hsome, hafter, hread⟩ := hvalue
    · rw [hnone, hafter, KeyedList.replace, Option.toList_none, List.append_nil]
    · rw [hsome, hafter, KeyedList.replace, Option.toList_some]
      dsimp only
      rw [hread]
  · exact absurd rfl howned
  · exact hdata.elim

/-- **The rows as an observation leave the same entries.** -/
theorem applyStateDelta_observed (hxdr : xdr.Documented crates)
    (hrows : ∀ row ∈ rows, ∃ key, IsRow xdr key row)
    (hdata : ∀ c ∈ rowChanges xdr rows, c.key.IsContractData) {observed : List StateEntry}
    (hobserved : rows.mapM (observedRow xdr) = .ok observed) {obs : Observation}
    (hobs : obs.state = observed) :
    ∃ storage, applyStateDelta crates state obs = .ok {
      dataEntries := KeyedList.carry LedgerEntry.toKey state.dataEntries (rowChanges xdr rows)
      instanceStorage := storage } := by
  rw [applyStateDelta, hobs]
  clear hobs
  induction rows generalizing state observed with
  | nil =>
    cases hobserved
    exact ⟨state.instanceStorage, rfl⟩
  | cons row rows ih =>
    obtain ⟨⟨key, hrow⟩, hrows⟩ := List.forall_mem_cons.mp hrows
    obtain ⟨entry, rest, hentry, hrest, rfl⟩ := Except.mapM_cons_eq_ok_iff.mp hobserved
    rw [List.foldlM_cons]
    cases hchange : rowChange xdr row with
    | none =>
      have hcons : rowChanges xdr (row :: rows) = rowChanges xdr rows :=
        List.filterMap_cons_none hchange
      rw [hcons] at hdata ⊢
      obtain ⟨storage, happly⟩ := applyEntry_of_rowChange_eq_none hxdr hrow hchange hentry
      obtain ⟨last, hlast⟩ := ih hrows hdata hrest
      exact ⟨last, Except.bind_eq_ok_iff.mpr ⟨_, happly, hlast⟩⟩
    | some c =>
      have hcons : rowChanges xdr (row :: rows) = c :: rowChanges xdr rows :=
        List.filterMap_cons_some hchange
      rw [hcons] at hdata ⊢
      obtain ⟨hkey, hdata⟩ := List.forall_mem_cons.mp hdata
      obtain ⟨last, hlast⟩ := ih hrows hdata hrest
      exact ⟨last, Except.bind_eq_ok_iff.mpr
        ⟨_, applyEntry_of_rowChange_eq_some hxdr hrow hchange hkey hentry, hlast⟩⟩

/-! ### Exact replay -/

/-- **Chaining is an exact replay.** Decoded rows are applied exactly if those whose key is not
owned by the executor are rows of contract data and form a history of the baseline. The entries are
then those after the history, as they are after the rows as an observation; the instance storage is
unchanged, and the rows taken back in reverse order give the entries of the baseline. -/
theorem state_changes_replay (hxdr : xdr.Documented crates)
    (hdistinct : (baseline.dataEntries.map LedgerEntry.toKey).Nodup)
    (hrows : ∀ row ∈ rows, ∃ keyB64 kind beforeB64 afterB64,
      decodeStateChange xdr keyB64 kind beforeB64 afterB64 = .ok row) :
    ((∃ state, stateChangesIntoSequenceState xdr baseline rows = .ok state) ↔
      (∀ c ∈ rowChanges xdr rows, c.key.IsContractData) ∧
        History.ValidFrom (KeyedList.lookup LedgerEntry.toKey baseline.dataEntries)
          (rowChanges xdr rows)) ∧
    ∀ state, stateChangesIntoSequenceState xdr baseline rows = .ok state →
      (state.dataEntries.map LedgerEntry.toKey).Nodup ∧
      KeyedList.lookup LedgerEntry.toKey state.dataEntries = History.replay
        (KeyedList.lookup LedgerEntry.toKey baseline.dataEntries) (rowChanges xdr rows) ∧
      (∃ observed, rows.mapM (observedRow xdr) = .ok observed ∧
        ∀ obs : Observation, obs.state = observed → ∃ applied,
          applyStateDelta crates baseline obs = .ok applied ∧
            applied.dataEntries = state.dataEntries) ∧
      state.instanceStorage = baseline.instanceStorage ∧
      ∃ restored, stateChangesIntoSequenceState xdr state
          (rows.reverse.map DecodedStateChange.inverse) = .ok restored ∧
        (restored.dataEntries.map LedgerEntry.toKey).Nodup ∧
        KeyedList.lookup LedgerEntry.toKey restored.dataEntries =
          KeyedList.lookup LedgerEntry.toKey baseline.dataEntries := by
  have hkeyed : ∀ row ∈ rows, ∃ key, IsRow xdr key row := by
    intro row hrow
    obtain ⟨keyB64, kind, beforeB64, afterB64, hdecode⟩ := hrows row hrow
    exact exists_isRow hxdr hdecode
  have hafter := rowChanges_toKey hxdr hkeyed
  constructor
  · constructor
    · rintro ⟨state, hstate⟩
      obtain ⟨hdata, hvalid, -⟩ := (stateChangesIntoSequenceState_eq_ok_iff hxdr hkeyed).mp hstate
      exact ⟨hdata, hvalid⟩
    · rintro ⟨hdata, hvalid⟩
      exact ⟨_, (stateChangesIntoSequenceState_eq_ok_iff hxdr hkeyed).mpr ⟨hdata, hvalid, rfl⟩⟩
  · intro state hstate
    obtain ⟨hdata, hvalid, rfl⟩ := (stateChangesIntoSequenceState_eq_ok_iff hxdr hkeyed).mp hstate
    refine ⟨KeyedList.nodup_carry hdistinct hafter, KeyedList.lookup_carry hafter, ?_, rfl, ?_⟩
    · obtain ⟨observed, hobserved⟩ := Except.exists_mapM_eq_ok fun row hrow =>
        (hkeyed row hrow).elim fun key h => exists_observedRow hxdr h
      refine ⟨observed, hobserved, fun obs hobs => ?_⟩
      obtain ⟨storage, happlied⟩ := applyStateDelta_observed hxdr hkeyed hdata hobserved hobs
      exact ⟨_, happlied, rfl⟩
    · -- the rows back are rows of the inverse changes, which form a history of the state
      have hback : ∀ row ∈ rows.reverse.map DecodedStateChange.inverse, ∃ key,
        IsRow xdr key row := by
        intro row hrow
        obtain ⟨row', hrow', rfl⟩ := List.mem_map.mp hrow
        obtain ⟨key, h⟩ := hkeyed row' (List.mem_reverse.mp hrow')
        exact ⟨key, h.inverse⟩
      have hafterBack := rowChanges_toKey hxdr hback
      obtain ⟨hvalidBack, hreplay⟩ := History.replay_undo hvalid
      have hdataBack : ∀ c ∈ rowChanges xdr (rows.reverse.map DecodedStateChange.inverse),
          c.key.IsContractData := by
        intro c hc
        rw [rowChanges_inverse] at hc
        obtain ⟨c', hc', rfl⟩ := List.mem_map.mp hc
        exact hdata c' (List.mem_reverse.mp hc')
      refine ⟨_, (stateChangesIntoSequenceState_eq_ok_iff hxdr hback).mpr ⟨hdataBack, ?_, rfl⟩,
        KeyedList.nodup_carry (KeyedList.nodup_carry hdistinct hafter) hafterBack, ?_⟩
      · rw [rowChanges_inverse, KeyedList.lookup_carry hafter]
        exact hvalidBack
      · rw [KeyedList.lookup_carry hafterBack, KeyedList.lookup_carry hafter, rowChanges_inverse,
          hreplay]

end

section Slots

/-- A number in a slot of a contract. -/
def slotEntry (slot n : UInt32) : LedgerEntry :=
  ⟨100, .contractData ⟨.contract (Vector.replicate 32 0), .u32 slot, .persistent, .u32 n⟩, []⟩

/-- The row of a change of the number in a slot. -/
def slotRow (slot : UInt32) (kind : StateChangeKind) (before after : Option UInt32) :
    DecodedStateChange where
  keyB64 := Base64.encode (ledgerKeyCodec.write (slotEntry slot 0).toKey)
  kind := kind
  before := before.map (slotEntry slot)
  after := after.map (slotEntry slot)

variable {slot : UInt32} {kind : StateChangeKind} {before after : Option UInt32}

theorem slotRow_isRow
    (h : kind.Presence (before.map (slotEntry slot)) (after.map (slotEntry slot))) :
    IsRow codecLedgerXdr (slotEntry slot 0).toKey (slotRow slot kind before after) where
  keyB64 := rfl
  presence := h
  before entry hentry := by
    obtain ⟨n, -, rfl⟩ := Option.map_eq_some_iff.mp hentry
    rfl
  after entry hentry := by
    obtain ⟨n, -, rfl⟩ := Option.map_eq_some_iff.mp hentry
    rfl

theorem rowChange_slotRow
    (h : kind.Presence (before.map (slotEntry slot)) (after.map (slotEntry slot))) :
    rowChange codecLedgerXdr (slotRow slot kind before after) =
      some ⟨(slotEntry slot 0).toKey, before.map (slotEntry slot), after.map (slotEntry slot)⟩ :=
  rowChange_of_isRow codecLedgerXdr_documented (slotRow_isRow h)

/-- A row of a slot is decoded from its encoding. -/
theorem exists_decode_slotRow
    (h : kind.Presence (before.map (slotEntry slot)) (after.map (slotEntry slot))) :
    ∃ keyB64 kindText beforeB64 afterB64, decodeStateChange codecLedgerXdr keyB64 kindText beforeB64
      afterB64 = .ok (slotRow slot kind before after) := by
  have hside (side : Option LedgerEntry) : List.Forall₂ (fun entry v =>
      encodeEntry codecLedgerXdr entry = .ok v) side.toList
        (side.map fun entry => Base64.encode (ledgerEntryCodec.write entry)).toList := by
    cases side with
    | none => exact .nil
    | some entry => exact .cons rfl .nil
  exact ⟨_, _, _, _, decodeStateChange_encoded codecLedgerXdr_documented (slotRow_isRow h)
    (hside _) (hside _)⟩

/-- A state with two numbers. -/
def slotState : SequenceState := ⟨[slotEntry 1 3, slotEntry 2 7], []⟩

/-- A count, the deletion of a number and the creation of another one. -/
def slotRows : List DecodedStateChange :=
  [slotRow 1 .updated (some 3) (some 4), slotRow 2 .deleted (some 7) none,
    slotRow 3 .created none (some 1)]

theorem rowChanges_slotRows : rowChanges codecLedgerXdr slotRows =
    [⟨(slotEntry 1 0).toKey, some (slotEntry 1 3), some (slotEntry 1 4)⟩,
      ⟨(slotEntry 2 0).toKey, some (slotEntry 2 7), none⟩,
      ⟨(slotEntry 3 0).toKey, none, some (slotEntry 3 1)⟩] := by
  rw [rowChanges, slotRows, List.filterMap_cons_some (rowChange_slotRow (by decide)),
    List.filterMap_cons_some (rowChange_slotRow (by decide)),
    List.filterMap_cons_some (rowChange_slotRow (by decide)), List.filterMap_nil]
  rfl

theorem toKey_slotEntry_inj {slot' n n' : UInt32} :
    (slotEntry slot n).toKey = (slotEntry slot' n').toKey ↔ slot = slot' := by
  simp [slotEntry, LedgerEntry.toKey]

theorem lookup_slotState (slot : UInt32) :
    KeyedList.lookup LedgerEntry.toKey slotState.dataEntries (slotEntry slot 0).toKey =
      if slot = 1 then some (slotEntry 1 3) else if slot = 2 then some (slotEntry 2 7)
        else none := by
  simp only [slotState, KeyedList.lookup, List.find?_cons, toKey_slotEntry_inj, eq_comm]
  split_ifs <;> simp_all

/-- The rows are carried to the next simulation. -/
theorem state_changes_replay_counter : ∃ state,
    stateChangesIntoSequenceState codecLedgerXdr slotState slotRows = .ok state ∧
      ∀ slot, KeyedList.lookup LedgerEntry.toKey state.dataEntries (slotEntry slot 0).toKey =
        if slot = 1 then some (slotEntry 1 4) else if slot = 3 then some (slotEntry 3 1)
          else none := by
  have hrows : ∀ row ∈ slotRows, ∃ keyB64 kind beforeB64 afterB64,
      decodeStateChange codecLedgerXdr keyB64 kind beforeB64 afterB64 = .ok row := by
    intro row hrow
    simp only [slotRows, List.mem_cons, List.not_mem_nil, or_false] at hrow
    obtain rfl | rfl | rfl := hrow <;> exact exists_decode_slotRow (by decide)
  have hdistinct : (slotState.dataEntries.map LedgerEntry.toKey).Nodup := by decide
  have hreplay := state_changes_replay codecLedgerXdr_documented hdistinct hrows
  rw [rowChanges_slotRows] at hreplay
  obtain ⟨state, hstate⟩ := hreplay.1.mpr ⟨by simp [slotEntry, LedgerEntry.toKey,
    LedgerKey.IsContractData], by
      simp [History.ValidFrom, lookup_slotState, toKey_slotEntry_inj]⟩
  refine ⟨state, hstate, fun slot => ?_⟩
  rw [(hreplay.2 state hstate).2.1]
  simp only [History.replay, List.foldl_cons, List.foldl_nil, Function.update_apply,
    toKey_slotEntry_inj, lookup_slotState]
  split_ifs <;> simp_all

end Slots

end SorobanDevkit.Fuzz
