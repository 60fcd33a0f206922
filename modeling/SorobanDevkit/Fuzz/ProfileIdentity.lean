import SorobanDevkit.Fuzz.NetworkProfile
import SorobanDevkit.Library.FixedWidth
import SorobanDevkit.Library.PartialWords

/-!
# The identity of a network profile

A profile is checked before it is used, and its content hash stands for it
(`sdkt-fuzz/src/network_profile.rs`). What is fed to the hasher has numbers of a fixed width,
optional values with a tag, and the names of cost types between numbers, without their length or a
terminator.

So the bytes determine the profile but for its names: two lists of names may share their bytes when
one fixes no byte that the other contradicts. A layout has the bytes that the names of a table fix,
and holes for its terms.

## Main results

* `validate_none_iff` — the profiles that are accepted.
* `sameNetworkState_of_preimage_eq` — what the bytes determine.
* `preimage_identifies_iff` — for which names of cost types they determine the profile.
-/

namespace SorobanDevkit.Fuzz

open Wasm (utf8)
open Xdr (Bytes32)

/-! ### The checks -/

/-- The errors of `validate`. -/
inductive ProfileError
  | schemaMismatch (found expected : UInt32)
  | networkIdMismatch (expected found : Bytes32)
  | stale (captured current : UInt32) (maxAge : UInt64)
  | malformedCostParams (cpu mem : ℕ)
  | costTypeMapping (message : String)
  deriving DecidableEq

/-- `PROFILE_SCHEMA_VERSION`. -/
def profileSchemaVersion : UInt32 := 1

/-- `MAX_SNAPSHOT_AGE_LEDGERS`. -/
def maxSnapshotAgeLedgers : UInt64 := 100

/-- `network_id_from_passphrase`. -/
def networkIdFromPassphrase (sha256 : List UInt8 → Bytes32) (passphrase : String) : Bytes32 :=
  sha256 (utf8 passphrase)

/-- Every entry declares its position, and both dimensions name the same cost type. -/
def checkCostTypes : ℕ → List (CostParamEntrySnapshot × CostParamEntrySnapshot) →
    Except ProfileError Unit
  | _, [] => .ok ()
  | i, (c, m) :: entries =>
    if c.index.toNat ≠ i ∨ m.index.toNat ≠ i then
      .error (.costTypeMapping s!"entry {i} declares index cpu={c.index} mem={m.index}")
    else if c.costType ≠ m.costType then
      .error (.costTypeMapping
        s!"entry {i}: cpu type \x60{c.costType}\x60 != mem type \x60{m.costType}\x60")
    else checkCostTypes (i + 1) entries

/-- The part of `validate` that is about the cost tables. -/
def checkCostParams : Option CostParamsSnapshot → Except ProfileError Unit
  | none => .ok ()
  | some p =>
    if p.cpu.length ≠ p.mem.length then .error (.malformedCostParams p.cpu.length p.mem.length)
    else checkCostTypes 0 (p.cpu.zip p.mem)

/-- The part of `validate` that is about the age of a snapshot. -/
def checkAge (ledgerSequence : UInt32) : Option UInt32 → Except ProfileError Unit
  | none => .ok ()
  | some current =>
    let age := current.toNat - ledgerSequence.toNat
    if current > ledgerSequence ∧ age > maxSnapshotAgeLedgers.toNat then
      .error (.stale ledgerSequence current maxSnapshotAgeLedgers)
    else if ledgerSequence > current then
      .error (.stale ledgerSequence current maxSnapshotAgeLedgers)
    else .ok ()

/-- `NetworkProfile::validate`. -/
def NetworkProfile.validate (sha256 : List UInt8 → Bytes32) (profile : NetworkProfile)
    (currentLedger : Option UInt32) : Except ProfileError Unit :=
  let expected := networkIdFromPassphrase sha256 profile.passphrase
  if profile.schemaVersion ≠ profileSchemaVersion then
    .error (.schemaMismatch profile.schemaVersion profileSchemaVersion)
  else if expected ≠ profile.networkId then .error (.networkIdMismatch expected profile.networkId)
  else do
    checkCostParams profile.config.costParams.value
    checkAge profile.ledgerSequence currentLedger

/-- What the check of the entries asks for, from a position on. -/
def Mapped : ℕ → List (CostParamEntrySnapshot × CostParamEntrySnapshot) → Prop
  | _, [] => True
  | i, (c, m) :: entries =>
    c.index.toNat = i ∧ m.index.toNat = i ∧ c.costType = m.costType ∧ Mapped (i + 1) entries

theorem checkCostTypes_eq_ok_iff {i : ℕ}
    {entries : List (CostParamEntrySnapshot × CostParamEntrySnapshot)} :
    checkCostTypes i entries = .ok () ↔ Mapped i entries := by
  induction entries generalizing i with
  | nil => exact iff_of_true rfl trivial
  | cons entry entries ih =>
    obtain ⟨c, m⟩ := entry
    rw [checkCostTypes, Mapped]
    by_cases hindex : c.index.toNat ≠ i ∨ m.index.toNat ≠ i
    · rw [if_pos hindex]
      refine iff_of_false (fun h => nomatch h) fun h => ?_
      exact hindex.elim (fun hc => hc h.1) fun hm => hm h.2.1
    · rw [if_neg hindex]
      by_cases hname : c.costType ≠ m.costType
      · rw [if_pos hname]
        exact iff_of_false (fun h => nomatch h) fun h => hname h.2.2.1
      · rw [if_neg hname, ih]
        rw [not_or, not_not, not_not] at hindex
        exact ⟨fun h => ⟨hindex.1, hindex.2, not_not.mp hname, h⟩, fun h => h.2.2.2⟩

/-- The cost tables are of one length and every entry is at its position. -/
structure WellMapped (params : CostParamsSnapshot) : Prop where
  length_eq : params.cpu.length = params.mem.length
  mapped : Mapped 0 (params.cpu.zip params.mem)

/-- **What is accepted** when the age is not asked for. -/
theorem validate_none_iff {sha256 : List UInt8 → Bytes32} {profile : NetworkProfile} :
    profile.validate sha256 none = .ok () ↔ profile.schemaVersion = profileSchemaVersion ∧
      networkIdFromPassphrase sha256 profile.passphrase = profile.networkId ∧
      ∀ params ∈ profile.config.costParams.value, WellMapped params := by
  have hparams : (do
      checkCostParams profile.config.costParams.value
      checkAge profile.ledgerSequence none) = .ok () ↔
        ∀ params ∈ profile.config.costParams.value, WellMapped params := by
    cases profile.config.costParams.value with
    | none => exact iff_of_true rfl fun params h => absurd h (Option.not_mem_none params)
    | some p =>
      have hall : (∀ params ∈ some p, WellMapped params) ↔ WellMapped p :=
        ⟨fun h => h p rfl, fun h params hp => Option.some.inj hp ▸ h⟩
      rw [hall, checkCostParams]
      by_cases hlength : p.cpu.length ≠ p.mem.length
      · rw [if_pos hlength]
        exact iff_of_false (fun h => nomatch h) fun h => hlength h.length_eq
      · rw [if_neg hlength]
        have hmapped : checkCostTypes 0 (p.cpu.zip p.mem) = .ok () ↔ Mapped 0 (p.cpu.zip p.mem) :=
          checkCostTypes_eq_ok_iff
        constructor
        · intro h
          refine ⟨not_not.mp hlength, hmapped.mp ?_⟩
          cases hcheck : checkCostTypes 0 (p.cpu.zip p.mem) with
          | ok u => rfl
          | error e => rw [hcheck] at h; exact nomatch h
        · intro h
          rw [hmapped.mpr h.mapped]
          rfl
  rw [NetworkProfile.validate]
  by_cases hschema : profile.schemaVersion ≠ profileSchemaVersion
  · rw [if_pos hschema]
    exact iff_of_false (fun h => nomatch h) fun h => hschema h.1
  by_cases hid : networkIdFromPassphrase sha256 profile.passphrase ≠ profile.networkId
  · rw [if_neg hschema, if_pos hid]
    exact iff_of_false (fun h => nomatch h) fun h => hid h.2.1
  · rw [if_neg hschema, if_neg hid, hparams]
    exact ⟨fun h => ⟨not_not.mp hschema, not_not.mp hid, h⟩, fun h => h.2.2⟩

/-! ### What the hash should stand for -/

/-- The entries of both tables, position by position. -/
def CostParamsSnapshot.entries (params : CostParamsSnapshot) :
    List (CostParamEntrySnapshot × CostParamEntrySnapshot) := params.cpu.zip params.mem

/-- The names of the cost types, where there are tables. -/
def NetworkProfile.costNames (profile : NetworkProfile) : Option (List String) :=
  profile.config.costParams.value.map fun params => params.cpu.map (·.costType)

/-- The profiles agree on identity, protocol, ledger and every value of the configuration. -/
structure SameNetworkState (p q : NetworkProfile) : Prop where
  schemaVersion : p.schemaVersion = q.schemaVersion
  networkId : p.networkId = q.networkId
  passphrase : p.passphrase = q.passphrase
  protocolVersion : p.protocolVersion = q.protocolVersion
  ledgerSequence : p.ledgerSequence = q.ledgerSequence
  cpuLimit : p.config.cpuLimit.value = q.config.cpuLimit.value
  memLimit : p.config.memLimit.value = q.config.memLimit.value
  ledgerMaxInstructions : p.config.ledgerMaxInstructions.value =
    q.config.ledgerMaxInstructions.value
  feeRatePerInstructionsIncrement : p.config.feeRatePerInstructionsIncrement.value =
    q.config.feeRatePerInstructionsIncrement.value
  maxContractSizeBytes : p.config.maxContractSizeBytes.value = q.config.maxContractSizeBytes.value
  txMaxSizeBytes : p.config.txMaxSizeBytes.value = q.config.txMaxSizeBytes.value
  txMaxContractEventsSizeBytes : p.config.txMaxContractEventsSizeBytes.value =
    q.config.txMaxContractEventsSizeBytes.value
  feeContractEvents1kb : p.config.feeContractEvents1kb.value = q.config.feeContractEvents1kb.value
  costParams : p.config.costParams.value = q.config.costParams.value

/-! ### The bytes of a cost table -/

/-- What is fed for an entry. -/
def entryBytes (entry : CostParamEntrySnapshot × CostParamEntrySnapshot) : List UInt8 :=
  NetworkProfile.u32Bytes entry.1.index ++ utf8 entry.1.costType ++
    NetworkProfile.i64Bytes entry.1.constTerm ++ NetworkProfile.i64Bytes entry.1.linearTerm ++
    NetworkProfile.i64Bytes entry.2.constTerm ++ NetworkProfile.i64Bytes entry.2.linearTerm

/-- The bytes that the names of a table fix from a position on, and holes for the terms. -/
def layout : ℕ → List String → PartialWord UInt8
  | _, [] => []
  | i, name :: names =>
    PartialWord.fixed (bigEndian 4 i ++ utf8 name) ++ (PartialWord.holes 32 ++ layout (i + 1) names)

/-- The names of two tables of one length fix no different bytes, but they are not the same. A table
has at most `2^32` entries, as each declares its position. -/
def Interchangeable (a b : List String) : Prop :=
  a ≠ b ∧ a.length = b.length ∧ a.length ≤ 0x100000000 ∧
    PartialWord.Compatible (layout 0 a) (layout 0 b)

/-- What is fed for the terms of an entry. -/
def termBytes (entry : CostParamEntrySnapshot × CostParamEntrySnapshot) : List UInt8 :=
  NetworkProfile.i64Bytes entry.1.constTerm ++ (NetworkProfile.i64Bytes entry.1.linearTerm ++
    (NetworkProfile.i64Bytes entry.2.constTerm ++ NetworkProfile.i64Bytes entry.2.linearTerm))

section

variable {i : ℕ} {entry : CostParamEntrySnapshot × CostParamEntrySnapshot}
  {entries entries' : List (CostParamEntrySnapshot × CostParamEntrySnapshot)}

theorem entryBytes_eq (h : entry.1.index.toNat = i) :
    entryBytes entry = bigEndian 4 i ++ utf8 entry.1.costType ++ termBytes entry := by
  rw [entryBytes, termBytes, NetworkProfile.u32Bytes, h]
  simp only [List.append_assoc]

theorem length_termBytes : (termBytes entry).length = 32 := by
  simp only [termBytes, NetworkProfile.i64Bytes, List.length_append, length_bigEndian]

/-- The bytes of a table are an instance of the layout of its names. -/
theorem matches_layout (h : Mapped i entries) :
    PartialWord.Matches (entries.flatMap entryBytes)
      (layout i (entries.map fun e => e.1.costType)) := by
  induction entries generalizing i with
  | nil => exact List.Forall₂.nil
  | cons entry entries ih =>
    obtain ⟨hc, hm, hname, hrest⟩ := h
    rw [List.flatMap_cons, List.map_cons, layout, PartialWord.matches_append_iff]
    refine ⟨_, termBytes entry ++ entries.flatMap entryBytes, ?_,
      PartialWord.matches_fixed_iff.mpr rfl,
      PartialWord.matches_append_iff.mpr ⟨_, _, rfl, ?_, ih hrest⟩⟩
    · rw [entryBytes_eq hc, List.append_assoc]
    · exact PartialWord.matches_holes_iff.mpr length_termBytes

/-- Every 32 bytes are those of the terms of an entry with a given index and name. -/
theorem exists_termBytes {bytes : List UInt8} (h : bytes.length = 32) (index : UInt32)
    (name : String) :
    ∃ entry : CostParamEntrySnapshot × CostParamEntrySnapshot, termBytes entry = bytes ∧
      entry.1.index = index ∧ entry.2.index = index ∧ entry.1.costType = name ∧
        entry.2.costType = name := by
  have hword : ∀ part : List UInt8, part.length = 8 → ∃ n, NetworkProfile.i64Bytes n = part :=
    fun _ hpart => exists_int64_bytes hpart
  obtain ⟨a, ha⟩ := hword (bytes.take 8) (by rw [List.length_take, h]; rfl)
  obtain ⟨b, hb⟩ :=
    hword ((bytes.drop 8).take 8) (by rw [List.length_take, List.length_drop, h]; rfl)
  obtain ⟨c, hc⟩ := hword ((bytes.drop 16).take 8)
    (by rw [List.length_take, List.length_drop, h]; rfl)
  obtain ⟨d, hd⟩ := hword (bytes.drop 24) (by rw [List.length_drop, h])
  refine ⟨(⟨name, index, a, b⟩, ⟨name, index, c, d⟩), ?_, rfl, rfl, rfl, rfl⟩
  have hsplit : ∀ n, (bytes.drop n).take 8 ++ bytes.drop (n + 8) = bytes.drop n := fun n => by
    rw [← List.drop_drop, List.take_append_drop]
  rw [termBytes, ha, hb, hc, hd, hsplit 16, hsplit 8, List.take_append_drop]

/-- Every instance of a layout is the bytes of a table with these names. -/
theorem exists_entries_of_matches {names : List String} (hlength : i + names.length ≤ 0x100000000)
    {bytes : List UInt8} (h : PartialWord.Matches bytes (layout i names)) :
    ∃ entries, Mapped i entries ∧ (entries.map fun e => e.1.costType) = names ∧
      entries.flatMap entryBytes = bytes := by
  induction names generalizing i bytes with
  | nil =>
    have hnil : bytes = [] := List.forall₂_nil_right_iff.mp h
    exact ⟨[], trivial, rfl, hnil.symm⟩
  | cons name names ih =>
    rw [List.length_cons] at hlength
    rw [layout, PartialWord.matches_append_iff] at h
    obtain ⟨front, rest, rfl, hfront, hrest⟩ := h
    rw [PartialWord.matches_fixed_iff] at hfront
    obtain ⟨terms, rest, rfl, hterms, hrest⟩ := PartialWord.matches_append_iff.mp hrest
    obtain ⟨entry, hbytes, hc, hm, hcname, hmname⟩ :=
      exists_termBytes (PartialWord.matches_holes_iff.mp hterms) (UInt32.ofNat i) name
    obtain ⟨entries, hmapped, hnames, hentries⟩ := ih (by omega) hrest
    have hindex : (UInt32.ofNat i).toNat = i :=
      UInt32.toNat_ofNat_of_lt' (by show i < 2 ^ 32; omega)
    refine ⟨entry :: entries, ⟨?_, ?_, ?_, hmapped⟩, ?_, ?_⟩
    · rw [hc, hindex]
    · rw [hm, hindex]
    · rw [hcname, hmname]
    · rw [List.map_cons, hcname, hnames]
    · rw [List.flatMap_cons, entryBytes_eq (i := i) (by rw [hc, hindex]), hcname, hbytes,
        hentries, hfront,
        List.append_assoc]

/-- The terms of an entry are determined by their bytes. -/
theorem terms_eq_of_termBytes_eq {entry' : CostParamEntrySnapshot × CostParamEntrySnapshot}
    (h : termBytes entry = termBytes entry') :
    entry.1.constTerm = entry'.1.constTerm ∧ entry.1.linearTerm = entry'.1.linearTerm ∧
      entry.2.constTerm = entry'.2.constTerm ∧ entry.2.linearTerm = entry'.2.linearTerm := by
  obtain ⟨ha, h⟩ := fixedWidth_int64.append_inj h
  obtain ⟨hb, h⟩ := fixedWidth_int64.append_inj h
  obtain ⟨hc, h⟩ := fixedWidth_int64.append_inj h
  exact ⟨ha, hb, hc, fixedWidth_int64.injective h⟩

/-- Tables with the same names are determined by their bytes. -/
theorem entries_eq_of_bytes_eq (h : Mapped i entries) (h' : Mapped i entries')
    (hnames : (entries.map fun e => e.1.costType) = entries'.map fun e => e.1.costType)
    (hbytes : entries.flatMap entryBytes = entries'.flatMap entryBytes) : entries = entries' := by
  induction entries generalizing i entries' with
  | nil =>
    rw [List.map_nil, eq_comm, List.map_eq_nil_iff] at hnames
    exact hnames.symm
  | cons entry entries ih =>
    cases entries' with
    | nil => exact absurd hnames (List.cons_ne_nil _ _)
    | cons entry' entries' =>
      obtain ⟨hhead, hnames⟩ := List.cons.inj hnames
      have hname : entry.1.costType = entry'.1.costType := hhead
      obtain ⟨hc, hm, hsame, hrest⟩ := h
      obtain ⟨hc', hm', hsame', hrest'⟩ := h'
      rw [List.flatMap_cons, List.flatMap_cons, entryBytes_eq hc, entryBytes_eq hc',
        hname] at hbytes
      simp only [List.append_assoc] at hbytes
      obtain ⟨hterms, hbytes⟩ := List.append_inj
        (List.append_cancel_left (List.append_cancel_left hbytes))
          (by rw [length_termBytes, length_termBytes])
      obtain ⟨ha, hb, hd, he⟩ := terms_eq_of_termBytes_eq hterms
      have hentry : entry = entry' := by
        obtain ⟨⟨_, ci, _, _⟩, ⟨_, mi, _, _⟩⟩ := entry
        obtain ⟨⟨_, ci', _, _⟩, ⟨_, mi', _, _⟩⟩ := entry'
        obtain rfl : ci = ci' := UInt32.toNat_inj.mp (hc.trans hc'.symm)
        obtain rfl : mi = mi' := UInt32.toNat_inj.mp (hm.trans hm'.symm)
        cases hname
        cases hsame
        cases hsame'
        cases ha
        cases hb
        cases hd
        cases he
        rfl
      rw [hentry, ih hrest hrest' hnames hbytes]

/-- A table has no more entries than there are indices. -/
theorem add_length_le_of_mapped (hi : i ≤ 0x100000000) (h : Mapped i entries) :
    i + entries.length ≤ 0x100000000 := by
  induction entries generalizing i with
  | nil => exact hi
  | cons entry entries ih =>
    obtain ⟨hc, -, -, hrest⟩ := h
    have hlt := entry.1.index.toNat_lt
    have hlength := ih (by omega) hrest
    rw [List.length_cons]
    omega

end

/-! ### Tables -/

section

variable {params params' : CostParamsSnapshot}

theorem costBytes_eq (params : CostParamsSnapshot) :
    NetworkProfile.costBytes params = bigEndian 8 params.cpu.length ++
      params.entries.flatMap entryBytes := rfl

theorem WellMapped.names_eq (h : WellMapped params) :
    (params.entries.map fun e => e.1.costType) = params.cpu.map (·.costType) := by
  have hfst : params.entries.map Prod.fst = params.cpu :=
    List.map_fst_zip (Nat.le_of_eq h.length_eq)
  rw [← hfst, List.map_map]
  rfl

theorem WellMapped.length_entries (h : WellMapped params) :
    params.entries.length = params.cpu.length := by
  rw [CostParamsSnapshot.entries, List.length_zip, ← h.length_eq, Nat.min_self]

theorem WellMapped.length_le (h : WellMapped params) : params.cpu.length ≤ 0x100000000 := by
  have hlength := add_length_le_of_mapped (Nat.zero_le _) h.mapped
  have hentries := h.length_entries
  rw [CostParamsSnapshot.entries] at hentries
  omega

/-- The tables are determined by their entries. -/
theorem WellMapped.ext (h : WellMapped params) (h' : WellMapped params')
    (hentries : params.entries = params'.entries) :
    params = params' := by
  have hfst : ∀ {p : CostParamsSnapshot}, WellMapped p → p.entries.map Prod.fst = p.cpu := fun hp =>
    List.map_fst_zip (Nat.le_of_eq hp.length_eq)
  have hsnd : ∀ {p : CostParamsSnapshot}, WellMapped p → p.entries.map Prod.snd = p.mem := fun hp =>
    List.map_snd_zip (Nat.le_of_eq hp.length_eq.symm)
  have hcpu : params.cpu = params'.cpu := by rw [← hfst h, ← hfst h', hentries]
  have hmem : params.mem = params'.mem := by rw [← hsnd h, ← hsnd h', hentries]
  cases params
  cases params'
  cases hcpu
  cases hmem
  rfl

/-- **Tables with the same bytes** are the same, or their names are interchangeable. -/
theorem eq_or_interchangeable (h : WellMapped params) (h' : WellMapped params')
    (hbytes : NetworkProfile.costBytes params = NetworkProfile.costBytes params') :
    params = params' ∨ Interchangeable (params.cpu.map (·.costType))
      (params'.cpu.map (·.costType)) := by
  rw [costBytes_eq, costBytes_eq] at hbytes
  obtain ⟨hcount, hbytes⟩ := List.append_inj hbytes (by rw [length_bigEndian, length_bigEndian])
  have hread : ∀ {p : CostParamsSnapshot}, WellMapped p →
      ofBigEndian (bigEndian 8 p.cpu.length) = p.cpu.length := fun hp => by
    have hle := hp.length_le
    exact ofBigEndian_bigEndian (by show _ < 0x10000000000000000; omega)
  have hlength : params.cpu.length = params'.cpu.length := by rw [← hread h, ← hread h', hcount]
  by_cases hnames : params.cpu.map (·.costType) = params'.cpu.map (·.costType)
  · refine Or.inl (h.ext h' (entries_eq_of_bytes_eq h.mapped h'.mapped ?_ hbytes))
    exact h.names_eq.trans (hnames.trans h'.names_eq.symm)
  · refine Or.inr ⟨hnames, by rw [List.length_map, List.length_map, hlength], ?_, ?_⟩
    · rw [List.length_map]
      exact h.length_le
    · refine PartialWord.compatible_iff_exists_matches.mpr
        ⟨params.entries.flatMap entryBytes, ?_, ?_⟩
      · rw [← h.names_eq]
        exact matches_layout h.mapped
      · rw [← h'.names_eq, hbytes]
        exact matches_layout h'.mapped

/-- The tables of a list of entries. -/
def tablesOf (entries : List (CostParamEntrySnapshot × CostParamEntrySnapshot)) :
    CostParamsSnapshot where
  cpu := entries.map Prod.fst
  mem := entries.map Prod.snd

theorem entries_tablesOf (entries : List (CostParamEntrySnapshot × CostParamEntrySnapshot)) :
    (tablesOf entries).entries = entries := by
  rw [CostParamsSnapshot.entries, tablesOf, List.zip_map']
  exact List.map_id entries

/-- **Interchangeable names** have tables with the same bytes. -/
theorem exists_tables_of_interchangeable {a b : List String} (h : Interchangeable a b) :
    ∃ params params', WellMapped params ∧ WellMapped params' ∧ params.cpu.map (·.costType) = a ∧
      params'.cpu.map (·.costType) = b ∧
      NetworkProfile.costBytes params = NetworkProfile.costBytes params' := by
  obtain ⟨-, hlength, hle, hcompatible⟩ := h
  obtain ⟨bytes, ha, hb⟩ := PartialWord.compatible_iff_exists_matches.mp hcompatible
  obtain ⟨entries, hmapped, hnames, hbytes⟩ := exists_entries_of_matches (by omega) ha
  obtain ⟨entries', hmapped', hnames', hbytes'⟩ := exists_entries_of_matches (by omega) hb
  have hwell : ∀ {es}, Mapped 0 es → WellMapped (tablesOf es) := fun {es} hes =>
    ⟨by rw [tablesOf, List.length_map, List.length_map], by
      have hentries := entries_tablesOf es
      rw [CostParamsSnapshot.entries] at hentries
      rwa [hentries]⟩
  have hcpu : ∀ es, (tablesOf es).cpu.map (·.costType) = es.map fun e =>
    e.1.costType := fun es => by
    rw [tablesOf, List.map_map]
    rfl
  refine ⟨tablesOf entries, tablesOf entries', hwell hmapped, hwell hmapped', (hcpu _).trans hnames,
    (hcpu _).trans hnames', ?_⟩
  have hcount : (tablesOf entries).cpu.length = (tablesOf entries').cpu.length := by
    rw [← hnames, ← hnames', List.length_map, List.length_map] at hlength
    rw [tablesOf, tablesOf, List.length_map, List.length_map, hlength]
  rw [costBytes_eq, costBytes_eq, entries_tablesOf, entries_tablesOf, hcount, hbytes, hbytes']

end

/-! ### Profiles -/

theorem fixedWidth_bytesOf : FixedWidth bytesOf 32 where
  length_eq _ := Vector.length_toList
  injective _ _ h := Vector.toList_inj.mp h

/-- A value with its tag can be read off. -/
theorem feed_append_inj {α : Type} {bytes : α → List UInt8} {n : ℕ} (hwidth : FixedWidth bytes n)
    {o o' : Observed α} {rest rest' : List UInt8}
    (h : NetworkProfile.feed bytes o ++ rest = NetworkProfile.feed bytes o' ++ rest') :
    o.value = o'.value ∧ rest = rest' := by
  rw [NetworkProfile.feed, NetworkProfile.feed] at h
  cases ho : o.value with
  | none =>
    cases ho' : o'.value with
    | none =>
      rw [ho, ho'] at h
      exact ⟨rfl, (List.cons.inj h).2⟩
    | some v' =>
      rw [ho, ho'] at h
      exact absurd (List.cons.inj h).1 (by decide)
  | some v =>
    cases ho' : o'.value with
    | none =>
      rw [ho, ho'] at h
      exact absurd (List.cons.inj h).1 (by decide)
    | some v' =>
      rw [ho, ho'] at h
      obtain ⟨hv, hrest⟩ := hwidth.append_inj (List.cons.inj h).2
      exact ⟨congrArg some hv, hrest⟩

/-- The hash tells the passphrases of two profiles apart. -/
def NoCollision (sha256 : List UInt8 → Bytes32) (p q : NetworkProfile) : Prop :=
  networkIdFromPassphrase sha256 p.passphrase = networkIdFromPassphrase sha256 q.passphrase →
    p.passphrase = q.passphrase

/-- **What the bytes determine**: everything but the cost tables, and the bytes of these. -/
theorem sameNetworkState_of_preimage_eq {p q : NetworkProfile}
    (hpassphrase : p.networkId = q.networkId → p.passphrase = q.passphrase)
    (hcost : NetworkProfile.feed NetworkProfile.costBytes p.config.costParams =
      NetworkProfile.feed NetworkProfile.costBytes q.config.costParams →
        p.config.costParams.value = q.config.costParams.value)
    (h : p.contentPreimage = q.contentPreimage) : SameNetworkState p q := by
  simp only [NetworkProfile.contentPreimage, List.append_assoc] at h
  obtain ⟨hschema, h⟩ := fixedWidth_uint32.append_inj (List.append_cancel_left h)
  obtain ⟨hid, h⟩ := fixedWidth_bytesOf.append_inj h
  obtain ⟨hprotocol, h⟩ := fixedWidth_uint32.append_inj h
  obtain ⟨hledger, h⟩ := fixedWidth_uint32.append_inj h
  rw [hpassphrase hid] at h
  obtain ⟨hcpu, h⟩ := feed_append_inj fixedWidth_uint64
    (List.append_cancel_left (List.append_cancel_left h))
  obtain ⟨hmem, h⟩ := feed_append_inj fixedWidth_uint64 h
  obtain ⟨hmax, h⟩ := feed_append_inj fixedWidth_uint64 h
  obtain ⟨hrate, h⟩ := feed_append_inj fixedWidth_uint64 h
  obtain ⟨hcontract, h⟩ := feed_append_inj fixedWidth_uint32 h
  obtain ⟨htx, h⟩ := feed_append_inj fixedWidth_uint32 h
  obtain ⟨hevents, h⟩ := feed_append_inj fixedWidth_uint32 h
  obtain ⟨hfee, h⟩ := feed_append_inj fixedWidth_int64 h
  exact ⟨hschema, hid, hpassphrase hid, hprotocol, hledger, hcpu, hmem, hmax, hrate, hcontract,
    htx, hevents,
    hfee, hcost h⟩

/-- A profile of which nothing is known but its cost tables. -/
def profileOf (sha256 : List UInt8 → Bytes32) (params : CostParamsSnapshot) : NetworkProfile :=
  let unavailable {α : Type} : Observed α := ⟨none, .unavailable, none⟩
  { schemaVersion := profileSchemaVersion
    networkName := "testnet"
    passphrase := "Test SDF Network ; September 2015"
    networkId := networkIdFromPassphrase sha256 "Test SDF Network ; September 2015"
    protocolVersion := 22
    ledgerSequence := 1000
    sourceEndpoint := "https://example.invalid"
    capturedAtUnix := 0
    config := ⟨unavailable, unavailable, unavailable, unavailable, unavailable,
      unavailable, unavailable,
      unavailable, ⟨some params, .liveConfigSetting, some 1000⟩⟩
    contentHashCache := none }

theorem validate_profileOf (sha256 : List UInt8 → Bytes32) {params : CostParamsSnapshot}
    (h : WellMapped params) :
    (profileOf sha256 params).validate sha256 none = .ok () :=
  validate_none_iff.mpr ⟨rfl, rfl, fun _ hparams => Option.some.inj hparams ▸ h⟩

theorem contentPreimage_profileOf (sha256 : List UInt8 → Bytes32)
    {params params' : CostParamsSnapshot}
    (h : NetworkProfile.costBytes params = NetworkProfile.costBytes params') :
    (profileOf sha256 params).contentPreimage = (profileOf sha256 params').contentPreimage := by
  have hfeed : NetworkProfile.feed NetworkProfile.costBytes
    (profileOf sha256 params).config.costParams =
      NetworkProfile.feed NetworkProfile.costBytes (profileOf sha256 params').config.costParams :=
    congrArg (List.cons 1) h
  rw [NetworkProfile.contentPreimage, NetworkProfile.contentPreimage, hfeed]
  rfl

/-- **For which names of cost types the bytes determine the profile**: no two of the names are
interchangeable. -/
theorem preimage_identifies_iff (sha256 : List UInt8 → Bytes32) (a b : Option (List String)) :
    (∀ p q : NetworkProfile, p.validate sha256 none = .ok () → q.validate sha256 none = .ok () →
        p.costNames = a → q.costNames = b → NoCollision sha256 p q →
        p.contentPreimage = q.contentPreimage → SameNetworkState p q) ↔
      ∀ names ∈ a, ∀ names' ∈ b, ¬ Interchangeable names names' := by
  constructor
  · rintro hall names rfl names' rfl hinterchangeable
    obtain ⟨params, params', hparams, hparams', hnames, hnames', hbytes⟩ :=
      exists_tables_of_interchangeable hinterchangeable
    have hsame := hall (profileOf sha256 params) (profileOf sha256 params')
      (validate_profileOf sha256 hparams)
      (validate_profileOf sha256 hparams') (congrArg some hnames) (congrArg some hnames')
        (fun _ => rfl)
      (contentPreimage_profileOf sha256 hbytes)
    obtain rfl : params = params' := Option.some.inj hsame.costParams
    exact hinterchangeable.1 (hnames.symm.trans hnames')
  · rintro hnone p q hp hq rfl rfl hcollision hpreimage
    obtain ⟨-, hpid, hpparams⟩ := validate_none_iff.mp hp
    obtain ⟨-, hqid, hqparams⟩ := validate_none_iff.mp hq
    refine sameNetworkState_of_preimage_eq (fun hid => hcollision ?_) (fun hfeed => ?_) hpreimage
    · rw [hpid, hqid, hid]
    rw [NetworkProfile.feed, NetworkProfile.feed] at hfeed
    rw [NetworkProfile.costNames, NetworkProfile.costNames] at hnone
    cases hpcost : p.config.costParams.value with
    | none =>
      cases hqcost : q.config.costParams.value with
      | none => rfl
      | some params' =>
        rw [hpcost, hqcost] at hfeed
        exact absurd (List.cons.inj hfeed).1 (by decide)
    | some params =>
      cases hqcost : q.config.costParams.value with
      | none =>
        rw [hpcost, hqcost] at hfeed
        exact absurd (List.cons.inj hfeed).1 (by decide)
      | some params' =>
        rw [hpcost, hqcost] at hfeed
        rw [hpcost, hqcost] at hnone
        obtain hsame | hinterchangeable := eq_or_interchangeable (hpparams params hpcost)
          (hqparams params' hqcost) (List.cons.inj hfeed).2
        · rw [hsame]
        · exact absurd hinterchangeable (hnone _ rfl _ rfl)

/-- The network id of the test network. -/
def testnetId : Bytes32 :=
  Vector.ofFn fun i => [0xce, 0xe0, 0x30, 0x2d, 0x59, 0x84, 0x4d, 0x32, 0xbd, 0xca, 0x91, 0x5c,
    0x82, 0x03, 0xdd, 0x44, 0xb3, 0x3f, 0xbb, 0x7e, 0xdc, 0x19, 0x05, 0x1e, 0xa3, 0x7a, 0xbe, 0xdf,
    0x28, 0xec, 0xd4, 0x72].getD i 0

/-- A cost type with terms in one entry only. -/
def costEntry (name : String) (index : UInt32) (cpuConst memLinear : Int64) :
    CostParamEntrySnapshot × CostParamEntrySnapshot :=
  (⟨name, index, cpuConst, 0⟩, ⟨name, index, 0, memLinear⟩)

/-- Two cost types, the second without a name. -/
def nameFirst : CostParamsSnapshot := tablesOf [costEntry "abcd" 0 0 1, costEntry "" 1 0 0]

/-- Two cost types, the first without a name: its constant term starts with the letters of the
other's. -/
def nameSecond : CostParamsSnapshot :=
  tablesOf [costEntry "" 0 0x6162636400000000 0, costEntry "\x00\x00\x00\x01" 1 0 0]

/-- Two accepted profiles of one network have the same hash, but their cost tables differ. -/
theorem contentPreimage_nameFirst :
    (profileOf (fun _ => testnetId) nameFirst).validate (fun _ => testnetId) none = .ok () ∧
      (profileOf (fun _ => testnetId) nameSecond).validate (fun _ => testnetId) none = .ok () ∧
      (profileOf (fun _ => testnetId) nameFirst).contentPreimage =
        (profileOf (fun _ => testnetId) nameSecond).contentPreimage ∧
      ¬ SameNetworkState (profileOf (fun _ => testnetId) nameFirst)
        (profileOf (fun _ => testnetId) nameSecond) := by
  have hfirst : WellMapped nameFirst := ⟨rfl, rfl, rfl, rfl, rfl, rfl, rfl, trivial⟩
  have hsecond : WellMapped nameSecond := ⟨rfl, rfl, rfl, rfl, rfl, rfl, rfl, trivial⟩
  have hbytes : NetworkProfile.costBytes nameFirst = NetworkProfile.costBytes
    nameSecond := by decide
  refine ⟨validate_profileOf _ hfirst, validate_profileOf _ hsecond,
    contentPreimage_profileOf _ hbytes,
    fun h => ?_⟩
  have hcost : nameFirst = nameSecond := Option.some.inj h.costParams
  exact absurd hcost (by decide)

end SorobanDevkit.Fuzz
