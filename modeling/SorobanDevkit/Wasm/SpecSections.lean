import SorobanDevkit.Library.CanonicalCodec
import SorobanDevkit.Library.EntryLoop
import SorobanDevkit.Library.Utf8Lossy
import SorobanDevkit.Wasm.SpecDiff

/-!
# The sections of a contract

The payload of a `contractspecv0` section is a sequence of XDR entries, one after the other, and so
is that of a `contractmetav0` section. `decode_spec_section` and `decode_contract_meta` of
`sdkt-wasm/src/spec.rs` read entry after entry. A contract may have several sections of a name, and
`parse_contract_spec` and `parse_metadata` decode them one after the other.

The readers and writers of entries belong to the XDR library, and stand here as parameters
(`XdrEntry`); `XdrEntry.Lawful` says what is used of them.
-/

namespace SorobanDevkit.Wasm

open EntryLoop

/-! ### Entries -/

/-- `Limits` of the XDR library. -/
structure Limits where
  depth : ℕ
  len : ℕ

/-- `MAX_SPEC_XDR_DEPTH`. -/
def maxSpecXdrDepth : ℕ := 500

/-- `read_xdr` and `write_xdr` of a type of entries. The reader gives the entry and the position of
the cursor behind it. The writer fails on an entry that is nested deeper than its limit. -/
structure XdrEntry (Entry XdrError : Type) where
  read : Limits → List UInt8 → Except XdrError (Entry × ℕ)
  write : (depth : ℕ) → Entry → Option (List UInt8)

namespace XdrEntry

variable {Entry XdrError : Type} (x : XdrEntry Entry XdrError)

/-- The entry at the front of the items of a section. -/
def readItem (items : List UInt8) : Except XdrError (Entry × ℕ) :=
  x.read ⟨maxSpecXdrDepth, items.length⟩ items

/-- The bytes of an entry within the limit on the depth. -/
def writeItem (e : Entry) : Option (List UInt8) := x.write maxSpecXdrDepth e

/-- What is used of the XDR library: an entry that is read takes at least one byte of the section,
and reading inverts writing. -/
structure Lawful : Prop where
  progress : Progress x.readItem
  inverts : Inverts x.readItem x.writeItem

/-- The bytes are the encodings of the entries, one after the other. -/
def Encodes (entries : List Entry) (data : List UInt8) : Prop :=
  Concatenates x.writeItem entries data

/-- `read_xdr` with its errors mapped by `wrap`. -/
def readMapped {E : Type} (wrap : XdrError → E) (items : List UInt8) : Except E (Entry × ℕ) :=
  (x.readItem items).mapError wrap

variable {x} {E : Type} {wrap : XdrError → E}

theorem readMapped_eq_ok_iff {items : List UInt8} {v : Entry × ℕ} :
    x.readMapped wrap items = .ok v ↔ x.readItem items = .ok v := by
  rw [readMapped]
  rcases x.readItem items with e | w
  · simp [Except.mapError]
  · simp [Except.mapError]

theorem readMapped_eq_error {items : List UInt8} {err : E}
    (h : x.readMapped wrap items = .error err) : ∃ e, err = wrap e := by
  rw [readMapped] at h
  rcases hread : x.readItem items with e | w
  · rw [hread] at h
    exact ⟨e, (Except.error.inj h).symm⟩
  · rw [hread] at h
    cases h

theorem Lawful.progress_mapped (h : x.Lawful) : Progress (x.readMapped wrap) :=
  fun items a n hread => h.progress items a n (readMapped_eq_ok_iff.mp hread)

theorem Lawful.inverts_mapped (h : x.Lawful) : Inverts (x.readMapped wrap) x.writeItem :=
  fun items a n => readMapped_eq_ok_iff.trans (h.inverts items a n)

/-- The loop ends with a mapped error on bytes that are no concatenation of entries. -/
theorem Lawful.exists_ends_error (h : x.Lawful) {σ : Type} (wrap : XdrError → E)
    (push : σ → Entry → σ) {data : List UInt8} (hdata : ∀ entries, ¬ x.Encodes entries data)
    (acc : σ) : ∃ acc' e, Ends (x.readMapped wrap) push data acc (acc', .error (wrap e)) := by
  obtain ⟨acc', err, rest, herr, hends⟩ :=
    EntryLoop.exists_ends_error h.progress_mapped h.inverts_mapped hdata push acc
  obtain ⟨e, rfl⟩ := readMapped_eq_error herr
  exact ⟨acc', e, hends⟩

end XdrEntry

/-- `ScMetaV0`. -/
structure ScMetaV0 where
  key : StringM
  val : StringM

/-- `ScMetaEntry`. -/
inductive ScMetaEntry
  | scMetaV0 (v0 : ScMetaV0)

/-- `ContractMetaEntry`. -/
structure ContractMetaEntry where
  key : String
  value : String
  deriving DecidableEq

/-! ### The decoders -/

section Decoders

/-- What the decoders use of the XDR library: the text of a string, and the two types of entries.
`ParseError` stands for the errors of the WASM parser. -/
structure SpecCrates (ParseError XdrError : Type) where
  lossy : StringM → String
  specEntry : XdrEntry ScSpecEntry XdrError
  metaEntry : XdrEntry ScMetaEntry XdrError

variable {ParseError XdrError : Type} (crates : SpecCrates ParseError XdrError)

/-- `ScSpecEntry::read_xdr`, with its errors wrapped. -/
abbrev SpecCrates.readSpecEntry :
    List UInt8 → Except (WasmError ParseError XdrError) (ScSpecEntry × ℕ) :=
  crates.specEntry.readMapped .specXdr

/-- `ScMetaEntry::read_xdr`, with its errors wrapped. -/
abbrev SpecCrates.readMetaEntry :
    List UInt8 → Except (WasmError ParseError XdrError) (ScMetaEntry × ℕ) :=
  crates.metaEntry.readMapped .metaXdr

/-- `decode_spec_section`: what has been pushed to the lists of the specification, and the result,
if the loop ends within `fuel` rounds. -/
def decodeSpecSection (fuel : ℕ) (data : List UInt8) (acc : ContractSpec) :
    Option (ContractSpec × Except (WasmError ParseError XdrError) Unit) :=
  run crates.readSpecEntry (pushEntry crates.lossy) fuel data acc

/-- The entry that `decode_contract_meta` makes of an XDR entry. -/
def mapMetaEntry (lossy : StringM → String) : ScMetaEntry → ContractMetaEntry
  | .scMetaV0 v0 => ⟨lossy v0.key, lossy v0.val⟩

/-- The body of the loop of `decode_contract_meta`. -/
def pushMetaEntry (lossy : StringM → String) (entries : List ContractMetaEntry)
    (e : ScMetaEntry) : List ContractMetaEntry :=
  entries ++ [mapMetaEntry lossy e]

/-- `decode_contract_meta`, if the loop ends within `fuel` rounds. -/
def decodeContractMeta (fuel : ℕ) (data : List UInt8) :
    Option (Except (WasmError ParseError XdrError) (List ContractMetaEntry)) :=
  (run crates.readMetaEntry (pushMetaEntry crates.lossy) fuel data []).map
    fun (entries, result) => result.map fun _ => entries

/-- The calls of `decode_spec_section` in `parse_contract_spec`, for the payloads in turn. -/
def decodeSpecSections (fuel : ℕ) : List (List UInt8) → ContractSpec →
    Option (ContractSpec × Except (WasmError ParseError XdrError) Unit)
  | [], acc => some (acc, .ok ())
  | data :: rest, acc =>
    match decodeSpecSection crates fuel data acc with
    | some (acc', .ok ()) => decodeSpecSections fuel rest acc'
    | other => other

/-- The calls of `decode_contract_meta` in `parse_metadata`, for the payloads in turn. -/
def decodeContractMetas (fuel : ℕ) : List (List UInt8) → List ContractMetaEntry →
    Option (Except (WasmError ParseError XdrError) (List ContractMetaEntry))
  | [], acc => some (.ok acc)
  | data :: rest, acc =>
    match decodeContractMeta crates fuel data with
    | some (.ok entries) => decodeContractMetas fuel rest (acc ++ entries)
    | other => other

/-! ### Payloads as concatenations -/

/-- Payloads of a specification decode as concatenations of entries: the loop ends, the entries go
to the lists of their kinds in order, a payload of entries and what follows it decode together as
they do in turn, and what is no concatenation of entries is an error. -/
structure SpecSectionsDecode : Prop where
  terminates : ∀ data acc, ∃ out, ∀ fuel, data.length ≤ fuel →
    decodeSpecSection crates fuel data acc = some out
  entries : ∀ entries data acc, crates.specEntry.Encodes entries data →
    ∀ fuel, data.length ≤ fuel →
      decodeSpecSection crates fuel data acc =
        some ({ acc with
          functions := acc.functions ++ entries.filterMap (entryFunction crates.lossy)
          customTypes := acc.customTypes ++ entries.filterMap (entryType crates.lossy)
          events := acc.events ++ entries.filterMap (entryEvent crates.lossy) }, .ok ())
  sequence : ∀ entries front rest acc, crates.specEntry.Encodes entries front →
    ∀ fuel, front.length + rest.length ≤ fuel →
      decodeSpecSections crates fuel [front, rest] acc =
        decodeSpecSection crates fuel (front ++ rest) acc
  rejects : ∀ data acc, (∀ entries, ¬ crates.specEntry.Encodes entries data) →
    ∃ acc' e, ∀ fuel, data.length ≤ fuel →
      decodeSpecSection crates fuel data acc = some (acc', .error (.specXdr e))

/-- The same of the payloads of the metadata of a contract. -/
structure ContractMetaDecodes : Prop where
  terminates : ∀ data, ∃ out, ∀ fuel, data.length ≤ fuel →
    decodeContractMeta crates fuel data = some out
  entries : ∀ entries data, crates.metaEntry.Encodes entries data →
    ∀ fuel, data.length ≤ fuel →
      decodeContractMeta crates fuel data = some (.ok (entries.map (mapMetaEntry crates.lossy)))
  sequence : ∀ entries front rest, crates.metaEntry.Encodes entries front →
    ∀ fuel, front.length + rest.length ≤ fuel →
      decodeContractMetas crates fuel [front, rest] [] =
        decodeContractMeta crates fuel (front ++ rest)
  rejects : ∀ data, (∀ entries, ¬ crates.metaEntry.Encodes entries data) →
    ∃ e, ∀ fuel, data.length ≤ fuel →
      decodeContractMeta crates fuel data = some (.error (.metaXdr e))

variable {crates} {fuel : ℕ} {data front rest : List UInt8} {acc : ContractSpec}

/-- Two payloads in sequence, the first of which is decoded. -/
theorem decodeSpecSections_pair {acc' : ContractSpec}
    (h : decodeSpecSection crates fuel front acc = some (acc', .ok ())) :
    decodeSpecSections crates fuel [front, rest] acc =
      decodeSpecSection crates fuel rest acc' := by
  simp only [decodeSpecSections, h]
  rcases decodeSpecSection crates fuel rest acc' with _ | ⟨acc'', e | ⟨⟩⟩ <;> rfl

/-- The end of the loop of `decode_spec_section` behind entries that it has taken. -/
theorem decodeSpecSection_append (hlaw : crates.specEntry.Lawful) {entries : List ScSpecEntry}
    (hfront : crates.specEntry.Encodes entries front)
    (hfuel : front.length + rest.length ≤ fuel) :
    decodeSpecSection crates fuel (front ++ rest) acc =
      decodeSpecSection crates fuel rest (entries.foldl (pushEntry crates.lossy) acc) := by
  obtain ⟨out, hout⟩ := exists_ends hlaw.progress_mapped (pushEntry crates.lossy) rest
    (entries.foldl (pushEntry crates.lossy) acc)
  have hwhole := hfront.ends_append hlaw.progress_mapped hlaw.inverts_mapped hout
  have hlength : (front ++ rest).length ≤ fuel := by
    rw [List.length_append]
    exact hfuel
  rw [decodeSpecSection, decodeSpecSection, hwhole fuel hlength, hout fuel (by omega)]

theorem decodeSpecSection_of_encodes (hlaw : crates.specEntry.Lawful) {entries : List ScSpecEntry}
    (hdata : crates.specEntry.Encodes entries data) (hfuel : data.length ≤ fuel) :
    decodeSpecSection crates fuel data acc =
      some (entries.foldl (pushEntry crates.lossy) acc, .ok ()) :=
  (ends_ok_iff hlaw.progress_mapped hlaw.inverts_mapped).mpr ⟨entries, hdata, rfl⟩ fuel hfuel

theorem specSectionsDecode (hlaw : crates.specEntry.Lawful) : SpecSectionsDecode crates where
  terminates data acc := exists_ends hlaw.progress_mapped _ data acc
  entries entries data acc hdata fuel hfuel := by
    rw [decodeSpecSection_of_encodes hlaw hdata hfuel, foldl_pushEntry]
  sequence entries front rest acc hfront fuel hfuel := by
    rw [decodeSpecSections_pair (decodeSpecSection_of_encodes hlaw hfront (by omega)),
      decodeSpecSection_append hlaw hfront hfuel]
  rejects data acc hdata :=
    hlaw.exists_ends_error WasmError.specXdr (pushEntry crates.lossy) hdata acc

/-! ### The metadata -/

theorem foldl_pushMetaEntry (lossy : StringM → String) (entries : List ScMetaEntry)
    (acc : List ContractMetaEntry) :
    entries.foldl (pushMetaEntry lossy) acc = acc ++ entries.map (mapMetaEntry lossy) := by
  induction entries generalizing acc with
  | nil => rw [List.foldl_nil, List.map_nil, List.append_nil]
  | cons e entries ih =>
    rw [List.foldl_cons, ih, pushMetaEntry, List.append_assoc, List.map_cons,
      List.singleton_append]

/-- The entries that were there before stay before those that are read. -/
theorem run_pushMetaEntry {E : Type} {read : List UInt8 → Except E (ScMetaEntry × ℕ)}
    (lossy : StringM → String) (fuel : ℕ) (items : List UInt8) (acc : List ContractMetaEntry) :
    run read (pushMetaEntry lossy) fuel items acc =
      (run read (pushMetaEntry lossy) fuel items []).map fun (entries, result) =>
        (acc ++ entries, result) := by
  have hpush : ∀ entries e, pushMetaEntry lossy (acc ++ entries) e =
      acc ++ pushMetaEntry lossy entries e := by
    intro entries e
    rw [pushMetaEntry, pushMetaEntry, List.append_assoc]
  have hrun : run read (pushMetaEntry lossy) fuel items (acc ++ []) = _ :=
    run_map hpush fuel items []
  rwa [List.append_nil] at hrun

theorem decodeContractMeta_of_encodes (hlaw : crates.metaEntry.Lawful)
    {entries : List ScMetaEntry} (hdata : crates.metaEntry.Encodes entries data)
    (hfuel : data.length ≤ fuel) :
    decodeContractMeta crates fuel data =
      some (.ok (entries.map (mapMetaEntry crates.lossy))) := by
  have hends : Ends crates.readMetaEntry (pushMetaEntry crates.lossy) data []
      (entries.foldl (pushMetaEntry crates.lossy) [], .ok ()) :=
    (ends_ok_iff hlaw.progress_mapped hlaw.inverts_mapped).mpr ⟨entries, hdata, rfl⟩
  rw [decodeContractMeta, hends fuel hfuel, foldl_pushMetaEntry]
  rfl

/-- What `decode_contract_meta` makes of entries and what follows them. -/
theorem decodeContractMeta_append (hlaw : crates.metaEntry.Lawful) {entries : List ScMetaEntry}
    (hfront : crates.metaEntry.Encodes entries front)
    (hfuel : front.length + rest.length ≤ fuel) :
    decodeContractMeta crates fuel (front ++ rest) =
      (decodeContractMeta crates fuel rest).map fun result =>
        result.map (entries.map (mapMetaEntry crates.lossy) ++ ·) := by
  obtain ⟨out, hout⟩ := exists_ends (hlaw.progress_mapped : Progress crates.readMetaEntry)
    (pushMetaEntry crates.lossy) rest (entries.foldl (pushMetaEntry crates.lossy) [])
  have hwhole := hfront.ends_append hlaw.progress_mapped hlaw.inverts_mapped hout
  have hlength : (front ++ rest).length ≤ fuel := by
    rw [List.length_append]
    exact hfuel
  have hrest := hout fuel (by omega)
  rw [decodeContractMeta, decodeContractMeta, hwhole fuel hlength, ← hrest, run_pushMetaEntry,
    foldl_pushMetaEntry, List.nil_append, Option.map_map, Option.map_map]
  congr 1
  funext ⟨_, result⟩
  rcases result with e | ⟨⟩ <;> rfl

theorem contractMetaDecodes (hlaw : crates.metaEntry.Lawful) : ContractMetaDecodes crates where
  terminates data := by
    obtain ⟨out, hout⟩ := exists_ends (hlaw.progress_mapped : Progress crates.readMetaEntry)
      (pushMetaEntry crates.lossy) data []
    refine ⟨out.2.map fun _ => out.1, fun fuel hfuel => ?_⟩
    rw [decodeContractMeta, hout fuel hfuel, Option.map_some]
  entries entries data hdata fuel hfuel := decodeContractMeta_of_encodes hlaw hdata hfuel
  sequence entries front rest hfront fuel hfuel := by
    rw [decodeContractMeta_append hlaw hfront hfuel]
    simp only [decodeContractMetas, decodeContractMeta_of_encodes hlaw hfront
      (by omega : front.length ≤ fuel), List.nil_append]
    rcases decodeContractMeta crates fuel rest with _ | e | entries' <;> rfl
  rejects data hdata := by
    obtain ⟨acc', e, hends⟩ :=
      hlaw.exists_ends_error WasmError.metaXdr (pushMetaEntry crates.lossy) hdata []
    refine ⟨e, fun fuel hfuel => ?_⟩
    rw [decodeContractMeta, hends fuel hfuel]
    rfl

/-- **Payloads decode as concatenations of entries.** -/
theorem sections_decode (crates : SpecCrates ParseError XdrError)
    (hspec : crates.specEntry.Lawful) (hmeta : crates.metaEntry.Lawful) :
    SpecSectionsDecode crates ∧ ContractMetaDecodes crates :=
  ⟨specSectionsDecode hspec, contractMetaDecodes hmeta⟩

end Decoders

/-! ### Entries of a canonical encoding -/

section Canonical

variable {Entry XdrError τ : Type}

/-- The reader and the writer of a canonical encoding, of the entries that it knows. -/
def XdrEntry.ofCodec (c : CanonicalCodec τ) (toEntry : τ → Entry) (ofEntry : Entry → Option τ)
    (invalid : XdrError) : XdrEntry Entry XdrError where
  read _ items :=
    match c.read items with
    | some (t, rest) => .ok (toEntry t, items.length - rest.length)
    | none => .error invalid
  write _ e := (ofEntry e).map c.write

variable {c : CanonicalCodec τ} {toEntry : τ → Entry} {ofEntry : Entry → Option τ}
  {invalid : XdrError}

theorem XdrEntry.ofCodec_readItem_eq_ok_iff {items : List UInt8} {e : Entry} {n : ℕ} :
    (XdrEntry.ofCodec c toEntry ofEntry invalid).readItem items = .ok (e, n) ↔
      ∃ t rest, items = c.write t ++ rest ∧ toEntry t = e ∧ (c.write t).length = n := by
  rw [XdrEntry.readItem, XdrEntry.ofCodec]
  constructor
  · intro h
    rcases hread : c.read items with _ | ⟨t, rest⟩
    · simp [hread] at h
    · have hitems := c.read_eq_some_iff.mp hread
      simp only [hread, Except.ok.injEq, Prod.mk.injEq] at h
      refine ⟨t, rest, hitems, h.1, ?_⟩
      rw [← h.2, hitems, List.length_append, Nat.add_sub_cancel]
  · rintro ⟨t, rest, rfl, rfl, rfl⟩
    simp only [c.read_write, List.length_append, Nat.add_sub_cancel]

theorem XdrEntry.ofCodec_lawful (hof : ∀ e t, ofEntry e = some t ↔ toEntry t = e)
    (hpos : ∀ t, 0 < (c.write t).length) :
    (XdrEntry.ofCodec c toEntry ofEntry invalid).Lawful where
  progress items e n h := by
    obtain ⟨t, rest, rfl, -, rfl⟩ := XdrEntry.ofCodec_readItem_eq_ok_iff.mp h
    rw [List.length_append]
    exact ⟨hpos t, Nat.le_add_right _ _⟩
  inverts items e n := by
    have hwrite : (XdrEntry.ofCodec c toEntry ofEntry invalid).writeItem e =
        (ofEntry e).map c.write := rfl
    rw [XdrEntry.ofCodec_readItem_eq_ok_iff, hwrite]
    constructor
    · rintro ⟨t, rest, rfl, he, rfl⟩
      rw [(hof e t).mpr he, List.length_append, List.take_left]
      exact ⟨Nat.le_add_right _ _, rfl⟩
    · rintro ⟨hle, hpart⟩
      obtain ⟨t, ht, htake⟩ := Option.map_eq_some_iff.mp hpart
      refine ⟨t, items.drop n, ?_, (hof e t).mp ht, ?_⟩
      · rw [htake, List.take_append_drop]
      · rw [htake, List.length_take_of_le hle]

end Canonical

section Members

open CanonicalCodec

/-- An XDR string of bounded length. -/
abbrev BoundedString (max : ℕ) := { l : StringM // l.length ≤ max }

theorem stringMax_lt : 4294967295 < 256 ^ 4 := by decide

/-- The encoding of metadata. -/
def metaCodec : CanonicalCodec (BoundedString 4294967295 × BoundedString 4294967295) :=
  ((padded 4294967295 stringMax_lt).pair (padded 4294967295 stringMax_lt)).discriminated 0

/-- The metadata of two strings. -/
def metaOfStrings (v : BoundedString 4294967295 × BoundedString 4294967295) : ScMetaEntry :=
  .scMetaV0 ⟨v.1.1, v.2.1⟩

/-- The two strings of metadata. -/
def stringsOfMeta : ScMetaEntry → Option (BoundedString 4294967295 × BoundedString 4294967295)
  | .scMetaV0 ⟨key, val⟩ =>
    if h : key.length ≤ 4294967295 ∧ val.length ≤ 4294967295 then some (⟨key, h.1⟩, ⟨val, h.2⟩)
    else none

theorem stringsOfMeta_eq_some_iff (e : ScMetaEntry)
    (v : BoundedString 4294967295 × BoundedString 4294967295) :
    stringsOfMeta e = some v ↔ metaOfStrings v = e := by
  rcases e with ⟨key, val⟩
  rw [stringsOfMeta]
  constructor
  · intro h
    split_ifs at h with hbound
    obtain rfl := Option.some_inj.mp h
    rfl
  · rintro h
    rcases v with ⟨⟨key', hkey⟩, ⟨val', hval⟩⟩
    cases h
    rw [dif_pos ⟨hkey, hval⟩]

/-- The strings of a function, an enumeration and an event without members: its documentation, its
library if it has one, and its name. -/
abbrev MemberlessEntry :=
  (BoundedString 1024 × BoundedString 32 × Unit) ⊕
    (BoundedString 1024 × BoundedString 80 × BoundedString 60 × Unit) ⊕
    (BoundedString 1024 × BoundedString 80 × BoundedString 32 × Unit)

theorem docMax_lt : 1024 < 256 ^ 4 := by decide

theorem libMax_lt : 80 < 256 ^ 4 := by decide

theorem nameMax_lt : 60 < 256 ^ 4 := by decide

theorem symbolMax_lt : 32 < 256 ^ 4 := by decide

/-- The encoding of entries without members: their vectors are empty, and the data of an event is a
single value. -/
def memberlessCodec : CanonicalCodec MemberlessEntry :=
  armOr 0 ((padded 1024 docMax_lt).pair ((padded 32 symbolMax_lt).pair
      ((empty.discriminated 0).discriminated 0)))
    (armOr 3 ((padded 1024 docMax_lt).pair ((padded 80 libMax_lt).pair
        ((padded 60 nameMax_lt).pair (empty.discriminated 0))))
      (((padded 1024 docMax_lt).pair ((padded 80 libMax_lt).pair ((padded 32 symbolMax_lt).pair
        (((empty.discriminated 0).discriminated 0).discriminated 0)))).discriminated 5)
      (not_prefix_discriminated (by decide) (by decide) (by decide) _))
    (not_prefix_armOr (by decide) (by decide) (by decide) _
      (not_prefix_discriminated (by decide) (by decide) (by decide) _))

/-- The entry of the strings. -/
def entryOfMemberless : MemberlessEntry → ScSpecEntry
  | .inl (doc, name, _) => .functionV0 ⟨doc.1, name.1, [], []⟩
  | .inr (.inl (doc, lib, name, _)) => .udtEnumV0 ⟨doc.1, lib.1, name.1, []⟩
  | .inr (.inr (doc, lib, name, _)) => .eventV0 ⟨doc.1, lib.1, name.1, [], [], .singleValue⟩

/-- The strings of an entry without members. -/
def memberlessOfEntry : ScSpecEntry → Option MemberlessEntry
  | .functionV0 ⟨doc, name, [], []⟩ =>
    if h : doc.length ≤ 1024 ∧ name.length ≤ 32 then some (.inl (⟨doc, h.1⟩, ⟨name, h.2⟩, ()))
    else none
  | .udtEnumV0 ⟨doc, lib, name, []⟩ =>
    if h : doc.length ≤ 1024 ∧ lib.length ≤ 80 ∧ name.length ≤ 60 then
      some (.inr (.inl (⟨doc, h.1⟩, ⟨lib, h.2.1⟩, ⟨name, h.2.2⟩, ())))
    else none
  | .eventV0 ⟨doc, lib, name, [], [], .singleValue⟩ =>
    if h : doc.length ≤ 1024 ∧ lib.length ≤ 80 ∧ name.length ≤ 32 then
      some (.inr (.inr (⟨doc, h.1⟩, ⟨lib, h.2.1⟩, ⟨name, h.2.2⟩, ())))
    else none
  | _ => none

theorem memberlessOfEntry_eq_some_iff (e : ScSpecEntry) (v : MemberlessEntry) :
    memberlessOfEntry e = some v ↔ entryOfMemberless v = e := by
  constructor
  · intro h
    rw [memberlessOfEntry.eq_def] at h
    split at h
    · split_ifs at h
      obtain rfl := Option.some_inj.mp h
      rfl
    · split_ifs at h
      obtain rfl := Option.some_inj.mp h
      rfl
    · split_ifs at h
      obtain rfl := Option.some_inj.mp h
      rfl
    · cases h
  · rintro rfl
    rcases v with ⟨⟨doc, hdoc⟩, ⟨name, hname⟩, ⟨⟩⟩ | ⟨⟨doc, hdoc⟩, ⟨lib, hlib⟩, ⟨name, hname⟩, ⟨⟩⟩ |
      ⟨⟨doc, hdoc⟩, ⟨lib, hlib⟩, ⟨name, hname⟩, ⟨⟩⟩
    · simp only [entryOfMemberless, memberlessOfEntry, dif_pos (And.intro hdoc hname)]
    · simp only [entryOfMemberless, memberlessOfEntry,
        dif_pos (And.intro hdoc (And.intro hlib hname))]
    · simp only [entryOfMemberless, memberlessOfEntry,
        dif_pos (And.intro hdoc (And.intro hlib hname))]

theorem length_discriminated_pos {α : Type} (n : ℕ) (c : CanonicalCodec α) (a : α) :
    0 < ((c.discriminated n).write a).length := by
  show 0 < (bigEndian 4 n ++ c.write a).length
  rw [List.length_append, length_bigEndian]
  omega

theorem length_memberlessCodec_pos (v : MemberlessEntry) :
    0 < (memberlessCodec.write v).length := by
  rcases v with a | a | a
  · exact length_discriminated_pos 0 _ a
  · exact length_discriminated_pos 3 _ a
  · exact length_discriminated_pos 5 _ a

/-- The XDR library, as far as it goes with metadata and with entries without members. -/
def memberlessCrates : SpecCrates String String where
  lossy bytes := String.ofList (Utf8Lossy.decode bytes)
  specEntry := .ofCodec memberlessCodec entryOfMemberless memberlessOfEntry "xdr value invalid"
  metaEntry := .ofCodec metaCodec metaOfStrings stringsOfMeta "xdr value invalid"

theorem lawful_memberless_spec : memberlessCrates.specEntry.Lawful :=
  XdrEntry.ofCodec_lawful memberlessOfEntry_eq_some_iff length_memberlessCodec_pos

theorem lawful_memberless_meta : memberlessCrates.metaEntry.Lawful :=
  XdrEntry.ofCodec_lawful stringsOfMeta_eq_some_iff (length_discriminated_pos 0 _)

/-- A function `mint`, an enumeration `Role` and an event `paid`, in their encodings. -/
def mintBytes : List UInt8 :=
  [0, 0, 0, 0, 0, 0, 0, 0, 0, 0, 0, 4, 109, 105, 110, 116, 0, 0, 0, 0, 0, 0, 0, 0]

def roleBytes : List UInt8 :=
  [0, 0, 0, 3, 0, 0, 0, 0, 0, 0, 0, 0, 0, 0, 0, 4, 82, 111, 108, 101, 0, 0, 0, 0]

def paidBytes : List UInt8 :=
  [0, 0, 0, 5, 0, 0, 0, 0, 0, 0, 0, 0, 0, 0, 0, 4, 112, 97, 105, 100, 0, 0, 0, 0, 0, 0, 0, 0,
    0, 0, 0, 0]

/-- The metadata `rsver = 1.97`, in its encoding. -/
def rsverBytes : List UInt8 :=
  [0, 0, 0, 0, 0, 0, 0, 5, 114, 115, 118, 101, 114, 0, 0, 0, 0, 0, 0, 4, 49, 46, 57, 55]

theorem encodes_members : memberlessCrates.specEntry.Encodes
    [.functionV0 ⟨[], [109, 105, 110, 116], [], []⟩, .udtEnumV0 ⟨[], [], [82, 111, 108, 101], []⟩,
      .eventV0 ⟨[], [], [112, 97, 105, 100], [], [], .singleValue⟩]
    (mintBytes ++ (roleBytes ++ (paidBytes ++ []))) := by
  refine .cons ?_ (.cons ?_ (.cons ?_ .nil))
  · rfl
  · rfl
  · rfl

theorem encodes_rsver : memberlessCrates.metaEntry.Encodes
    [.scMetaV0 ⟨[114, 115, 118, 101, 114], [49, 46, 57, 55]⟩] (rsverBytes ++ []) := by
  refine .cons ?_ .nil
  rfl

/-- Three entries of a specification and one of metadata are decoded. -/
theorem sections_decode_members :
    (SpecSectionsDecode memberlessCrates ∧ ContractMetaDecodes memberlessCrates) ∧
      decodeSpecSection memberlessCrates 80 (mintBytes ++ (roleBytes ++ (paidBytes ++ [])))
          ⟨none, [], [], []⟩ =
        some (⟨none, [⟨"mint", "", [], []⟩], [⟨"Role", "enum", "", [], [], none⟩],
          [⟨"paid", "", [], [], "single_value"⟩]⟩, .ok ()) ∧
      decodeContractMeta memberlessCrates 24 (rsverBytes ++ []) =
        some (.ok [⟨"rsver", "1.97"⟩]) := by
  have h := sections_decode memberlessCrates lawful_memberless_spec lawful_memberless_meta
  refine ⟨h, ?_, ?_⟩
  · rw [h.1.entries _ _ ⟨none, [], [], []⟩ encodes_members 80 (by decide)]
    rfl
  · rw [h.2.entries _ _ encodes_rsver 24 (by decide)]
    rfl

/-- An entry whose first bytes are at the end of a payload and whose other bytes are at the
beginning of the next is decoded from the concatenation, and rejected in sequence. -/
theorem entry_across_sections :
    memberlessCrates.specEntry.Lawful ∧ memberlessCrates.metaEntry.Lawful ∧
      decodeSpecSections memberlessCrates 24 [mintBytes.take 4, mintBytes.drop 4]
          ⟨none, [], [], []⟩ =
        some (⟨none, [], [], []⟩, .error (.specXdr "xdr value invalid")) ∧
      decodeSpecSection memberlessCrates 24 (mintBytes.take 4 ++ mintBytes.drop 4)
          ⟨none, [], [], []⟩ =
        some (⟨none, [⟨"mint", "", [], []⟩], [], []⟩, .ok ()) ∧
      decodeContractMetas memberlessCrates 24 [rsverBytes.take 4, rsverBytes.drop 4] [] =
        some (.error (.metaXdr "xdr value invalid")) ∧
      decodeContractMeta memberlessCrates 24 (rsverBytes.take 4 ++ rsverBytes.drop 4) =
        some (.ok [⟨"rsver", "1.97"⟩]) := by
  refine ⟨lawful_memberless_spec, lawful_memberless_meta, ?_, ?_, ?_, ?_⟩
  · rfl
  · rfl
  · rfl
  · rfl

end Members

end SorobanDevkit.Wasm
