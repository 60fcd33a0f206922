import SorobanDevkit.Library.FirstOccurrences
import SorobanDevkit.Xdr.Payload

/-!
# The ledger keys of a footprint

`decode_ledger_key` and `merge_footprint_keys` of `sdkt-xdr/src/builder.rs`: the ledger keys whose
lifetime a transaction extends are given as texts, and the ones that are spelled in several ways are
merged.

A key is documented to be given in base64 or in hex. The hex spelling of a key is always a base64
text too, which is tried first, and unlike `decode_with_config` this function has no second attempt.

## Main results

* `hex_ledger_key_rejected` — no key is read from its hex spelling.
* `mergeFootprintKeys_eq` — merging keeps the first occurrence of each key.
* `mergeFootprintKeys_canonical` — merged keys are distinct and spelled in one way.
-/

namespace SorobanDevkit.Xdr

/-- The reader and the writer of `stellar_xdr::LedgerKey`. -/
structure LedgerKeyXdr (LedgerKey : Type) where
  readXdr : Limits → List UInt8 → Except String (LedgerKey × List UInt8)
  writeXdr : Limits → LedgerKey → Except String (List UInt8)

/-- What is documented of them: every key is written, as `write` says, and read back. -/
structure LedgerKeyXdr.Documented {LedgerKey : Type} (xdr : LedgerKeyXdr LedgerKey)
    (write : LedgerKey → List UInt8) (arms : ℕ) : Prop where
  union : IsUnion arms write (xdr.readXdr Limits.none)
  writes : ∀ k, xdr.writeXdr Limits.none k = .ok (write k)
  read_write : ∀ k rest, xdr.readXdr Limits.none (write k ++ rest) = .ok (k, rest)
  four_dvd_length : ∀ k, 4 ∣ (write k).length

open Payload (hexDecode isEvenHex)

section Keys

variable {LedgerKey : Type} (xdr : LedgerKeyXdr LedgerKey)

/-- The bytes of the text of a key. -/
def ledgerKeyBytes (trimmed : String) : Except Payload.DecodeError (List UInt8) :=
  match Base64.decode trimmed with
  | some bytes => .ok bytes
  | none =>
    if isEvenHex trimmed then (hexDecode trimmed).mapError .hex
    else .error (.extraction "LedgerKey must be base64 XDR or even-length hex")

/-- `decode_ledger_key`. -/
def decodeLedgerKey (encoded : String) : Except Payload.DecodeError LedgerKey :=
  let trimmed := Strings.trim encoded
  if trimmed = "" then .error (.extraction "empty LedgerKey")
  else do
    let raw ← ledgerKeyBytes trimmed
    if raw = [] then .error (.extraction "empty LedgerKey")
    else
      let (key, _) ← (xdr.readXdr Limits.none raw).mapError (.xdrParse "LedgerKey")
      .ok key

/-- The text that a key is merged as. -/
def canonicalKey (k : String) : Except Payload.DecodeError String := do
  let decoded ← decodeLedgerKey xdr k
  let buf ← (xdr.writeXdr Limits.none decoded).mapError .xdrWrite
  .ok (Base64.encode buf)

/-- The loop of `merge_footprint_keys`. -/
def mergeLoop : (keys : List String) → (seen out : List String) → Except Payload.DecodeError
    (List String)
  | [], _, out => .ok out
  | k :: keys, seen, out => do
    let canonical ← canonicalKey xdr k
    if canonical ∈ seen then mergeLoop keys seen out
    else mergeLoop keys (canonical :: seen) (out ++ [canonical])

/-- `merge_footprint_keys`. -/
def mergeFootprintKeys (keys : List String) : Except Payload.DecodeError (List String) := do
  let out ← mergeLoop xdr keys [] []
  if out = [] then .error (.extraction "footprint must contain at least one LedgerKey")
  else .ok out

/-- A key is read from its base64 text and from its hex digits, of either case. -/
def AcceptsBoth (write : LedgerKey → List UInt8) (k : LedgerKey) : Prop :=
  decodeLedgerKey xdr (Base64.encode (write k)) = .ok k ∧
    ∀ text, Hex.decode text = some (write k) → decodeLedgerKey xdr text = .ok k

end Keys

section Spelled

variable {LedgerKey : Type} {xdr : LedgerKeyXdr LedgerKey} {write : LedgerKey → List UInt8}
  {arms : ℕ}

/-! ### One key -/

theorem decodeLedgerKey_of_bytes {text : String} {raw : List UInt8}
    (htrim : Strings.trim text = text)
    (hne : text ≠ "") (hraw : raw ≠ []) (hbytes : ledgerKeyBytes text = .ok raw) :
    decodeLedgerKey xdr text =
      ((xdr.readXdr Limits.none raw).mapError (.xdrParse "LedgerKey")).map Prod.fst := by
  rw [decodeLedgerKey, htrim]
  simp only [if_neg hne, hbytes, bind, Except.bind, if_neg hraw]
  cases xdr.readXdr Limits.none raw with
  | error e => rfl
  | ok read => rfl

namespace LedgerKeyXdr.Documented

theorem write_injective (h : xdr.Documented write arms) : Function.Injective write := by
  intro a b hab
  have hread := h.read_write a []
  rw [hab, h.read_write b []] at hread
  exact (Prod.mk.inj (Except.ok.inj hread)).1.symm

variable (h : xdr.Documented write arms) (harms : arms ≤ 2 ^ 24)
include h harms

theorem write_ne_nil (k : LedgerKey) : write k ≠ [] := by
  obtain ⟨rest, hwrite⟩ := h.union.exists_write_eq harms k
  simp [hwrite]

/-- A key is read from its base64 text. -/
theorem decodeLedgerKey_encode (k : LedgerKey) :
    decodeLedgerKey xdr (Base64.encode (write k)) = .ok k := by
  have hne := h.write_ne_nil harms k
  obtain ⟨htrim, hnonempty, -⟩ := Payload.base64Likely_of_mem (Base64.toList_encode_ne_nil hne)
    (fun _ hc => Base64.mem_encode hc) (Base64.four_dvd_length_encode _)
  have hbytes : ledgerKeyBytes (Base64.encode (write k)) = .ok (write k) := by
    rw [ledgerKeyBytes, Base64.decode_encode]
  have hread := h.read_write k []
  rw [List.append_nil] at hread
  rw [decodeLedgerKey_of_bytes htrim hnonempty hne hbytes, hread]
  rfl

/-- No key is read from its hex digits. -/
theorem decodeLedgerKey_hex (k : LedgerKey) {text : String}
    (hhex : Hex.decode text = some (write k)) :
    ∃ e, decodeLedgerKey xdr text = .error (.xdrParse "LedgerKey" e) := by
  have hne := h.write_ne_nil harms k
  have hpos := List.length_pos_iff.mpr hne
  have hdvd := h.four_dvd_length k
  have hlength := Hex.length_of_decodeChars hhex
  obtain ⟨garbage, hgarbage⟩ := Base64.exists_decode_of_hex hhex (by omega)
  obtain ⟨htrim, hnonempty, -⟩ := Payload.base64Likely_of_mem (List.length_pos_iff.mp (by omega))
    (Payload.mem_alphabet_of_hex hhex) (by omega)
  have hbytes : ledgerKeyBytes text = .ok garbage := by rw [ledgerKeyBytes, hgarbage]
  have hgarbage' : garbage ≠ [] := by
    obtain ⟨rest, hwrite⟩ := h.union.exists_write_eq harms k
    rw [hwrite] at hhex
    obtain ⟨rest', rfl⟩ := Base64.decode_of_hex_zero hhex hgarbage
    exact List.cons_ne_nil _ _
  obtain ⟨e, he⟩ := h.union.read_error_of_hex harms hhex hgarbage
  exact ⟨e, by rw [decodeLedgerKey_of_bytes htrim hnonempty hgarbage' hbytes, he]; rfl⟩

end LedgerKeyXdr.Documented

/-- **No key is read from its hex spelling.** Its base64 spelling is read, and the hex digits are
read as bytes that are no key. -/
theorem hex_ledger_key_rejected (h : xdr.Documented write arms) (harms : arms ≤ 2 ^ 24)
    (k : LedgerKey) :
    ¬ AcceptsBoth xdr write k ∧ decodeLedgerKey xdr (Base64.encode (write k)) = .ok k ∧
      ∀ text, Hex.decode text = some (write k) →
        ∃ e, decodeLedgerKey xdr text = .error (.xdrParse "LedgerKey" e) := by
  refine ⟨fun hboth => ?_, h.decodeLedgerKey_encode harms k, fun text hhex =>
    h.decodeLedgerKey_hex harms k hhex⟩
  have hhex := Hex.decode_encode (write k)
  obtain ⟨e, he⟩ := h.decodeLedgerKey_hex harms k hhex
  rw [hboth.2 _ hhex] at he
  cases he

end Spelled

/-! ### The keys of contract code -/

/-- The encoding of `LedgerKey::ContractCode`, a key that is a hash. -/
def codeKeyCodec : Codec (Vector UInt8 32) := .discriminated 7 (.fixed 32)

/-- `LedgerKey`, with the keys of contract code only. -/
def codeKeys : LedgerKeyXdr (Vector UInt8 32) where
  readXdr _ := codeKeyCodec.readOr "xdr value invalid"
  writeXdr _ k := .ok (codeKeyCodec.write k)

theorem codeKeys_documented : codeKeys.Documented codeKeyCodec.write 10 where
  union := Codec.isUnion_discriminated (by decide) (.fixed 32) "xdr value invalid"
  writes _ := rfl
  read_write := codeKeyCodec.readOr_write "xdr value invalid"
  four_dvd_length k := by
    have hlength : (codeKeyCodec.write k).length = 36 := by
      simp [codeKeyCodec, Codec.discriminated, Codec.fixed]
    exact ⟨9, hlength⟩

theorem hex_ledger_key_rejected_code :
    ¬ AcceptsBoth codeKeys codeKeyCodec.write (.replicate 32 0x2a) ∧
      decodeLedgerKey codeKeys (Base64.encode (codeKeyCodec.write (.replicate 32 0x2a))) =
        .ok (.replicate 32 0x2a) ∧
      ∀ text, Hex.decode text = some (codeKeyCodec.write (.replicate 32 0x2a)) →
        ∃ e, decodeLedgerKey codeKeys text = .error (.xdrParse "LedgerKey" e) :=
  hex_ledger_key_rejected codeKeys_documented (by decide) (.replicate 32 0x2a)

/-- The hex digits of the key of some contract code are not read. -/
theorem code_key_hex_rejected : ¬ ∀ k, AcceptsBoth codeKeys codeKeyCodec.write k := by
  intro h
  have hread := (h (.replicate 32 0x2a)).2 (Hex.encode (codeKeyCodec.write (.replicate 32 0x2a)))
    (by decide +kernel)
  have hrejected : (decodeLedgerKey codeKeys
      (Hex.encode (codeKeyCodec.write (.replicate 32 0x2a)))).isOk = false := by decide +kernel
  rw [hread] at hrejected
  cases hrejected

section Merged

variable {LedgerKey : Type} {xdr : LedgerKeyXdr LedgerKey} {write : LedgerKey → List UInt8}
  {arms : ℕ}

/-! ### A list of keys -/

/-- What the loop adds to the keys that it has seen. -/
theorem mergeLoop_eq (keys : List String) {pre seen : List String}
    (hseen : ∀ c, c ∈ seen ↔ c ∈ pre) :
    mergeLoop xdr keys seen pre.eraseDups =
      (keys.mapM (canonicalKey xdr)).map fun canonical => (pre ++ canonical).eraseDups := by
  induction keys generalizing pre seen with
  | nil => simp [mergeLoop, pure, Except.pure, Except.map]
  | cons k keys ih =>
    rw [mergeLoop, List.mapM_cons]
    cases canonicalKey xdr k with
    | error e => rfl
    | ok canonical =>
      have hstep : (pre ++ [canonical]).eraseDups =
          if canonical ∈ pre then pre.eraseDups else pre.eraseDups ++ [canonical] :=
        List.eraseDups_concat pre canonical
      have hsnoc : ∀ rest, pre ++ canonical :: rest = pre ++ [canonical] ++ rest := fun rest => by
        rw [List.append_assoc, List.singleton_append]
      simp only [bind, Except.bind]
      split
      · next hmem =>
        have hpre := (hseen canonical).mp hmem
        rw [if_pos hpre] at hstep
        rw [← hstep, ih]
        · cases keys.mapM (canonicalKey xdr) with
          | error e => rfl
          | ok rest => simp [Except.map, pure, Except.pure]
        · intro c
          rw [List.mem_append, List.mem_singleton, hseen]
          exact ⟨.inl, fun hc => hc.elim id (fun hc => hc ▸ hpre)⟩
      · next hmem =>
        have hpre := (not_congr (hseen canonical)).mp hmem
        rw [if_neg hpre] at hstep
        rw [← hstep, ih]
        · cases keys.mapM (canonicalKey xdr) with
          | error e => rfl
          | ok rest => simp [Except.map, pure, Except.pure]
        · intro c
          rw [List.mem_cons, List.mem_append, List.mem_singleton, hseen]
          exact or_comm

/-- A key is merged as the base64 text of its encoding. -/
theorem canonicalKey_eq (h : xdr.Documented write arms) (k : String) :
    canonicalKey xdr k = (decodeLedgerKey xdr k).map fun key => Base64.encode (write key) := by
  rw [canonicalKey]
  cases decodeLedgerKey xdr k with
  | error e => rfl
  | ok key =>
    simp only [bind, Except.bind, h.writes]
    rfl

theorem mapM_canonicalKey (h : xdr.Documented write arms) (keys : List String) :
    keys.mapM (canonicalKey xdr) = (keys.mapM (decodeLedgerKey xdr)).map fun decoded =>
      decoded.map fun key => Base64.encode (write key) := by
  induction keys with
  | nil => rfl
  | cons k keys ih =>
    rw [List.mapM_cons, List.mapM_cons, ih, canonicalKey_eq h]
    cases decodeLedgerKey xdr k with
    | error e => rfl
    | ok key =>
      cases keys.mapM (decodeLedgerKey xdr) with
      | error e => rfl
      | ok decoded => rfl

theorem encode_write_injective (h : xdr.Documented write arms) :
    Function.Injective fun key => Base64.encode (write key) :=
  Base64.encode_injective.comp h.write_injective

theorem mapM_decodeLedgerKey_encode (h : xdr.Documented write arms) (harms : arms ≤ 2 ^ 24)
    (ks : List LedgerKey) :
    (ks.map fun key => Base64.encode (write key)).mapM (decodeLedgerKey xdr) = .ok ks := by
  induction ks with
  | nil => rfl
  | cons k ks ih =>
    rw [List.map_cons, List.mapM_cons, h.decodeLedgerKey_encode harms, ih]
    rfl

variable [DecidableEq LedgerKey]

/-- The texts of the merged keys. -/
def mergedTexts (write : LedgerKey → List UInt8) (decoded : List LedgerKey) :
    Except Payload.DecodeError (List String) :=
  if decoded = [] then .error (.extraction "footprint must contain at least one LedgerKey")
  else .ok (decoded.eraseDups.map fun key => Base64.encode (write key))

/-- Merging keeps the first occurrence of each key, spelled in one way. -/
theorem mergeFootprintKeys_eq (h : xdr.Documented write arms) (keys : List String) :
    mergeFootprintKeys xdr keys = keys.mapM (decodeLedgerKey xdr) >>= mergedTexts write := by
  have hloop : mergeLoop xdr keys [] ([] : List String).eraseDups = _ :=
    mergeLoop_eq keys fun c => Iff.rfl
  rw [List.eraseDups_nil, mapM_canonicalKey h] at hloop
  rw [mergeFootprintKeys, hloop]
  cases keys.mapM (decodeLedgerKey xdr) with
  | error e => rfl
  | ok decoded =>
    have herase := List.eraseDups_map (encode_write_injective h) decoded
    have hnil : decoded.eraseDups = [] ↔ decoded = [] := by
      simp only [List.eq_nil_iff_forall_not_mem, List.mem_eraseDups]
    simp only [bind, Except.bind, Except.map, List.nil_append, herase, List.map_eq_nil_iff, hnil,
      mergedTexts]

/-- Merging fails for no keys and for a text that is no key. -/
theorem mergeFootprintKeys_eq_error_iff (h : xdr.Documented write arms) (keys : List String) :
    (∃ e, mergeFootprintKeys xdr keys = .error e) ↔
      keys = [] ∨ ∃ k ∈ keys, ∃ e, decodeLedgerKey xdr k = .error e := by
  rw [mergeFootprintKeys_eq h]
  cases hkeys : keys.mapM (decodeLedgerKey xdr) with
  | error e =>
    obtain ⟨k, hk, he⟩ := Except.exists_of_mapM_eq_error hkeys
    exact iff_of_true ⟨e, rfl⟩ (.inr ⟨k, hk, e, he⟩)
  | ok decoded =>
    have hlength := Except.length_of_mapM_eq_ok hkeys
    have hnil : decoded = [] ↔ keys = [] := by
      rw [← List.length_eq_zero_iff, hlength, List.length_eq_zero_iff]
    have hnone : ¬ ∃ k ∈ keys, ∃ e, decodeLedgerKey xdr k = .error e := by
      rintro ⟨k, hk, e, he⟩
      obtain ⟨key, -, hkey⟩ := Except.exists_mem_of_mapM_eq_ok hkeys k hk
      rw [he] at hkey
      cases hkey
    simp only [bind, Except.bind, mergedTexts, hnil, hnone, or_false]
    split
    · next hempty => exact iff_of_true ⟨_, rfl⟩ hempty
    · next hempty =>
      refine iff_of_false ?_ hempty
      rintro ⟨e, he⟩
      cases he

/-- **Merged keys are distinct and spelled in one way.** Merging fails for no keys and for a text
that is no key. What it returns are the keys of the input in the order of their first occurrence,
each of them once; it is the same for every spelling of the input, and merging it again leaves it as
it is. -/
theorem mergeFootprintKeys_canonical (h : xdr.Documented write arms) (harms : arms ≤ 2 ^ 24)
    (keys : List String) :
    ((∃ e, mergeFootprintKeys xdr keys = .error e) ↔
      keys = [] ∨ ∃ k ∈ keys, ∃ e, decodeLedgerKey xdr k = .error e) ∧
    ∀ out, mergeFootprintKeys xdr keys = .ok out → ∃ decoded merged,
      keys.mapM (decodeLedgerKey xdr) = .ok decoded ∧
      out.mapM (decodeLedgerKey xdr) = .ok merged ∧
      merged.Nodup ∧ (∀ k, k ∈ merged ↔ k ∈ decoded) ∧ merged = decoded.eraseDups ∧
      (∀ keys', keys'.mapM (decodeLedgerKey xdr) = .ok decoded →
        mergeFootprintKeys xdr keys' = .ok out) ∧
      mergeFootprintKeys xdr out = .ok out := by
  refine ⟨mergeFootprintKeys_eq_error_iff h keys, fun out hout => ?_⟩
  have heq := mergeFootprintKeys_eq h keys
  rw [hout] at heq
  cases hkeys : keys.mapM (decodeLedgerKey xdr) with
  | error e => rw [hkeys] at heq; cases heq
  | ok decoded =>
    have hmerge : ∀ keys', keys'.mapM (decodeLedgerKey xdr) = .ok decoded →
        mergeFootprintKeys xdr keys' = .ok out := by
      intro keys' hkeys'
      rw [mergeFootprintKeys_eq h, hkeys', heq, hkeys]
    rw [hkeys] at heq
    simp only [bind, Except.bind, mergedTexts] at heq
    split at heq
    · cases heq
    · next hne =>
      obtain rfl := Except.ok.inj heq
      have hout' := mapM_decodeLedgerKey_encode h harms decoded.eraseDups
      have hnodup := List.nodup_eraseDups decoded
      have hne' : decoded.eraseDups ≠ [] := by
        simpa only [ne_eq, List.eq_nil_iff_forall_not_mem, List.mem_eraseDups] using hne
      refine ⟨decoded, decoded.eraseDups, rfl, hout', hnodup, fun k => List.mem_eraseDups, rfl,
        hmerge, ?_⟩
      rw [mergeFootprintKeys_eq h, hout']
      simp only [bind, Except.bind, mergedTexts, if_neg hne', List.eraseDups_eq_self hnodup]

end Merged

/-- Two keys in three spellings: with white space around it, plain, and with four more bytes. -/
def spelledKeys : List String :=
  [" " ++ Base64.encode (codeKeyCodec.write (.replicate 32 0x2a)) ++ "\n",
    Base64.encode (codeKeyCodec.write (.replicate 32 1)),
    Base64.encode (codeKeyCodec.write (.replicate 32 0x2a) ++ [0, 0, 0, 0])]

/-- The two keys in one spelling. -/
def mergedSpelledKeys : List String :=
  [Base64.encode (codeKeyCodec.write (.replicate 32 0x2a)),
    Base64.encode (codeKeyCodec.write (.replicate 32 1))]

theorem mergeFootprintKeys_canonical_code :
    mergeFootprintKeys codeKeys spelledKeys = .ok mergedSpelledKeys ∧
      mergeFootprintKeys codeKeys mergedSpelledKeys = .ok mergedSpelledKeys := by
  have hmerge : mergeFootprintKeys codeKeys spelledKeys = .ok mergedSpelledKeys := by
    decide +kernel
  obtain ⟨-, -, -, -, -, -, -, -, hagain⟩ :=
    (mergeFootprintKeys_canonical codeKeys_documented (by decide) spelledKeys).2 _ hmerge
  exact ⟨hmerge, hagain⟩

end SorobanDevkit.Xdr
