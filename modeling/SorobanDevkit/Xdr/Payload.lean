import SorobanDevkit.Library.Fallible
import SorobanDevkit.Library.Utf8Lossy
import SorobanDevkit.Library.WireUnion
import SorobanDevkit.Xdr.Transaction

/-!
# Payloads in base64 and in hex

`decode_with_config` of `sdkt-xdr/src/lib.rs` prints an XDR value that is given as a text. The text
is read as base64 first and as hex if that fails. Nearly every hex text is also a base64 text, so
where the bytes of the base64 reading are no value, the hex reading is tried after all.

The types of the `stellar-xdr` crate, with their readers, and JSON documents are parameters.
-/

namespace SorobanDevkit.Xdr

/-! ### What the crates offer -/

/-- `stellar_xdr::Limits`. -/
structure Limits where
  depth : ℕ
  len : ℕ
  deriving DecidableEq

/-- `Limits::none`. -/
def Limits.none : Limits := ⟨u32Max, 2 ^ 64 - 1⟩

/-- A type of the `stellar-xdr` crate: its values, their reader, and the documents that
`serde_json::to_value` makes of them. -/
structure XdrType (Value : Type) where
  Carrier : Type
  readXdr : Limits → List UInt8 → Except String (Carrier × List UInt8)
  toValue : Carrier → Except String Value

/-- `read_xdr_to_end`. -/
def XdrType.readXdrToEnd {Value : Type} (type : XdrType Value) (limits : Limits)
    (raw : List UInt8) :
    Except String (type.Carrier × List UInt8) := do
  let (value, rest) ← type.readXdr limits raw
  if rest = [] then .ok (value, rest) else .error "xdr value invalid"

/-- The types that are decoded, and the two ways to print a document. -/
structure XdrTypes (Value : Type) where
  scVal : XdrType Value
  transactionEnvelope : XdrType Value
  transactionResult : XdrType Value
  transactionMeta : XdrType Value
  ledgerKey : XdrType Value
  ledgerEntry : XdrType Value
  contractEvent : XdrType Value
  toString : Value → Except String String
  toStringPretty : Value → Except String String

/-- What is documented of a union of the crate: `write` is its writer, `depth` the depth of its
values and `arms` the number of its arms. -/
structure XdrType.Documented {Value : Type} (type : XdrType Value)
    (write : type.Carrier → List UInt8) (depth : type.Carrier → ℕ) (arms : ℕ) : Prop where
  union : ∀ limits, IsUnion arms write (type.readXdr limits)
  read_within : ∀ v limits rest, depth v ≤ limits.depth → (write v).length ≤ limits.len →
    type.readXdr limits (write v ++ rest) = .ok (v, rest)
  read_none : ∀ v rest, type.readXdr Limits.none (write v ++ rest) = .ok (v, rest)
  four_dvd_length : ∀ v, 4 ∣ (write v).length

namespace Payload

/-- `hex::FromHexError`, as far as it is raised here. -/
inductive FromHexError
  | oddLength
  | invalidHexCharacter (c : Char) (index : ℕ)
  deriving DecidableEq, Repr

/-- `DecodeError`. What the `base64` crate says of a text is left out: the variant is made with one
constant there. -/
inductive DecodeError
  | base64
  | hex (e : FromHexError)
  | xdrParse (type error : String)
  | xdrWrite (error : String)
  | typeUnknown (type : String)
  | emptyPayload
  | json (error : String)
  | extraction (message : String)
  deriving DecidableEq, Repr

/-- `OutputFormat`. -/
inductive OutputFormat
  | json
  | pretty

/-! ### From texts to bytes -/

/-- `hex::decode`. -/
def hexDecode (text : String) : Except FromHexError (List UInt8) :=
  match Hex.decode text with
  | some bytes => .ok bytes
  | none =>
    let data := (Utf8Lossy.encode text).map fun b => Char.ofNat b.toNat
    if 2 ∣ data.length then
      let index := data.findIdx fun c => !Hex.isDigit c
      .error (.invalidHexCharacter (data.getD index '?') index)
    else .error .oddLength

/-- The characters that let a text pass for base64. -/
def isBase64Char (c : Char) : Bool := c.isAlphanum || c == '+' || c == '/' || c == '='

/-- The text is of hex digits, an even number of them. -/
def isEvenHex (trimmed : String) : Bool :=
  decide (2 ∣ (Utf8Lossy.encode trimmed).length) && trimmed.toList.all Hex.isDigit

/-- `base64_likely`. -/
def base64Likely (trimmed : String) : Bool :=
  trimmed ≠ "" && decide (4 ∣ (Utf8Lossy.encode trimmed).length) && trimmed.toList.all isBase64Char

/-- `detect_and_decode`. -/
def detectAndDecode (payload : String) (allowFallbackHex : Bool) :
    Except DecodeError (List UInt8) :=
  if payload = "" then .error .emptyPayload
  else
    let trimmed := Strings.trim payload
    match if base64Likely trimmed then Base64.decode trimmed else none with
    | some bytes => .ok bytes
    | none =>
      match if allowFallbackHex && isEvenHex trimmed then (hexDecode trimmed).toOption
        else none with
      | some bytes => .ok bytes
      | none =>
        if base64Likely trimmed then .error .base64
        else
          .error (.hex (.invalidHexCharacter
            ((trimmed.toList.find? fun c => !Hex.isDigit c).getD '?') 0))

/-- `hex_bytes_if_valid`. -/
def hexBytesIfValid (payload : String) : Option (List UInt8) :=
  let trimmed := Strings.trim payload
  if trimmed ≠ "" && isEvenHex trimmed then (hexDecode trimmed).toOption else none

/-! ### From bytes to documents -/

section Decode

variable {Value : Type}

/-- The limits of `decode_single`. -/
def limitsFor (maxDepth : UInt32) (raw : List UInt8) : Limits :=
  if maxDepth = 0 then Limits.none else ⟨maxDepth.toNat, raw.length⟩

/-- What is made of the outcome of a reader. -/
def document (type : XdrType Value) (name : String)
    (outcome : Except String (type.Carrier × List UInt8)) : Except DecodeError Value := do
  let (value, _) ← outcome.mapError (.xdrParse name)
  (type.toValue value).mapError .json

/-- `decode_single`. -/
def decodeSingle (type : XdrType Value) (raw : List UInt8) (name : String) (maxDepth : UInt32) :
    Except DecodeError Value :=
  document type name (type.readXdr (limitsFor maxDepth raw) raw)

/-- `decode_single_strict`. -/
def decodeSingleStrict (type : XdrType Value) (raw : List UInt8) (name : String)
    (maxDepth : UInt32) : Except DecodeError Value :=
  document type name (type.readXdrToEnd (limitsFor maxDepth raw) raw)

variable (types : XdrTypes Value)

/-- `auto_detect`. -/
def autoDetect (raw : List UInt8) (maxDepth : UInt32) : Except DecodeError Value :=
  match decodeSingleStrict types.scVal raw "ScVal" maxDepth with
  | .ok v => .ok v
  | .error _ =>
    match decodeSingleStrict types.transactionEnvelope raw "TransactionEnvelope" maxDepth with
    | .ok v => .ok v
    | .error _ =>
      match decodeSingleStrict types.contractEvent raw "ContractEvent" maxDepth with
      | .ok v => .ok v
      | .error _ =>
        match decodeSingleStrict types.transactionResult raw "TransactionResult" maxDepth with
        | .ok v => .ok v
        | .error _ => .error (.typeUnknown "auto-detection failed for all known types")

/-- `decode_bytes_with_config`. -/
def decodeBytesWithConfig (raw : List UInt8) (typeHint : Option String) (maxDepth : UInt32) :
    Except DecodeError Value :=
  if raw = [] then .error .emptyPayload
  else
    match Strings.toLowercase (typeHint.getD "auto") with
    | "scval" => decodeSingle types.scVal raw "ScVal" maxDepth
    | "transactionenvelope" =>
      decodeSingle types.transactionEnvelope raw "TransactionEnvelope" maxDepth
    | "transactionresult" => decodeSingle types.transactionResult raw "TransactionResult" maxDepth
    | "transactionmeta" => decodeSingle types.transactionMeta raw "TransactionMeta" maxDepth
    | "ledgerkey" => decodeSingle types.ledgerKey raw "LedgerKey" maxDepth
    | "ledgerentry" => decodeSingle types.ledgerEntry raw "LedgerEntry" maxDepth
    | "contractevent" => decodeSingle types.contractEvent raw "ContractEvent" maxDepth
    | "auto" => autoDetect types raw maxDepth
    | other => .error (.typeUnknown other)

/-- `format_json`. -/
def formatJson (value : Value) : OutputFormat → Except DecodeError String
  | .json => (types.toString value).mapError .json
  | .pretty => (types.toStringPretty value).mapError .json

/-- The second attempt of `decode_with_config`, with the hex reading of the text. -/
def retryHex (payload : String) (raw : List UInt8) (typeHint : Option String) (maxDepth : UInt32) :
    Option Value :=
  match hexBytesIfValid payload with
  | some hexBytes =>
    if hexBytes ≠ raw then (decodeBytesWithConfig types hexBytes typeHint maxDepth).toOption
    else none
  | none => none

/-- `decode_with_config`. -/
def decodeWithConfig (payload : String) (typeHint : Option String) (format : OutputFormat)
    (maxDepth : UInt32) (allowFallbackHex : Bool) : Except DecodeError String := do
  let raw ← detectAndDecode payload allowFallbackHex
  match decodeBytesWithConfig types raw typeHint maxDepth with
  | .ok v => formatJson types v format
  | .error primary =>
    match if allowFallbackHex then retryHex types payload raw typeHint maxDepth else none with
    | some v => formatJson types v format
    | none => .error primary

end Decode

/-! ### The two spellings -/

theorem length_utf8_of_ascii {text : String} (h : ∀ c ∈ text.toList, c.val.toNat ≤ 0x7f) :
    (Utf8Lossy.encode text).length = text.toList.length := by
  rw [Utf8Lossy.encode, List.length_flatMap]
  have hone : ∀ c ∈ text.toList, (String.utf8EncodeChar c).length = 1 := by
    intro c hc
    rw [String.length_utf8EncodeChar, Char.utf8Size_eq_one_iff, UInt32.le_iff_toNat_le]
    exact h c hc
  rw [List.map_congr_left hone]
  simp

theorem ascii_of_mem_alphabet {c : Char} (h : c ∈ Base64.alphabet ∨ c = '=') :
    c.val.toNat ≤ 0x7f ∧ isBase64Char c ∧ Strings.isWhitespace c = false := by
  have hall : (('=' :: Base64.alphabet).all fun d =>
      decide (d.val.toNat ≤ 0x7f) && isBase64Char d && !Strings.isWhitespace d) = true := by
    decide +kernel
  have hmem : c ∈ '=' :: Base64.alphabet := List.mem_cons.mpr (or_comm.mp h)
  simpa only [Bool.and_eq_true, decide_eq_true_eq, Bool.not_eq_true', and_assoc] using
    List.all_eq_true.mp hall c hmem

/-- What is common to the spellings: no white space, and a length that is a multiple of four. -/
theorem base64Likely_of_mem {text : String} (hne : text.toList ≠ [])
    (hchars : ∀ c ∈ text.toList, c ∈ Base64.alphabet ∨ c = '=') (hlength : 4 ∣ text.toList.length) :
    Strings.trim text = text ∧ text ≠ "" ∧ base64Likely text := by
  have hnonempty : text ≠ "" := by
    rintro rfl
    exact hne rfl
  refine ⟨Strings.trim_eq_self fun c hc => (ascii_of_mem_alphabet (hchars c hc)).2.2, hnonempty, ?_⟩
  have hbytes := length_utf8_of_ascii fun c hc => (ascii_of_mem_alphabet (hchars c hc)).1
  simp only [base64Likely, Bool.and_eq_true, decide_eq_true_eq, List.all_eq_true, hbytes]
  exact ⟨⟨hnonempty, hlength⟩, fun c hc => (ascii_of_mem_alphabet (hchars c hc)).2.1⟩

theorem detectAndDecode_of_base64 {text : String} {bytes : List UInt8} (hne : text.toList ≠ [])
    (hchars : ∀ c ∈ text.toList, c ∈ Base64.alphabet ∨ c = '=') (hlength : 4 ∣ text.toList.length)
    (h : Base64.decode text = some bytes) (allowFallbackHex : Bool) :
    detectAndDecode text allowFallbackHex = .ok bytes := by
  obtain ⟨htrim, hnonempty, hlikely⟩ := base64Likely_of_mem hne hchars hlength
  simp only [detectAndDecode, if_neg hnonempty, htrim, hlikely, if_true, h]

/-- The base64 spelling of bytes is read as such. -/
theorem detectAndDecode_encode {bytes : List UInt8} (hne : bytes ≠ []) (allowFallbackHex : Bool) :
    detectAndDecode (Base64.encode bytes) allowFallbackHex = .ok bytes :=
  detectAndDecode_of_base64 (Base64.toList_encode_ne_nil hne) (fun _ hc => Base64.mem_encode hc)
    (Base64.four_dvd_length_encode bytes) (Base64.decode_encode bytes) allowFallbackHex

section Hex

variable {text : String} {bytes : List UInt8}

theorem mem_alphabet_of_hex (h : Hex.decode text = some bytes) :
    ∀ c ∈ text.toList, c ∈ Base64.alphabet ∨ c = '=' :=
  fun c hc => .inl (Base64.mem_alphabet_of_isDigit (Hex.isDigit_of_decodeChars h c hc))

/-- A hex text of an even number of bytes is read as base64. -/
theorem detectAndDecode_hex (h : Hex.decode text = some bytes) (hne : bytes ≠ [])
    (heven : 2 ∣ bytes.length) (allowFallbackHex : Bool) : ∃ garbage,
      Base64.decode text = some garbage ∧ detectAndDecode text allowFallbackHex = .ok garbage := by
  have hlength := Hex.length_of_decodeChars h
  have hpos := List.length_pos_iff.mpr hne
  obtain ⟨garbage, hgarbage⟩ := Base64.exists_decode_of_hex h heven
  have hnil : text.toList ≠ [] := List.length_pos_iff.mp (by omega)
  exact ⟨garbage, hgarbage, detectAndDecode_of_base64 hnil (mem_alphabet_of_hex h) (by omega)
    hgarbage allowFallbackHex⟩

theorem isEvenHex_of_hex (h : Hex.decode text = some bytes) : isEvenHex text := by
  have hbytes := length_utf8_of_ascii fun c hc =>
    (ascii_of_mem_alphabet (mem_alphabet_of_hex h c hc)).1
  have hlength := Hex.length_of_decodeChars h
  simp only [isEvenHex, hbytes, Bool.and_eq_true, decide_eq_true_eq, List.all_eq_true]
  exact ⟨by omega, Hex.isDigit_of_decodeChars h⟩

/-- The hex reading of a hex text. -/
theorem hexBytesIfValid_eq (h : Hex.decode text = some bytes) (hne : bytes ≠ []) :
    hexBytesIfValid text = some bytes := by
  have hlength := Hex.length_of_decodeChars h
  have hpos := List.length_pos_iff.mpr hne
  have hnonempty : text ≠ "" := by
    rintro rfl
    have hzero : "".toList.length = 0 := rfl
    omega
  have htrim : Strings.trim text = text :=
    Strings.trim_eq_self fun c hc => (ascii_of_mem_alphabet (mem_alphabet_of_hex h c hc)).2.2
  simp only [hexBytesIfValid, htrim, isEvenHex_of_hex h, ne_eq, hnonempty, not_false_eq_true,
    decide_true, Bool.and_self, if_true, hexDecode, h]
  rfl

/-- The hex reading of a text that has nothing to trim. -/
theorem decode_of_hexBytesIfValid (htrim : Strings.trim text = text)
    (h : hexBytesIfValid text = some bytes) : Hex.decode text = some bytes := by
  simp only [hexBytesIfValid, htrim] at h
  split at h
  · rw [hexDecode] at h
    split at h
    · next bytes' hdecode =>
      obtain rfl : bytes' = bytes := Option.some.inj h
      exact hdecode
    · next hnone =>
      simp only at h
      split at h <;> cases h
  · cases h

end Hex

/-! ### The documents of the two spellings -/

section Spellings

variable {Value : Type} {types : XdrTypes Value} {type : XdrType Value}
  {write : type.Carrier → List UInt8} {depth : type.Carrier → ℕ} {arms : ℕ}

theorem document_ok (type : XdrType Value) (name : String) (v : type.Carrier) (rest : List UInt8) :
    document type name (.ok (v, rest)) = (type.toValue v).mapError .json := rfl

theorem document_error (type : XdrType Value) (name e : String) :
    document type name (.error e) = .error (.xdrParse name e) := rfl

/-- A value within the depth is read from its encoding. -/
theorem decodeSingle_write (h : type.Documented write depth arms) {v : type.Carrier}
    {maxDepth : UInt32} (hdepth : maxDepth = 0 ∨ depth v ≤ maxDepth.toNat) (name : String) :
    decodeSingle type (write v) name maxDepth = (type.toValue v).mapError .json := by
  have hread : type.readXdr (limitsFor maxDepth (write v)) (write v) = .ok (v, []) := by
    rw [limitsFor]
    split
    · next hzero => simpa using h.read_none v []
    · next hzero =>
      simpa using h.read_within v ⟨maxDepth.toNat, (write v).length⟩ []
        (hdepth.resolve_left hzero) le_rfl
  rw [decodeSingle, hread, document_ok]

theorem decodeBytesWithConfig_scval (types : XdrTypes Value) {raw : List UInt8} (hraw : raw ≠ [])
    (maxDepth : UInt32) :
    decodeBytesWithConfig types raw (some "scval") maxDepth =
      decodeSingle types.scVal raw "ScVal" maxDepth := by
  have hhint : Strings.toLowercase ((some "scval").getD "auto") = "scval" := by decide
  simp only [decodeBytesWithConfig, if_neg hraw, hhint]

/-- What is printed for a contract value. -/
def printScVal (types : XdrTypes Value) (v : types.scVal.Carrier) (format : OutputFormat) :
    Except DecodeError String := do
  let value ← (types.scVal.toValue v).mapError .json
  formatJson types value format

section Printed

variable {write : types.scVal.Carrier → List UInt8} {depth : types.scVal.Carrier → ℕ}
  {v : types.scVal.Carrier} {maxDepth : UInt32}

theorem write_ne_nil (h : types.scVal.Documented write depth arms) (harms : arms ≤ 2 ^ 24)
    (v : types.scVal.Carrier) : write v ≠ [] := by
  obtain ⟨rest, hwrite⟩ := (h.union Limits.none).exists_write_eq harms v
  simp [hwrite]

/-- Bytes that the reader rejects have no document. -/
theorem decodeBytesWithConfig_eq_error (types : XdrTypes Value) {raw : List UInt8}
    {maxDepth : UInt32}
    (h : ∃ e, types.scVal.readXdr (limitsFor maxDepth raw) raw = .error e) :
    ∃ e, decodeBytesWithConfig types raw (some "scval") maxDepth = .error e := by
  by_cases hraw : raw = []
  · exact ⟨.emptyPayload, by rw [decodeBytesWithConfig, if_pos hraw]⟩
  · obtain ⟨e, he⟩ := h
    exact ⟨.xdrParse "ScVal" e, by
      rw [decodeBytesWithConfig_scval types hraw, decodeSingle, he, document_error]⟩

/-- There is no second attempt at the base64 spelling. -/
theorem retryHex_base64 (h : types.scVal.Documented write depth arms) (harms : arms ≤ 2 ^ 24)
    (v : types.scVal.Carrier) (maxDepth : UInt32) :
    retryHex types (Base64.encode (write v)) (write v) (some "scval") maxDepth = none := by
  have htrim := (base64Likely_of_mem (Base64.toList_encode_ne_nil (write_ne_nil h harms v))
    (fun _ hc => Base64.mem_encode hc) (Base64.four_dvd_length_encode _)).1
  rw [retryHex]
  cases hhex : hexBytesIfValid (Base64.encode (write v)) with
  | none => rfl
  | some hexBytes =>
    obtain ⟨e, he⟩ := decodeBytesWithConfig_eq_error types
      ((h.union (limitsFor maxDepth hexBytes)).read_error_of_base64 harms
        (decode_of_hexBytesIfValid htrim hhex))
    simp only [he, Except.toOption, ite_self]

/-- The base64 spelling prints the value. -/
theorem decodeWithConfig_base64 (h : types.scVal.Documented write depth arms)
    (harms : arms ≤ 2 ^ 24)
    (hdepth : maxDepth = 0 ∨ depth v ≤ maxDepth.toNat) (format : OutputFormat) :
    decodeWithConfig types (Base64.encode (write v)) (some "scval") format maxDepth true =
      printScVal types v format := by
  have hne := write_ne_nil h harms v
  have hbytes := decodeBytesWithConfig_scval types hne maxDepth
  rw [decodeSingle_write h hdepth] at hbytes
  rw [decodeWithConfig, detectAndDecode_encode hne]
  simp only [bind, Except.bind, hbytes, retryHex_base64 h harms, if_true, printScVal]
  cases (types.scVal.toValue v).mapError DecodeError.json with
  | error e => rfl
  | ok value => rfl

/-- The hex spelling prints the value where it has a document. -/
theorem decodeWithConfig_hex (h : types.scVal.Documented write depth arms) (harms : arms ≤ 2 ^ 24)
    (hdepth : maxDepth = 0 ∨ depth v ≤ maxDepth.toNat) {text : String}
    (hhex : Hex.decode text = some (write v)) (format : OutputFormat) :
    (decodeWithConfig types text (some "scval") format maxDepth true).toOption =
      (printScVal types v format).toOption := by
  have hne := write_ne_nil h harms v
  have hdvd := h.four_dvd_length v
  have hbytes := decodeBytesWithConfig_scval types hne maxDepth
  rw [decodeSingle_write h hdepth] at hbytes
  obtain ⟨garbage, hgarbage, hdetect⟩ := detectAndDecode_hex hhex hne (by omega) true
  obtain ⟨e, he⟩ := decodeBytesWithConfig_eq_error types
    ((h.union (limitsFor maxDepth garbage)).read_error_of_hex harms hhex hgarbage)
  have hother : write v ≠ garbage := by
    rintro rfl
    obtain ⟨rest, hwrite⟩ := (h.union Limits.none).exists_write_eq harms v
    rw [hwrite] at hhex hgarbage
    obtain ⟨rest', hrest'⟩ := Base64.decode_of_hex_zero hhex hgarbage
    exact absurd (List.cons.inj hrest').1 (by decide)
  rw [decodeWithConfig, hdetect]
  simp only [bind, Except.bind, he, retryHex, hexBytesIfValid_eq hhex hne, if_true, if_pos hother,
    hbytes, printScVal]
  cases (types.scVal.toValue v).mapError DecodeError.json with
  | error e => rfl
  | ok value => rfl

/-- **Both spellings print alike.** A contract value that is not nested too deeply is printed from
the hex digits of its encoding, of either case, as from the base64 text of it. -/
theorem decode_hex_eq_decode_base64 (h : types.scVal.Documented write depth arms)
    (harms : arms ≤ 2 ^ 24) (v : types.scVal.Carrier) (maxDepth : UInt32)
    (hdepth : maxDepth = 0 ∨ depth v ≤ maxDepth.toNat) (text : String)
    (hhex : Hex.decode text = some (write v)) (format : OutputFormat) :
    (decodeWithConfig types text (some "scval") format maxDepth true).toOption =
        (decodeWithConfig types (Base64.encode (write v)) (some "scval") format maxDepth
          true).toOption ∧
      decodeWithConfig types (Base64.encode (write v)) (some "scval") format maxDepth true =
        printScVal types v format := by
  have hbase64 := decodeWithConfig_base64 h harms hdepth format
  exact ⟨by rw [decodeWithConfig_hex h harms hdepth hhex, hbase64], hbase64⟩

end Printed

end Spellings

/-! ### The numbers among the contract values -/

/-- The encoding of `ScVal::U32`. -/
def u32Codec : Codec UInt32 := .discriminated 3 .u32

/-- `ScVal`, with the values `ScVal::U32` only. A value is on the second level: its discriminant is
an enumeration of its own. -/
def u32Type : XdrType UInt32 where
  Carrier := UInt32
  readXdr limits bytes :=
    if limits.depth < 2 then .error "depth limit exceeded"
    else if limits.len < 8 then .error "length limit exceeded"
    else u32Codec.readOr "xdr value invalid" bytes
  toValue n := .ok n

/-- The types, all of them with the same values, and how their documents are printed. -/
def u32Types : XdrTypes UInt32 where
  scVal := u32Type
  transactionEnvelope := u32Type
  transactionResult := u32Type
  transactionMeta := u32Type
  ledgerKey := u32Type
  ledgerEntry := u32Type
  contractEvent := u32Type
  toString n := .ok ("\x7b\"u32\":" ++ toString n.toNat ++ "\x7d")
  toStringPretty n := .ok ("\x7b\n  \"u32\": " ++ toString n.toNat ++ "\n\x7d")

theorem u32Type_documented : u32Type.Documented u32Codec.write (fun _ => 2) 23 where
  union limits := by
    have hunion := Codec.isUnion_discriminated (show 3 < 23 by decide) .u32 "xdr value invalid"
    refine ⟨hunion.discriminant, fun bytes hbytes => ?_⟩
    simp only [u32Type]
    split_ifs
    · exact ⟨_, rfl⟩
    · exact ⟨_, rfl⟩
    · exact hunion.unknown bytes hbytes
  read_within v limits rest hdepth hlen := by
    have hlength : (u32Codec.write v).length = 8 := rfl
    simp only [u32Type]
    rw [if_neg (by omega), if_neg (by omega)]
    exact u32Codec.readOr_write _ v rest
  read_none v rest := u32Codec.readOr_write "xdr value invalid" v rest
  four_dvd_length _ := ⟨2, rfl⟩

theorem decode_hex_eq_decode_base64_u32 :
    (decodeWithConfig u32Types "000000030000002A" (some "scval") .json 500 true).toOption =
        (decodeWithConfig u32Types (Base64.encode (u32Codec.write 42)) (some "scval") .json 500
          true).toOption ∧
      decodeWithConfig u32Types (Base64.encode (u32Codec.write 42)) (some "scval") .json 500 true =
        .ok "\x7b\"u32\":42\x7d" :=
  @decode_hex_eq_decode_base64 UInt32 u32Types 23 u32Codec.write (fun _ => 2) u32Type_documented
    (by decide) (42 : UInt32) 500 (.inr (by decide)) "000000030000002A" (by decide +kernel) .json

end Payload

end SorobanDevkit.Xdr
