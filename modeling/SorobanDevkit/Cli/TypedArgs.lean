import SorobanDevkit.Library.Base64
import SorobanDevkit.Library.Codec
import SorobanDevkit.Library.IntegerText
import SorobanDevkit.Library.Strings
import SorobanDevkit.Xdr.Encoding
import SorobanDevkit.Xdr.TypedJson

/-!
# Typed arguments

`sdkt-cli/src/main.rs` encodes an argument `TYPE:VALUE` twice: `parse_typed_args` for the commands
that invoke contracts, and `run_encode` for `sdkt encode`. Both read the hexadecimal digits of
`bytes:` with `parse_hex_bytes`, which slices pairs out of a text, and a slice that ends inside a
character is a panic. The crates for addresses, contract values and JSON are parameters.

## Main results

* `parseTypedArg_eq_runEncode` — an argument of a type that both know has the same result in both.
* `parseHexBytes_eq_ok_iff` — which values of `bytes:` are read, and as which bytes.
* `encoders_agree` — the two encoders agree.
-/

namespace SorobanDevkit.Cli

open Strings Xdr
open TypedJson (Json ScValError intoScval jsonToScval)

/-- How a command fails. -/
inductive Failure
  | message (text : String)
  | panic
  deriving DecidableEq, Repr

/-- What is used of `stellar-strkey`, `stellar-xdr` and `serde_json`. -/
structure ArgCrates where
  strkey : String → Except String Strkey
  scVal : Codec ScVal
  Float : Type
  parseJson : String → Except String (Json Float)
  displayFloat : Float → String

/-! ### Values -/

/-- A failure with the message, where there is no value. -/
def orMessage {α : Type} (text : String) (value : Option α) : Except Failure α :=
  match value with
  | some a => .ok a
  | none => .error (.message text)

/-- `len`, in bytes. -/
def len (s : String) : ℕ := (Utf8Lossy.encode s).length

/-- The byte of the pair at a position, in `parse_hex_bytes`. -/
def hexByte (raw hex : String) (i : ℕ) : Except Failure UInt8 :=
  match slice hex i (i + 2) with
  | none => .error .panic
  | some pair =>
    orMessage s!"invalid bytes value: {raw} (invalid hex byte)"
      ((IntegerText.readUnsigned 16 255 pair.toList).map UInt8.ofNat)

/-- `parse_hex_bytes`. -/
def parseHexBytes (raw : String) : Except Failure (List UInt8) :=
  let hex := trim raw
  if ¬ isAscii hex then .error (.message s!"invalid bytes value: {raw} (expected ASCII hex)")
  else if ¬ len hex % 2 = 0 then
    .error (.message s!"invalid bytes value: {raw} (hex must have an even number of digits)")
  else (List.range' 0 (len hex / 2) 2).mapM (hexByte raw hex)

/-- `str::parse::<u32>`. -/
def parseU32 (s : String) : Option UInt32 :=
  (IntegerText.readUnsigned 10 4294967295 s.toList).map UInt32.ofNat

/-- `str::parse::<i32>`. -/
def parseI32 (s : String) : Option Int32 :=
  (IntegerText.readSigned 10 (-2147483648) 2147483647 s.toList).map Int32.ofInt

/-- `str::parse::<u64>`. -/
def parseU64 (s : String) : Option UInt64 :=
  (IntegerText.readUnsigned 10 18446744073709551615 s.toList).map UInt64.ofNat

/-- `str::parse::<i64>`. -/
def parseI64 (s : String) : Option Int64 :=
  (IntegerText.readSigned 10 (-9223372036854775808) 9223372036854775807 s.toList).map Int64.ofInt

/-- `str::parse::<u128>`. -/
def parseU128 (s : String) : Option ℕ :=
  IntegerText.readUnsigned 10 340282366920938463463374607431768211455 s.toList

/-- `str::parse::<i128>`. -/
def parseI128 (s : String) : Option ℤ :=
  IntegerText.readSigned 10 (-170141183460469231731687303715884105728)
    170141183460469231731687303715884105727 s.toList

/-- `str::parse::<bool>`. -/
def parseBool (s : String) : Option Bool :=
  if s = "true" then some true else if s = "false" then some false else none

/-- `into_scval` of a `u128`. -/
def u128IntoScval (n : ℕ) : ScVal :=
  .u128 (UInt64.ofNat (n / 18446744073709551616)) (UInt64.ofNat n)

/-- `into_scval` of an `i128`. -/
def i128IntoScval (n : ℤ) : ScVal :=
  .i128 (Int64.ofInt (n / 18446744073709551616)) (UInt64.ofNat (n % 18446744073709551616).toNat)

/-- `into_scval` of bytes. -/
def bytesIntoScval (bytes : List UInt8) : Except ScValError ScVal :=
  if bytes.length ≤ u32Max then .ok (.bytes bytes) else .error .tooLong

/-- The text of an error. -/
def errorText : ScValError → String
  | .tooLong => "value exceeds Soroban length limit"
  | .json message => "invalid JSON argument: " ++ message

/-- The failure of a conversion. -/
def orErrorText {α : Type} (result : Except ScValError α) : Except Failure α :=
  result.mapError fun e => .message (errorText e)

/-- A character of a symbol. -/
def isSymbolByte (b : UInt8) : Bool :=
  (48 ≤ b && b ≤ 57) || (65 ≤ b && b ≤ 90) || (97 ≤ b && b ≤ 122) || b == 95

/-- `ScSymbol::try_from`. -/
def symbolTryFrom (v : String) : Option ScVal :=
  if len v ≤ 32 then some (.scalar (.symbol (Utf8Lossy.encode v))) else none

section Encoders

variable (crates : ArgCrates)

/-- `Address::from_strkey`. What is wrong with a text is not reported. -/
def fromStrkey (key : String) : Option ScAddress :=
  match crates.strkey key with
  | .ok (.publicKeyEd25519 pk) => some (.account ⟨.ed25519 pk⟩)
  | .ok (.contract c) => some (.contract c)
  | _ => none

/-- `scval_to_base64`. Writing to memory without limits does not fail. -/
def scvalToBase64 (v : ScVal) : Except ScValError String :=
  .ok (Base64.encode (crates.scVal.write v))

/-- `parse_typed_args` on one argument. -/
def parseTypedArg (strict : Bool) (a : String) : Except Failure String :=
  match splitOnce a ":" with
  | some (t, v) =>
    match toLowercase t with
    | "u32" => do
      let n ← orMessage s!"invalid u32 value: {v}" (parseU32 v)
      orErrorText (scvalToBase64 crates (.u32 n))
    | "i32" => do
      let n ← orMessage s!"invalid i32 value: {v}" (parseI32 v)
      orErrorText (scvalToBase64 crates (.i32 n))
    | "u64" => do
      let n ← orMessage s!"invalid u64 value: {v}" (parseU64 v)
      orErrorText (scvalToBase64 crates (.u64 n))
    | "timepoint" => do
      let n ← orMessage s!"invalid timepoint value: {v}" (parseU64 v)
      orErrorText (scvalToBase64 crates (.scalar (.timepoint n)))
    | "duration" => do
      let n ← orMessage s!"invalid duration value: {v}" (parseU64 v)
      orErrorText (scvalToBase64 crates (.scalar (.duration n)))
    | "i64" => do
      let n ← orMessage s!"invalid i64 value: {v}" (parseI64 v)
      orErrorText (scvalToBase64 crates (.i64 n))
    | "u128" => do
      let n ← orMessage s!"invalid u128 value: {v}" (parseU128 v)
      orErrorText (scvalToBase64 crates (u128IntoScval n))
    | "i128" => do
      let n ← orMessage s!"invalid i128 value: {v}" (parseI128 v)
      orErrorText (scvalToBase64 crates (i128IntoScval n))
    | "bool" => do
      let b ← orMessage s!"invalid bool value: {v}" (parseBool v)
      orErrorText (scvalToBase64 crates (.bool b))
    | "string" => do
      let scval ← orErrorText (intoScval v)
      orErrorText (scvalToBase64 crates scval)
    | "bytes" => do
      let b ← parseHexBytes v
      let scval ← orErrorText (bytesIntoScval b)
      orErrorText (scvalToBase64 crates scval)
    | "address" => do
      let addr ← orMessage s!"invalid Stellar address: {v}" (fromStrkey crates v)
      orErrorText (scvalToBase64 crates (.address addr))
    | "symbol" =>
      if len v > 32 then
        .error (.message s!"symbol exceeds 32 bytes (got {len v} bytes)")
      else if ¬ (Utf8Lossy.encode v).all isSymbolByte then
        .error (.message "invalid symbol value: use only ASCII letters, digits, and _")
      else do
        let scval ← orMessage "invalid symbol value" (symbolTryFrom v)
        orErrorText (scvalToBase64 crates scval)
    | _ =>
      if strict then
        .error (.message ("unknown arg type '" ++ t ++ "'. Use u32|i32|u64|i64|timepoint|" ++
          "duration|u128|i128|bool|string|symbol|bytes|address"))
      else .ok a
  | none =>
    if strict then
      .error (.message s!"invalid arg format '{a}'. Use TYPE:VALUE (e.g. u32:100, address:G...)")
    else .ok a

/-- `parse_typed_args`. -/
def parseTypedArgs (args : List String) (strict : Bool) : Except Failure (List String) :=
  args.mapM (parseTypedArg crates strict)

/-- The value that `run_encode` encodes. -/
def encodedScval (arg ty raw : String) : Except Failure ScVal :=
  match toLowercase ty with
  | "u32" => do
    let n ← orMessage s!"invalid u32 value: {raw}" (parseU32 raw)
    return .u32 n
  | "i32" => do
    let n ← orMessage s!"invalid i32 value: {raw}" (parseI32 raw)
    return .i32 n
  | "u64" => do
    let n ← orMessage s!"invalid u64 value: {raw}" (parseU64 raw)
    return .u64 n
  | "timepoint" => do
    let n ← orMessage s!"invalid timepoint value: {raw}" (parseU64 raw)
    return .scalar (.timepoint n)
  | "duration" => do
    let n ← orMessage s!"invalid duration value: {raw}" (parseU64 raw)
    return .scalar (.duration n)
  | "i64" => do
    let n ← orMessage s!"invalid i64 value: {raw}" (parseI64 raw)
    return .i64 n
  | "u128" => do
    let n ← orMessage s!"invalid u128 value: {raw}" (parseU128 raw)
    return u128IntoScval n
  | "i128" => do
    let n ← orMessage s!"invalid i128 value: {raw}" (parseI128 raw)
    return i128IntoScval n
  | "bool" => do
    let b ← orMessage s!"invalid bool value: {raw}" (parseBool raw)
    return .bool b
  | "string" => orErrorText (intoScval raw)
  | "bytes" => do
    let b ← parseHexBytes raw
    orErrorText (bytesIntoScval b)
  | "symbol" =>
    if len raw > 32 then
      .error (.message s!"symbol exceeds 32 bytes (got {len raw} bytes)")
    else if ¬ (Utf8Lossy.encode raw).all isSymbolByte then
      .error (.message "invalid symbol value: use only ASCII letters, digits, and _")
    else orMessage "invalid symbol value" (symbolTryFrom raw)
  | "address" => do
    let addr ← orMessage s!"invalid Stellar address: {raw}" (fromStrkey crates raw)
    return .address addr
  | "json" => do
    let value ← (crates.parseJson raw).mapError fun e =>
      .message s!"invalid JSON in '{arg}': {e}"
    (jsonToScval crates.displayFloat value).mapError fun e =>
      .message s!"cannot encode '{arg}': {errorText e}"
  | other =>
    .error (.message ("unknown type '" ++ other ++ "'. Use u32|i32|u64|i64|timepoint|duration|" ++
      "u128|i128|bool|string|symbol|bytes|address"))

/-- `run_encode`. -/
def runEncode (values : List String) : Except Failure String :=
  match values with
  | [] => .error (.message "no input provided: pass a value like u32:100")
  | _ :: _ :: _ => .error (.message (s!"expected exactly one value, got {values.length} — " ++
      "encode one value per invocation"))
  | [arg] => do
    let (ty, raw) ← orMessage
      s!"invalid arg format '{arg}'. Use TYPE:VALUE (e.g. u32:100, address:G...)"
      (splitOnce arg ":")
    let scval ← encodedScval crates arg ty raw
    orErrorText (scvalToBase64 crates scval)

end Encoders

/-! ### Hexadecimal digits -/

/-- The byte of a pair. -/
def readPair (x y : Char) : Option UInt8 :=
  (IntegerText.readUnsigned 16 255 [x, y]).map UInt8.ofNat

/-- The bytes of pairs. -/
def readPairs : List Char → Option (List UInt8)
  | [] => some []
  | x :: y :: chars => do
    let byte ← readPair x y
    let bytes ← readPairs chars
    some (byte :: bytes)
  | [_] => none

/-- Two digits, or a plus sign and a digit. -/
def HexPair (x y : Char) : Prop :=
  ((Hex.decodeDigit x).isSome ∨ x = '+') ∧ (Hex.decodeDigit y).isSome

/-- ASCII of even length, in which every pair has two digits, or a plus sign and a digit. -/
structure HexText (chars : List Char) : Prop where
  ascii : ∀ c ∈ chars, c.toNat < 128
  even : chars.length % 2 = 0
  pairs : ∀ i x y, chars[2 * i]? = some x → chars[2 * i + 1]? = some y → HexPair x y

theorem exists_readPair_iff {x y : Char} : (∃ byte, readPair x y = some byte) ↔ HexPair x y := by
  rw [readPair, IntegerText.readUnsigned_pair, HexPair]
  cases hlow : Hex.decodeDigit y with
  | none =>
    refine iff_of_false ?_ (by simp)
    rintro ⟨byte, h⟩
    split at h
    · cases h
    · cases hhigh : Hex.decodeDigit x <;> rw [hhigh] at h <;> cases h
  | some low =>
    by_cases hplus : x = '+'
    · exact iff_of_true ⟨_, by rw [if_pos hplus]; rfl⟩ ⟨.inr hplus, rfl⟩
    · rw [if_neg hplus]
      cases hhigh : Hex.decodeDigit x with
      | none => exact iff_of_false (by rintro ⟨byte, h⟩; cases h) (by simp [hplus])
      | some high => exact iff_of_true ⟨_, rfl⟩ ⟨.inl rfl, rfl⟩

theorem ascii_of_decodeDigit {c : Char} (h : (Hex.decodeDigit c).isSome) : c.toNat < 128 := by
  obtain ⟨n, hn⟩ := Option.isSome_iff_exists.mp h
  have hlast {d : Char} (hd : d.toNat < 128) (hle : c ≤ d) : c.toNat < 128 :=
    Nat.lt_of_le_of_lt (show c.toNat ≤ d.toNat from hle) hd
  unfold Hex.decodeDigit at hn
  split_ifs at hn with h0 ha hA
  · exact hlast (by decide) h0.2
  · exact hlast (by decide) ha.2
  · exact hlast (by decide) hA.2

theorem HexPair.ascii {x y : Char} (h : HexPair x y) : x.toNat < 128 ∧ y.toNat < 128 := by
  refine ⟨?_, ascii_of_decodeDigit h.2⟩
  obtain hx | rfl := h.1
  · exact ascii_of_decodeDigit hx
  · decide

theorem hexText_cons_iff {x y : Char} {chars : List Char} :
    HexText (x :: y :: chars) ↔ HexPair x y ∧ HexText chars := by
  constructor
  · rintro ⟨hascii, heven, hpairs⟩
    refine ⟨hpairs 0 x y rfl rfl, fun c hc => hascii c (by simp [hc]), ?_, fun i x' y' hx hy => ?_⟩
    · rw [List.length_cons, List.length_cons] at heven
      omega
    · exact hpairs (i + 1) x' y' hx hy
  · rintro ⟨hpair, hascii, heven, hpairs⟩
    refine ⟨fun c hc => ?_, ?_, fun i x' y' hx hy => ?_⟩
    · rcases List.mem_cons.mp hc with rfl | hc
      · exact hpair.ascii.1
      · rcases List.mem_cons.mp hc with rfl | hc
        · exact hpair.ascii.2
        · exact hascii c hc
    · rw [List.length_cons, List.length_cons]
      omega
    · cases i with
      | zero =>
        obtain rfl := Option.some.inj hx
        obtain rfl := Option.some.inj hy
        exact hpair
      | succ i => exact hpairs i x' y' hx hy

/-- **Which texts are pairs of digits.** -/
theorem exists_readPairs_iff (chars : List Char) :
    (∃ bytes, readPairs chars = some bytes) ↔ HexText chars := by
  induction chars using readPairs.induct with
  | case1 =>
    exact iff_of_true ⟨[], rfl⟩ ⟨by simp, rfl, by simp⟩
  | case2 x y chars ih =>
    rw [hexText_cons_iff, ← exists_readPair_iff, ← ih, readPairs]
    constructor
    · rintro ⟨bytes, h⟩
      obtain ⟨byte, hbyte, h⟩ := Option.bind_eq_some_iff.mp h
      obtain ⟨rest, hrest, -⟩ := Option.bind_eq_some_iff.mp h
      exact ⟨⟨byte, hbyte⟩, rest, hrest⟩
    · rintro ⟨⟨byte, hbyte⟩, rest, hrest⟩
      exact ⟨byte :: rest, by rw [hbyte, hrest]; rfl⟩
  | case3 x =>
    refine iff_of_false (by rintro ⟨bytes, h⟩; cases h) fun h => ?_
    exact Nat.one_ne_zero h.even

theorem length_of_readPairs {chars : List Char} {bytes : List UInt8}
    (h : readPairs chars = some bytes) : chars.length = 2 * bytes.length := by
  induction chars using readPairs.induct generalizing bytes with
  | case1 =>
    obtain rfl := Option.some.inj h
    rfl
  | case2 x y chars ih =>
    obtain ⟨byte, -, h⟩ := Option.bind_eq_some_iff.mp h
    obtain ⟨rest, hrest, h⟩ := Option.bind_eq_some_iff.mp h
    obtain rfl := Option.some.inj h
    rw [List.length_cons, List.length_cons, List.length_cons, ih hrest]
    omega
  | case3 x => cases h

/-- The loop over the positions of the pairs. -/
theorem mapM_hexByte {raw hex : String} (hascii : ∀ c ∈ hex.toList, c.toNat < 128) (n : ℕ) :
    ∀ start, start + 2 * n = hex.toList.length →
      (List.range' start n 2).mapM (hexByte raw hex) =
        orMessage s!"invalid bytes value: {raw} (invalid hex byte)"
          (readPairs (hex.toList.drop start)) := by
  induction n with
  | zero =>
    intro start hstart
    rw [List.drop_eq_nil_of_le (by omega)]
    rfl
  | succ n ih =>
    intro start hstart
    obtain ⟨x, y, hpair⟩ : ∃ x y, hex.toList.drop start = x :: y :: hex.toList.drop (start + 2) :=
      ⟨_, _, by rw [List.drop_eq_getElem_cons (by omega), List.drop_eq_getElem_cons (by omega)]⟩
    have hslice := slice_of_ascii hascii (Nat.le_add_right start 2) (by omega)
    have htwo : start + 2 - start = 2 := by omega
    rw [hpair, htwo] at hslice
    have hbyte : hexByte raw hex start =
        orMessage s!"invalid bytes value: {raw} (invalid hex byte)" (readPair x y) := by
      rw [hexByte, hslice]
      simp only [List.take_succ_cons, List.take_zero, String.toList_ofList, readPair]
    rw [List.range'_succ, List.mapM_cons, hbyte, ih (start + 2) (by omega), hpair, readPairs]
    cases readPair x y with
    | none => rfl
    | some byte =>
      cases readPairs (hex.toList.drop (start + 2)) with
      | none => rfl
      | some bytes => rfl

theorem isAscii_iff {s : String} : isAscii s ↔ ∀ c ∈ s.toList, c.toNat < 128 := by
  rw [isAscii, List.all_eq_true]
  exact forall₂_congr fun c _ => decide_eq_true_iff

theorem len_of_ascii {s : String} (h : ∀ c ∈ s.toList, c.toNat < 128) :
    len s = s.toList.length := by
  rw [len, Utf8Lossy.encode]
  generalize s.toList = chars at h
  induction chars with
  | nil => rfl
  | cons c chars ih =>
    obtain ⟨hc, h⟩ := List.forall_mem_cons.mp h
    rw [List.flatMap_cons, List.length_append, String.length_utf8EncodeChar, utf8Size_of_ascii hc,
      ih h, List.length_cons, Nat.add_comm]

/-- **What `parse_hex_bytes` reads**: the pairs of digits, without white space around them. -/
theorem parseHexBytes_eq_ok_iff {raw : String} {bytes : List UInt8} :
    parseHexBytes raw = .ok bytes ↔ readPairs (trim raw).toList = some bytes := by
  rw [parseHexBytes]
  by_cases hascii : isAscii (trim raw)
  · have hchars := isAscii_iff.mp hascii
    rw [if_neg (by simpa using hascii), len_of_ascii hchars]
    by_cases heven : (trim raw).toList.length % 2 = 0
    · rw [if_neg (by simpa using heven), mapM_hexByte hchars _ 0 (by omega), List.drop_zero]
      cases readPairs (trim raw).toList with
      | none => exact iff_of_false (by rintro h; cases h) (by rintro h; cases h)
      | some bytes' => exact ⟨fun h => by cases h; rfl, fun h => by cases h; rfl⟩
    · rw [if_pos heven]
      exact iff_of_false (by rintro h; cases h) fun h =>
        heven ((exists_readPairs_iff _).mp ⟨bytes, h⟩).even
  · rw [if_pos (by simpa using hascii)]
    exact iff_of_false (by rintro h; cases h) fun h =>
      hascii (isAscii_iff.mpr ((exists_readPairs_iff _).mp ⟨bytes, h⟩).ascii)

theorem parseHexBytes_ne_panic (raw : String) : parseHexBytes raw ≠ .error .panic := by
  rw [parseHexBytes]
  by_cases hascii : isAscii (trim raw)
  · have hchars := isAscii_iff.mp hascii
    rw [if_neg (by simpa using hascii), len_of_ascii hchars]
    by_cases heven : (trim raw).toList.length % 2 = 0
    · rw [if_neg (by simpa using heven), mapM_hexByte hchars _ 0 (by omega)]
      cases readPairs ((trim raw).toList.drop 0) with
      | none => rintro h; cases h
      | some bytes => rintro h; cases h
    · rw [if_pos heven]
      rintro h
      cases h
  · rw [if_pos (by simpa using hascii)]
    rintro h
    cases h

/-! ### Digits in either case -/

theorem toLower_of_not_ascii {c : Char} (h : ¬ c.toNat < 128) : c.toLower = c := by
  unfold Char.toLower
  rw [dif_neg]
  rintro ⟨-, hlast⟩
  exact h (Nat.lt_of_le_of_lt (UInt32.le_iff_toNat_le.mp hlast) (by decide))

theorem decodeDigit_toLower (c : Char) : Hex.decodeDigit c.toLower = Hex.decodeDigit c := by
  have hall : ∀ n : Fin 128, Hex.decodeDigit (Char.ofNat n).toLower =
      Hex.decodeDigit (Char.ofNat n) := by decide
  by_cases hascii : c.toNat < 128
  · have hc := hall ⟨c.toNat, hascii⟩
    rwa [Char.ofNat_toNat] at hc
  · rw [toLower_of_not_ascii hascii]

/-- The hexadecimal text of bytes is read in any letter case. -/
theorem readPairs_of_toLower {chars : List Char} {bytes : List UInt8}
    (h : chars.map Char.toLower = Hex.encodeChars bytes) : readPairs chars = some bytes := by
  induction bytes generalizing chars with
  | nil =>
    obtain rfl := List.map_eq_nil_iff.mp h
    rfl
  | cons b bytes ih =>
    obtain ⟨x, chars, rfl, hx, h⟩ := List.map_eq_cons_iff.mp h
    obtain ⟨y, chars, rfl, hy, h⟩ := List.map_eq_cons_iff.mp h
    have hb := b.toNat_lt
    have hhigh : Hex.decodeDigit x = some (b.toNat / 16) := by
      rw [← decodeDigit_toLower, hx, Hex.decodeDigit_encodeDigit (by omega)]
    have hlow : Hex.decodeDigit y = some (b.toNat % 16) := by
      rw [← decodeDigit_toLower, hy, Hex.decodeDigit_encodeDigit (by omega)]
    have hplus : x ≠ '+' := by
      rintro rfl
      exact Option.some_ne_none _ (hhigh.symm.trans (show Hex.decodeDigit '+' = none by decide))
    have hpair : readPair x y = some b := by
      rw [readPair, IntegerText.readUnsigned_pair, if_neg hplus, hhigh, hlow]
      simp only [Option.bind_some, Option.map_some, Nat.div_add_mod, UInt8.ofNat_toNat]
    rw [readPairs, hpair, ih h]
    rfl

theorem ascii_of_isAlphanum {c : Char} (h : c.isAlphanum) : c.toNat < 128 := by
  unfold Char.isAlphanum Char.isAlpha Char.isUpper Char.isLower Char.isDigit at h
  simp only [Bool.or_eq_true, Bool.and_eq_true, decide_eq_true_iff, ge_iff_le,
    UInt32.le_iff_toNat_le] at h
  change c.val.toNat < 128
  simp only [UInt32.reduceToNat, Char.reduceVal] at h
  omega

theorem isWhitespace_of_isAlphanum {c : Char} (h : c.toLower.isAlphanum) :
    isWhitespace c = false := by
  have hall : ∀ n : Fin 128, (Char.ofNat n).toLower.isAlphanum →
      isWhitespace (Char.ofNat n) = false := by decide
  by_cases hascii : c.toNat < 128
  · have hc := hall ⟨c.toNat, hascii⟩
    rw [Char.ofNat_toNat] at hc
    exact hc h
  · rw [toLower_of_not_ascii hascii] at h
    exact absurd (ascii_of_isAlphanum h) hascii

/-- **The hexadecimal text of bytes is read, in any letter case.** -/
theorem parseHexBytes_of_toLower {v : String} {bytes : List UInt8}
    (h : v.toList.map Char.toLower = (Hex.encode bytes).toList) : parseHexBytes v = .ok bytes := by
  have hwhite : ∀ c ∈ v.toList, isWhitespace c = false := by
    intro c hc
    refine isWhitespace_of_isAlphanum (Hex.isAlphanum_encode bytes _ ?_)
    rw [← h]
    exact List.mem_map_of_mem hc
  rw [Hex.encode, String.toList_ofList] at h
  have hread := readPairs_of_toLower h
  rw [parseHexBytes_eq_ok_iff, trim_eq_self hwhite, hread]

/-! ### The two encoders -/

/-- The types that both encoders know. -/
def argTypes : List String :=
  ["u32", "i32", "u64", "timepoint", "duration", "i64", "u128", "i128", "bool", "string", "bytes",
    "address", "symbol"]

section Agreement

variable {crates : ArgCrates} {strict : Bool} {a t v : String}

theorem runEncode_singleton (h : splitOnce a ":" = some (t, v)) :
    runEncode crates [a] =
      (encodedScval crates a t v).bind fun scval => orErrorText (scvalToBase64 crates scval) := by
  rw [runEncode, h]
  rfl

/-- An argument of a type that both know has the same result in both. -/
theorem parseTypedArg_eq_runEncode (h : splitOnce a ":" = some (t, v))
    (ht : toLowercase t ∈ argTypes) :
    parseTypedArg crates strict a = runEncode crates [a] := by
  rw [runEncode_singleton h, parseTypedArg, h]
  simp only [argTypes, List.mem_cons, List.not_mem_nil, or_false] at ht
  rcases ht with ht | ht | ht | ht | ht | ht | ht | ht | ht | ht | ht | ht | ht
  all_goals
    rw [encodedScval]
    simp only [ht]
  · cases parseU32 v <;> rfl
  · cases parseI32 v <;> rfl
  · cases parseU64 v <;> rfl
  · cases parseU64 v <;> rfl
  · cases parseU64 v <;> rfl
  · cases parseI64 v <;> rfl
  · cases parseU128 v <;> rfl
  · cases parseI128 v <;> rfl
  · cases parseBool v <;> rfl
  · cases intoScval v <;> rfl
  · cases parseHexBytes v with
    | error failure => rfl
    | ok b => cases hscval : bytesIntoScval b <;> simp [hscval, Bind.bind, Except.bind]
  · cases fromStrkey crates v <;> rfl
  · by_cases hlen : len v > 32
    · rw [if_pos hlen, if_pos hlen]
      rfl
    · rw [if_neg hlen, if_neg hlen]
      by_cases hchars : (Utf8Lossy.encode v).all isSymbolByte
      · rw [if_neg (by simpa using hchars), if_neg (by simpa using hchars)]
        cases symbolTryFrom v <;> rfl
      · rw [if_pos hchars, if_pos hchars]
        rfl

theorem parseTypedArg_unknown (crates : ArgCrates) (h : splitOnce a ":" = some (t, v))
    (ht : toLowercase t ∉ argTypes) :
    ∃ text, parseTypedArg crates true a = .error (.message text) := by
  rw [parseTypedArg, h]
  dsimp only
  split
  all_goals first
    | next hknown => exact absurd (by rw [hknown]; decide) ht
    | exact ⟨_, rfl⟩

theorem runEncode_unknown (crates : ArgCrates) (h : splitOnce a ":" = some (t, v))
    (ht : toLowercase t ∉ argTypes) (hjson : toLowercase t ≠ "json") :
    ∃ text, runEncode crates [a] = .error (.message text) := by
  rw [runEncode_singleton h, encodedScval]
  split
  all_goals first
    | next hknown => exact absurd (by rw [hknown]; decide) ht
    | next hknown => exact absurd hknown hjson
    | exact ⟨_, rfl⟩

theorem parseTypedArgs_singleton (x : String) :
    parseTypedArgs crates [a] strict = .ok [x] ↔ parseTypedArg crates strict a = .ok x := by
  rw [parseTypedArgs, List.mapM_cons, List.mapM_nil]
  cases parseTypedArg crates strict a with
  | error failure => exact iff_of_false (by rintro h; cases h) (by rintro h; cases h)
  | ok x' => exact ⟨fun h => by cases h; rfl, fun h => by cases h; rfl⟩

theorem parseTypedArgs_panic :
    parseTypedArgs crates [a] strict = .error .panic ↔
      parseTypedArg crates strict a = .error .panic := by
  rw [parseTypedArgs, List.mapM_cons, List.mapM_nil]
  cases parseTypedArg crates strict a with
  | error failure => exact ⟨fun h => by cases h; rfl, fun h => by cases h; rfl⟩
  | ok x' => exact iff_of_false (by rintro h; cases h) (by rintro h; cases h)

/-- The encoders on an argument of `bytes`. -/
theorem runEncode_bytes (h : splitOnce a ":" = some (t, v)) (ht : toLowercase t = "bytes")
    (x : String) : runEncode crates [a] = .ok x ↔
      ∃ bytes, parseHexBytes v = .ok bytes ∧ bytes.length ≤ u32Max ∧
        x = Base64.encode (crates.scVal.write (.bytes bytes)) := by
  rw [runEncode_singleton h, encodedScval]
  simp only [ht]
  cases hparse : parseHexBytes v with
  | error failure =>
    refine iff_of_false (by rintro h; cases h) ?_
    rintro ⟨bytes, hok, -⟩
    cases hok
  | ok bytes =>
    by_cases hlength : bytes.length ≤ u32Max
    · have hscval : bytesIntoScval bytes = .ok (.bytes bytes) := by
        rw [bytesIntoScval, if_pos hlength]
      constructor
      · intro hx
        simp only [Bind.bind, Except.bind, hscval] at hx
        cases hx
        exact ⟨bytes, rfl, hlength, rfl⟩
      · rintro ⟨bytes', hok, -, rfl⟩
        cases hok
        simp only [Bind.bind, Except.bind, hscval]
        rfl
    · have hscval : bytesIntoScval bytes = .error .tooLong := by
        rw [bytesIntoScval, if_neg hlength]
      refine iff_of_false (fun hx => ?_) ?_
      · simp only [Bind.bind, Except.bind, hscval] at hx
        cases hx
      · rintro ⟨bytes', hok, hle, -⟩
        cases hok
        exact hlength hle

theorem orMessage_ne_panic {α : Type} (text : String) (value : Option α) :
    orMessage text value ≠ .error .panic := by
  cases value <;> rintro h <;> cases h

theorem orErrorText_ne_panic {α : Type} (result : Except ScValError α) :
    orErrorText result ≠ .error .panic := by
  cases result <;> rintro h <;> cases h

/-- The failure of a command comes from its first step, or from what follows. -/
theorem bind_ne_panic {α β : Type} {x : Except Failure α} {f : α → Except Failure β}
    (hx : x ≠ .error .panic) (hf : ∀ a, f a ≠ .error .panic) : x.bind f ≠ .error .panic := by
  cases x with
  | error failure =>
    intro h
    cases h
    exact hx rfl
  | ok a => exact hf a

/-- Neither the type nor the value of an argument that is no JSON makes the encoder panic. -/
theorem encodedScval_ne_panic (ht : toLowercase t ∈ argTypes) :
    encodedScval crates a t v ≠ .error .panic := by
  simp only [argTypes, List.mem_cons, List.not_mem_nil, or_false] at ht
  rcases ht with ht | ht | ht | ht | ht | ht | ht | ht | ht | ht | ht | ht | ht
  all_goals
    rw [encodedScval]
    simp only [ht]
  iterate 9
    · exact bind_ne_panic (orMessage_ne_panic _ _) fun _ h => by cases h
  · exact orErrorText_ne_panic _
  · exact bind_ne_panic (parseHexBytes_ne_panic v) fun _ => orErrorText_ne_panic _
  · exact bind_ne_panic (orMessage_ne_panic _ _) fun _ h => by cases h
  · by_cases hlen : len v > 32
    · rw [if_pos hlen]
      rintro h
      cases h
    · rw [if_neg hlen]
      by_cases hchars : (Utf8Lossy.encode v).all isSymbolByte
      · rw [if_neg (by simpa using hchars)]
        exact orMessage_ne_panic _ _
      · rw [if_pos hchars]
        rintro h
        cases h

theorem runEncode_ne_panic (crates : ArgCrates) (h : splitOnce a ":" = some (t, v))
    (hjson : toLowercase t ≠ "json") :
    runEncode crates [a] ≠ .error .panic := by
  by_cases ht : toLowercase t ∈ argTypes
  · rw [runEncode_singleton h]
    exact bind_ne_panic (encodedScval_ne_panic ht) fun scval => orErrorText_ne_panic _
  · obtain ⟨text, herror⟩ := runEncode_unknown crates h ht hjson
    rw [herror]
    rintro h
    cases h

/-- **One argument is encoded by both or by neither**, and then alike. -/
theorem parseTypedArg_eq_ok_iff (hjson : ∀ t v, splitOnce a ":" = some (t, v) →
    toLowercase t ≠ "json") (x : String) :
    parseTypedArg crates true a = .ok x ↔ runEncode crates [a] = .ok x := by
  cases hsplit : splitOnce a ":" with
  | none =>
    rw [parseTypedArg, runEncode, hsplit]
    exact iff_of_false (by rintro h; cases h) (by rintro h; cases h)
  | some parts =>
    obtain ⟨t, v⟩ := parts
    by_cases ht : toLowercase t ∈ argTypes
    · rw [parseTypedArg_eq_runEncode hsplit ht]
    · obtain ⟨text, herror⟩ := parseTypedArg_unknown crates hsplit ht
      obtain ⟨text', herror'⟩ := runEncode_unknown crates hsplit ht (hjson t v hsplit)
      rw [herror, herror']
      exact iff_of_false (by rintro h; cases h) (by rintro h; cases h)

end Agreement

/-- The argument is no JSON value, in any letter case of its type. -/
def NotJson (a : String) : Prop := ∀ t v, splitOnce a ":" = some (t, v) → toLowercase t ≠ "json"

/-- Neither encoder panics. They encode the same arguments, and alike. Of the type `bytes` they take
the texts of pairs of digits, as far as their bytes fit, and the hexadecimal text of bytes is read
as these bytes in any letter case. -/
structure EncodersAgree (crates : ArgCrates) (Fits : ℕ → Prop) (a : String) : Prop where
  noPanic : parseTypedArgs crates [a] true ≠ .error .panic ∧ runEncode crates [a] ≠ .error .panic
  same : ∀ x, parseTypedArgs crates [a] true = .ok [x] ↔ runEncode crates [a] = .ok x
  bytes : ∀ t v, splitOnce a ":" = some (t, v) → toLowercase t = "bytes" →
    ((∃ x, runEncode crates [a] = .ok x) ↔
      HexText (trim v).toList ∧ Fits ((trim v).toList.length / 2))
  hex : ∀ t v bytes, splitOnce a ":" = some (t, v) → toLowercase t = "bytes" →
    v.toList.map Char.toLower = (Hex.encode bytes).toList → Fits bytes.length →
    runEncode crates [a] = .ok (Base64.encode (crates.scVal.write (.bytes bytes)))

/-- **The two encoders agree** on every argument that is no JSON value. Bytes fit up to the length
that a contract value may have. -/
theorem encoders_agree (crates : ArgCrates) (a : String) (hjson : NotJson a) :
    EncodersAgree crates (· ≤ u32Max) a where
  noPanic := by
    cases hsplit : splitOnce a ":" with
    | none =>
      rw [Ne, parseTypedArgs_panic, parseTypedArg, runEncode, hsplit]
      exact ⟨fun h => (by cases h), fun h => (by cases h)⟩
    | some parts =>
      obtain ⟨t, v⟩ := parts
      have hencode := runEncode_ne_panic crates hsplit (hjson t v hsplit)
      refine ⟨?_, hencode⟩
      rw [Ne, parseTypedArgs_panic]
      by_cases ht : toLowercase t ∈ argTypes
      · rwa [parseTypedArg_eq_runEncode hsplit ht]
      · obtain ⟨text, herror⟩ := parseTypedArg_unknown crates hsplit ht
        rw [herror]
        rintro h
        cases h
  same x := by rw [parseTypedArgs_singleton, parseTypedArg_eq_ok_iff hjson]
  bytes t v hsplit ht := by
    constructor
    · rintro ⟨x, hx⟩
      obtain ⟨bytes, hparse, hle, -⟩ := (runEncode_bytes hsplit ht x).mp hx
      have hread := parseHexBytes_eq_ok_iff.mp hparse
      refine ⟨(exists_readPairs_iff _).mp ⟨bytes, hread⟩, ?_⟩
      rw [length_of_readPairs hread, Nat.mul_div_cancel_left _ Nat.two_pos]
      exact hle
    · rintro ⟨htext, hfits⟩
      obtain ⟨bytes, hread⟩ := (exists_readPairs_iff _).mpr htext
      rw [length_of_readPairs hread, Nat.mul_div_cancel_left _ Nat.two_pos] at hfits
      exact ⟨_, (runEncode_bytes hsplit ht _).mpr
        ⟨bytes, parseHexBytes_eq_ok_iff.mpr hread, hfits, rfl⟩⟩
  hex t v bytes hsplit ht hlower hfits :=
    (runEncode_bytes hsplit ht _).mpr ⟨bytes, parseHexBytes_of_toLower hlower, hfits, rfl⟩

/-- The part before the first colon, and what follows it. -/
theorem splitOnce_colon {t : String} (h : ':' ∉ t.toList) (v : String) :
    splitOnce (t ++ ":" ++ v) ":" = some (t, v) := by
  have hchars : (t ++ ":" ++ v).toList = t.toList ++ (':' :: [] ++ v.toList) := by simp
  have hcolon : ":".toList = [':'] := rfl
  rw [splitOnce, hchars, hcolon, splitOnceAux_append [] h]
  simp

/-- No addresses and no JSON, and the encoding of contract values. -/
def plainArgCrates : ArgCrates where
  strkey _ := .error "the strkey is invalid"
  scVal := scValCodec
  Float := Empty
  parseJson _ := .error "expected value at line 1 column 1"
  displayFloat f := nomatch f

theorem encoders_agree_plus : EncodersAgree plainArgCrates (· ≤ u32Max) "bytes:+f" := by
  refine encoders_agree plainArgCrates "bytes:+f" fun t v hsplit => ?_
  have hparts : splitOnce "bytes:+f" ":" = some ("bytes", "+f") := by decide
  rw [hparts] at hsplit
  cases hsplit
  decide

/-- The digits of as many zero bytes as a contract value does not hold. -/
def tooManyZeros : String := String.ofList (List.replicate (2 * 4294967296) '0')

theorem hexText_replicate (n : ℕ) : HexText (List.replicate (2 * n) '0') where
  ascii c hc := by
    rw [List.eq_of_mem_replicate hc]
    decide
  even := by
    rw [List.length_replicate]
    omega
  pairs i x y hx hy := by
    rw [List.eq_of_mem_replicate (List.mem_of_getElem? hx),
      List.eq_of_mem_replicate (List.mem_of_getElem? hy)]
    exact ⟨.inl rfl, rfl⟩

/-- They are refused. -/
theorem not_encoders_agree_zeros : ¬ ∀ (crates : ArgCrates) (a : String), NotJson a →
    EncodersAgree crates (fun _ => True) a := by
  intro h
  have hsplit : splitOnce ("bytes" ++ ":" ++ tooManyZeros) ":" = some ("bytes", tooManyZeros) :=
    splitOnce_colon (by decide) tooManyZeros
  have hjson : NotJson ("bytes" ++ ":" ++ tooManyZeros) := by
    intro t v hparts
    rw [hsplit] at hparts
    cases hparts
    decide
  have hchars : tooManyZeros.toList = List.replicate (2 * 4294967296) '0' := String.toList_ofList
  have htrim : trim tooManyZeros = tooManyZeros := by
    refine trim_eq_self fun c hc => ?_
    rw [hchars] at hc
    rw [List.eq_of_mem_replicate hc]
    decide
  have hbytes : toLowercase "bytes" = "bytes" := by decide
  have htext : HexText (trim tooManyZeros).toList := by
    rw [htrim, hchars]
    exact hexText_replicate 4294967296
  obtain ⟨x, hx⟩ := ((h plainArgCrates _ hjson).bytes _ _ hsplit hbytes).mpr ⟨htext, trivial⟩
  obtain ⟨bytes, hparse, hle, -⟩ := (runEncode_bytes hsplit hbytes x).mp hx
  have hlength := length_of_readPairs (parseHexBytes_eq_ok_iff.mp hparse)
  rw [htrim, hchars, List.length_replicate] at hlength
  change bytes.length ≤ 4294967295 at hle
  omega

end SorobanDevkit.Cli
