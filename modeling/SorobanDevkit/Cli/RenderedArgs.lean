import SorobanDevkit.Cli.TypedArgs
import SorobanDevkit.Xdr.Review

/-!
# Rendered arguments

`render_scval` of `sdkt-xdr/src/envelope.rs` writes a flat value in the form `TYPE:VALUE` that the
encoders of arguments read. A string is written in quotation marks, and the encoders take these, and
what is escaped between them, as characters of the string.
-/

namespace SorobanDevkit.Cli

open Strings Xdr

/-- A value of a type that both encoders know, within the bounds of its type. Strings are valid
UTF-8, and symbols have letters, digits and underscores. -/
def IsArg : Scalar → Prop
  | .bool _ | .u32 _ | .i32 _ | .u64 _ | .i64 _ | .timepoint _ | .duration _ => True
  | .u128 .. | .i128 .. => True
  | .string s => s.length ≤ u32Max ∧ ∃ text, s = Utf8Lossy.encode text
  | .symbol s => s.length ≤ 32 ∧ ∀ b ∈ s, isSymbolByte b
  | .bytes b => b.length ≤ u32Max
  | .address (.account _) | .address (.contract _) => True
  | _ => False

section

variable (crates : ArgCrates) (displays : Displays)

/-- The text of an integer of 128 bits is read as an integer, and that of an address as an
address. -/
def DisplayReadsBack : Scalar → Prop
  | .u128 hi lo => parseU128 (displays.u128 hi lo) =
      some (hi.toNat * 18446744073709551616 + lo.toNat)
  | .i128 hi lo => parseI128 (displays.i128 hi lo) =
      some (hi.toInt * 18446744073709551616 + lo.toNat)
  | .address a => fromStrkey crates (displays.scAddress a) = some a
  | _ => True

/-- Both encoders read the rendered value, and encode it. -/
def ParsesBack (v : Scalar) : Prop :=
  (∀ strict, parseTypedArgs crates [renderScval displays (.scalar v)] strict =
    .ok [Base64.encode (crates.scVal.write (.scalar v))]) ∧
  runEncode crates [renderScval displays (.scalar v)] =
    .ok (Base64.encode (crates.scVal.write (.scalar v)))

end

/-! ### Texts of values -/

theorem parseU32_toString (n : UInt32) : parseU32 (toString n.toNat) = some n := by
  have hlt := n.toNat_lt
  rw [parseU32, IntegerText.readUnsigned_toString (by omega), Option.map_some, UInt32.ofNat_toNat]

theorem parseU64_toString (n : UInt64) : parseU64 (toString n.toNat) = some n := by
  have hlt := n.toNat_lt
  rw [parseU64, IntegerText.readUnsigned_toString (by omega), Option.map_some, UInt64.ofNat_toNat]

theorem parseI32_toString (n : Int32) : parseI32 (toString n.toInt) = some n := by
  have hlow := n.le_toInt
  have hhigh := n.toInt_lt
  rw [parseI32, IntegerText.readSigned_toString (by omega) (by omega), Option.map_some,
    Int32.ofInt_toInt]

theorem parseI64_toString (n : Int64) : parseI64 (toString n.toInt) = some n := by
  have hlow := n.le_toInt
  have hhigh := n.toInt_lt
  rw [parseI64, IntegerText.readSigned_toString (by omega) (by omega), Option.map_some,
    Int64.ofInt_toInt]

theorem parseBool_toString (b : Bool) : parseBool (toString b) = some b := by
  cases b <;> decide

/-- The two halves of an integer. -/
theorem u128IntoScval_parts (hi lo : UInt64) :
    u128IntoScval (hi.toNat * 18446744073709551616 + lo.toNat) = .u128 hi lo := by
  have hlt := lo.toNat_lt
  have hdiv : (hi.toNat * 18446744073709551616 + lo.toNat) / 18446744073709551616 = hi.toNat := by
    omega
  have hlo : UInt64.ofNat (hi.toNat * 18446744073709551616 + lo.toNat) = lo := by
    rw [← UInt64.toNat_inj, UInt64.toNat_ofNat']
    omega
  rw [u128IntoScval, hdiv, hlo, UInt64.ofNat_toNat]

theorem i128IntoScval_parts (hi : Int64) (lo : UInt64) :
    i128IntoScval (hi.toInt * 18446744073709551616 + lo.toNat) = .i128 hi lo := by
  have hlt := lo.toNat_lt
  have hdiv : (hi.toInt * 18446744073709551616 + lo.toNat) / 18446744073709551616 = hi.toInt := by
    omega
  have hmod : ((hi.toInt * 18446744073709551616 + lo.toNat) % 18446744073709551616).toNat =
      lo.toNat := by
    omega
  rw [i128IntoScval, hdiv, hmod, Int64.ofInt_toInt, UInt64.ofNat_toNat]

/-- Valid UTF-8 is read and written without loss. -/
theorem encode_toUtf8StringLossy {s : List UInt8} (h : ∃ text, s = Utf8Lossy.encode text) :
    Utf8Lossy.encode (toUtf8StringLossy s) = s := by
  obtain ⟨text, rfl⟩ := h
  rw [toUtf8StringLossy, Utf8Lossy.decode_encode, String.ofList_toList]

/-- ASCII is valid UTF-8. -/
theorem exists_text_of_ascii {s : List UInt8} (h : ∀ b ∈ s, b.toNat < 128) :
    ∃ text, s = Utf8Lossy.encode text := by
  have hall : ∀ n : Fin 128, String.utf8EncodeChar (Char.ofNat n) = [UInt8.ofNat n] := by decide
  refine ⟨String.ofList (s.map fun b => Char.ofNat b.toNat), ?_⟩
  rw [Utf8Lossy.encode, String.toList_ofList, List.flatMap_map]
  induction s with
  | nil => rfl
  | cons b s ih =>
    obtain ⟨hb, h⟩ := List.forall_mem_cons.mp h
    have hchar := hall ⟨b.toNat, hb⟩
    rw [UInt8.ofNat_toNat] at hchar
    rw [List.flatMap_cons, hchar, ← ih h, List.singleton_append]

theorem ascii_of_isSymbolByte {b : UInt8} (h : isSymbolByte b) : b.toNat < 128 := by
  simp only [isSymbolByte, Bool.or_eq_true, Bool.and_eq_true, decide_eq_true_iff, beq_iff_eq,
    UInt8.le_iff_toNat_le] at h
  obtain ((⟨-, h⟩ | ⟨-, h⟩) | ⟨-, h⟩) | rfl := h
  · exact Nat.lt_of_le_of_lt h (by decide)
  · exact Nat.lt_of_le_of_lt h (by decide)
  · exact Nat.lt_of_le_of_lt h (by decide)
  · decide

/-- Hexadecimal digits are written in lower case. -/
theorem map_toLower_encodeChars (bytes : List UInt8) :
    (Hex.encodeChars bytes).map Char.toLower = Hex.encodeChars bytes := by
  have hdigit : ∀ n : Fin 16, (Hex.encodeDigit n).toLower = Hex.encodeDigit n := by decide
  induction bytes with
  | nil => rfl
  | cons b bytes ih =>
    have hb := b.toNat_lt
    have hhigh := hdigit ⟨b.toNat / 16, by omega⟩
    have hlow := hdigit ⟨b.toNat % 16, by omega⟩
    rw [Hex.encodeChars, List.map_cons, List.map_cons, ih, hhigh, hlow]

theorem parseHexBytes_encode (bytes : List UInt8) :
    parseHexBytes (Hex.encode bytes) = .ok bytes := by
  refine parseHexBytes_of_toLower ?_
  rw [Hex.encode, String.toList_ofList, map_toLower_encodeChars]

/-! ### What is read back -/

section

variable {crates : ArgCrates} {displays : Displays}

/-- A value whose text is that of its type and of what is read as its value. -/
theorem parsesBack_of_encodedScval {v : Scalar} {t text : String} (hcolon : ':' ∉ t.toList)
    (hrender : renderScval displays (.scalar v) = t ++ ":" ++ text)
    (ht : toLowercase t ∈ argTypes)
    (hscval : ∀ a, encodedScval crates a t text = .ok (.scalar v)) :
    ParsesBack crates displays v := by
  have hsplit := splitOnce_colon hcolon text
  have hencode : runEncode crates [t ++ ":" ++ text] =
      .ok (Base64.encode (crates.scVal.write (.scalar v))) := by
    rw [runEncode_singleton hsplit, hscval]
    rfl
  rw [ParsesBack, hrender]
  refine ⟨fun strict => ?_, hencode⟩
  rw [parseTypedArgs_singleton, parseTypedArg_eq_runEncode hsplit ht, hencode]

theorem toLowercase_of_mem {t : String} (h : t ∈ argTypes) : toLowercase t = t := by
  have hall : ∀ t ∈ argTypes, toLowercase t = t := by decide
  exact hall t h

theorem base64_inj {c : Codec ScVal} {v w : ScVal}
    (h : Base64.encode (c.write v) = Base64.encode (c.write w)) : v = w := by
  have hbytes : c.write v = c.write w := by
    have hdecode := Base64.decode_encode (c.write v)
    rw [h, Base64.decode_encode] at hdecode
    exact (Option.some.inj hdecode).symm
  have hv := c.read_write v []
  rw [hbytes, c.read_write w []] at hv
  cases hv
  rfl

/-- What is escaped is at least as long. -/
theorem length_le_length_flatMap_escape (escapes : Char → Bool) (chars : List Char) :
    chars.length ≤ (chars.flatMap (Quoting.escape escapes)).length := by
  induction chars with
  | nil => exact Nat.le_refl 0
  | cons c chars ih =>
    obtain ⟨d, tail, hescape, -⟩ := Quoting.escape_eq_cons escapes c
    rw [List.flatMap_cons, hescape, List.length_append, List.length_cons, List.length_cons]
    omega

theorem encodedScval_string (a v : String) :
    encodedScval crates a "string" v = orErrorText (TypedJson.intoScval v) := by
  rw [encodedScval, toLowercase_of_mem (by decide)]
  rfl

/-- Quotation marks are read as part of a string. -/
theorem not_parsesBack_string (text : String) :
    ¬ ParsesBack crates displays (.string (Utf8Lossy.encode text)) := by
  intro h
  have hsplit : splitOnce ("string" ++ ":" ++ debug displays (Utf8Lossy.encode text)) ":" =
      some ("string", debug displays (Utf8Lossy.encode text)) := splitOnce_colon (by decide) _
  have hencode := (runEncode_singleton hsplit).symm.trans h.2
  rw [encodedScval_string] at hencode
  cases hinto : TypedJson.intoScval (debug displays (Utf8Lossy.encode text)) with
  | error e =>
    rw [hinto] at hencode
    cases hencode
  | ok w =>
    rw [hinto] at hencode
    have hvalue : w = .string (Utf8Lossy.encode text) := base64_inj (Except.ok.inj hencode)
    obtain ⟨-, hquoted⟩ := TypedJson.intoScval_eq_ok_iff.mp hinto
    rw [hvalue] at hquoted
    injection hquoted with hquoted
    injection hquoted with hquoted
    have hchars := congrArg Utf8Lossy.decode hquoted
    rw [Utf8Lossy.decode_encode, Utf8Lossy.decode_encode, debug, Utf8Lossy.decode_encode,
      String.toList_ofList, Quoting.quote] at hchars
    have hlength := congrArg List.length hchars
    have hle := length_le_length_flatMap_escape displays.escapes text.toList
    rw [List.length_cons, List.length_append, List.length_singleton] at hlength
    omega

/-- **Which rendered values are read back**: all but strings. -/
theorem rendered_parses_back_iff (crates : ArgCrates) (displays : Displays) (v : Scalar)
    (harg : IsArg v) (hdisplay : DisplayReadsBack crates displays v) :
    ParsesBack crates displays v ↔ ∀ s, v ≠ .string s := by
  cases v with
  | bool b =>
    refine iff_of_true ?_ (by simp)
    refine parsesBack_of_encodedScval (t := "bool") (by decide) rfl (by decide) fun a => ?_
    rw [encodedScval, toLowercase_of_mem (by decide), parseBool_toString]
    rfl
  | u32 n =>
    refine iff_of_true ?_ (by simp)
    refine parsesBack_of_encodedScval (t := "u32") (by decide) rfl (by decide) fun a => ?_
    rw [encodedScval, toLowercase_of_mem (by decide), parseU32_toString]
    rfl
  | i32 n =>
    refine iff_of_true ?_ (by simp)
    refine parsesBack_of_encodedScval (t := "i32") (by decide) rfl (by decide) fun a => ?_
    rw [encodedScval, toLowercase_of_mem (by decide), parseI32_toString]
    rfl
  | u64 n =>
    refine iff_of_true ?_ (by simp)
    refine parsesBack_of_encodedScval (t := "u64") (by decide) rfl (by decide) fun a => ?_
    rw [encodedScval, toLowercase_of_mem (by decide), parseU64_toString]
    rfl
  | i64 n =>
    refine iff_of_true ?_ (by simp)
    refine parsesBack_of_encodedScval (t := "i64") (by decide) rfl (by decide) fun a => ?_
    rw [encodedScval, toLowercase_of_mem (by decide), parseI64_toString]
    rfl
  | timepoint n =>
    refine iff_of_true ?_ (by simp)
    refine parsesBack_of_encodedScval (t := "timepoint") (by decide) rfl (by decide) fun a => ?_
    rw [encodedScval, toLowercase_of_mem (by decide), parseU64_toString]
    rfl
  | duration n =>
    refine iff_of_true ?_ (by simp)
    refine parsesBack_of_encodedScval (t := "duration") (by decide) rfl (by decide) fun a => ?_
    rw [encodedScval, toLowercase_of_mem (by decide), parseU64_toString]
    rfl
  | u128 hi lo =>
    refine iff_of_true ?_ (by simp)
    refine parsesBack_of_encodedScval (t := "u128") (by decide) rfl (by decide) fun a => ?_
    rw [encodedScval, toLowercase_of_mem (by decide), hdisplay]
    exact congrArg Except.ok (u128IntoScval_parts hi lo)
  | i128 hi lo =>
    refine iff_of_true ?_ (by simp)
    refine parsesBack_of_encodedScval (t := "i128") (by decide) rfl (by decide) fun a => ?_
    rw [encodedScval, toLowercase_of_mem (by decide), hdisplay]
    exact congrArg Except.ok (i128IntoScval_parts hi lo)
  | bytes b =>
    refine iff_of_true ?_ (by simp)
    refine parsesBack_of_encodedScval (t := "bytes") (by decide) rfl (by decide) fun a => ?_
    rw [encodedScval, toLowercase_of_mem (by decide), parseHexBytes_encode]
    have hlength : b.length ≤ u32Max := harg
    show orErrorText (bytesIntoScval b) = _
    rw [bytesIntoScval, if_pos hlength]
    rfl
  | string s =>
    refine iff_of_false ?_ fun h => h s rfl
    obtain ⟨-, text, rfl⟩ := harg
    exact not_parsesBack_string text
  | symbol s =>
    refine iff_of_true ?_ (by simp)
    refine parsesBack_of_encodedScval (t := "symbol") (by decide) rfl (by decide) fun a => ?_
    obtain ⟨hlength, hbytes⟩ := harg
    have hencode : Utf8Lossy.encode (toUtf8StringLossy s) = s :=
      encode_toUtf8StringLossy
        (exists_text_of_ascii fun b hb => ascii_of_isSymbolByte (hbytes b hb))
    have hlen : ¬ len (toUtf8StringLossy s) > 32 := by
      rw [len, hencode]
      exact Nat.not_lt.mpr hlength
    have hall : s.all isSymbolByte = true := List.all_eq_true.mpr hbytes
    rw [encodedScval, toLowercase_of_mem (by decide)]
    show (if len (toUtf8StringLossy s) > 32 then _ else
      if ¬ (Utf8Lossy.encode (toUtf8StringLossy s)).all isSymbolByte then _ else
        orMessage _ (symbolTryFrom (toUtf8StringLossy s))) = _
    rw [if_neg hlen, hencode, if_neg (by simpa using hall), symbolTryFrom,
      if_pos (Nat.not_lt.mp hlen), hencode]
    rfl
  | address a =>
    refine iff_of_true ?_ (by simp)
    refine parsesBack_of_encodedScval (t := "address") (by decide) rfl (by decide) fun a => ?_
    rw [encodedScval, toLowercase_of_mem (by decide), hdisplay]
    rfl
  | _ => exact harg.elim

end

/-- The crates, with one address. -/
def zeroArgCrates : ArgCrates where
  strkey key :=
    if key = "CAAAAAAAAAAAAAAAAAAAAAAAAAAAAAAAAAAAAAAAAAAAAAAAAAAAD2KM" then
      .ok (.contract (Vector.replicate 32 0))
    else .error "the strkey is invalid"
  scVal := scValCodec
  Float := Empty
  parseJson _ := .error "expected value at line 1 column 1"
  displayFloat f := nomatch f

theorem rendered_parses_back_zero :
    ParsesBack zeroArgCrates zeroDisplays (.address zeroContract) :=
  (rendered_parses_back_iff zeroArgCrates zeroDisplays (.address zeroContract) trivial rfl).mpr
    (by simp)

/-- A string of one letter is read as one of three characters. -/
theorem not_parses_back_letter : ¬ ∀ (crates : ArgCrates) (displays : Displays) (v : Scalar),
    IsArg v → DisplayReadsBack crates displays v → ParsesBack crates displays v := by
  intro h
  have hletter : IsArg (.string (Utf8Lossy.encode "a")) := ⟨by decide, "a", rfl⟩
  exact not_parsesBack_string "a" (h zeroArgCrates zeroDisplays _ hletter trivial)

end SorobanDevkit.Cli
