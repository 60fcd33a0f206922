import SorobanDevkit.Audit.Report
import SorobanDevkit.Library.Strings
import SorobanDevkit.Library.Tokens
import SorobanDevkit.Library.Uri
import SorobanDevkit.Library.Utf8Lossy

/-!
# The locations of findings

`sdkt-audit/src/sarif.rs`: each result names the audited file by a URI. A path with a root becomes a
`file:` URI, whose authority is the server of a Windows share; any other path becomes a reference
that is resolved against the root of the sources.

Segments that look like a drive are not encoded, whatever their first character is.
-/

namespace SorobanDevkit.Audit

open Strings (startsWith splitAt trimStartWhile)
open Uri (Encodes Reference isEncoded percentDecode isPathChar isPathText isHexDigit)
open Utf8Lossy (encode)

/-! ### Results -/

/-- `SarifArtifactLocation`. -/
structure SarifArtifactLocation where
  uri : String
  uriBaseId : Option String
  deriving DecidableEq

/-- `SarifPhysicalLocation`. -/
structure SarifPhysicalLocation where
  artifactLocation : SarifArtifactLocation
  deriving DecidableEq

/-- `SarifLocation`. -/
structure SarifLocation where
  physicalLocation : SarifPhysicalLocation
  deriving DecidableEq

/-- `SarifMessage`. -/
structure SarifMessage where
  text : String
  deriving DecidableEq

/-- `SarifResult`. -/
structure SarifResult where
  ruleId : String
  level : String
  message : SarifMessage
  locations : List SarifLocation
  deriving DecidableEq

def severityToLevel : Severity → String
  | .critical => "error"
  | .warning => "warning"
  | .info => "note"

/-! ### URIs of paths -/

/-- Whether a path is absolute on Unix or on Windows. -/
def isAbsoluteSourcePath (sourceFile : String) : Bool :=
  startsWith "/" sourceFile || startsWith "\\\\" sourceFile || startsWith "//" sourceFile ||
    match (encode sourceFile).map fun byte => Char.ofNat byte.toNat with
    | first :: second :: third :: _ =>
      first.isAlpha && second == ':' && (third == '\\' || third == '/')
    | _ => false

/-- The bytes that stand for themselves in a segment. -/
def passes (byte : UInt8) : Bool :=
  let c := Char.ofNat byte.toNat
  c.isUpper || c.isLower || c.isDigit || "-._~".toList.contains c ||
    "!$&'()*+,;=:@".toList.contains c

/-- A hexadecimal digit in upper case. -/
def upperDigit (n : ℕ) : Char := "0123456789ABCDEF".toList.getD n '0'

/-- The percent encoding of a byte. -/
def encodeByte (byte : UInt8) : List Char :=
  if passes byte then [Char.ofNat byte.toNat]
  else ['%', upperDigit (byte.toNat / 16), upperDigit (byte.toNat % 16)]

/-- Percent-encodes a segment of a path. -/
def encodePathSegment (segment : String) : String :=
  String.ofList ((encode segment).flatMap encodeByte)

/-- The path with slashes for backslashes. -/
def normalised (path : String) : String :=
  String.ofList (path.toList.map fun c => if c = '\\' then '/' else c)

/-- The URI reference of a relative path. -/
def relativeUriFromPath (path : String) : String :=
  "/".intercalate ((splitAt (· == '/') (normalised path)).map encodePathSegment)

/-- Encodes a segment of an absolute path. Empty segments and those that look like a drive are
kept. -/
def encodeFileSegment (seg : String) : String :=
  if encode seg = [] ∨ (encode seg).length = 2 ∧
    (encode seg)[1]? = some (UInt8.ofNat ':'.toNat) then
    seg
  else encodePathSegment seg

/-- The `file:` URI of an absolute path. -/
def fileUriFromPath (path : String) : String :=
  let forward := normalised path
  let encoded := "/".intercalate ((splitAt (· == '/') forward).map encodeFileSegment)
  if startsWith "//" forward && !startsWith "///" forward then
    "file://" ++ trimStartWhile (· == '/') encoded
  else "file:///" ++ trimStartWhile (· == '/') encoded

/-- The location of a source file. -/
def artifactLocation (sourceFile : String) : SarifArtifactLocation :=
  if isAbsoluteSourcePath sourceFile then ⟨fileUriFromPath sourceFile, none⟩
  else ⟨relativeUriFromPath sourceFile, some "%SRCROOT%"⟩

/-- The text of a finding. -/
def messageText (f : Finding) : String :=
  match f.location with
  | some loc => f.message ++ " (" ++ loc ++ ")"
  | none => f.message

/-- The result of a finding in a source file. -/
def findingToResult (f : Finding) (sourceFile : String) : SarifResult where
  ruleId := f.ruleId
  level := severityToLevel f.severity
  message := ⟨messageText f⟩
  locations := [⟨⟨artifactLocation sourceFile⟩⟩]

/-! ### Right locations -/

/-- The path of a Windows share. -/
def isUncPath (path : String) : Bool :=
  isAbsoluteSourcePath path && startsWith "//" (normalised path) &&
    !startsWith "///" (normalised path)

/-- The path that a location names: the slashes in front of a path on this machine count as one, and
a drive has one too. -/
def namedPath (path : String) : String :=
  if isAbsoluteSourcePath path && !isUncPath path then
    "/" ++ trimStartWhile (· == '/') (normalised path)
  else normalised path

/-- The text of the path in a reference. The server of a share is a part of its path. -/
def pathText (path : String) (r : Reference) : List Char :=
  if isUncPath path then '/' :: '/' :: (r.authority.getD [] ++ r.path) else r.path

/-- The location is a valid reference that gives the path back, and is relative when it has a
base. -/
structure Locates (path : String) (location : SarifArtifactLocation) : Prop where
  valid : (Reference.ofText location.uri.toList).Valid
  recovers : percentDecode (pathText path (Reference.ofText location.uri.toList)) =
    some (encode (namedPath path))
  relative : location.uriBaseId.isSome = true →
    (Reference.ofText location.uri.toList).scheme = none ∧
      (Reference.ofText location.uri.toList).authority = none

/-- A server, with at most one user before it and at most one port after it. -/
def IsServer (text : List Char) : Prop :=
  ∃ (userinfo : Option (List Char)) (host : List Char) (port : Option (List Char)),
    text = userinfo.elim [] (· ++ ['@']) ++ (host ++ port.elim [] (':' :: ·)) ∧
      (∀ u ∈ userinfo, '@' ∉ u) ∧ '@' ∉ host ∧ ':' ∉ host ∧
      ∀ p ∈ port, p.all Char.isDigit = true

/-- The paths that the encoders are right about. -/
structure Encodable (path : String) : Prop where
  drives : isAbsoluteSourcePath path = true → ∀ c : Char, c.toNat < 128 →
    String.ofList [c, ':'] ∈ splitAt (· == '/') (normalised path) → isPathChar c = true
  server : isUncPath path = true →
    IsServer (((normalised path).toList.drop 2).takeWhile (· != '/'))
  relative : isAbsoluteSourcePath path = false →
    startsWith "\\/" path = false ∧ ':' ∉ (normalised path).toList.takeWhile (· != '/')

/-! ### Encoded characters -/

/-- The bytes that stand for themselves are the characters of a segment. -/
theorem passes_eq (byte : UInt8) : passes byte =
    (decide (byte.toNat < 128) && isPathChar (Char.ofNat byte.toNat)) := by
  have hall : ∀ n < 256, passes (UInt8.ofNat n) =
      (decide ((UInt8.ofNat n).toNat < 128) &&
        isPathChar (Char.ofNat (UInt8.ofNat n).toNat)) := by decide +kernel
  have h := hall byte.toNat byte.toNat_lt
  rwa [UInt8.ofNat_toNat] at h

theorem decodeDigit_upperDigit {n : ℕ} (h : n < 16) : Hex.decodeDigit (upperDigit n) = some n := by
  have hall : ∀ m : Fin 16, Hex.decodeDigit (upperDigit m) = some m.1 := by decide
  exact hall ⟨n, h⟩

/-- The encoding of a byte that does not stand for itself. -/
theorem encodes_encodeByte {byte : UInt8} (h : passes byte = false) (allowed : Char → Bool) :
    Encodes allowed (encodeByte byte) [byte] := by
  have hlt := byte.toNat_lt
  have hhalves : byte.toNat / 16 * 16 + byte.toNat % 16 = byte.toNat :=
    Nat.div_add_mod' byte.toNat 16
  have hhigh := decodeDigit_upperDigit (n := byte.toNat / 16) (by omega)
  have hlow := decodeDigit_upperDigit (n := byte.toNat % 16) (by omega)
  have htriplet : Encodes allowed ['%', upperDigit (byte.toNat / 16), upperDigit (byte.toNat % 16)]
      [UInt8.ofNat (byte.toNat / 16 * 16 + byte.toNat % 16)] := Encodes.triplet hhigh hlow
  rw [encodeByte, h, if_neg Bool.false_ne_true]
  rwa [hhalves, UInt8.ofNat_toNat] at htriplet

/-- The encoding of a character of a path. -/
def encodeChar (c : Char) : List Char :=
  if c = '/' then ['/'] else (String.utf8EncodeChar c).flatMap encodeByte

theorem passes_ofNat {c : Char} (h : c.toNat < 128) :
    passes (UInt8.ofNat c.toNat) = isPathChar c := by
  have hval : (UInt8.ofNat c.toNat).toNat = c.toNat := by
    rw [UInt8.toNat_ofNat']
    omega
  rw [passes_eq, hval, decide_eq_true h, Bool.true_and, Char.ofNat_toNat]

/-- A character stands for itself, or becomes triplets. -/
theorem encodeChar_cases (c : Char) :
    (isPathText c = true ∧ encodeChar c = [c]) ∨
      isPathText c = false ∧ encodeChar c ≠ [] ∧
        ∀ allowed, Encodes allowed (encodeChar c) (String.utf8EncodeChar c) := by
  by_cases hslash : c = '/'
  · subst hslash
    exact .inl ⟨by decide, rfl⟩
  have htext : isPathText c = isPathChar c := by
    rw [isPathText, beq_eq_false_iff_ne.mpr hslash, Bool.or_false]
  rw [encodeChar, if_neg hslash, htext]
  obtain ⟨hlt, hascii⟩ | ⟨hle, hlength, hbytes⟩ := Uri.utf8EncodeChar_cases c
  · rw [hascii, List.flatMap_singleton]
    have hpasses := passes_ofNat hlt
    cases hchar : isPathChar c with
    | true =>
      refine .inl ⟨rfl, ?_⟩
      rw [encodeByte, hpasses, hchar, if_pos rfl, UInt8.toNat_ofNat']
      rw [Nat.mod_eq_of_lt (by omega), Char.ofNat_toNat]
    | false =>
      rw [hchar] at hpasses
      exact .inr ⟨rfl, by simp [encodeByte, hpasses], encodes_encodeByte hpasses⟩
  · have hpasses : ∀ byte ∈ String.utf8EncodeChar c, passes byte = false := by
      intro byte hbyte
      rw [passes_eq, decide_eq_false (Nat.not_lt.mpr (hbytes byte hbyte)), Bool.false_and]
    have hencodes (allowed : Char → Bool) : Encodes allowed
        ((String.utf8EncodeChar c).flatMap encodeByte) (String.utf8EncodeChar c) := by
      have h : Encodes allowed ((String.utf8EncodeChar c).flatMap encodeByte)
          ((String.utf8EncodeChar c).flatMap fun byte => [byte]) :=
        Encodes.flatMap fun byte hbyte => encodes_encodeByte (hpasses byte hbyte) allowed
      rwa [List.flatMap_singleton'] at h
    refine .inr ⟨?_, ?_, hencodes⟩
    · by_contra hchar
      have hlt := Uri.toNat_lt_of_isPathText (htext.trans (Bool.of_not_eq_false hchar))
      omega
    · intro hnil
      have hdecode := (hencodes isPathChar).2
      rw [hnil] at hdecode
      rw [← Option.some.inj hdecode, List.length_nil] at hlength
      omega

/-- The encoding of characters that a component allows, except those that become triplets. -/
theorem encodes_flatMap {allowed : Char → Bool} {l : List Char}
    (h : ∀ c ∈ l, isPathText c = true → allowed c = true) :
    Encodes allowed (l.flatMap encodeChar) (l.flatMap String.utf8EncodeChar) := by
  refine Encodes.flatMap fun c hc => ?_
  obtain ⟨htext, heq⟩ | ⟨-, -, hencodes⟩ := encodeChar_cases c
  · rw [heq]
    refine Encodes.char ?_ (h c hc htext)
    rintro rfl
    exact absurd htext (by decide)
  · exact hencodes allowed

/-- The characters of an encoding. -/
theorem of_mem_encodeChar {c d : Char} (h : d ∈ encodeChar c) :
    d = '%' ∨ isHexDigit d = true ∨ d = c ∧ isPathText c = true := by
  obtain ⟨htext, heq⟩ | ⟨-, -, hencodes⟩ := encodeChar_cases c
  · rw [heq, List.mem_singleton] at h
    exact .inr (.inr ⟨h, htext⟩)
  · obtain hpercent | hdigit | hnone := Uri.forall_mem_of_isEncoded (hencodes fun _ => false).1 d h
    · exact .inl hpercent
    · exact .inr (.inl hdigit)
    · cases hnone

/-- A delimiter is in the encoding only where it is in the path. -/
theorem not_mem_encodeChar {c d : Char} (hpercent : d ≠ '%') (hd : isHexDigit d = false)
    (hne : isPathText d = true → d ≠ c) : d ∉ encodeChar c := by
  intro h
  obtain rfl | hdigit | ⟨rfl, htext⟩ := of_mem_encodeChar h
  · exact hpercent rfl
  · rw [hd] at hdigit
    cases hdigit
  · exact hne htext rfl

theorem inAuthority_of_mem {l : List Char} (h : '/' ∉ l) :
    ∀ d ∈ l.flatMap encodeChar, Uri.inAuthority d = true := by
  intro d hd
  obtain ⟨c, hc, hd⟩ := List.mem_flatMap.mp hd
  have hslash : d ≠ '/' := by
    rintro rfl
    refine not_mem_encodeChar (by decide) (by decide) (fun _ heq => h ?_) hd
    rwa [heq]
  have hquery : d ≠ '?' := fun heq => not_mem_encodeChar (c := c) (by decide) (by decide)
    (fun htext => absurd htext (by decide)) (heq ▸ hd)
  have hfragment : d ≠ '#' := fun heq => not_mem_encodeChar (c := c) (by decide) (by decide)
    (fun htext => absurd htext (by decide)) (heq ▸ hd)
  simp [Uri.inAuthority, hslash, hquery, hfragment]

theorem inPath_of_mem {l : List Char} : ∀ d ∈ l.flatMap encodeChar, Uri.inPath d = true := by
  intro d hd
  obtain ⟨c, hc, hd⟩ := List.mem_flatMap.mp hd
  have hquery : d ≠ '?' := fun heq => not_mem_encodeChar (c := c) (by decide) (by decide)
    (fun htext => absurd htext (by decide)) (heq ▸ hd)
  have hfragment : d ≠ '#' := fun heq => not_mem_encodeChar (c := c) (by decide) (by decide)
    (fun htext => absurd htext (by decide)) (heq ▸ hd)
  simp [Uri.inPath, hquery, hfragment]

/-! ### Segments -/

/-- Every text is a segment, or a segment before a slash and a text. -/
theorem segments_induction {P : List Char → Prop} (hlast : ∀ seg, '/' ∉ seg → P seg)
    (hcons : ∀ seg w, '/' ∉ seg → P w → P (seg ++ '/' :: w)) (w : List Char) : P w := by
  induction hlength : w.length using Nat.strong_induction_on generalizing w with
  | _ n ih =>
    by_cases hmem : '/' ∈ w
    · obtain ⟨seg, rest, rfl, hseg⟩ := List.eq_append_cons_of_mem hmem
      refine hcons seg rest hseg (ih rest.length ?_ rest rfl)
      rw [← hlength, List.length_append, List.length_cons]
      omega
    · exact hlast w hmem

theorem splitAt_last {seg : List Char} (h : '/' ∉ seg) :
    splitAt (· == '/') (String.ofList seg) = [String.ofList seg] := by
  have hseg : ∀ c ∈ seg, (c == '/') = false := fun c hc =>
    beq_eq_false_iff_ne.mpr fun heq => h (heq ▸ hc)
  rw [splitAt, String.toList_ofList, Strings.splitAtAux_of_forall hseg, List.nil_append,
    List.map_singleton]

theorem splitAt_cons {seg : List Char} (h : '/' ∉ seg) (w : List Char) :
    splitAt (· == '/') (String.ofList (seg ++ '/' :: w)) =
      String.ofList seg :: splitAt (· == '/') (String.ofList w) := by
  have hseg : ∀ c ∈ seg, (c == '/') = false := fun c hc =>
    beq_eq_false_iff_ne.mpr fun heq => h (heq ▸ hc)
  rw [splitAt, String.toList_ofList, Strings.splitAtAux_append_cons hseg (by decide),
    List.nil_append, List.map_cons, splitAt, String.toList_ofList]

theorem splitAt_ne_nil (w : List Char) : splitAt (· == '/') (String.ofList w) ≠ [] := by
  induction w using segments_induction with
  | hlast seg h => rw [splitAt_last h]; exact List.cons_ne_nil _ _
  | hcons seg w h _ => rw [splitAt_cons h]; exact List.cons_ne_nil _ _

/-- The segments of a text, each of them changed. -/
def joined (f : String → String) (w : List Char) : List Char :=
  ("/".intercalate ((splitAt (· == '/') (String.ofList w)).map f)).toList

theorem joined_last (f : String → String) {seg : List Char} (h : '/' ∉ seg) :
    joined f seg = (f (String.ofList seg)).toList := by
  rw [joined, splitAt_last h, List.map_singleton, Strings.toList_intercalate_cons,
    List.flatMap_nil, List.append_nil]

theorem joined_cons (f : String → String) {seg : List Char} (h : '/' ∉ seg) (w : List Char) :
    joined f (seg ++ '/' :: w) = (f (String.ofList seg)).toList ++ '/' :: joined f w := by
  obtain ⟨s, segs, hsegs⟩ := List.exists_cons_of_ne_nil (splitAt_ne_nil w)
  rw [joined, splitAt_cons h, hsegs, List.map_cons, List.map_cons, Strings.toList_intercalate_cons,
    List.flatMap_cons, joined, hsegs, List.map_cons, Strings.toList_intercalate_cons]
  rfl

theorem toList_encodePathSegment {seg : List Char} (h : '/' ∉ seg) :
    (encodePathSegment (String.ofList seg)).toList = seg.flatMap encodeChar := by
  rw [encodePathSegment, String.toList_ofList, encode, String.toList_ofList, List.flatMap_assoc]
  refine List.flatMap_congr fun c hc => ?_
  rw [encodeChar, if_neg]
  rintro rfl
  exact h hc

/-- The encoding of a relative path, character by character. -/
theorem joined_encodePathSegment (w : List Char) :
    joined encodePathSegment w = w.flatMap encodeChar := by
  induction w using segments_induction with
  | hlast seg h => rw [joined_last _ h, toList_encodePathSegment h]
  | hcons seg w h ih =>
    rw [joined_cons _ h, ih, toList_encodePathSegment h, List.flatMap_append, List.flatMap_cons]
    rfl

theorem eq_nil_of_utf8 {l : List Char} (h : l.flatMap String.utf8EncodeChar = []) : l = [] := by
  cases l with
  | nil => rfl
  | cons c l =>
    have hnil := (List.append_eq_nil_iff.mp h).1
    obtain ⟨-, hascii⟩ | ⟨-, hlong, -⟩ := Uri.utf8EncodeChar_cases c
    · rw [hascii] at hnil
      cases hnil
    · rw [hnil, List.length_nil] at hlong
      omega

/-- A segment that is kept although it is not empty looks like a drive. -/
theorem eq_drive {seg : List Char} (hlength : (seg.flatMap String.utf8EncodeChar).length = 2)
    (hcolon : (seg.flatMap String.utf8EncodeChar)[1]? = some (UInt8.ofNat ':'.toNat)) :
    ∃ c : Char, c.toNat < 128 ∧ seg = [c, ':'] := by
  cases seg with
  | nil => cases hlength
  | cons c seg =>
    rw [List.flatMap_cons] at hlength hcolon
    obtain ⟨hlt, hascii⟩ | ⟨hle, hlong, hbytes⟩ := Uri.utf8EncodeChar_cases c
    · refine ⟨c, hlt, ?_⟩
      rw [hascii, List.singleton_append, List.length_cons] at hlength
      rw [hascii, List.singleton_append, List.getElem?_cons_succ] at hcolon
      cases seg with
      | nil => cases hlength
      | cons d seg =>
        rw [List.flatMap_cons, List.length_append] at hlength
        obtain ⟨hd, hd'⟩ | ⟨-, hlong, -⟩ := Uri.utf8EncodeChar_cases d
        · rw [List.flatMap_cons, hd', List.singleton_append, List.getElem?_cons_zero] at hcolon
          have hval := congrArg UInt8.toNat (Option.some.inj hcolon)
          rw [UInt8.toNat_ofNat', UInt8.toNat_ofNat', Nat.mod_eq_of_lt (by omega)] at hval
          obtain rfl : d = ':' := Char.ext (UInt32.toNat_inj.mp hval)
          rw [hd', List.length_singleton] at hlength
          have hnil : seg = [] := eq_nil_of_utf8 (List.eq_nil_of_length_eq_zero (by omega))
          rw [hnil]
        · omega
    · rw [List.getElem?_append_left (by omega)] at hcolon
      have hmem := hbytes _ (List.mem_of_getElem? hcolon)
      exact absurd hmem (by decide)

/-- A segment of an absolute path is encoded, unless it looks like a drive and is none. -/
theorem toList_encodeFileSegment {seg : List Char} (h : '/' ∉ seg) :
    ((∀ c : Char, c.toNat < 128 → seg = [c, ':'] → isPathChar c = true) ∧
        (encodeFileSegment (String.ofList seg)).toList = seg.flatMap encodeChar) ∨
      ∃ c : Char, c.toNat < 128 ∧ isPathChar c = false ∧ seg = [c, ':'] ∧
        (encodeFileSegment (String.ofList seg)).toList = seg := by
  rw [encodeFileSegment, encode, String.toList_ofList]
  split
  · next hkept =>
    rw [String.toList_ofList]
    obtain hnil | ⟨hlength, hcolon⟩ := hkept
    · rw [eq_nil_of_utf8 hnil]
      refine .inl ⟨fun c _ heq => ?_, rfl⟩
      cases heq
    · obtain ⟨c, hlt, rfl⟩ := eq_drive hlength hcolon
      cases hchar : isPathChar c with
      | false => exact .inr ⟨c, hlt, hchar, rfl, rfl⟩
      | true =>
        have htext (d : Char) (hd : isPathText d = true) : encodeChar d = [d] := by
          obtain ⟨-, heq⟩ | ⟨hnot, -⟩ := encodeChar_cases d
          · exact heq
          · rw [hnot] at hd
            cases hd
        refine .inl ⟨fun d _ heq => ?_, ?_⟩
        · rw [← (List.cons.inj heq).1]
          exact hchar
        · rw [List.flatMap_cons, List.flatMap_singleton, htext c (by rw [isPathText, hchar]; rfl),
            htext ':' (by decide)]
          rfl
  · next hkept =>
    refine .inl ⟨?_, toList_encodePathSegment h⟩
    rintro c hlt rfl
    obtain ⟨-, hascii⟩ | ⟨hle, -⟩ := Uri.utf8EncodeChar_cases c
    · rw [List.flatMap_cons, hascii] at hkept
      exact absurd (.inr ⟨rfl, rfl⟩) hkept
    · omega

/-! ### Segments that look like drives -/

/-- A segment before a colon is a drive. -/
def DrivesOk (w : List Char) : Prop :=
  ∀ c : Char, c.toNat < 128 → String.ofList [c, ':'] ∈ splitAt (· == '/') (String.ofList w) →
    isPathChar c = true

/-- A segment that is no drive and is kept. -/
structure KeptAt (w encoded before : List Char) (c : Char) (after after' : List Char) : Prop where
  path : w = before ++ c :: ':' :: after
  encoded : encoded = before.flatMap encodeChar ++ c :: ':' :: after'
  starts : before = [] ∨ before.getLast? = some '/'
  ends : after' = [] ∨ after'.head? = some '/'
  slash : c ≠ '/'
  char : isPathChar c = false

theorem drivesOk_cons {seg : List Char} (h : '/' ∉ seg) (w : List Char) :
    DrivesOk (seg ++ '/' :: w) ↔
      (∀ c : Char, c.toNat < 128 → seg = [c, ':'] → isPathChar c = true) ∧ DrivesOk w := by
  have hinj (c : Char) : String.ofList [c, ':'] = String.ofList seg ↔ seg = [c, ':'] := by
    rw [String.ofList_inj]
    exact eq_comm
  simp only [DrivesOk, splitAt_cons h, List.mem_cons, hinj]
  constructor
  · exact fun hok =>
      ⟨fun c hlt heq => hok c hlt (.inl heq), fun c hlt hmem => hok c hlt (.inr hmem)⟩
  · rintro ⟨hseg, hok⟩ c hlt (heq | hmem)
    · exact hseg c hlt heq
    · exact hok c hlt hmem

theorem drivesOk_last {seg : List Char} (h : '/' ∉ seg) :
    DrivesOk seg ↔ ∀ c : Char, c.toNat < 128 → seg = [c, ':'] → isPathChar c = true := by
  have hinj (c : Char) : String.ofList [c, ':'] = String.ofList seg ↔ seg = [c, ':'] := by
    rw [String.ofList_inj]
    exact eq_comm
  simp only [DrivesOk, splitAt_last h, List.mem_singleton, hinj]

/-- An absolute path is encoded character by character, unless a segment is kept. -/
theorem joined_encodeFileSegment (w : List Char) :
    (DrivesOk w ∧ joined encodeFileSegment w = w.flatMap encodeChar) ∨
      ¬ DrivesOk w ∧ ∃ before c after after',
        KeptAt w (joined encodeFileSegment w) before c after after' := by
  induction w using segments_induction with
  | hlast seg h =>
    rw [drivesOk_last h, joined_last _ h]
    obtain hseg | ⟨c, hlt, hchar, rfl, heq⟩ := toList_encodeFileSegment h
    · exact .inl hseg
    · refine .inr ⟨fun hok => absurd (hok c hlt rfl) (by simp [hchar]), [], c, [], [], ?_⟩
      exact ⟨rfl, heq, .inl rfl, .inl rfl, fun hslash => h (by simp [hslash]), hchar⟩
  | hcons seg w h ih =>
    rw [drivesOk_cons h, joined_cons _ h]
    obtain ⟨hseg, heq⟩ | ⟨c, hlt, hchar, rfl, heq⟩ := toList_encodeFileSegment h
    · obtain ⟨hok, hw⟩ | ⟨hnot, before, c, after, after', hkept⟩ := ih
      · rw [heq, hw, List.flatMap_append, List.flatMap_cons]
        exact .inl ⟨⟨hseg, hok⟩, rfl⟩
      · refine .inr ⟨fun hok => hnot hok.2, seg ++ '/' :: before, c, after, after', ?_⟩
        obtain ⟨hpath, hencoded, hstarts, hends, hslash, hchar⟩ := hkept
        refine ⟨?_, ?_, .inr ?_, hends, hslash, hchar⟩
        · rw [hpath, List.append_assoc, List.cons_append]
        · rw [heq, hencoded, List.flatMap_append, List.flatMap_cons, List.append_assoc,
            List.append_assoc]
          rfl
        · obtain rfl | hlast := hstarts
          · rw [List.getLast?_concat]
          · rw [List.getLast?_append_cons, List.getLast?_cons, hlast]
            rfl
    · refine .inr ⟨fun hok => absurd (hok.1 c hlt rfl) (by simp [hchar]), [], c, '/' :: w,
        '/' :: joined encodeFileSegment w, ?_⟩
      exact ⟨rfl, by rw [heq]; rfl, .inl rfl, .inr rfl, fun hslash => h (by simp [hslash]), hchar⟩

/-! ### Paths with a root -/

section

variable {w before after after' : List Char} {c : Char} {path : String}

/-- What follows the slashes in front of a text. -/
def below (w : List Char) : List Char := w.dropWhile (· == '/')

/-- The slashes in front of a path are the slashes in front of its encoding. -/
theorem below_flatMap {t : List Char} (ht : below t = t) (l : List Char) :
    below (l.flatMap encodeChar ++ t) = (below l).flatMap encodeChar ++ t := by
  induction l with
  | nil => exact ht
  | cons c l ih =>
    by_cases hc : c = '/'
    · subst hc
      rw [List.flatMap_cons, encodeChar, if_pos rfl, below, below,
        List.dropWhile_cons_of_pos (by decide)]
      exact ih
    · have hne : (c == '/') ≠ true := by simpa using hc
      have hnil : encodeChar c ≠ [] := by
        obtain ⟨-, heq⟩ | ⟨-, hnil, -⟩ := encodeChar_cases c
        · rw [heq]
          exact List.cons_ne_nil _ _
        · exact hnil
      obtain ⟨d, text, heq⟩ := List.exists_cons_of_ne_nil hnil
      have hd : (d == '/') ≠ true := by
        intro hd
        refine not_mem_encodeChar (c := c) (d := '/') (by decide) (by decide)
          (fun _ heq' => hc heq'.symm) ?_
        rw [heq, eq_of_beq hd]
        exact List.mem_cons_self
      have hl : below (c :: l) = c :: l := List.dropWhile_cons_of_neg hne
      rw [hl, List.flatMap_cons, heq]
      exact List.dropWhile_cons_of_neg hd

/-- What starts with a segment that is kept does not give the segment back. -/
theorem not_encodes_kept (hslash : c ≠ '/') (hchar : isPathChar c = false)
    (before after after' : List Char) :
    ¬ Encodes isPathText (before.flatMap encodeChar ++ (c :: ':' :: after').takeWhile Uri.inPath)
      ((before ++ c :: ':' :: after).flatMap String.utf8EncodeChar) := by
  have hbefore : Encodes isPathText (before.flatMap encodeChar)
      (before.flatMap String.utf8EncodeChar) := encodes_flatMap fun _ _ htext => htext
  rw [hbefore.append_iff, List.flatMap_append]
  rintro ⟨bytes, heq, hencodes⟩
  rw [← List.append_cancel_left heq] at hencodes
  have htext : isPathText c = false := by
    rw [isPathText, hchar, beq_eq_false_iff_ne.mpr hslash]
    rfl
  by_cases hin : Uri.inPath c = true
  · rw [List.takeWhile_cons_of_pos hin, List.takeWhile_cons_of_pos (by decide)] at hencodes
    have hfalse := hencodes.1
    rw [Uri.isEncoded_cons_eq_false (by decide) fun _ => htext] at hfalse
    cases hfalse
  · rw [List.takeWhile_cons_of_neg hin] at hencodes
    cases eq_nil_of_utf8 (Option.some.inj hencodes.2).symm

theorem below_kept (hslash : c ≠ '/') (l t : List Char) :
    below (l ++ c :: t) = below l ++ c :: t := by
  have hne : (c == '/') ≠ true := by simpa using hslash
  have hc : (c :: t).dropWhile (· == '/') = c :: t := List.dropWhile_cons_of_neg hne
  rw [below, List.dropWhile_append, hc, below]
  split
  · next hempty => rw [List.isEmpty_iff.mp hempty, List.nil_append]
  · rfl

/-- The text of a `file:` URI. -/
theorem toList_fileUriFromPath (habsolute : isAbsoluteSourcePath path = true) :
    (fileUriFromPath path).toList = "file".toList ++ ':' :: '/' :: '/' ::
      (if isUncPath path then below (joined encodeFileSegment (normalised path).toList)
      else '/' :: below (joined encodeFileSegment (normalised path).toList)) := by
  rw [fileUriFromPath, isUncPath, habsolute, Bool.true_and, joined, String.ofList_toList]
  simp only [trimStartWhile, below]
  split <;> simp

/-- The components of the URI of a path on this machine. -/
theorem ofText_local (habsolute : isAbsoluteSourcePath path = true) (hunc : isUncPath path = false)
    {text : List Char} (htext : below (joined encodeFileSegment (normalised path).toList) = text) :
    Reference.ofText (fileUriFromPath path).toList =
      ⟨some "file".toList, some [], '/' :: text.takeWhile Uri.inPath,
        (Uri.splitQuery (text.dropWhile Uri.inPath)).1,
        (Uri.splitQuery (text.dropWhile Uri.inPath)).2⟩ := by
  rw [toList_fileUriFromPath habsolute, hunc, if_neg Bool.false_ne_true, htext,
    Uri.ofText_authority (by decide) (by decide)]
  rfl

/-- The components of the URI of a share. -/
theorem ofText_unc (hunc : isUncPath path = true)
    {text : List Char} (htext : below (joined encodeFileSegment (normalised path).toList) = text) :
    Reference.ofText (fileUriFromPath path).toList =
      ⟨some "file".toList, some (text.takeWhile Uri.inAuthority),
        (text.dropWhile Uri.inAuthority).takeWhile Uri.inPath,
        (Uri.splitQuery ((text.dropWhile Uri.inAuthority).dropWhile Uri.inPath)).1,
        (Uri.splitQuery ((text.dropWhile Uri.inAuthority).dropWhile Uri.inPath)).2⟩ := by
  have habsolute : isAbsoluteSourcePath path = true := by
    rw [isUncPath, Bool.and_eq_true, Bool.and_eq_true] at hunc
    exact hunc.1.1
  rw [toList_fileUriFromPath habsolute, hunc, if_pos rfl, htext,
    Uri.ofText_authority (by decide) (by decide)]

/-- A `file:` URI without query and fragment. -/
theorem valid_file {authority text : List Char} (hauthority : Uri.IsAuthority authority)
    (htext : isEncoded isPathText text = true) :
    (⟨some "file".toList, some authority, text, none, none⟩ : Reference).Valid where
  scheme s hs := by
    cases hs
    exact ⟨by decide, by decide⟩
  authority a ha := by
    cases ha
    exact hauthority
  path := htext
  noscheme h := by cases h
  query q hq := by cases hq
  fragment f hf := by cases hf

theorem encodes_text (l : List Char) :
    Encodes isPathText (l.flatMap encodeChar) (l.flatMap String.utf8EncodeChar) :=
  encodes_flatMap fun _ _ htext => htext

theorem flatMap_slash (l : List Char) :
    ('/' :: l).flatMap encodeChar = '/' :: l.flatMap encodeChar := rfl

/-- When the location of a path on this machine is right. -/
theorem locates_local_iff (habsolute : isAbsoluteSourcePath path = true)
    (hunc : isUncPath path = false) :
    Locates path ⟨fileUriFromPath path, none⟩ ↔ DrivesOk (normalised path).toList := by
  have hnamed : encode (namedPath path) =
      ('/' :: below (normalised path).toList).flatMap String.utf8EncodeChar := by
    rw [namedPath, habsolute, hunc]
    simp [trimStartWhile, encode, below]
  obtain ⟨hok, hjoined⟩ | ⟨hnot, before, c, after, after', hkept⟩ :=
    joined_encodeFileSegment (normalised path).toList
  · refine iff_of_true ?_ hok
    have htrim := below_flatMap (t := []) rfl (normalised path).toList
    rw [List.append_nil, List.append_nil, ← hjoined] at htrim
    have href := ofText_local habsolute hunc htrim
    rw [List.takeWhile_eq_self_iff.mpr inPath_of_mem,
      List.dropWhile_eq_nil_iff.mpr inPath_of_mem] at href
    have hencodes := encodes_text ('/' :: below (normalised path).toList)
    rw [flatMap_slash] at hencodes
    have hnil : Uri.IsAuthority [] := ⟨none, [], none, rfl, by simp, .inl rfl, by simp⟩
    refine ⟨?_, ?_, fun hbase => by cases hbase⟩
    · rw [href]
      exact valid_file hnil hencodes.1
    · rw [href, pathText, hunc, if_neg Bool.false_ne_true, hnamed]
      exact hencodes.2
  · refine iff_of_false (fun hlocates => ?_) hnot
    have hslash := hkept.slash
    have htrim : below (joined encodeFileSegment (normalised path).toList) =
        (below before).flatMap encodeChar ++ c :: ':' :: after' := by
      rw [hkept.encoded]
      exact below_flatMap (below_kept hslash [] _) before
    have hbelow : below (normalised path).toList = below before ++ c :: ':' :: after := by
      rw [hkept.path, below_kept hslash]
    have href := ofText_local habsolute hunc htrim
    rw [List.takeWhile_append_of_pos inPath_of_mem] at href
    have hvalid := hlocates.valid.path
    have hrecovers := hlocates.recovers
    rw [hnamed, hbelow, pathText, hunc, if_neg Bool.false_ne_true] at hrecovers
    dsimp only at hvalid hrecovers
    rw [href] at hvalid hrecovers
    have hnot := not_encodes_kept hslash hkept.char ('/' :: below before) after after'
    rw [flatMap_slash] at hnot
    exact hnot ⟨hvalid, hrecovers⟩

end

/-! ### Servers -/

section

variable {l : List Char}

/-- A separator of a text is where its encoding has it. -/
theorem flatMap_eq_append_cons {d : Char} (hpercent : d ≠ '%') (hd : isHexDigit d = false)
    (htext : isPathText d = true) {a b : List Char} :
    l.flatMap encodeChar = a ++ d :: b ↔
      ∃ l₁ l₂, l = l₁ ++ d :: l₂ ∧ l₁.flatMap encodeChar = a ∧ l₂.flatMap encodeChar = b := by
  have hsep : encodeChar d = [d] := by
    obtain ⟨-, heq⟩ | ⟨hnot, -⟩ := encodeChar_cases d
    · exact heq
    · rw [hnot] at htext
      cases htext
  constructor
  · intro h
    induction l generalizing a with
    | nil => exact absurd h.symm (by simp)
    | cons c l ih =>
      rw [List.flatMap_cons] at h
      by_cases hc : c = d
      · subst hc
        rw [hsep, List.singleton_append] at h
        cases a with
        | nil => exact ⟨[], l, rfl, rfl, (List.cons.inj h).2⟩
        | cons e a =>
          obtain ⟨l₁, l₂, rfl, rfl, hb⟩ := ih (List.cons.inj h).2
          refine ⟨c :: l₁, l₂, rfl, ?_, hb⟩
          rw [List.flatMap_cons, hsep, ← (List.cons.inj h).1]
          rfl
      · have hnot : d ∉ encodeChar c := not_mem_encodeChar hpercent hd fun _ heq => hc heq.symm
        obtain ⟨a', rfl, hrest⟩ | ⟨c', hpre, hrest⟩ := List.append_eq_append_iff.mp h
        · obtain ⟨l₁, l₂, rfl, rfl, hb⟩ := ih hrest
          exact ⟨c :: l₁, l₂, rfl, List.flatMap_cons, hb⟩
        · cases c' with
          | nil =>
            rw [List.append_nil] at hpre
            obtain ⟨l₁, l₂, rfl, hnil, hb⟩ := ih (a := []) hrest.symm
            refine ⟨c :: l₁, l₂, rfl, ?_, hb⟩
            rw [List.flatMap_cons, hnil, List.append_nil, hpre]
          | cons e c' =>
            refine absurd ?_ hnot
            rw [hpre, (List.cons.inj hrest).1]
            exact List.mem_append_right _ List.mem_cons_self
  · rintro ⟨l₁, l₂, rfl, rfl, rfl⟩
    rw [List.flatMap_append, List.flatMap_cons, hsep, List.singleton_append]

theorem mem_flatMap_iff {d : Char} (hpercent : d ≠ '%') (hd : isHexDigit d = false)
    (htext : isPathText d = true) : d ∈ l.flatMap encodeChar ↔ d ∈ l := by
  constructor
  · intro hmem
    obtain ⟨a, b, heq⟩ := List.append_of_mem hmem
    obtain ⟨l₁, l₂, rfl, -⟩ := (flatMap_eq_append_cons hpercent hd htext).mp heq
    exact List.mem_append_right _ List.mem_cons_self
  · intro hmem
    obtain ⟨l₁, l₂, hl⟩ := List.append_of_mem hmem
    rw [(flatMap_eq_append_cons hpercent hd htext).mpr ⟨l₁, l₂, hl, rfl, rfl⟩]
    exact List.mem_append_right _ List.mem_cons_self

/-- A separator that a component does not allow is not in the text. -/
theorem not_mem_of_isEncoded_flatMap {allowed : Char → Bool} {d : Char} (hpercent : d ≠ '%')
    (hd : isHexDigit d = false) (htext : isPathText d = true) (hallowed : allowed d = false)
    (h : isEncoded allowed (l.flatMap encodeChar) = true) : d ∉ l := by
  rw [← mem_flatMap_iff hpercent hd htext]
  exact Uri.not_mem_of_isEncoded h hpercent hd hallowed

theorem isNameChar_of_isPathText {c : Char} (hcolon : c ≠ ':') (hat : c ≠ '@') (hslash : c ≠ '/')
    (h : isPathText c = true) : Uri.isNameChar c = true := by
  simpa [isPathText, isPathChar, hcolon, hat, hslash] using h

/-- The encodings of users' information. -/
theorem isEncoded_userinfo_iff (hslash : '/' ∉ l) :
    isEncoded Uri.isUserinfoChar (l.flatMap encodeChar) = true ↔ '@' ∉ l := by
  constructor
  · exact not_mem_of_isEncoded_flatMap (by decide) (by decide) (by decide) (by decide)
  · intro hat
    refine (encodes_flatMap fun c hc htext => ?_).1
    rw [Uri.isUserinfoChar, Bool.or_eq_true]
    by_cases hcolon : c = ':'
    · exact .inr (beq_iff_eq.mpr hcolon)
    · exact .inl (isNameChar_of_isPathText hcolon (fun heq => hat (heq ▸ hc))
        (fun heq => hslash (heq ▸ hc)) htext)

/-- The encodings of hosts are names. -/
theorem isHost_iff (hslash : '/' ∉ l) :
    Uri.IsHost (l.flatMap encodeChar) ↔ '@' ∉ l ∧ ':' ∉ l := by
  constructor
  · rintro (hname | ⟨address, heq, -⟩)
    · exact ⟨not_mem_of_isEncoded_flatMap (by decide) (by decide) (by decide) (by decide) hname,
        not_mem_of_isEncoded_flatMap (by decide) (by decide) (by decide) (by decide) hname⟩
    · have hmem : '[' ∈ l.flatMap encodeChar := by
        rw [heq]
        exact List.mem_cons_self
      obtain ⟨c, -, hc⟩ := List.mem_flatMap.mp hmem
      exact absurd hc (not_mem_encodeChar (by decide) (by decide)
        fun htext => absurd htext (by decide))
  · rintro ⟨hat, hcolon⟩
    exact .inl (encodes_flatMap fun c hc htext => isNameChar_of_isPathText
      (fun heq => hcolon (heq ▸ hc)) (fun heq => hat (heq ▸ hc)) (fun heq => hslash (heq ▸ hc))
      htext).1

/-- The encodings of ports. -/
theorem all_isDigit_iff :
    (l.flatMap encodeChar).all Char.isDigit = true ↔ l.all Char.isDigit = true := by
  induction l with
  | nil => rfl
  | cons c l ih =>
    rw [List.flatMap_cons, List.all_append, List.all_cons, Bool.and_eq_true, Bool.and_eq_true, ih]
    refine and_congr_left fun _ => ?_
    obtain ⟨-, heq⟩ | ⟨hnot, hnil, hencodes⟩ := encodeChar_cases c
    · rw [heq]
      simp
    · refine iff_of_false (fun hall => ?_) fun hdigit => ?_
      · obtain ⟨d, text, heq⟩ := List.exists_cons_of_ne_nil hnil
        have hencoded := (hencodes fun _ => false).1
        rw [heq, List.all_cons, Bool.and_eq_true] at hall
        rw [heq] at hencoded
        by_cases hd : d = '%'
        · rw [hd] at hall
          exact absurd hall.1 (by decide)
        · rw [Uri.isEncoded_cons hd] at hencoded
          cases hencoded
      · rw [isPathText, isPathChar, Uri.isNameChar, Uri.isUnreserved, Char.isAlphanum,
          hdigit] at hnot
        simp at hnot

/-- The encodings of hosts with ports. -/
theorem hostPort_iff (hslash : '/' ∉ l) :
    (∃ (host : List Char) (port : Option (List Char)),
        l.flatMap encodeChar = host ++ port.elim [] (':' :: ·) ∧ Uri.IsHost host ∧
          ∀ p ∈ port, p.all Char.isDigit = true) ↔
      ∃ (host : List Char) (port : Option (List Char)),
        l = host ++ port.elim [] (':' :: ·) ∧ ('@' ∉ host ∧ ':' ∉ host) ∧
          ∀ p ∈ port, p.all Char.isDigit = true := by
  constructor
  · rintro ⟨host, port, heq, hhost, hport⟩
    cases port with
    | none =>
      rw [Option.elim_none, List.append_nil] at heq
      rw [← heq, isHost_iff hslash] at hhost
      exact ⟨l, none, (List.append_nil l).symm, hhost, hport⟩
    | some p =>
      obtain ⟨l₁, l₂, rfl, rfl, rfl⟩ :=
        (flatMap_eq_append_cons (by decide) (by decide) (by decide)).mp heq
      rw [isHost_iff fun hmem => hslash (List.mem_append_left _ hmem)] at hhost
      refine ⟨l₁, some l₂, rfl, hhost, fun p hp => ?_⟩
      cases hp
      exact all_isDigit_iff.mp (hport _ rfl)
  · rintro ⟨host, port, rfl, hhost, hport⟩
    have hhost' := (isHost_iff fun hmem => hslash (List.mem_append_left _ hmem)).mpr hhost
    cases port with
    | none => exact ⟨host.flatMap encodeChar, none, by simp, hhost', by simp⟩
    | some p =>
      refine ⟨host.flatMap encodeChar, some (p.flatMap encodeChar), ?_, hhost', fun q hq => ?_⟩
      · exact (flatMap_eq_append_cons (by decide) (by decide) (by decide)).mpr
          ⟨host, p, rfl, rfl, rfl⟩
      · cases hq
        exact all_isDigit_iff.mpr (hport p rfl)

/-- The encodings of servers. -/
theorem isAuthority_iff (hslash : '/' ∉ l) :
    Uri.IsAuthority (l.flatMap encodeChar) ↔ IsServer l := by
  constructor
  · rintro ⟨userinfo, host, port, heq, huser, hhost, hport⟩
    cases userinfo with
    | none =>
      obtain ⟨host, port, rfl, ⟨hat, hcolon⟩, hport⟩ :=
        (hostPort_iff hslash).mp ⟨host, port, heq, hhost, hport⟩
      exact ⟨none, host, port, rfl, by simp, hat, hcolon, hport⟩
    | some u =>
      rw [Option.elim_some, List.append_assoc, List.singleton_append] at heq
      obtain ⟨l₁, l₂, rfl, rfl, hrest⟩ :=
        (flatMap_eq_append_cons (by decide) (by decide) (by decide)).mp heq
      obtain ⟨host, port, rfl, ⟨hat, hcolon⟩, hport⟩ :=
        (hostPort_iff fun hmem => hslash (List.mem_append_right _ (List.mem_cons_of_mem _ hmem))).mp
          ⟨host, port, hrest, hhost, hport⟩
      refine ⟨some l₁, host, port, by simp, fun u hu => ?_, hat, hcolon, hport⟩
      cases hu
      exact (isEncoded_userinfo_iff fun hmem => hslash (List.mem_append_left _ hmem)).mp
        (huser _ rfl)
  · rintro ⟨userinfo, host, port, rfl, huser, hat, hcolon, hport⟩
    obtain ⟨host', port', heq, hhost, hport⟩ :=
      (hostPort_iff fun hmem => hslash (List.mem_append_right _ hmem)).mpr
        ⟨host, port, rfl, ⟨hat, hcolon⟩, hport⟩
    cases userinfo with
    | none => exact ⟨none, host', port', heq, by simp, hhost, hport⟩
    | some u =>
      refine ⟨some (u.flatMap encodeChar), host', port', ?_, fun v hv => ?_, hhost, hport⟩
      · rw [Option.elim_some, List.append_assoc, List.singleton_append, Option.elim_some,
          List.append_assoc, List.singleton_append]
        exact (flatMap_eq_append_cons (by decide) (by decide) (by decide)).mpr ⟨u, _, rfl, rfl, heq⟩
      · cases hv
        refine (isEncoded_userinfo_iff fun hmem => hslash ?_).mpr (huser u rfl)
        exact List.mem_append_left _ (List.mem_append_left _ hmem)

end

/-! ### Shares -/

section

variable {path : String}

/-- The path of a share starts with two slashes. -/
theorem exists_share (hunc : isUncPath path = true) :
    ∃ share, (normalised path).toList = '/' :: '/' :: share ∧ below share = share := by
  rw [isUncPath, Bool.and_eq_true, Bool.and_eq_true] at hunc
  obtain ⟨⟨-, htwo⟩, hthree⟩ := hunc
  obtain ⟨share, hshare⟩ := of_decide_eq_true htwo
  refine ⟨share, hshare.symm, ?_⟩
  have hnot : ¬ "///".toList <+: (normalised path).toList := by simpa [startsWith] using hthree
  cases share with
  | nil => rfl
  | cons c share =>
    refine List.dropWhile_cons_of_neg fun hc => hnot ⟨share, ?_⟩
    rw [← hshare, eq_of_beq hc]
    rfl

/-- A segment that is kept is no server. -/
theorem not_isAuthority_kept {c : Char} (hchar : isPathChar c = false) :
    ¬ Uri.IsAuthority [c, ':'] := by
  rintro ⟨userinfo, host, port, heq, -, hhost, -⟩
  cases userinfo with
  | some u =>
    have hat : '@' ∈ [c, ':'] := by
      rw [heq]
      simp
    obtain rfl : '@' = c := by simpa using hat
    cases hchar
  | none =>
    rw [Option.elim_none, List.nil_append] at heq
    cases host with
    | nil =>
      cases port with
      | none => cases heq
      | some p =>
        obtain rfl : c = ':' := (List.cons.inj heq).1
        cases hchar
    | cons d host =>
      obtain ⟨rfl, htail⟩ := List.cons.inj heq
      obtain hname | ⟨address, hbrackets, -⟩ := hhost
      · have hchar' : Uri.isNameChar c = false := by
          rw [isPathChar, Bool.or_eq_false_iff, Bool.or_eq_false_iff] at hchar
          exact hchar.1.1
        cases host with
        | nil =>
          by_cases hpercent : c = '%'
          · rw [hpercent] at hname
            cases hname
          · rw [Uri.isEncoded_cons hpercent, hchar'] at hname
            cases hname
        | cons e host =>
          rw [← (List.cons.inj htail).1, Uri.isEncoded_cons_eq_false (by decide) fun _ => hchar']
            at hname
          cases hname
      · rw [(List.cons.inj hbrackets).2] at htail
        cases address with
        | nil => cases (List.cons.inj htail).1
        | cons e address => simp at htail

/-- What comes before a slash, or before the end. -/
theorem span_append {p : Char → Bool} (hslash : p '/' = false) {l rest : List Char}
    (hl : ∀ d ∈ l, p d = true) (hrest : rest = [] ∨ rest.head? = some '/') :
    (l ++ rest).takeWhile p = l ∧ (l ++ rest).dropWhile p = rest := by
  rw [List.takeWhile_append_of_pos hl, List.dropWhile_append_of_pos hl]
  cases rest with
  | nil => exact ⟨List.append_nil l, rfl⟩
  | cons c rest =>
    obtain rfl : c = '/' := by simpa using hrest
    rw [List.takeWhile_cons_of_neg (by simp [hslash]), List.append_nil,
      List.dropWhile_cons_of_neg (by simp [hslash])]
    exact ⟨rfl, rfl⟩

/-- The first segment of a text, and what follows it. -/
theorem exists_segment (w : List Char) : ∃ seg rest, w = seg ++ rest ∧ '/' ∉ seg ∧
    (rest = [] ∨ rest.head? = some '/') ∧
    (rest.flatMap encodeChar = [] ∨ (rest.flatMap encodeChar).head? = some '/') ∧
    w.takeWhile (· != '/') = seg := by
  have hne {seg : List Char} (h : '/' ∉ seg) : ∀ c ∈ seg, (c != '/') = true := fun c hc => by
    rw [bne_iff_ne]
    rintro rfl
    exact h hc
  induction w using segments_induction with
  | hlast seg h =>
    refine ⟨seg, [], (List.append_nil seg).symm, h, .inl rfl, .inl rfl, ?_⟩
    exact List.takeWhile_eq_self_iff.mpr (hne h)
  | hcons seg w h _ =>
    refine ⟨seg, '/' :: w, rfl, h, .inr rfl, .inr rfl, ?_⟩
    exact (span_append (by decide) (hne h) (.inr rfl)).1

theorem starts_below {before : List Char} (h : before = [] ∨ before.getLast? = some '/') :
    below before = [] ∨ '/' ∈ below before := by
  obtain rfl | hlast := h
  · exact .inl rfl
  · obtain ⟨front, hfront⟩ := List.dropWhile_suffix (l := before) (· == '/')
    refine or_iff_not_imp_left.mpr fun hnil => ?_
    have hfront' : front ++ below before = before := hfront
    rw [← hfront', List.getLast?_append_of_ne_nil _ hnil] at hlast
    exact List.mem_of_getLast? hlast

/-- A segment that is kept keeps a share from being read back. -/
theorem not_recovers_kept {before after after' : List Char} {c : Char}
    (hstarts : before = [] ∨ '/' ∈ before) (hends : after' = [] ∨ after'.head? = some '/')
    (hslash : c ≠ '/') (hchar : isPathChar c = false)
    (hauthority : Uri.IsAuthority
      ((before.flatMap encodeChar ++ c :: ':' :: after').takeWhile Uri.inAuthority))
    (hpath : isEncoded isPathText (((before.flatMap encodeChar ++ c :: ':' :: after').dropWhile
      Uri.inAuthority).takeWhile Uri.inPath) = true) :
    percentDecode ('/' :: '/' ::
        ((before.flatMap encodeChar ++ c :: ':' :: after').takeWhile Uri.inAuthority ++
          ((before.flatMap encodeChar ++ c :: ':' :: after').dropWhile Uri.inAuthority).takeWhile
            Uri.inPath)) ≠
      some (('/' :: '/' :: (before ++ c :: ':' :: after)).flatMap String.utf8EncodeChar) := by
  intro hrecovers
  obtain rfl | hmem := hstarts
  · -- the segment is where the server should be
    rw [List.flatMap_nil, List.nil_append] at hauthority hpath hrecovers
    by_cases hin : Uri.inAuthority c = true
    · have htake : (c :: ':' :: after').takeWhile Uri.inAuthority = [c, ':'] :=
        (span_append (l := [c, ':']) (by decide) (by simp [hin]; decide) hends).1
      rw [htake] at hauthority
      exact not_isAuthority_kept hchar hauthority
    · have hin' : ¬ Uri.inPath c = true := by
        simpa [Uri.inAuthority, Uri.inPath, hslash] using hin
      rw [List.takeWhile_cons_of_neg hin, List.dropWhile_cons_of_neg hin,
        List.takeWhile_cons_of_neg hin'] at hrecovers
      refine not_encodes_kept hslash hchar ['/', '/'] after after' ?_
      rw [List.takeWhile_cons_of_neg hin']
      exact ⟨by decide, hrecovers⟩
  · -- the segment is in the path
    obtain ⟨server, rest, rfl, hserver, hrest, -, -⟩ := exists_segment before
    have hhead : (rest.flatMap encodeChar ++ c :: ':' :: after').head? = some '/' := by
      obtain rfl | hrest := hrest
      · rw [List.append_nil] at hmem
        exact absurd hmem hserver
      · obtain ⟨more, rfl⟩ := List.head?_eq_some_iff.mp hrest
        rfl
    obtain ⟨htake, hdrop⟩ := span_append (p := Uri.inAuthority) (by decide)
      (inAuthority_of_mem hserver) (.inr hhead)
    rw [List.flatMap_append, List.append_assoc] at hpath hrecovers
    rw [hdrop, List.takeWhile_append_of_pos inPath_of_mem] at hpath hrecovers
    rw [htake] at hrecovers
    have htext : ('/' :: '/' :: (server ++ rest)).flatMap encodeChar =
        ('/' :: '/' :: server).flatMap encodeChar ++ rest.flatMap encodeChar :=
      @List.flatMap_append _ _ ('/' :: '/' :: server) rest encodeChar
    refine not_encodes_kept hslash hchar ('/' :: '/' :: (server ++ rest)) after after' ⟨?_, ?_⟩
    · rw [htext, List.append_assoc, Uri.isEncoded_append (encodes_text _).1]
      exact hpath
    · rw [htext, List.append_assoc]
      exact hrecovers

/-- When the location of a share is right. -/
theorem locates_unc_iff (hunc : isUncPath path = true) :
    Locates path ⟨fileUriFromPath path, none⟩ ↔ DrivesOk (normalised path).toList ∧
      IsServer (((normalised path).toList.drop 2).takeWhile (· != '/')) := by
  obtain ⟨share, hshare, hbelow⟩ := exists_share hunc
  have hnamed : encode (namedPath path) = ('/' :: '/' :: share).flatMap String.utf8EncodeChar := by
    rw [namedPath, hunc, Bool.not_true, Bool.and_false, if_neg Bool.false_ne_true, encode, hshare]
  have hbelow' : below (normalised path).toList = share := by
    rw [hshare, below, List.dropWhile_cons_of_pos (by decide),
      List.dropWhile_cons_of_pos (by decide)]
    exact hbelow
  have hdrop : (normalised path).toList.drop 2 = share := by rw [hshare]; rfl
  rw [hdrop]
  obtain ⟨hok, hjoined⟩ | ⟨hnot, before, c, after, after', hkept⟩ :=
    joined_encodeFileSegment (normalised path).toList
  · obtain ⟨server, rest, rfl, hserver, -, hrest, htake⟩ := exists_segment share
    rw [and_iff_right hok, htake]
    have htrim := below_flatMap (t := []) rfl (normalised path).toList
    rw [List.append_nil, List.append_nil, ← hjoined, hbelow', List.flatMap_append] at htrim
    have href := ofText_unc hunc htrim
    obtain ⟨hauthority, hpath⟩ := span_append (p := Uri.inAuthority) (by decide)
      (inAuthority_of_mem hserver) hrest
    rw [hauthority, hpath, List.takeWhile_eq_self_iff.mpr inPath_of_mem,
      List.dropWhile_eq_nil_iff.mpr inPath_of_mem] at href
    rw [← isAuthority_iff hserver]
    constructor
    · intro hlocates
      have hvalid := hlocates.valid
      dsimp only at hvalid
      rw [href] at hvalid
      exact hvalid.authority _ rfl
    · refine fun hvalid => ⟨?_, ?_, fun hbase => by cases hbase⟩
      · rw [href]
        exact valid_file hvalid (encodes_text rest).1
      · have hencodes := encodes_text ('/' :: '/' :: (server ++ rest))
        rw [flatMap_slash, flatMap_slash] at hencodes
        rw [href, pathText, hunc, if_pos rfl, hnamed, Option.getD_some, ← List.flatMap_append]
        exact hencodes.2
  · refine iff_of_false (fun hlocates => ?_) fun hok => hnot hok.1
    have hslash := hkept.slash
    have htrim : below (joined encodeFileSegment (normalised path).toList) =
        (below before).flatMap encodeChar ++ c :: ':' :: after' := by
      rw [hkept.encoded]
      exact below_flatMap (below_kept hslash [] _) before
    rw [hkept.path, below_kept hslash] at hbelow'
    have href := ofText_unc hunc htrim
    have hvalid := hlocates.valid
    have hrecovers := hlocates.recovers
    rw [hnamed, pathText, hunc, if_pos rfl, ← hbelow'] at hrecovers
    dsimp only at hvalid hrecovers
    rw [href] at hvalid hrecovers
    exact not_recovers_kept (starts_below hkept.starts) hkept.ends hslash hkept.char
      (hvalid.authority _ rfl) hvalid.path hrecovers

end

/-! ### Relative paths -/

theorem flatMap_eq_nil {l : List Char} (h : l.flatMap encodeChar = []) : l = [] := by
  have hencodes := (encodes_text l).2
  rw [h] at hencodes
  exact eq_nil_of_utf8 (Option.some.inj hencodes).symm

/-- The slashes in front of a path without a root. -/
theorem startsWith_backslash_iff {path : String} (habsolute : isAbsoluteSourcePath path = false) :
    startsWith "\\/" path = true ↔
      ['/', '/'] <+: (normalised path).toList.flatMap encodeChar := by
  have hencoded : ['/', '/'] <+: (normalised path).toList.flatMap encodeChar ↔
      ['/', '/'] <+: (normalised path).toList := by
    constructor
    · rintro ⟨t, ht⟩
      obtain ⟨l₁, l₂, heq, hnil, ht⟩ := (flatMap_eq_append_cons (a := []) (by decide) (by decide)
        (by decide)).mp ht.symm
      obtain ⟨l₃, l₄, heq', hnil', -⟩ := (flatMap_eq_append_cons (a := []) (by decide) (by decide)
        (by decide)).mp ht
      rw [heq, heq', flatMap_eq_nil hnil, flatMap_eq_nil hnil']
      exact ⟨l₄, rfl⟩
    · rintro ⟨t, ht⟩
      rw [← ht]
      exact ⟨t.flatMap encodeChar, rfl⟩
  have hstarts : startsWith "/" path = false ∧ startsWith "\\\\" path = false := by
    rw [isAbsoluteSourcePath, Bool.or_eq_false_iff, Bool.or_eq_false_iff, Bool.or_eq_false_iff]
      at habsolute
    exact habsolute.1.1
  obtain ⟨hone, htwo⟩ := hstarts
  rw [startsWith, decide_eq_false_iff_not] at hone htwo
  have hslash {a : Char} (h : (if a = '\\' then '/' else a) = '/') : a = '\\' ∨ a = '/' := by
    split at h
    · next ha => exact .inl ha
    · exact .inr h
  rw [hencoded, normalised, String.toList_ofList, startsWith, decide_eq_true_iff]
  constructor
  · rintro ⟨t, ht⟩
    rw [← ht]
    exact ⟨t.map _, rfl⟩
  · rintro ⟨t, ht⟩
    obtain ⟨a, more, hpath, ha, hmore⟩ := List.map_eq_cons_iff.mp ht.symm
    obtain ⟨b, rest, rfl, hb, -⟩ := List.map_eq_cons_iff.mp hmore
    rw [hpath] at hone htwo ⊢
    obtain rfl | rfl := hslash ha
    · obtain rfl | rfl := hslash hb
      · exact absurd ⟨rest, rfl⟩ htwo
      · exact ⟨rest, rfl⟩
    · exact absurd ⟨b :: rest, rfl⟩ hone

/-- A reference with a path only. -/
theorem valid_path {text : List Char} (htext : isEncoded isPathText text = true)
    (hcolon : ':' ∉ text.takeWhile (· != '/')) :
    (⟨none, none, text, none, none⟩ : Reference).Valid where
  scheme s hs := by cases hs
  authority a ha := by cases ha
  path := htext
  noscheme _ _ := hcolon
  query q hq := by cases hq
  fragment f hf := by cases hf

/-- When the location of a path without a root is right. -/
theorem locates_relative_iff {path : String} (habsolute : isAbsoluteSourcePath path = false) :
    Locates path ⟨relativeUriFromPath path, some "%SRCROOT%"⟩ ↔
      startsWith "\\/" path = false ∧ ':' ∉ (normalised path).toList.takeWhile (· != '/') := by
  have huri : (relativeUriFromPath path).toList = (normalised path).toList.flatMap encodeChar := by
    rw [← joined_encodePathSegment, joined, String.ofList_toList, relativeUriFromPath]
  have hunc : isUncPath path = false := by rw [isUncPath, habsolute]; rfl
  have hnamed : encode (namedPath path) =
      (normalised path).toList.flatMap String.utf8EncodeChar := by
    rw [namedPath, habsolute, Bool.false_and, if_neg Bool.false_ne_true, encode]
  have hslash : startsWith "\\/" path = false ↔
      ¬ ['/', '/'] <+: (normalised path).toList.flatMap encodeChar := by
    rw [← startsWith_backslash_iff habsolute, Bool.not_eq_true]
  have hcolon : ':' ∉ (normalised path).toList.takeWhile (· != '/') ↔
      ':' ∉ ((normalised path).toList.flatMap encodeChar).takeWhile (· != '/') := by
    obtain ⟨seg, rest, heq, hseg, -, hrest, htake⟩ := exists_segment (normalised path).toList
    have hne : ∀ d ∈ seg.flatMap encodeChar, (d != '/') = true := by
      intro d hd
      have hin := inAuthority_of_mem hseg d hd
      rw [Uri.inAuthority, Bool.and_eq_true, Bool.and_eq_true] at hin
      exact hin.1.1
    rw [htake, heq, List.flatMap_append, (span_append (by decide) hne hrest).1,
      mem_flatMap_iff (by decide) (by decide) (by decide)]
  rw [hslash, hcolon]
  constructor
  · intro hlocates
    have hvalid := hlocates.valid
    obtain ⟨hscheme, hauthority⟩ := hlocates.relative rfl
    dsimp only at hvalid hscheme hauthority
    rw [huri] at hvalid hscheme hauthority
    exact (hvalid.path_only inPath_of_mem hscheme hauthority).symm
  · rintro ⟨hslash, hcolon⟩
    have href := Uri.ofText_path inPath_of_mem hcolon hslash
    rw [← huri] at href
    refine ⟨?_, ?_, fun _ => ?_⟩
    · rw [href, huri]
      exact valid_path (encodes_text _).1 hcolon
    · rw [href, huri, pathText, hunc, if_neg Bool.false_ne_true, hnamed]
      exact (encodes_text _).2
    · rw [href]
      exact ⟨rfl, rfl⟩

/-- **When the location of a result is right.** -/
theorem findingToResult_locates_iff (f : Finding) (sourceFile : String) :
    (∀ location ∈ (findingToResult f sourceFile).locations,
        Locates sourceFile location.physicalLocation.artifactLocation) ↔ Encodable sourceFile := by
  have hdrives : DrivesOk (normalised sourceFile).toList ↔ ∀ c : Char, c.toNat < 128 →
      String.ofList [c, ':'] ∈ splitAt (· == '/') (normalised sourceFile) →
        isPathChar c = true := by
    rw [DrivesOk, String.ofList_toList]
  rw [findingToResult, List.forall_mem_singleton, artifactLocation]
  cases habsolute : isAbsoluteSourcePath sourceFile with
  | false =>
    have hunc : isUncPath sourceFile = false := by rw [isUncPath, habsolute]; rfl
    rw [if_neg Bool.false_ne_true, locates_relative_iff habsolute]
    constructor
    · exact fun hrelative => ⟨fun h => by simp [habsolute] at h, fun h => by simp [hunc] at h,
        fun _ => hrelative⟩
    · exact fun hencodable => hencodable.relative habsolute
  | true =>
    rw [if_pos rfl]
    cases hunc : isUncPath sourceFile with
    | false =>
      rw [locates_local_iff habsolute hunc, hdrives]
      constructor
      · exact fun hok => ⟨fun _ => hok, fun h => by simp [hunc] at h,
          fun h => by simp [habsolute] at h⟩
      · exact fun hencodable => hencodable.drives habsolute
    | true =>
      rw [locates_unc_iff hunc, hdrives]
      constructor
      · exact fun hok => ⟨fun _ => hok.1, fun _ => hok.2, fun h => by simp [habsolute] at h⟩
      · exact fun hencodable => ⟨hencodable.drives habsolute, hencodable.server hunc⟩

/-- A path without a root whose first segment has a colon gets a scheme. -/
theorem not_locates_colon :
    ¬ ∀ (f : Finding) (sourceFile : String), ∀ location ∈ (findingToResult f sourceFile).locations,
      Locates sourceFile location.physicalLocation.artifactLocation := by
  intro h
  have hlocates := h ⟨"", .info, "", none, none⟩ "a:b.rs" _ (List.mem_singleton.mpr rfl)
  have habsolute : isAbsoluteSourcePath "a:b.rs" = false := by decide +kernel
  exact ((locates_relative_iff habsolute).mp hlocates).2 (by decide +kernel)

end SorobanDevkit.Audit
