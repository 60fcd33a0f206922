import Mathlib.Data.List.TakeWhile
import SorobanDevkit.Library.Hex
import SorobanDevkit.Library.NameCase

/-!
# Generic syntax of resource identifiers

A reference is cut at its delimiters into a scheme, an authority, a path, a query and a fragment,
each of which has its own characters. Other characters stand there as triplets of a percent sign and
two hexadecimal digits, one triplet for each byte.

## Main results

* `Encodes.append_iff` — what follows a text of triplets is read on its own.
* `ofText_authority`, `ofText_path` — the components of a reference that has an authority, and of
  one that is a path.
-/

namespace Uri

/-! ### Triplets -/

/-- The characters that are data everywhere. -/
def isUnreserved (c : Char) : Bool :=
  c.isAlphanum || c == '-' || c == '.' || c == '_' || c == '~'

/-- The delimiters inside components. -/
def isSubDelim (c : Char) : Bool := "!$&'()*+,;=".toList.contains c

/-- A digit of a triplet, in either case. -/
def isHexDigit (c : Char) : Bool := (Hex.decodeDigit c).isSome

/-- A text of triplets and allowed characters. -/
def isEncoded (allowed : Char → Bool) : List Char → Bool
  | [] => true
  | c :: text =>
    if c = '%' then
      match text with
      | hi :: lo :: rest => isHexDigit hi && isHexDigit lo && isEncoded allowed rest
      | _ => false
    else allowed c && isEncoded allowed text

/-- The bytes of a text, those of its triplets and the UTF-8 of its other characters. -/
def percentDecode : List Char → Option (List UInt8)
  | [] => some []
  | c :: text =>
    if c = '%' then
      match text with
      | hi :: lo :: rest => do
        let h ← Hex.decodeDigit hi
        let l ← Hex.decodeDigit lo
        let bytes ← percentDecode rest
        some (UInt8.ofNat (h * 16 + l) :: bytes)
      | _ => none
    else (percentDecode text).map (String.utf8EncodeChar c ++ ·)

/-- The text has only allowed characters and triplets, and stands for the bytes. -/
def Encodes (allowed : Char → Bool) (text : List Char) (bytes : List UInt8) : Prop :=
  isEncoded allowed text = true ∧ percentDecode text = some bytes

/-- The UTF-8 of a character is its ASCII byte, or has no ASCII bytes. -/
theorem utf8EncodeChar_cases (c : Char) :
    (c.toNat < 128 ∧ String.utf8EncodeChar c = [UInt8.ofNat c.toNat]) ∨
      128 ≤ c.toNat ∧ 2 ≤ (String.utf8EncodeChar c).length ∧
        ∀ byte ∈ String.utf8EncodeChar c, 128 ≤ byte.toNat := by
  have hbyte (n : ℕ) (hlow : 128 ≤ n) (hhigh : n < 256) : 128 ≤ (UInt8.ofNat n).toNat := by
    rw [UInt8.toNat_ofNat']
    omega
  have hval : c.val.toNat = c.toNat := rfl
  rw [String.utf8EncodeChar, hval]
  by_cases hascii : c.toNat ≤ 0x7f
  · exact .inl ⟨by omega, if_pos hascii⟩
  · refine .inr ⟨by omega, ?_⟩
    simp only [if_neg hascii]
    split
    · simp only [List.length_cons, List.length_nil, List.forall_mem_cons, List.not_mem_nil,
        false_implies, implies_true, and_true]
      exact ⟨by omega, hbyte _ (by omega) (by omega), hbyte _ (by omega) (by omega)⟩
    · split
      · simp only [List.length_cons, List.length_nil, List.forall_mem_cons, List.not_mem_nil,
          false_implies, implies_true, and_true]
        exact ⟨by omega, hbyte _ (by omega) (by omega), hbyte _ (by omega) (by omega),
          hbyte _ (by omega) (by omega)⟩
      · simp only [List.length_cons, List.length_nil, List.forall_mem_cons, List.not_mem_nil,
          false_implies, implies_true, and_true]
        exact ⟨by omega, hbyte _ (by omega) (by omega), hbyte _ (by omega) (by omega),
          hbyte _ (by omega) (by omega), hbyte _ (by omega) (by omega)⟩

section

variable {allowed allowed' : Char → Bool} {a b : List Char} {x y : List UInt8}

theorem isEncoded_cons {c : Char} (hne : c ≠ '%') (text : List Char) :
    isEncoded allowed (c :: text) = (allowed c && isEncoded allowed text) := by
  rw [isEncoded.eq_def]
  exact if_neg hne

theorem percentDecode_cons {c : Char} (hne : c ≠ '%') (text : List Char) :
    percentDecode (c :: text) = (percentDecode text).map (String.utf8EncodeChar c ++ ·) := by
  rw [percentDecode.eq_def]
  exact if_neg hne

theorem isEncoded_append (h : isEncoded allowed a = true) :
    isEncoded allowed (a ++ b) = isEncoded allowed b := by
  fun_induction isEncoded allowed a with
  | case1 => rfl
  | case2 hi lo rest ih =>
    simp only [Bool.and_eq_true] at h
    rw [List.cons_append, List.cons_append, List.cons_append, isEncoded, if_pos rfl]
    simp only [h.1.1, h.1.2, Bool.true_and]
    exact ih h.2
  | case3 => cases h
  | case4 c text hc ih =>
    rw [Bool.and_eq_true] at h
    rw [List.cons_append, isEncoded_cons hc, h.1, Bool.true_and, ih h.2]

theorem percentDecode_append (h : percentDecode a = some x) :
    percentDecode (a ++ b) = (percentDecode b).map (x ++ ·) := by
  fun_induction percentDecode a generalizing x with
  | case1 =>
    obtain rfl := Option.some.inj h
    simp
  | case2 hi lo rest ih =>
    simp only [Option.bind_eq_bind, Option.bind_eq_some_iff, Option.some.injEq] at h
    obtain ⟨hv, hhi, lv, hlo, bytes, hrest, rfl⟩ := h
    rw [List.cons_append, List.cons_append, List.cons_append, percentDecode, if_pos rfl]
    simp only [hhi, hlo, ih hrest, Option.bind_eq_bind, Option.bind_some]
    cases percentDecode b <;> rfl
  | case3 => cases h
  | case4 c text hc ih =>
    obtain ⟨bytes, htext, rfl⟩ := Option.map_eq_some_iff.mp h
    rw [List.cons_append, percentDecode_cons hc, ih htext, Option.map_map]
    simp only [Function.comp_def, List.append_assoc]

theorem Encodes.nil : Encodes allowed [] [] := ⟨rfl, rfl⟩

/-- **What follows a text of triplets is read on its own.** -/
theorem Encodes.append_iff (h : Encodes allowed a x) :
    Encodes allowed (a ++ b) y ↔ ∃ z, y = x ++ z ∧ Encodes allowed b z := by
  rw [Encodes, isEncoded_append h.1, percentDecode_append h.2]
  constructor
  · rintro ⟨hencoded, hbytes⟩
    obtain ⟨z, hz, rfl⟩ := Option.map_eq_some_iff.mp hbytes
    exact ⟨z, rfl, hencoded, hz⟩
  · rintro ⟨z, rfl, hencoded, hz⟩
    exact ⟨hencoded, by rw [hz, Option.map_some]⟩

theorem Encodes.append (h : Encodes allowed a x) (h' : Encodes allowed b y) :
    Encodes allowed (a ++ b) (x ++ y) := h.append_iff.mpr ⟨y, rfl, h'⟩

theorem Encodes.flatMap {α : Type*} {l : List α} {f : α → List Char} {g : α → List UInt8}
    (h : ∀ c ∈ l, Encodes allowed (f c) (g c)) : Encodes allowed (l.flatMap f) (l.flatMap g) := by
  induction l with
  | nil => exact Encodes.nil
  | cons c l ih =>
    obtain ⟨hc, hl⟩ := List.forall_mem_cons.mp h
    exact hc.append (ih hl)

/-- A character that stands for itself. -/
theorem Encodes.char {c : Char} (hne : c ≠ '%') (h : allowed c = true) :
    Encodes allowed [c] (String.utf8EncodeChar c) := by
  rw [Encodes, isEncoded_cons hne, percentDecode_cons hne, h]
  exact ⟨rfl, congrArg some (List.append_nil _)⟩

/-- A triplet stands for its byte. -/
theorem Encodes.triplet {hi lo : Char} {n m : ℕ} (hhi : Hex.decodeDigit hi = some n)
    (hlo : Hex.decodeDigit lo = some m) :
    Encodes allowed ['%', hi, lo] [UInt8.ofNat (n * 16 + m)] := by
  rw [Encodes, isEncoded, percentDecode, if_pos rfl, if_pos rfl]
  simp only [isHexDigit, hhi, hlo]
  exact ⟨rfl, rfl⟩

/-- The characters of a text of triplets. -/
theorem forall_mem_of_isEncoded (h : isEncoded allowed a = true) :
    ∀ c ∈ a, c = '%' ∨ isHexDigit c = true ∨ allowed c = true := by
  fun_induction isEncoded allowed a with
  | case1 => exact List.forall_mem_nil _
  | case2 hi lo rest ih =>
    simp only [Bool.and_eq_true] at h
    exact List.forall_mem_cons.mpr ⟨.inl rfl, List.forall_mem_cons.mpr ⟨.inr (.inl h.1.1),
      List.forall_mem_cons.mpr ⟨.inr (.inl h.1.2), ih h.2⟩⟩⟩
  | case3 => cases h
  | case4 c text hc ih =>
    rw [Bool.and_eq_true] at h
    exact List.forall_mem_cons.mpr ⟨.inr (.inr h.1), ih h.2⟩

theorem not_mem_of_isEncoded {c : Char} (h : isEncoded allowed a = true) (hpercent : c ≠ '%')
    (hhex : isHexDigit c = false) (hallowed : allowed c = false) : c ∉ a := by
  intro hc
  obtain heq | hdigit | hc := forall_mem_of_isEncoded h c hc
  · exact hpercent heq
  · rw [hhex] at hdigit
    cases hdigit
  · rw [hallowed] at hc
    cases hc

/-- A text that starts with neither a triplet nor an allowed character. -/
theorem isEncoded_cons_eq_false {c d : Char} (hd : isHexDigit d = false)
    (hc : c ≠ '%' → allowed c = false) (text : List Char) :
    isEncoded allowed (c :: d :: text) = false := by
  by_cases hne : c = '%'
  · subst hne
    cases text with
    | nil => rfl
    | cons lo text => rw [isEncoded, if_pos rfl, hd, Bool.false_and, Bool.false_and]
  · rw [isEncoded_cons hne, hc hne, Bool.false_and]

end

/-! ### Authorities -/

/-- `h16`: one to four hexadecimal digits. -/
def isH16 (text : List Char) : Bool :=
  decide (1 ≤ text.length) && decide (text.length ≤ 4) && text.all isHexDigit

/-- `dec-octet`: a number up to 255 without leading zeros. -/
def isDecOctet (text : List Char) : Bool :=
  decide (1 ≤ text.length) && text.all Char.isDigit && (text.head? != some '0' || text == ['0']) &&
    decide (text.foldl (fun n c => n * 10 + (c.toNat - '0'.toNat)) 0 ≤ 255)

/-- `IPv4address`. -/
def isIpv4 (text : List Char) : Bool :=
  (text.splitOn '.').length == 4 && (text.splitOn '.').all isDecOctet

/-- How many pieces of 16 bits the groups of a text are. -/
def groups (text : List Char) : Option ℕ :=
  if text = [] then some 0
  else if (text.splitOn ':').all isH16 then some (text.splitOn ':').length else none

/-- How many pieces of 16 bits the groups of a text are, the last of which may be `IPv4address`. -/
def groupsToEnd (text : List Char) : Option ℕ :=
  if (text.splitOn ':').dropLast.all isH16 && (text.splitOn ':').getLast?.any isIpv4 then
    some ((text.splitOn ':').length + 1)
  else groups text

/-- `IPv6address`: eight pieces, or fewer around one gap. -/
def IsIpv6 (text : List Char) : Prop :=
  groupsToEnd text = some 8 ∨ ∃ before after n m, text = before ++ ':' :: ':' :: after ∧
    groups before = some n ∧ groupsToEnd after = some m ∧ n + m ≤ 7

/-- `IPvFuture`. -/
def IsIpFuture (text : List Char) : Prop :=
  ∃ v version address, text = v :: (version ++ '.' :: address) ∧ (v = 'v' ∨ v = 'V') ∧
    version ≠ [] ∧ version.all isHexDigit = true ∧ address ≠ [] ∧
    (address.all fun c => isUnreserved c || isSubDelim c || c == ':') = true

/-- The characters of a registered name. -/
def isNameChar (c : Char) : Bool := isUnreserved c || isSubDelim c

/-- `host`: a name, which every `IPv4address` is too, or an address in brackets. -/
def IsHost (text : List Char) : Prop :=
  isEncoded isNameChar text = true ∨
    ∃ address, text = '[' :: (address ++ [']']) ∧ (IsIpv6 address ∨ IsIpFuture address)

/-- The characters of a user's information. -/
def isUserinfoChar (c : Char) : Bool := isNameChar c || c == ':'

/-- `authority`: a host, with what is said of the user before it and the port after it. -/
def IsAuthority (text : List Char) : Prop :=
  ∃ (userinfo : Option (List Char)) (host : List Char) (port : Option (List Char)),
    text = userinfo.elim [] (· ++ ['@']) ++ (host ++ port.elim [] (':' :: ·)) ∧
      (∀ u ∈ userinfo, isEncoded isUserinfoChar u = true) ∧ IsHost host ∧
      ∀ p ∈ port, p.all Char.isDigit = true

/-! ### References -/

/-- `scheme`. -/
def IsScheme (text : List Char) : Prop :=
  text.head?.any Char.isAlpha = true ∧
    (text.all fun c => c.isAlphanum || c == '+' || c == '-' || c == '.') = true

/-- The characters of a path segment. -/
def isPathChar (c : Char) : Bool := isNameChar c || c == ':' || c == '@'

/-- The characters of a path. -/
def isPathText (c : Char) : Bool := isPathChar c || c == '/'

theorem toNat_lt_of_isPathText {c : Char} (h : isPathText c = true) : c.toNat < 128 := by
  have hmem (l : List Char) (hl : l.all (fun d => decide (d.toNat < 128)) = true)
      (hc : l.contains c = true) : c.toNat < 128 :=
    of_decide_eq_true (List.all_eq_true.mp hl c (List.contains_iff_mem.mp hc))
  have hchar (d : Char) (hd : d.toNat < 128) (hc : (c == d) = true) : c.toNat < 128 :=
    eq_of_beq hc ▸ hd
  simp only [isPathText, isPathChar, isNameChar, isUnreserved, isSubDelim, Bool.or_eq_true] at h
  obtain (((((((h | h) | h) | h) | h) | h) | h) | h) | h := h
  · exact (NameCase.toNat_lt_of_isAlphanum h).trans (by decide)
  all_goals first | exact hchar _ (by decide) h | exact hmem _ (by decide) h

/-- The characters of a query and of a fragment. -/
def isQueryChar (c : Char) : Bool := isPathText c || c == '?'

/-- The components of a reference. -/
structure Reference where
  scheme : Option (List Char)
  authority : Option (List Char)
  path : List Char
  query : Option (List Char)
  fragment : Option (List Char)
  deriving DecidableEq

/-- A character that can be in a scheme, before its colon. -/
def inScheme (c : Char) : Bool := c != ':' && c != '/' && c != '?' && c != '#'

/-- A character that can be in an authority. -/
def inAuthority (c : Char) : Bool := c != '/' && c != '?' && c != '#'

/-- A character that can be in a path. -/
def inPath (c : Char) : Bool := c != '?' && c != '#'

/-- The scheme, and what follows it. -/
def splitScheme (text : List Char) : Option (List Char) × List Char :=
  if text.takeWhile inScheme = [] then (none, text)
  else
    match text.dropWhile inScheme with
    | ':' :: rest => (some (text.takeWhile inScheme), rest)
    | _ => (none, text)

/-- The authority, and what follows it. -/
def splitAuthority : List Char → Option (List Char) × List Char
  | '/' :: '/' :: rest => (some (rest.takeWhile inAuthority), rest.dropWhile inAuthority)
  | text => (none, text)

/-- The fragment at the start of a text. -/
def splitFragment : List Char → Option (List Char)
  | '#' :: rest => some rest
  | _ => none

/-- The query at the start of a text, and the fragment after it. -/
def splitQuery : List Char → Option (List Char) × Option (List Char)
  | '?' :: rest => (some (rest.takeWhile (· != '#')), splitFragment (rest.dropWhile (· != '#')))
  | text => (none, splitFragment text)

/-- The components of a text. -/
def Reference.ofText (text : List Char) : Reference :=
  let (scheme, rest) := splitScheme text
  let (authority, rest) := splitAuthority rest
  let (query, fragment) := splitQuery (rest.dropWhile inPath)
  ⟨scheme, authority, rest.takeWhile inPath, query, fragment⟩

/-- Each component has its form. The first segment of a path on its own has no colon, which would
end a scheme. -/
structure Reference.Valid (r : Reference) : Prop where
  scheme : ∀ s ∈ r.scheme, IsScheme s
  authority : ∀ a ∈ r.authority, IsAuthority a
  path : isEncoded isPathText r.path = true
  noscheme : r.scheme = none → r.authority = none → ':' ∉ r.path.takeWhile (· != '/')
  query : ∀ q ∈ r.query, isEncoded isQueryChar q = true
  fragment : ∀ f ∈ r.fragment, isEncoded isQueryChar f = true

variable {text : List Char}

theorem splitScheme_append {scheme : List Char} (hne : scheme ≠ [])
    (h : ∀ c ∈ scheme, inScheme c = true) (rest : List Char) :
    splitScheme (scheme ++ ':' :: rest) = (some scheme, rest) := by
  have htake : (scheme ++ ':' :: rest).takeWhile inScheme = scheme := by
    rw [List.takeWhile_append_of_pos h, List.takeWhile_cons_of_neg (by decide), List.append_nil]
  have hdrop : (scheme ++ ':' :: rest).dropWhile inScheme = ':' :: rest := by
    rw [List.dropWhile_append_of_pos h, List.dropWhile_cons_of_neg (by decide)]
  rw [splitScheme, htake, hdrop, if_neg hne]
  rfl

theorem splitScheme_eq (h : (splitScheme text).1 = none) : splitScheme text = (none, text) := by
  rw [splitScheme] at h ⊢
  split
  · rfl
  · next hne =>
    rw [if_neg hne] at h
    split
    · next heq =>
      rw [heq] at h
      cases h
    · rfl

/-- A text whose first segment has no colon has no scheme. -/
theorem splitScheme_of_not_mem (h : ':' ∉ text.takeWhile (· != '/')) :
    splitScheme text = (none, text) := by
  rw [splitScheme]
  split
  · rfl
  · split
    · next rest heq =>
      have htake : ∀ c ∈ text.takeWhile inScheme, (c != '/') = true := by
        intro c hc
        have hc' := List.mem_takeWhile_imp hc
        simp only [inScheme, Bool.and_eq_true] at hc'
        exact hc'.1.1.2
      rw [← List.takeWhile_append_dropWhile (p := inScheme) (l := text), heq,
        List.takeWhile_append_of_pos htake, List.takeWhile_cons_of_pos (by decide)] at h
      exact absurd (by simp) h
    · rfl

theorem splitAuthority_of_not_starts (h : ¬ ['/', '/'] <+: text) :
    splitAuthority text = (none, text) := by
  rw [splitAuthority]
  rintro rest rfl
  exact h ⟨rest, rfl⟩

/-- **The components of a reference with an authority.** -/
theorem ofText_authority {scheme : List Char} (hne : scheme ≠ [])
    (h : scheme.all inScheme = true) (text : List Char) :
    Reference.ofText (scheme ++ ':' :: '/' :: '/' :: text) =
      ⟨some scheme, some (text.takeWhile inAuthority),
        (text.dropWhile inAuthority).takeWhile inPath,
        (splitQuery ((text.dropWhile inAuthority).dropWhile inPath)).1,
        (splitQuery ((text.dropWhile inAuthority).dropWhile inPath)).2⟩ := by
  rw [Reference.ofText, splitScheme_append hne (List.all_eq_true.mp h)]
  rfl

/-- **The components of a reference that is a path.** -/
theorem ofText_path (h : ∀ c ∈ text, inPath c = true) (hcolon : ':' ∉ text.takeWhile (· != '/'))
    (hslash : ¬ ['/', '/'] <+: text) : Reference.ofText text = ⟨none, none, text, none, none⟩ := by
  have hdrop : text.dropWhile inPath = [] := List.dropWhile_eq_nil_iff.mpr h
  rw [Reference.ofText, splitScheme_of_not_mem hcolon]
  simp only [splitAuthority_of_not_starts hslash, hdrop, List.takeWhile_eq_self_iff.mpr h]
  rfl

/-- A relative reference with a path starts with neither a scheme nor an authority. -/
theorem Reference.Valid.path_only (hvalid : (Reference.ofText text).Valid)
    (h : ∀ c ∈ text, inPath c = true) (hscheme : (Reference.ofText text).scheme = none)
    (hauthority : (Reference.ofText text).authority = none) :
    ':' ∉ text.takeWhile (· != '/') ∧ ¬ ['/', '/'] <+: text := by
  have hnone : splitScheme text = (none, text) := splitScheme_eq hscheme
  have hslash : ¬ ['/', '/'] <+: text := by
    rintro ⟨rest, rfl⟩
    rw [Reference.ofText, hnone] at hauthority
    cases hauthority
  have hpath : (Reference.ofText text).path = text := by
    rw [Reference.ofText, hnone]
    simp only [splitAuthority_of_not_starts hslash]
    exact List.takeWhile_eq_self_iff.mpr h
  have hcolon := hvalid.noscheme hscheme hauthority
  rw [hpath] at hcolon
  exact ⟨hcolon, hslash⟩

end Uri
