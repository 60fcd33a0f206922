import Mathlib.Data.Finset.Dedup
import SorobanDevkit.Library.Tokens
import SorobanDevkit.Library.TrimMatches
import SorobanDevkit.Library.Utf8Lossy
import SorobanDevkit.Wasm.Spec
import SorobanDevkit.Xdr.ScVal

/-!
# Values under the types of a contract

A value is decoded with the specification of a contract (`sdkt-xdr/src/abi_decode.rs`): it is
labelled with a struct type whose member names are the names of its fields. The names are compared
in the form in which keys are shown, which is trimmed, and in lower case.

The derived `Debug` text of a value is a parameter.

## Main results

* `decodeScvalToString_i128`, `decodeScvalToString_u128` — the numbers of 128 bits that are shown.
* `matches_of_fits` — a type whose names are the keys matches, unless it has none.
* `printsFields` — the numbers in the fields are shown as they are.
* `labels_iff` — when exactly the labels are those of the types that fit.
-/

namespace SorobanDevkit.Xdr

open Strings Wasm

/-! ### Decoding -/

/-- `AbiDecodedValue`. -/
structure AbiDecodedValue where
  raw : String
  label : String
  matchedType : Option String
  fields : Option (List (String × String))

section

variable (debug : ScVal → String)

/-- The text of a symbol or a string. -/
def symbolText (s : List UInt8) : String := String.ofList (Utf8Lossy.decode s)

/-- The 128 bits of two halves, which are shifted and put together. -/
def joinHalves (hi lo : BitVec 128) : BitVec 128 := hi <<< 64 ||| lo

/-- `decode_scval_to_string`. -/
def decodeScvalToString : ScVal → String
  | .bool b => "bool(" ++ toString b ++ ")"
  | .u32 n => "u32(" ++ toString n.toNat ++ ")"
  | .i32 n => "i32(" ++ toString n.toInt ++ ")"
  | .u64 n => "u64(" ++ toString n.toNat ++ ")"
  | .scalar (.timepoint n) => "timepoint(" ++ toString n.toNat ++ ")"
  | .scalar (.duration n) => "duration(" ++ toString n.toNat ++ ")"
  | .i64 n => "i64(" ++ toString n.toInt ++ ")"
  | .u128 hi lo =>
    "u128(" ++ toString (joinHalves (hi.toBitVec.setWidth 128) (lo.toBitVec.setWidth 128)).toNat ++
      " hi=" ++ toString hi.toNat ++ ", lo=" ++ toString lo.toNat ++ ")"
  | .i128 hi lo =>
    "i128(" ++
      toString (joinHalves (hi.toBitVec.signExtend 128) (lo.toBitVec.setWidth 128)).toInt ++
      " hi=" ++ toString hi.toInt ++ ", lo=" ++ toString lo.toNat ++ ")"
  | .u256 .. => "u256(...)"
  | .i256 .. => "i256(...)"
  | .string s => "\"" ++ symbolText s ++ "\""
  | .scalar (.symbol s) => "sym(\"" ++ symbolText s ++ "\")"
  | .bytes b => "bytes(" ++ toString b.length ++ " bytes)"
  | .vec items => "vec(len=" ++ toString (items.elim 0 List.length) ++ ")"
  | val => "scval(" ++ debug val ++ ")"

/-- The keys and values of the fields of a value: the pairs in a vector, or the entries of a map. -/
def fieldPairs : ScVal → List (ScVal × ScVal)
  | .vec (some items) => items.filterMap fun item =>
    match item with
    | .vec (some [key, value]) => some (key, value)
    | _ => none
  | .map (some entries) => entries
  | _ => []

/-- The texts of a field. -/
def fieldText (e : ScVal × ScVal) : String × String :=
  (decodeScvalToString debug e.1, decodeScvalToString debug e.2)

/-- `extract_scval_fields`. -/
def extractScvalFields (val : ScVal) : Option (List (String × String)) :=
  let fields := (fieldPairs val).map (fieldText debug)
  if fields = [] then none else some fields

/-- The name in the text of a key. -/
def keyName (text : String) : String :=
  asciiLower (trimEndMatches "\")" (trimStartMatches "sym(\"" (trimMatches '"' text)))

/-- The value is a symbol. -/
def isSymbol : ScVal → Bool
  | .scalar (.symbol _) => true
  | _ => false

/-- `matches_custom_type`. -/
def matchesCustomType (val : ScVal) (fields : List (String × String)) (customType : ContractType) :
    Bool :=
  match val with
  | .map (some entries) =>
    if customType.kind ≠ "struct" ∨ customType.members = [] ∨
        fields.length ≠ customType.members.length ∨ (entries.any fun e => !isSymbol e.1) = true then
      false
    else
      (fields.map fun field => keyName field.1).toFinset =
        (customType.members.map fun member => asciiLower member.name).toFinset
  | _ => false

/-- The label of a value of a struct type. -/
def structLabel (name : String) (fields : List (String × String)) : String :=
  name ++ " \x7b " ++ ", ".intercalate (fields.map fun field => field.1 ++ ": " ++ field.2) ++
    " \x7d"

variable (spec : ContractSpec) (val : ScVal)

/-- The types of a specification that the fields of a value match. -/
def matchingTypes (fields : List (String × String)) : List ContractType :=
  spec.customTypes.filter (matchesCustomType val fields)

/-- A value that is decoded without an event. -/
def decodeValue : AbiDecodedValue :=
  match (extractScvalFields debug val).map
    fun fields => (fields, matchingTypes spec val fields) with
  | some (fields, [customType]) =>
    { raw := debug val, label := structLabel customType.name fields,
      matchedType := some ("udt:" ++ customType.name), fields := some fields }
  | _ =>
    { raw := debug val, label := decodeScvalToString debug val, matchedType := none,
      fields := extractScvalFields debug val }

/-- `decode_with_abi`. -/
def decodeWithAbi (eventHint : Option String) : AbiDecodedValue :=
  match eventHint.filter fun name => spec.events.any fun e => e.name = name with
  | some name =>
    { raw := debug val, label := "event[" ++ name ++ "] -> " ++ decodeScvalToString debug val,
      matchedType := some ("event:" ++ name), fields := extractScvalFields debug val }
  | none => decodeValue debug spec val

end

/-! ### Types that fit -/

/-- A character of the names of symbols. -/
def isSymbolChar (c : Char) : Bool := c.isAlphanum || c = '_'

/-- The keys of entries are the symbols with some names. -/
def HasKeys (entries : List (ScVal × ScVal)) (names : List String) : Prop :=
  List.Forall₂ (fun e name => e.1 = .scalar (.symbol (Utf8Lossy.encode name)) ∧
    name.toList.all isSymbolChar = true) entries names

/-- The value is a map with different symbols as keys, and their names are the member names of the
struct type. -/
structure Fits (val : ScVal) (customType : ContractType) : Prop where
  kind : customType.kind = "struct"
  keys : ∃ entries names, val = .map (some entries) ∧ HasKeys entries names ∧ names.Nodup ∧
    ∀ name, name ∈ customType.members.map (·.name) ↔ name ∈ names

/-- The types with names of their own, and members with names of their own. -/
structure DistinctNames (spec : ContractSpec) : Prop where
  types : (spec.customTypes.map (·.name)).Nodup
  members : ∀ customType ∈ spec.customTypes, (customType.members.map (·.name)).Nodup

/-- The fields of a value match a type. -/
def Matches (debug : ScVal → String) (val : ScVal) (customType : ContractType) : Prop :=
  ∃ fields, extractScvalFields debug val = some fields ∧
    matchesCustomType val fields customType = true

/-! ### The label -/

section

variable {debug : ScVal → String} {spec : ContractSpec} {val : ScVal}

theorem filter_eq_singleton_iff {α : Type} {p : α → Bool} {l : List α} (hnodup : l.Nodup) {a : α} :
    l.filter p = [a] ↔ (a ∈ l ∧ p a = true) ∧ ∀ b ∈ l, p b = true → b = a := by
  constructor
  · intro h
    have hmem (b : α) : b ∈ l ∧ p b = true ↔ b = a := by
      rw [← List.mem_filter, h, List.mem_singleton]
    exact ⟨(hmem a).mpr rfl, fun b hb hp => (hmem b).mp ⟨hb, hp⟩⟩
  · rintro ⟨ha, hunique⟩
    refine List.perm_singleton.mp ((List.perm_ext_iff_of_nodup (hnodup.filter p)
      (List.nodup_singleton a)).mpr fun b => ?_)
    rw [List.mem_filter, List.mem_singleton]
    exact ⟨fun hb => hunique b hb.1 hb.2, fun hb => hb ▸ ha⟩

/-- **The label of a value** is that of the only type that its fields match. -/
theorem matchedType_decodeWithAbi (hnames : DistinctNames spec) {name : String} :
    (decodeWithAbi debug spec val none).matchedType = some ("udt:" ++ name) ↔
      ∃ customType ∈ spec.customTypes, customType.name = name ∧ Matches debug val customType ∧
        ∀ other ∈ spec.customTypes, Matches debug val other → other = customType := by
  have hudt {t : String} : "udt:" ++ t = "udt:" ++ name ↔ t = name := by
    rw [← String.toList_inj, String.toList_append, String.toList_append, List.append_cancel_left_eq,
      String.toList_inj]
  have hnodup : spec.customTypes.Nodup := hnames.types.of_map
  rw [decodeWithAbi, Option.filter_none]
  dsimp only
  rw [decodeValue]
  cases hfields : extractScvalFields debug val with
  | none => simp [Matches, hfields]
  | some fields =>
    have hmatches (t : ContractType) :
        Matches debug val t ↔ matchesCustomType val fields t = true := by
      simp [Matches, hfields]
    have hsingle (t : ContractType) : matchingTypes spec val fields = [t] ↔
        t ∈ spec.customTypes ∧ Matches debug val t ∧
          ∀ other ∈ spec.customTypes, Matches debug val other → other = t := by
      simp only [hmatches, matchingTypes, filter_eq_singleton_iff hnodup, and_assoc]
    have hunique : (∃ t, matchingTypes spec val fields = [t] ∧ t.name = name) ↔
        ∃ t ∈ spec.customTypes, t.name = name ∧ Matches debug val t ∧
          ∀ other ∈ spec.customTypes, Matches debug val other → other = t :=
      exists_congr fun t => by rw [hsingle]; tauto
    rw [← hunique, Option.map_some]
    split
    · next fields' t heq =>
      obtain ⟨-, hlist⟩ := Prod.mk.inj (Option.some.inj heq)
      rw [hlist, Option.some_inj, hudt]
      constructor
      · exact fun h => ⟨t, rfl, h⟩
      · rintro ⟨t', heq, hname⟩
        rw [List.singleton_inj.mp heq, hname]
    · next hother =>
      refine iff_of_false nofun ?_
      rintro ⟨t, hlist, -⟩
      exact hother fields t (by rw [hlist])

/-! ### The names of keys -/

theorem notMem_of_symbolChars {name : String} (h : name.toList.all isSymbolChar = true) {c : Char}
    (hc : isSymbolChar c = false) : c ∉ name.toList := by
  intro hmem
  rw [List.all_eq_true.mp h c hmem] at hc
  cases hc

/-- The name of a key of the characters of symbols is read from its text, in lower case. -/
theorem keyName_symbol {name : String} (h : name.toList.all isSymbolChar = true) :
    keyName ("sym(\"" ++ (name ++ "\")")) = asciiLower name := by
  have hopen : ¬ "sym(\"".toList <+: (name ++ "\")").toList := by
    intro hpre
    have hmem := hpre.subset (by decide : '(' ∈ "sym(\"".toList)
    rw [String.toList_append] at hmem
    rcases List.mem_append.mp hmem with hmem | hmem
    · exact notMem_of_symbolChars h rfl hmem
    · simp at hmem
  have hclose : ¬ "\")".toList <:+ name.toList := fun hsuffix =>
    notMem_of_symbolChars h rfl (hsuffix.subset (by decide : ')' ∈ "\")".toList))
  rw [keyName, trimMatches_eq_self 's' ')' (by decide) (by decide),
    trimStartMatches_append (by decide) hopen, trimEndMatches_append (by decide),
    trimEndMatches_of_not_suffix hclose]
  · rw [String.toList_append]
    rfl
  · rw [String.toList_append, String.toList_append, List.getLast?_append, List.getLast?_append]
    rfl

theorem symbolText_encode (name : String) : symbolText (Utf8Lossy.encode name) = name := by
  rw [symbolText, Utf8Lossy.decode_encode, String.ofList_toList]

theorem HasKeys.map_keyName {entries : List (ScVal × ScVal)} {names : List String}
    (h : HasKeys entries names) :
    (entries.map (fieldText debug)).map (fun field => keyName field.1) = names.map asciiLower := by
  induction h with
  | nil => rfl
  | @cons e name entries names hentry _ ih =>
    obtain ⟨hkey, hchars⟩ := hentry
    have htext : decodeScvalToString debug e.1 = "sym(\"" ++ (name ++ "\")") := by
      rw [hkey, decodeScvalToString, symbolText_encode, String.append_assoc]
    rw [List.map_cons, List.map_cons, List.map_cons, ih, fieldText, htext, keyName_symbol hchars]

theorem HasKeys.any_not_isSymbol {entries : List (ScVal × ScVal)} {names : List String}
    (h : HasKeys entries names) : (entries.any fun e => !isSymbol e.1) = false := by
  induction h with
  | nil => rfl
  | cons hentry _ ih => rw [List.any_cons, hentry.1, ih, isSymbol, Bool.not_true, Bool.or_false]

/-- **A type that fits matches**, unless it has no members. -/
theorem Fits.matches {customType : ContractType} (h : Fits val customType)
    (hnodup : (customType.members.map (·.name)).Nodup) (hne : customType.members ≠ []) :
    Matches debug val customType := by
  obtain ⟨entries, names, rfl, hkeys, hdistinct, hnames⟩ := h.keys
  have hlength : entries.length = customType.members.length := by
    have hperm := ((List.perm_ext_iff_of_nodup hnodup hdistinct).mpr hnames).length_eq
    rw [hkeys.length_eq, ← hperm, List.length_map]
  have hentries : (fieldPairs (.map (some entries))).map (fieldText debug) ≠ [] := by
    have hpos := List.length_pos_iff.mpr hne
    rw [← List.length_pos_iff, List.length_map, fieldPairs]
    omega
  refine ⟨entries.map (fieldText debug), if_neg hentries, ?_⟩
  rw [matchesCustomType, if_neg, hkeys.map_keyName, decide_eq_true_iff]
  · have hlower : (customType.members.map fun member => asciiLower member.name) =
        (customType.members.map (·.name)).map asciiLower := by
      rw [List.map_map]
      rfl
    rw [hlower]
    ext name
    rw [List.mem_toFinset, List.mem_toFinset, List.mem_map, List.mem_map]
    exact exists_congr fun member => and_congr_left fun _ => (hnames member).symm
  · simp only [h.kind, hne, List.length_map, hlength, hkeys.any_not_isSymbol]
    simp

/-! ### Numbers of 128 bits -/

theorem joinHalves_eq_append (hi lo : BitVec 64) :
    joinHalves (hi.setWidth 128) (lo.setWidth 128) = hi ++ lo ∧
      joinHalves (hi.signExtend 128) (lo.setWidth 128) = hi ++ lo := by
  constructor
  · ext i hi'
    simp [joinHalves]
    grind
  · ext i hi'
    simp [joinHalves, BitVec.getElem_signExtend]
    grind

/-- The number of a value of 128 bits. -/
def value128 : ScVal → Option ℤ
  | .u128 hi lo => some (hi.toNat * 18446744073709551616 + lo.toNat)
  | .i128 hi lo => some (hi.toInt * 18446744073709551616 + lo.toNat)
  | _ => none

/-- The text has the number of a value of 128 bits, all of it: it ends with a blank. -/
def Prints (n : ℤ) (text : String) : Prop :=
  ∃ tag rest, tag ∈ ["u128(", "i128("] ∧ text = tag ++ toString n ++ " " ++ rest

/-- **A number of 128 bits is shown as it is.** -/
theorem prints_of_value128 {n : ℤ} (h : value128 val = some n) :
    Prints n (decodeScvalToString debug val) := by
  unfold value128 at h
  split at h
  · next hi lo =>
    have hvalue : (joinHalves (hi.toBitVec.setWidth 128) (lo.toBitVec.setWidth 128)).toNat =
        hi.toNat * 18446744073709551616 + lo.toNat := by
      rw [(joinHalves_eq_append _ _).1, BitVec.toNat_append,
        ← Nat.shiftLeft_add_eq_or_of_lt lo.toBitVec.isLt, Nat.shiftLeft_eq, UInt64.toNat_toBitVec,
        UInt64.toNat_toBitVec]
    refine ⟨"u128(", "hi=" ++ toString hi.toNat ++ ", lo=" ++ toString lo.toNat ++ ")",
      by simp, ?_⟩
    rw [decodeScvalToString, hvalue, ← Option.some.inj h]
    simp only [String.append_assoc]
    rfl
  · next hi lo =>
    have hvalue : (joinHalves (hi.toBitVec.signExtend 128) (lo.toBitVec.setWidth 128)).toInt =
        hi.toInt * 18446744073709551616 + lo.toNat := by
      rw [(joinHalves_eq_append _ _).2, BitVec.toInt_append, if_neg (by decide),
        Int64.toInt_toBitVec, UInt64.toNat_toBitVec, Int.mul_comm]
      rfl
    refine ⟨"i128(", "hi=" ++ toString hi.toInt ++ ", lo=" ++ toString lo.toNat ++ ")",
      by simp, ?_⟩
    rw [decodeScvalToString, hvalue, ← Option.some.inj h]
    simp only [String.append_assoc]
    rfl
  · cases h

/-! ### Labels -/

variable (debug spec val) in
/-- A value is labelled with a type exactly if that is the only one that fits, and has members. -/
def LabelsFit : Prop :=
  ∀ name, (decodeWithAbi debug spec val none).matchedType = some ("udt:" ++ name) ↔
    ∃ customType ∈ spec.customTypes, customType.name = name ∧
      (customType.members ≠ [] ∧ Fits val customType) ∧
      ∀ other ∈ spec.customTypes, Fits val other → other = customType

variable (debug spec val) in
/-- Every field of a value is shown, and the numbers of 128 bits among them as they are. -/
def PrintsFields : Prop :=
  List.Forall₂ (fun e field => ∀ n, value128 e.2 = some n → Prints n field.2) (fieldPairs val)
    ((decodeWithAbi debug spec val none).fields.getD [])

variable (debug spec val) in
/-- A type whose member names are the keys only once they are trimmed and in lower case is not the
only one that matches, and there is not exactly one that fits. -/
def NearMissesHidden : Prop :=
  ∀ customType ∈ spec.customTypes, Matches debug val customType → ¬ Fits val customType →
    (∃ other ∈ spec.customTypes, other ≠ customType ∧ Matches debug val other) ∧
      ¬ ∃ fit ∈ spec.customTypes, Fits val fit ∧
        ∀ other ∈ spec.customTypes, Fits val other → other = fit

theorem extractScvalFields_eq_some {fields : List (String × String)}
    (h : extractScvalFields debug val = some fields) :
    fields = (fieldPairs val).map (fieldText debug) := by
  rw [extractScvalFields] at h
  exact (Option.some.inj (Option.ite_none_left_eq_some.mp h).2).symm

theorem fields_decodeWithAbi :
    (decodeWithAbi debug spec val none).fields = extractScvalFields debug val := by
  rw [decodeWithAbi, Option.filter_none]
  dsimp only
  rw [decodeValue]
  split
  · next fields customType heq =>
    obtain ⟨fields', hfields, heq⟩ := Option.map_eq_some_iff.mp heq
    rw [hfields, (Prod.mk.inj heq).1]
  · rfl

theorem getD_extractScvalFields :
    (extractScvalFields debug val).getD [] = (fieldPairs val).map (fieldText debug) := by
  rw [extractScvalFields]
  split_ifs with hnil
  · exact hnil.symm
  · rfl

theorem printsFields : PrintsFields debug spec val := by
  rw [PrintsFields, fields_decodeWithAbi, getD_extractScvalFields, List.forall₂_map_right_iff,
    List.forall₂_same]
  exact fun e _ n hn => prints_of_value128 hn

/-- A value that matches a type has fields. -/
theorem Matches.members_ne_nil {customType : ContractType} (h : Matches debug val customType) :
    customType.members ≠ [] := by
  obtain ⟨fields, -, hmatches⟩ := h
  unfold matchesCustomType at hmatches
  split at hmatches
  · intro hnil
    simp [hnil] at hmatches
  · cases hmatches

/-- A type that fits a value that matches another one has members. -/
theorem Fits.members_ne_nil {customType other : ContractType} (h : Fits val customType)
    (hother : Matches debug val other) : customType.members ≠ [] := by
  intro hnil
  obtain ⟨entries, names, rfl, hkeys, -, hnames⟩ := h.keys
  have hnone : names = [] := List.eq_nil_iff_forall_not_mem.mpr fun name hname => by
    have hmem := (hnames name).mpr hname
    rw [hnil] at hmem
    cases hmem
  rw [hnone] at hkeys
  obtain rfl := List.forall₂_nil_right_iff.mp hkeys
  obtain ⟨fields, hfields, -⟩ := hother
  cases hfields

/-- **The numbers are exact, and the labels are those of the types that fit** unless near misses
decide them. -/
theorem labels_iff (hnames : DistinctNames spec) :
    PrintsFields debug spec val ∧ (LabelsFit debug spec val ↔ NearMissesHidden debug spec val) := by
  refine ⟨printsFields, ?_⟩
  have hmatches {t : ContractType} (ht : t ∈ spec.customTypes) (hfits : Fits val t)
      (hne : t.members ≠ []) : Matches debug val t :=
    hfits.matches (hnames.members t ht) hne
  have heq {t t' : ContractType} (ht : t ∈ spec.customTypes) (ht' : t' ∈ spec.customTypes)
      (hname : t.name = t'.name) : t = t' := List.inj_on_of_nodup_map hnames.types ht ht' hname
  simp only [LabelsFit, matchedType_decodeWithAbi hnames]
  constructor
  · intro h t ht hmatch hnot
    constructor
    · by_contra hnone
      have hunique : ∀ other ∈ spec.customTypes, Matches debug val other → other = t :=
        fun other hother hmatch' => by_contra fun hne => hnone ⟨other, hother, hne, hmatch'⟩
      obtain ⟨t', ht', hname, ⟨-, hfits⟩, -⟩ := (h t.name).mp ⟨t, ht, rfl, hmatch, hunique⟩
      exact hnot (heq ht' ht hname ▸ hfits)
    · rintro ⟨fit, hfit, hfits, hunique⟩
      have hne := hfits.members_ne_nil hmatch
      obtain ⟨t', -, -, -, hmatched⟩ := (h fit.name).mpr ⟨fit, hfit, rfl, ⟨hne, hfits⟩, hunique⟩
      rw [hmatched t ht hmatch, ← hmatched fit hfit (hmatches hfit hfits hne)] at hnot
      exact hnot hfits
  · intro h name
    constructor
    · rintro ⟨t, ht, hname, hmatch, hunique⟩
      have hfits : Fits val t := by
        by_contra hnot
        obtain ⟨⟨other, hother, hne, hmatch'⟩, -⟩ := h t ht hmatch hnot
        exact hne (hunique other hother hmatch')
      exact ⟨t, ht, hname, ⟨hmatch.members_ne_nil, hfits⟩, fun other hother hfits' =>
        hunique other hother (hmatches hother hfits' (hfits'.members_ne_nil hmatch))⟩
    · rintro ⟨t, ht, hname, ⟨hne, hfits⟩, hunique⟩
      refine ⟨t, ht, hname, hmatches ht hfits hne, fun other hother hmatch => ?_⟩
      by_cases hfits' : Fits val other
      · exact hunique other hother hfits'
      · exact absurd ⟨t, ht, hfits, hunique⟩ (h other hother hmatch hfits').2

end

/-! ### A label and a wrong label -/

/-- A struct type with some fields. -/
def structOf (name : String) (members : List String) : ContractType where
  name := name
  kind := "struct"
  doc := ""
  members := members.map fun member => { name := member, doc := "", types := [], value := none }
  typeArgs := []
  bytesN := none

/-- A specification of types only. -/
def specOf (customTypes : List ContractType) : ContractSpec where
  envMeta := none
  functions := []
  customTypes := customTypes
  events := []

/-- A map of symbols to a negative number. -/
def mapOf (names : List String) : ScVal :=
  .map (some (names.map fun name => (.scalar (.symbol (Utf8Lossy.encode name)), .i128 (-1) 7)))

theorem hasKeys_mapOf {names : List String}
    (h : (names.all fun name => name.toList.all isSymbolChar) = true) :
    HasKeys (names.map fun name => (.scalar (.symbol (Utf8Lossy.encode name)), .i128 (-1) 7))
      names := by
  rw [HasKeys, List.forall₂_map_left_iff, List.forall₂_same]
  exact fun name hname => ⟨rfl, List.all_eq_true.mp h name hname⟩

/-- The types of points and rectangles. -/
def shapes : ContractSpec :=
  specOf [structOf "Point" ["x", "y"], structOf "Rect" ["width", "height"]]

/-- The map of a rectangle is labelled as one. -/
theorem labels_iff_shapes :
    PrintsFields (fun _ => "") shapes (mapOf ["height", "width"]) ∧
      LabelsFit (fun _ => "") shapes (mapOf ["height", "width"]) := by
  have hboth : PrintsFields (fun _ => "") shapes (mapOf ["height", "width"]) ∧
      (LabelsFit (fun _ => "") shapes (mapOf ["height", "width"]) ↔ _) :=
    labels_iff ⟨by decide, by decide⟩
  obtain ⟨hprints, hlabels⟩ := hboth
  refine ⟨hprints, hlabels.mpr fun t ht hmatch hnot => ?_⟩
  obtain ⟨fields, hfields, hmatch⟩ := hmatch
  obtain rfl := extractScvalFields_eq_some hfields
  rcases List.mem_pair.mp ht with rfl | rfl
  · have hpoint : matchesCustomType (mapOf ["height", "width"])
        ((fieldPairs (mapOf ["height", "width"])).map (fieldText fun _ => ""))
        (structOf "Point" ["x", "y"]) = false := by decide +kernel
    rw [hpoint] at hmatch
    cases hmatch
  · refine absurd ⟨rfl, _, _, rfl, hasKeys_mapOf (by decide), by decide, fun name => ?_⟩ hnot
    simp [structOf, or_comm]

/-- A map is labelled with a struct type whose field has another name, by letter case; and an empty
map is not labelled with a struct type that has no fields. -/
theorem labels_beyond_names :
    ¬ (∀ name, (decodeWithAbi (fun _ => "") (specOf [structOf "Upper" ["X"]]) (mapOf ["x"])
        none).matchedType = some ("udt:" ++ name) ↔
      ∃ t ∈ (specOf [structOf "Upper" ["X"]]).customTypes, t.name = name ∧ Fits (mapOf ["x"]) t ∧
        ∀ other ∈ (specOf [structOf "Upper" ["X"]]).customTypes, Fits (mapOf ["x"]) other →
          other = t) ∧
    ¬ (∀ name, (decodeWithAbi (fun _ => "") (specOf [structOf "Empty" []]) (mapOf [])
        none).matchedType = some ("udt:" ++ name) ↔
      ∃ t ∈ (specOf [structOf "Empty" []]).customTypes, t.name = name ∧ Fits (mapOf []) t ∧
        ∀ other ∈ (specOf [structOf "Empty" []]).customTypes, Fits (mapOf []) other →
          other = t) := by
  constructor
  · intro h
    have hlabel : (decodeWithAbi (fun _ => "") (specOf [structOf "Upper" ["X"]]) (mapOf ["x"])
        none).matchedType = some ("udt:" ++ "Upper") := by decide +kernel
    obtain ⟨t, ht, -, hfits, -⟩ := (h "Upper").mp hlabel
    obtain rfl := List.mem_singleton.mp ht
    obtain ⟨entries, names, hval, hkeys, -, hnames⟩ := hfits.keys
    cases hval
    obtain ⟨name, rest, hname, hrest, rfl⟩ := List.forall₂_cons_left_iff.mp hkeys
    obtain rfl := List.forall₂_nil_left_iff.mp hrest
    have hsame : Utf8Lossy.encode "x" = Utf8Lossy.encode name := by
      injection hname.1 with hscalar
      injection hscalar
    rw [← Utf8Lossy.encode_inj.mp hsame] at hnames
    exact absurd ((hnames "X").mp (by simp [structOf])) (by simp)
  · intro h
    have hlabel := (h "Empty").mpr ⟨structOf "Empty" [], List.mem_cons_self, rfl,
      ⟨rfl, [], [], rfl, .nil, List.nodup_nil, fun name => by simp [structOf]⟩,
      fun other hother _ => List.mem_singleton.mp hother⟩
    exact absurd hlabel (by decide +kernel)

end SorobanDevkit.Xdr
