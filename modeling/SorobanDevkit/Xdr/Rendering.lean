import Mathlib.Logic.Function.Basic
import SorobanDevkit.Library.Decimal
import SorobanDevkit.Library.Strings
import SorobanDevkit.Library.TaggedText
import SorobanDevkit.Xdr.Envelope

/-!
# The texts of values

A value is shown as the text of a term. Symbols are printed as they are, so that in vectors and maps
they stay apart from what follows them only where they have none of the characters that separators
and closing brackets start with; and characters that cannot be decoded are replaced, and some values
are given by the name of their variant only.
-/

namespace SorobanDevkit.Xdr

open TaggedText

/-! ### Values -/

namespace ScVal

mutual

/-- The value with absent vectors and maps as empty ones. -/
def normalize : ScVal → ScVal
  | .scalar s => .scalar s
  | .vec none => .vec (some [])
  | .vec (some items) => .vec (some (normalizeItems items))
  | .map none => .map (some [])
  | .map (some entries) => .map (some (normalizeEntries entries))
  | .contractInstance executable none => .contractInstance executable (some [])
  | .contractInstance executable (some entries) =>
    .contractInstance executable (some (normalizeEntries entries))

/-- The items of a vector, normalized. -/
def normalizeItems : List ScVal → List ScVal
  | [] => []
  | item :: items => normalize item :: normalizeItems items

/-- The entries of a map, normalized. -/
def normalizeEntries : List (ScVal × ScVal) → List (ScVal × ScVal)
  | [] => []
  | (key, val) :: entries => (normalize key, normalize val) :: normalizeEntries entries

end

section Each

variable (p : Scalar → Prop) (instances : Prop)

mutual

/-- Each flat value that is shown has a property, and there are contract instances only if they may
be. -/
def Each : ScVal → Prop
  | .scalar s => p s
  | .vec none | .map none => True
  | .vec (some items) => EachItem items
  | .map (some entries) => EachEntry entries
  | .contractInstance .. => instances

/-- `Each` for the items of a vector. -/
def EachItem : List ScVal → Prop
  | [] => True
  | item :: items => Each item ∧ EachItem items

/-- `Each` for the entries of a map. -/
def EachEntry : List (ScVal × ScVal) → Prop
  | [] => True
  | (key, val) :: entries => (Each key ∧ Each val) ∧ EachEntry entries

end

end Each

end ScVal

/-- The characters that separators and closing brackets start with. -/
def delimiter (c : Char) : Bool := c = ',' || c = ' ' || c = ']' || c = '\x7d'

namespace Scalar

/-- A symbol has at most 32 bytes, and errors that are no contract's have the codes of
`ScErrorCode`. -/
def WellFormed : Scalar → Prop
  | .symbol s => s.length ≤ 32
  | .error type code => type = .contract ∨ code.toNat < 10
  | _ => True

/-- A symbol that is shown without delimiters. -/
def Delimited : Scalar → Prop
  | .symbol s => ∀ c ∈ Utf8Lossy.decode s, delimiter c = false
  | _ => True

/-- Nothing of a flat value is replaced or left out where it is shown. -/
def Revealed : Scalar → Prop
  | .string s | .symbol s => Utf8Lossy.replacement ∉ Utf8Lossy.decode s
  | .error .. | .ledgerKeyNonce _ | .executableTag _ => False
  | _ => True

instance : DecidablePred Revealed := fun s => by
  cases s <;> unfold Revealed <;> infer_instance

end Scalar

namespace ScVal

/-- Symbols in vectors and maps are shown without delimiters. -/
def Displayable : ScVal → Prop
  | .scalar s => s.WellFormed
  | v => v.Each (fun s => s.WellFormed ∧ s.Delimited) True

/-- Nothing of a value is replaced or left out where it is shown. -/
def Revealed (v : ScVal) : Prop := v.Each Scalar.Revealed False

end ScVal

/-! ### The texts of values -/

/-- The words and tags in the texts of values. -/
inductive Kind
  | bool
  | void
  | error
  | u32
  | i32
  | u64
  | i64
  | timepoint
  | duration
  | u128
  | i128
  | u256
  | i256
  | bytes
  | string
  | symbol
  | vec
  | map
  | address
  | contractInstance
  | ledgerKeyContractInstance
  | ledgerKeyNonce
  | executableTag
  deriving DecidableEq

namespace Kind

/-- The name of a kind. -/
def name : Kind → List Char
  | .bool => "bool".toList
  | .void => "void".toList
  | .error => "error".toList
  | .u32 => "u32".toList
  | .i32 => "i32".toList
  | .u64 => "u64".toList
  | .i64 => "i64".toList
  | .timepoint => "timepoint".toList
  | .duration => "duration".toList
  | .u128 => "u128".toList
  | .i128 => "i128".toList
  | .u256 => "u256".toList
  | .i256 => "i256".toList
  | .bytes => "bytes".toList
  | .string => "string".toList
  | .symbol => "symbol".toList
  | .vec => "vec".toList
  | .map => "map".toList
  | .address => "address".toList
  | .contractInstance => "contractinstance".toList
  | .ledgerKeyContractInstance => "ledgerkeycontractinstance".toList
  | .ledgerKeyNonce => "ledgerkeynonce".toList
  | .executableTag => "executabletag".toList

/-- All kinds. -/
def all : List Kind :=
  [.bool, .void, .error, .u32, .i32, .u64, .i64, .timepoint, .duration, .u128, .i128, .u256, .i256,
    .bytes, .string, .symbol, .vec, .map, .address, .contractInstance, .ledgerKeyContractInstance,
    .ledgerKeyNonce, .executableTag]

theorem name_injective : Function.Injective name := by
  have hfind : ∀ kind : Kind, all.find? (fun k => k.name == kind.name) = some kind := by
    intro kind
    cases kind <;> decide
  intro kind kind' h
  have hkind := hfind kind
  rw [h, hfind kind', Option.some.injEq] at hkind
  exact hkind.symm

end Kind

/-- The brackets of vectors. -/
def vecBrackets : Brackets delimiter where
  opening := '['
  closing := ']'
  first := ", ".toList
  second := ", ".toList
  closing_delimiter := by decide
  first_separates := ⟨',', [' '], rfl, by decide, by decide⟩
  second_separates := ⟨',', [' '], rfl, by decide, by decide⟩

/-- The brackets of maps. -/
def mapBrackets : Brackets delimiter where
  opening := '\x7b'
  closing := '\x7d'
  first := " => ".toList
  second := ", ".toList
  closing_delimiter := by decide
  first_separates := ⟨' ', ['=', '>', ' '], rfl, by decide, by decide⟩
  second_separates := ⟨',', [' '], rfl, by decide, by decide⟩

/-- How the texts of values are made. -/
def grammar (displays : Displays) : Grammar Kind where
  delimiter := delimiter
  escapes := displays.escapes
  name := Kind.name
  form
    | .void | .error | .contractInstance | .ledgerKeyContractInstance | .ledgerKeyNonce
    | .executableTag => .word
    | .string => .quoted
    | .vec => .group vecBrackets
    | .map => .group mapBrackets
    | _ => .raw
  delimiter_colon := by decide
  name_injective := Kind.name_injective
  name_ne_nil := by rintro (_ | _) <;> decide
  name_undelimited := by rintro (_ | _) <;> exact Strings.forall_mem_of_any (by decide)

section Shown

variable (displays : Displays)

/-- The text of a term. -/
def printed (t : Term Kind delimiter) : List Char := Term.print (grammar displays) t

theorem printed_raw (kind : Kind) (s : List Char) :
    printed displays (.raw kind s) = kind.name ++ ':' :: s := rfl

theorem printed_quoted (kind : Kind) (s : List Char) :
    printed displays (.quoted kind s) = kind.name ++ ':' :: Quoting.quote displays.escapes s := rfl

/-- The term whose text is shown for a flat value. -/
def Scalar.shown : Scalar → Term Kind delimiter
  | .bool b => .raw .bool (toString b).toList
  | .void => .word .void
  | .u32 n => .raw .u32 (toString n.toNat).toList
  | .i32 n => .raw .i32 (toString n.toInt).toList
  | .u64 n => .raw .u64 (toString n.toNat).toList
  | .i64 n => .raw .i64 (toString n.toInt).toList
  | .timepoint t => .raw .timepoint (toString t.toNat).toList
  | .duration d => .raw .duration (toString d.toNat).toList
  | .u128 hi lo => .raw .u128 (displays.u128 hi lo).toList
  | .i128 hi lo => .raw .i128 (displays.i128 hi lo).toList
  | .u256 hiHi hiLo loHi loLo => .raw .u256 (displays.u256 hiHi hiLo loHi loLo).toList
  | .i256 hiHi hiLo loHi loLo => .raw .i256 (displays.i256 hiHi hiLo loHi loLo).toList
  | .string s => .quoted .string (Utf8Lossy.decode s)
  | .symbol s => .raw .symbol (Utf8Lossy.decode s)
  | .bytes b => .raw .bytes (Hex.encode b).toList
  | .address a => .raw .address (displays.scAddress a).toList
  | .error .. => .word .error
  | .ledgerKeyContractInstance => .word .ledgerKeyContractInstance
  | .ledgerKeyNonce _ => .word .ledgerKeyNonce
  | .executableTag _ => .word .executableTag

namespace ScVal

mutual

/-- The term whose text is shown for a value. -/
def shown : ScVal → Term Kind delimiter
  | .scalar s => s.shown displays
  | .vec none => .group .vec vecBrackets []
  | .vec (some items) => .group .vec vecBrackets (shownItems items)
  | .map none => .group .map mapBrackets []
  | .map (some entries) => .group .map mapBrackets (shownEntries entries)
  | .contractInstance .. => .word .contractInstance

/-- The terms of the items of a vector. -/
def shownItems : List ScVal → List (Term Kind delimiter)
  | [] => []
  | item :: items => shown item :: shownItems items

/-- The terms of the keys and values of a map. -/
def shownEntries : List (ScVal × ScVal) → List (Term Kind delimiter)
  | [] => []
  | (key, val) :: entries => shown key :: shown val :: shownEntries entries

end

end ScVal

theorem Scalar.printed_shown (s : Scalar) :
    printed displays (s.shown displays) = (renderScalar displays s).toList := by
  cases s <;> unfold shown renderScalar <;> dsimp only
  case void | error | ledgerKeyContractInstance | ledgerKeyNonce | executableTag => rfl
  case string s =>
    rw [printed_quoted]
    unfold Kind.name
    simp [debug]
  case symbol s =>
    rw [printed_raw]
    unfold Kind.name
    simp [toUtf8StringLossy]
  all_goals
    rw [printed_raw]
    unfold Kind.name
    simp

/-- The text of the items of a vector or map that follow others. -/
def restText (first second : List Char) (ts : List (Term Kind delimiter)) : List Char :=
  Term.printRest (grammar displays) first second ts

/-- The text of the items of a vector or map. -/
def itemsText (first second : List Char) (ts : List (Term Kind delimiter)) : List Char :=
  Term.printItems (grammar displays) first second ts

theorem itemsText_cons (first second : List Char) (t : Term Kind delimiter)
    (ts : List (Term Kind delimiter)) :
    itemsText displays first second (t :: ts) = printed displays t ++
      restText displays first second ts :=
  rfl

theorem restText_cons (first second : List Char) (t : Term Kind delimiter)
    (ts : List (Term Kind delimiter)) :
    restText displays first second (t :: ts) =
      first ++ (printed displays t ++ restText displays second first ts) :=
  rfl

theorem printed_vec {ts : List (Term Kind delimiter)} {s : String}
    (h : itemsText displays ", ".toList ", ".toList ts = s.toList) :
    printed displays (.group .vec vecBrackets ts) = ("vec:[" ++ s ++ "]").toList := by
  have htext : printed displays (.group .vec vecBrackets ts) = Kind.vec.name ++ ':' :: '[' ::
      (itemsText displays ", ".toList ", ".toList ts ++ [']']) := rfl
  rw [htext, h]
  unfold Kind.name
  simp

theorem printed_map {ts : List (Term Kind delimiter)} {s : String}
    (h : itemsText displays " => ".toList ", ".toList ts = s.toList) :
    printed displays (.group .map mapBrackets ts) = ("map:\x7b" ++ s ++ "\x7d").toList := by
  have htext : printed displays (.group .map mapBrackets ts) = Kind.map.name ++ ':' :: '\x7b' ::
      (itemsText displays " => ".toList ", ".toList ts ++ ['\x7d']) := rfl
  rw [htext, h]
  unfold Kind.name
  simp

namespace ScVal

mutual

/-- The text of a value is shown. -/
theorem printed_shown : (v : ScVal) →
    printed displays (v.shown displays) = (renderScval displays v).toList
  | .scalar s => by rw [shown, renderScval, Scalar.printed_shown]
  | .contractInstance .. => rfl
  | .vec none => by
    rw [shown, renderScval]
    exact printed_vec displays (by simp [itemsText, Term.printItems])
  | .vec (some items) => by rw [shown, renderScval,
    printed_vec displays (itemsText_shownItems items)]
  | .map none => by
    rw [shown, renderScval]
    exact printed_map displays (by simp [itemsText, Term.printItems])
  | .map (some entries) => by
    rw [shown, renderScval, printed_map displays (itemsText_shownEntries entries)]

/-- The text of the items of a vector. -/
theorem itemsText_shownItems : (items : List ScVal) →
    itemsText displays ", ".toList ", ".toList (shownItems displays items) =
      (", ".intercalate (renderItems displays items)).toList
  | [] => by simp [renderItems, shownItems, itemsText, Term.printItems]
  | item :: items => by
    rw [shownItems, renderItems, itemsText_cons, Strings.toList_intercalate_cons,
      printed_shown item,
      restText_shownItems items]

/-- The text of the items of a vector that follow others. -/
theorem restText_shownItems : (items : List ScVal) →
    restText displays ", ".toList ", ".toList (shownItems displays items) =
      (renderItems displays items).flatMap fun t => ", ".toList ++ t.toList
  | [] => rfl
  | item :: items => by
    rw [shownItems, renderItems, restText_cons, List.flatMap_cons, printed_shown item,
      restText_shownItems items, List.append_assoc]

/-- The text of the entries of a map. -/
theorem itemsText_shownEntries : (entries : List (ScVal × ScVal)) →
    itemsText displays " => ".toList ", ".toList (shownEntries displays entries) =
      (", ".intercalate (renderEntries displays entries)).toList
  | [] => by simp [renderEntries, shownEntries, itemsText, Term.printItems]
  | (key, val) :: entries => by
    rw [shownEntries, renderEntries, itemsText_cons, restText_cons, Strings.toList_intercalate_cons,
      String.toList_append, String.toList_append, printed_shown key, printed_shown val,
      restText_shownEntries entries]
    simp only [List.append_assoc]

/-- The text of the entries of a map that follow others. -/
theorem restText_shownEntries : (entries : List (ScVal × ScVal)) →
    restText displays ", ".toList " => ".toList (shownEntries displays entries) =
      (renderEntries displays entries).flatMap fun t => ", ".toList ++ t.toList
  | [] => rfl
  | (key, val) :: entries => by
    rw [shownEntries, renderEntries, restText_cons, restText_cons, List.flatMap_cons,
      String.toList_append, String.toList_append, printed_shown key, printed_shown val,
      restText_shownEntries entries]
    simp only [List.append_assoc]

end

end ScVal

/-! ### Reading texts back -/

/-- What is assumed of the texts that the crates give: those of addresses and wide integers are not
shared, and consist of letters, digits and signs. -/
structure Displays.Documented (displays : Displays) : Prop where
  scAddress_injective : Function.Injective displays.scAddress
  u128_injective : Function.Injective fun n : UInt64 × UInt64 => displays.u128 n.1 n.2
  i128_injective : Function.Injective fun n : Int64 × UInt64 => displays.i128 n.1 n.2
  u256_injective : Function.Injective fun n : UInt64 × UInt64 × UInt64 × UInt64 =>
    displays.u256 n.1 n.2.1 n.2.2.1 n.2.2.2
  i256_injective : Function.Injective fun n : Int64 × UInt64 × UInt64 × UInt64 =>
    displays.i256 n.1 n.2.1 n.2.2.1 n.2.2.2
  scAddress_plain : ∀ a, ∀ c ∈ (displays.scAddress a).toList, Decimal.Plain c
  u128_plain : ∀ hi lo, ∀ c ∈ (displays.u128 hi lo).toList, Decimal.Plain c
  i128_plain : ∀ hi lo, ∀ c ∈ (displays.i128 hi lo).toList, Decimal.Plain c
  u256_plain : ∀ hiHi hiLo loHi loLo, ∀ c ∈ (displays.u256 hiHi hiLo loHi loLo).toList,
    Decimal.Plain c
  i256_plain : ∀ hiHi hiLo loHi loLo, ∀ c ∈ (displays.i256 hiHi hiLo loHi loLo).toList,
    Decimal.Plain c

theorem delimiter_of_plain {c : Char} (h : Decimal.Plain c) : delimiter c = false := by
  by_contra hdelimiter
  simp only [delimiter, Bool.not_eq_false, Bool.or_eq_true, decide_eq_true_eq] at hdelimiter
  rcases hdelimiter with ((rfl | rfl) | rfl) | rfl <;> revert h <;> unfold Decimal.Plain <;> decide

variable {displays}

/-- A flat value without delimiters is shown without them. -/
theorem Scalar.delimited_shown (hdisplays : displays.Documented) {s : Scalar} (h : s.Delimited) :
    (s.shown displays).Delimited (grammar displays) := by
  have hraw : ∀ {kind : Kind} {s : List Char}, (grammar displays).form kind = .raw →
      (∀ c ∈ s, Decimal.Plain c) →
      Term.Delimited (grammar displays) (.raw kind s : Term Kind delimiter) :=
    fun hform hs => ⟨hform, fun c hc => delimiter_of_plain (hs c hc)⟩
  cases s with
  | void | error | ledgerKeyContractInstance | ledgerKeyNonce | executableTag | string => rfl
  | bool b => exact hraw rfl fun c hc => Or.inl (by
      cases b
      · exact List.all_eq_true.mp (by decide) c hc
      · exact List.all_eq_true.mp (by decide) c hc)
  | u32 n | u64 n | timepoint n | duration n => exact hraw rfl (Decimal.plain_toString_nat _)
  | i32 n | i64 n => exact hraw rfl (Decimal.plain_toString_int _)
  | u128 hi lo => exact hraw rfl (hdisplays.u128_plain hi lo)
  | i128 hi lo => exact hraw rfl (hdisplays.i128_plain hi lo)
  | u256 hiHi hiLo loHi loLo => exact hraw rfl (hdisplays.u256_plain hiHi hiLo loHi loLo)
  | i256 hiHi hiLo loHi loLo => exact hraw rfl (hdisplays.i256_plain hiHi hiLo loHi loLo)
  | bytes b => exact hraw rfl fun c hc => Or.inl (Hex.isAlphanum_encode b c hc)
  | symbol s => exact ⟨rfl, h⟩
  | address a => exact hraw rfl (hdisplays.scAddress_plain a)

namespace ScVal

mutual

/-- A value without delimiters is shown without them. -/
theorem delimited_shown (hdisplays : displays.Documented) : (v : ScVal) →
    v.Each (fun s => s.WellFormed ∧ s.Delimited) True →
    (v.shown displays).Delimited (grammar displays)
  | .scalar _, h => Scalar.delimited_shown hdisplays h.2
  | .vec none, _ | .map none, _ => ⟨rfl, trivial⟩
  | .vec (some items), h => ⟨rfl, delimited_shownItems hdisplays items h⟩
  | .map (some entries), h => ⟨rfl, delimited_shownEntries hdisplays entries h⟩
  | .contractInstance .., _ => rfl

/-- Items without delimiters are shown without them. -/
theorem delimited_shownItems (hdisplays : displays.Documented) : (items : List ScVal) →
    EachItem (fun s => s.WellFormed ∧ s.Delimited) True items →
    Term.DelimitedItems (grammar displays) (shownItems displays items)
  | [], _ => trivial
  | item :: items, h =>
    ⟨delimited_shown hdisplays item h.1, delimited_shownItems hdisplays items h.2⟩

/-- Entries without delimiters are shown without them. -/
theorem delimited_shownEntries (hdisplays : displays.Documented) :
    (entries : List (ScVal × ScVal)) →
    EachEntry (fun s => s.WellFormed ∧ s.Delimited) True entries →
    Term.DelimitedItems (grammar displays) (shownEntries displays entries)
  | [], _ => trivial
  | (key, val) :: entries, h =>
    ⟨delimited_shown hdisplays key h.1.1, delimited_shown hdisplays val h.1.2,
      delimited_shownEntries hdisplays entries h.2⟩

end

/-- A displayable value is shown as a term that its text determines. -/
theorem Displayable.shown (hdisplays : displays.Documented) {v : ScVal} (h : v.Displayable) :
    Term.Shown (grammar displays) (v.shown displays) := by
  cases v with
  | scalar s =>
    by_cases hs : s.Delimited
    · exact .delimited (Scalar.delimited_shown hdisplays hs)
    · cases s with
      | symbol s => exact .raw _ rfl
      | _ => exact absurd trivial hs
  | vec items => exact .delimited (delimited_shown hdisplays _ h)
  | map entries => exact .delimited (delimited_shown hdisplays _ h)
  | contractInstance executable entries => exact .delimited rfl

end ScVal

/-- The flat value that is shown as a term, if nothing of it is replaced or left out. -/
noncomputable def Scalar.unshow (displays : Displays) : Term Kind delimiter → Option Scalar
  | .word .void => some .void
  | .word .ledgerKeyContractInstance => some .ledgerKeyContractInstance
  | .quoted .string s =>
    if Utf8Lossy.replacement ∈ s then none else some (.string (s.flatMap String.utf8EncodeChar))
  | .raw kind s =>
    match kind with
    | .bool => (Function.partialInv (fun b : Bool => (toString b).toList) s).map .bool
    | .u32 => (Function.partialInv (fun n : UInt32 => (toString n.toNat).toList) s).map .u32
    | .i32 => (Function.partialInv (fun n : Int32 => (toString n.toInt).toList) s).map .i32
    | .u64 => (Function.partialInv (fun n : UInt64 => (toString n.toNat).toList) s).map .u64
    | .i64 => (Function.partialInv (fun n : Int64 => (toString n.toInt).toList) s).map .i64
    | .timepoint =>
      (Function.partialInv (fun n : UInt64 => (toString n.toNat).toList) s).map .timepoint
    | .duration =>
      (Function.partialInv (fun n : UInt64 => (toString n.toNat).toList) s).map .duration
    | .u128 =>
      (Function.partialInv (fun n : UInt64 × UInt64 => displays.u128 n.1 n.2)
        (String.ofList s)).map fun n => .u128 n.1 n.2
    | .i128 =>
      (Function.partialInv (fun n : Int64 × UInt64 => displays.i128 n.1 n.2)
        (String.ofList s)).map fun n => .i128 n.1 n.2
    | .u256 =>
      (Function.partialInv (fun n : UInt64 × UInt64 × UInt64 × UInt64 =>
        displays.u256 n.1 n.2.1 n.2.2.1 n.2.2.2)
        (String.ofList s)).map fun n => .u256 n.1 n.2.1 n.2.2.1 n.2.2.2
    | .i256 =>
      (Function.partialInv (fun n : Int64 × UInt64 × UInt64 × UInt64 =>
        displays.i256 n.1 n.2.1 n.2.2.1 n.2.2.2)
        (String.ofList s)).map fun n => .i256 n.1 n.2.1 n.2.2.1 n.2.2.2
    | .symbol =>
      if Utf8Lossy.replacement ∈ s then none else some (.symbol (s.flatMap String.utf8EncodeChar))
    | .bytes => (Hex.decode (String.ofList s)).map .bytes
    | .address => (Function.partialInv displays.scAddress (String.ofList s)).map .address
    | _ => none
  | _ => none

/-- **The flat values whose terms can be read back are those that are revealed.** -/
theorem Scalar.unshow_shown (hdisplays : displays.Documented) (s : Scalar) :
    unshow displays (s.shown displays) = if s.Revealed then some s else none := by
  have hnat {α : Type} {f : α → ℕ} (hf : Function.Injective f) :
      Function.Injective fun a => (toString (f a)).toList :=
    fun a b h => hf (Decimal.toString_nat_inj (String.toList_inj.mp h))
  have hint {α : Type} {f : α → Int} (hf : Function.Injective f) :
      Function.Injective fun a => (toString (f a)).toList :=
    fun a b h => hf (Decimal.toString_int_inj (String.toList_inj.mp h))
  have hread {α : Type} {f : α → List Char} (hf : Function.Injective f)
    (make : α → Scalar) (a : α) :
      (Function.partialInv f (f a)).map make = some (make a) := by
    rw [Function.partialInv_left hf, Option.map_some]
  have hreadString {α : Type} {f : α → String} (hf : Function.Injective f) (make : α → Scalar)
      (a : α) : (Function.partialInv f (String.ofList (f a).toList)).map make = some (make a) := by
    rw [String.ofList_toList, Function.partialInv_left hf, Option.map_some]
  cases s with
  | void | ledgerKeyContractInstance | error | ledgerKeyNonce | executableTag => rfl
  | bool b =>
    have hbool : Function.Injective fun b : Bool => (toString b).toList := by
      intro a b
      cases a <;> cases b <;> decide
    exact hread hbool .bool b
  | u32 n => exact hread (hnat fun _ _ => UInt32.toNat_inj.mp) .u32 n
  | u64 n => exact hread (hnat fun _ _ => UInt64.toNat_inj.mp) .u64 n
  | timepoint n => exact hread (hnat fun _ _ => UInt64.toNat_inj.mp) .timepoint n
  | duration n => exact hread (hnat fun _ _ => UInt64.toNat_inj.mp) .duration n
  | i32 n => exact hread (hint fun _ _ => Int32.toInt_inj.mp) .i32 n
  | i64 n => exact hread (hint fun _ _ => Int64.toInt_inj.mp) .i64 n
  | u128 hi lo => exact hreadString hdisplays.u128_injective (fun n => .u128 n.1 n.2) (hi, lo)
  | i128 hi lo => exact hreadString hdisplays.i128_injective (fun n => .i128 n.1 n.2) (hi, lo)
  | u256 hiHi hiLo loHi loLo =>
    exact hreadString hdisplays.u256_injective (fun n => .u256 n.1 n.2.1 n.2.2.1 n.2.2.2)
      (hiHi, hiLo, loHi, loLo)
  | i256 hiHi hiLo loHi loLo =>
    exact hreadString hdisplays.i256_injective (fun n => .i256 n.1 n.2.1 n.2.2.1 n.2.2.2)
      (hiHi, hiLo, loHi, loLo)
  | bytes b =>
    have hbytes : Hex.decode (String.ofList (Hex.encode b).toList) = some b := by
      rw [String.ofList_toList, Hex.decode_encode]
    exact congrArg (Option.map Scalar.bytes) hbytes
  | address a => exact hreadString hdisplays.scAddress_injective .address a
  | string s | symbol s =>
    rw [shown, unshow]
    by_cases h : Utf8Lossy.replacement ∈ Utf8Lossy.decode s
    · exact (if_pos h).trans (if_neg (not_not_intro h)).symm
    · rw [if_neg h, Utf8Lossy.encode_decode h]
      exact (if_pos h).symm

/-- A flat value that is revealed is the only one that is shown as its term. -/
theorem Scalar.shown_inj (hdisplays : displays.Documented) {s s' : Scalar} (hs : s.Revealed)
    (h : s.shown displays = s'.shown displays) : s = s' := by
  have hread := s.unshow_shown hdisplays
  rw [if_pos hs, h, s'.unshow_shown hdisplays] at hread
  split_ifs at hread
  cases hread
  rfl

theorem Scalar.shown_ne_group (s : Scalar) (kind : Kind) (brackets : Brackets delimiter)
    (ts : List (Term Kind delimiter)) : s.shown displays ≠ .group kind brackets ts := by
  cases s <;> exact fun h => by cases h

/-- A flat value that is revealed is not shown as a contract instance. -/
theorem Scalar.shown_ne_contractInstance (s : Scalar) :
    s.shown displays ≠ .word .contractInstance := by
  cases s <;> exact fun h => by cases h

namespace ScVal

theorem shownItems_eq_nil {items : List ScVal} (h : shownItems displays items = []) :
    items = [] := by
  cases items with
  | nil => rfl
  | cons item items => cases h

theorem shownEntries_eq_nil {entries : List (ScVal × ScVal)}
    (h : shownEntries displays entries = []) : entries = [] := by
  cases entries with
  | nil => rfl
  | cons entry entries => cases h

mutual

/-- A value that is revealed is the only one that is shown as its term, up to absent vectors and
maps. -/
theorem normalize_eq_of_shown_eq (hdisplays : displays.Documented) : (u v : ScVal) → u.Revealed →
    u.shown displays = v.shown displays → u.normalize = v.normalize
  | .scalar s, v, hu, h => by
    cases v with
    | scalar s' => rw [Scalar.shown_inj hdisplays hu h]
    | vec items => cases items <;> exact absurd h (s.shown_ne_group _ _ _)
    | map entries => cases entries <;> exact absurd h (s.shown_ne_group _ _ _)
    | contractInstance executable entries => exact absurd h s.shown_ne_contractInstance
  | .vec none, v, _, h => by
    cases v with
    | scalar s => exact absurd h.symm (s.shown_ne_group _ _ _)
    | map entries => cases entries <;> cases h
    | contractInstance executable entries => cases h
    | vec items =>
      cases items with
      | none => rfl
      | some items =>
        injection h with _ _ hitems
        rw [shownItems_eq_nil hitems.symm]
        rfl
  | .vec (some items), v, hu, h => by
    cases v with
    | scalar s => exact absurd h.symm (s.shown_ne_group _ _ _)
    | map entries => cases entries <;> cases h
    | contractInstance executable entries => cases h
    | vec items' =>
      cases items' with
      | none =>
        injection h with _ _ hitems
        rw [shownItems_eq_nil hitems]
        rfl
      | some items' =>
        injection h with _ _ hitems
        rw [normalize, normalize, normalizeItems_eq_of_shown_eq hdisplays items items' hu hitems]
  | .map none, v, _, h => by
    cases v with
    | scalar s => exact absurd h.symm (s.shown_ne_group _ _ _)
    | vec items => cases items <;> cases h
    | contractInstance executable entries => cases h
    | map entries =>
      cases entries with
      | none => rfl
      | some entries =>
        injection h with _ _ hentries
        rw [shownEntries_eq_nil hentries.symm]
        rfl
  | .map (some entries), v, hu, h => by
    cases v with
    | scalar s => exact absurd h.symm (s.shown_ne_group _ _ _)
    | vec items => cases items <;> cases h
    | contractInstance executable entries => cases h
    | map entries' =>
      cases entries' with
      | none =>
        injection h with _ _ hentries
        rw [shownEntries_eq_nil hentries]
        rfl
      | some entries' =>
        injection h with _ _ hentries
        rw [normalize, normalize,
          normalizeEntries_eq_of_shown_eq hdisplays entries entries' hu hentries]
  | .contractInstance .., _, hu, _ => hu.elim

/-- Items that are revealed are the only ones that are shown as their terms. -/
theorem normalizeItems_eq_of_shown_eq (hdisplays : displays.Documented) : (us vs : List ScVal) →
    EachItem Scalar.Revealed False us → shownItems displays us = shownItems displays vs →
    normalizeItems us = normalizeItems vs
  | [], vs, _, h => by rw [shownItems_eq_nil h.symm]
  | u :: us, [], _, h => by cases h
  | u :: us, v :: vs, hu, h => by
    injection h with hhead htail
    rw [normalizeItems, normalizeItems, normalize_eq_of_shown_eq hdisplays u v hu.1 hhead,
      normalizeItems_eq_of_shown_eq hdisplays us vs hu.2 htail]

/-- Entries that are revealed are the only ones that are shown as their terms. -/
theorem normalizeEntries_eq_of_shown_eq (hdisplays : displays.Documented) :
    (us vs : List (ScVal × ScVal)) → EachEntry Scalar.Revealed False us →
    shownEntries displays us = shownEntries displays vs → normalizeEntries us = normalizeEntries vs
  | [], vs, _, h => by rw [shownEntries_eq_nil h.symm]
  | (key, val) :: us, [], _, h => by cases h
  | (key, val) :: us, (key', val') :: vs, hu, h => by
    injection h with hkey htail
    injection htail with hval htail
    rw [normalizeEntries, normalizeEntries,
      normalize_eq_of_shown_eq hdisplays key key' hu.1.1 hkey,
      normalize_eq_of_shown_eq hdisplays val val' hu.1.2 hval,
      normalizeEntries_eq_of_shown_eq hdisplays us vs hu.2 htail]

end

end ScVal

/-- **A displayable value that is revealed is determined by its text among the displayable
ones.** -/
theorem normalize_eq_of_renderScval_eq (hdisplays : displays.Documented) {u v : ScVal}
    (hu : u.Displayable) (hv : v.Displayable) (hrevealed : u.Revealed)
    (h : renderScval displays u = renderScval displays v) : u.normalize = v.normalize := by
  refine ScVal.normalize_eq_of_shown_eq hdisplays u v hrevealed
    (Term.print_inj (hu.shown hdisplays) (hv.shown hdisplays) ?_)
  have htext : printed displays (u.shown displays) = printed displays (v.shown displays) := by
    rw [ScVal.printed_shown, ScVal.printed_shown, h]
  exact htext

/-! ### Values that are not revealed -/

variable (displays)

/-- A flat value that is not revealed shares its text with another. -/
theorem Scalar.exists_renderScalar_eq {s : Scalar} (hs : s.WellFormed) (h : ¬ s.Revealed) :
    ∃ s' : Scalar, s' ≠ s ∧ s'.WellFormed ∧ (s.Delimited → s'.Delimited) ∧
      renderScalar displays s' = renderScalar displays s := by
  cases s with
  | string s =>
    obtain ⟨s', hne, hdecode, -⟩ := Utf8Lossy.exists_decode_eq (not_not.mp h)
    refine ⟨.string s', fun heq => hne (by cases heq; rfl), trivial, fun _ => trivial, ?_⟩
    rw [renderScalar, renderScalar, debug, debug, hdecode]
  | symbol s =>
    obtain ⟨s', hne, hdecode, hlength⟩ := Utf8Lossy.exists_decode_eq (not_not.mp h)
    refine ⟨.symbol s', fun heq => hne (by cases heq; rfl), le_trans hlength hs, fun hs' => ?_, ?_⟩
    · rw [Delimited, hdecode]
      exact hs'
    · rw [renderScalar, renderScalar, toUtf8StringLossy, toUtf8StringLossy, hdecode]
  | error type code =>
    by_cases hcode : code = 0
    · subst hcode
      refine ⟨.error type 1, fun heq => ?_, Or.inr (by decide), id, rfl⟩
      injection heq with _ hcode
      exact absurd hcode (by decide)
    · exact ⟨.error type 0, fun heq => hcode (by cases heq; rfl), Or.inr (by decide), id, rfl⟩
  | ledgerKeyNonce nonce =>
    by_cases hnonce : nonce = 0
    · subst hnonce
      refine ⟨.ledgerKeyNonce 1, fun heq => ?_, trivial, id, rfl⟩
      injection heq with hnonce
      exact absurd hnonce (by decide)
    · exact ⟨.ledgerKeyNonce 0, fun heq => hnonce (by cases heq; rfl), trivial, id, rfl⟩
  | executableTag tag =>
    refine ⟨.executableTag (0 :: tag), fun heq => ?_, trivial, id, rfl⟩
    injection heq with htag
    exact List.cons_ne_self 0 tag htag
  | _ => exact absurd trivial h

namespace ScVal

/-- Another value with the same text. -/
def SharesText (u v : ScVal) : Prop :=
  renderScval displays v = renderScval displays u ∧ v.normalize ≠ u.normalize

mutual

/-- A value that is not revealed shares its text with another. -/
theorem exists_sharesText : (u : ScVal) → u.Each (fun s => s.WellFormed ∧ s.Delimited) True →
    ¬ u.Revealed →
    ∃ v : ScVal, v.Each (fun s => s.WellFormed ∧ s.Delimited) True ∧ SharesText displays u v
  | .scalar s, hu, h => by
    obtain ⟨s', hne, hs', hdelimited, hrender⟩ :=
      Scalar.exists_renderScalar_eq displays hu.1 h
    refine ⟨.scalar s', ⟨hs', hdelimited hu.2⟩, ?_, fun heq => hne (by injection heq)⟩
    rw [renderScval, renderScval, hrender]
  | .vec none, _, h | .map none, _, h => absurd trivial h
  | .vec (some items), hu, h => by
    obtain ⟨items', hitems', hrender, hne⟩ := exists_sharesText_items items hu h
    refine ⟨.vec (some items'), hitems', ?_, fun heq => hne ?_⟩
    · rw [renderScval, renderScval, hrender]
    · rw [normalize, normalize] at heq
      injection heq with heq
      injection heq
  | .map (some entries), hu, h => by
    obtain ⟨entries', hentries', hrender, hne⟩ := exists_sharesText_entries entries hu h
    refine ⟨.map (some entries'), hentries', ?_, fun heq => hne ?_⟩
    · rw [renderScval, renderScval, hrender]
    · rw [normalize, normalize] at heq
      injection heq with heq
      injection heq
  | .contractInstance executable entries, _, _ => by
    cases executable with
    | wasm | externalRef =>
      refine ⟨.contractInstance .stellarAsset entries, trivial, rfl, fun heq => ?_⟩
      cases entries <;> cases heq
    | stellarAsset =>
      refine ⟨.contractInstance (.wasm (Vector.replicate 32 0)) entries, trivial, rfl,
        fun heq => ?_⟩
      cases entries <;> cases heq

/-- Items that are not revealed share their texts with others. -/
theorem exists_sharesText_items : (us : List ScVal) →
    EachItem (fun s => s.WellFormed ∧ s.Delimited) True us →
    ¬ EachItem Scalar.Revealed False us →
    ∃ vs : List ScVal, EachItem (fun s => s.WellFormed ∧ s.Delimited) True vs ∧
      renderItems displays vs = renderItems displays us ∧ normalizeItems vs ≠ normalizeItems us
  | [], _, h => absurd trivial h
  | u :: us, hu, h => by
    by_cases hrevealed : u.Revealed
    · obtain ⟨vs, hvs, hrender, hne⟩ := exists_sharesText_items us hu.2 fun hus =>
        h ⟨hrevealed, hus⟩
      refine ⟨u :: vs, ⟨hu.1, hvs⟩, by rw [renderItems, renderItems, hrender], fun heq => hne ?_⟩
      rw [normalizeItems, normalizeItems] at heq
      injection heq
    · obtain ⟨v, hv, hrender, hne⟩ := exists_sharesText u hu.1 hrevealed
      refine ⟨v :: us, ⟨hv, hu.2⟩, by rw [renderItems, renderItems, hrender], fun heq => hne ?_⟩
      rw [normalizeItems, normalizeItems] at heq
      injection heq

/-- Entries that are not revealed share their texts with others. -/
theorem exists_sharesText_entries : (us : List (ScVal × ScVal)) →
    EachEntry (fun s => s.WellFormed ∧ s.Delimited) True us →
    ¬ EachEntry Scalar.Revealed False us →
    ∃ vs : List (ScVal × ScVal), EachEntry (fun s => s.WellFormed ∧ s.Delimited) True vs ∧
      renderEntries displays vs = renderEntries displays us ∧
      normalizeEntries vs ≠ normalizeEntries us
  | [], _, h => absurd trivial h
  | (key, val) :: us, hu, h => by
    by_cases hkey : key.Revealed
    · by_cases hval : val.Revealed
      · obtain ⟨vs, hvs, hrender, hne⟩ :=
          exists_sharesText_entries us hu.2 fun hus => h ⟨⟨hkey, hval⟩, hus⟩
        refine ⟨(key, val) :: vs, ⟨hu.1, hvs⟩, by rw [renderEntries, renderEntries, hrender],
          fun heq => hne ?_⟩
        rw [normalizeEntries, normalizeEntries] at heq
        injection heq
      · obtain ⟨val', hval', hrender, hne⟩ := exists_sharesText val hu.1.2 hval
        refine ⟨(key, val') :: us, ⟨⟨hu.1.1, hval'⟩, hu.2⟩,
          by rw [renderEntries, renderEntries, hrender], fun heq => hne ?_⟩
        rw [normalizeEntries, normalizeEntries] at heq
        injection heq with heq
        injection heq
    · obtain ⟨key', hkey', hrender, hne⟩ := exists_sharesText key hu.1.1 hkey
      refine ⟨(key', val) :: us, ⟨⟨hkey', hu.1.2⟩, hu.2⟩,
        by rw [renderEntries, renderEntries, hrender], fun heq => hne ?_⟩
      rw [normalizeEntries, normalizeEntries] at heq
      injection heq with heq
      injection heq

end

theorem Displayable.of_each {v : ScVal} (h : v.Each (fun s => s.WellFormed ∧ s.Delimited) True) :
    v.Displayable := by
  cases v with
  | scalar s => exact h.1
  | vec | map | contractInstance => exact h

/-- **A displayable value that is not revealed shares its text with another displayable one.** -/
theorem Displayable.exists_sharesText {u : ScVal} (hu : u.Displayable) (h : ¬ u.Revealed) :
    ∃ v : ScVal, v.Displayable ∧ SharesText displays u v := by
  cases u with
  | scalar s =>
    obtain ⟨s', hne, hs', -, hrender⟩ := Scalar.exists_renderScalar_eq displays hu h
    refine ⟨.scalar s', hs', ?_, fun heq => hne (by injection heq)⟩
    rw [renderScval, renderScval, hrender]
  | vec | map | contractInstance =>
    obtain ⟨v, hv, hshares⟩ := ScVal.exists_sharesText displays _ hu h
    exact ⟨v, Displayable.of_each hv, hshares⟩

end ScVal

end Shown

end SorobanDevkit.Xdr
