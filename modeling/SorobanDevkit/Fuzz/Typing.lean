import Mathlib.Data.List.Forall2
import Mathlib.Data.List.InsertIdx
import Mathlib.Logic.Relation
import SorobanDevkit.Fuzz.Mutation
import SorobanDevkit.Library.Fallible
import SorobanDevkit.Library.Sha256
import SorobanDevkit.Xdr.ScValOrder

/-!
# Well-typed inputs

What the generator makes of a supported type is a value of it, and what an operator makes of a value
of a type is one again. So are the arguments of a call after any mutations, one after the other.

## Main results

* `generateValue_hasType`, `applyOperator_hasType`.
* `mutateArg_eq_ok` — a mutation replaces its target and nothing else.
* `fuzz_inputs_well_typed` — the arguments of a call stay of their types under any mutations.
-/

namespace SorobanDevkit.Fuzz

open Strings (startsWith)
open Wasm (ContractFunction ContractSpec ContractType utf8)
open Xdr

/-! ### Shapes of types -/

/-- How the generator and the operators tell types apart. -/
inductive TypeShape
  | primitive
  | vec
  | option
  | map
  | other
  deriving DecidableEq

/-- The shape of a type. -/
def shape (t : ContractType) : TypeShape :=
  if t.kind = "primitive" then .primitive
  else if t.kind = "compound" then
    if startsWith "vec<" t.name then .vec
    else if startsWith "option<" t.name then .option
    else if startsWith "map<" t.name then .map
    else .other
  else .other

/-- Of two prefixes of a string, one is a prefix of the other. -/
theorem startsWith_eq_false {p q s : String} (hp : startsWith p s = true)
    (h : ¬ (p.toList <+: q.toList ∨ q.toList <+: p.toList)) : startsWith q s = false := by
  refine Bool.eq_false_iff.mpr fun hq => h ?_
  exact List.prefix_or_prefix_of_prefix (of_decide_eq_true hp) (of_decide_eq_true hq)

theorem operatorsFor_eq (t : ContractType) : operatorsFor t =
    match shape t with
    | .primitive =>
      if t.name = "bool" then [.boolTrue, .boolFalse]
      else if t.name ∈ ["u32", "i32", "u64", "i64", "u128", "i128"] then
        [.zero, .one, .min, .max, .random]
      else if t.name ∈ ["string", "bytes"] then [.empty, .lengthBoundary, .random]
      else [.random]
    | .vec => [.vecEmpty, .vecRemoveOne, .vecDuplicate, .vecAppend, .vecMutateOne]
    | .option => [.optionNone, .optionSome, .optionSomeMutated]
    | .map => [.mapEmpty, .mapRemoveOne, .mapInsertKey]
    | .other => [] := by
  unfold operatorsFor shape
  split_ifs <;> rfl

/-- What a value at the depth cap is of. -/
theorem cappedValue_eq_ok {t : ContractType} {v : ScVal} (h : cappedValue t = .ok v) :
    (shape t = .primitive ∧ t.name = "bool" ∧ v = .bool false) ∨
      (shape t = .vec ∧ v = .vec none) ∨ (shape t = .option ∧ v = .void) ∨
      (shape t = .map ∧ v = .map none) := by
  unfold cappedValue at h
  split_ifs at h with hbool hoption hvec hmap
  · cases h
    exact .inl ⟨if_pos hbool.1, hbool.2, rfl⟩
  · cases h
    refine .inr (.inr (.inl ⟨?_, rfl⟩))
    have hother : startsWith "vec<" t.name = false := startsWith_eq_false hoption.2 (by decide)
    simp [shape, hoption, hother]
  · cases h
    exact .inr (.inl ⟨by simp [shape, hvec], rfl⟩)
  · cases h
    refine .inr (.inr (.inr ⟨?_, rfl⟩))
    have hvec : startsWith "vec<" t.name = false := startsWith_eq_false hmap.2 (by decide)
    have hoption : startsWith "option<" t.name = false := startsWith_eq_false hmap.2 (by decide)
    simp [shape, hmap, hvec, hoption]

/-! ### Values of a type -/

/-- The values of a primitive type. -/
def IsPrimitive (name : String) : ScVal → Prop
  | .bool _ => name = "bool"
  | .u32 _ => name = "u32"
  | .i32 _ => name = "i32"
  | .u64 _ => name = "u64"
  | .i64 _ => name = "i64"
  | .u128 .. => name = "u128"
  | .i128 .. => name = "i128"
  | .string _ => name = "string"
  | .bytes _ => name = "bytes"
  | .address (.account _) | .address (.contract _) => name = "address" ∨ name = "muxed_address"
  | .address (.muxedAccount ..) => name = "muxed_address"
  | _ => False

/-- Keys that increase strictly. -/
def SortedByKey (entries : List ScMapEntry) : Prop :=
  entries.Pairwise fun a b => ScVal.cmp a.1 b.1 = .lt

/-- **The values of a type.** An absent vector or map is an empty one. -/
inductive HasType : ContractType → ScVal → Prop
  | primitive {t : ContractType} {v : ScVal} (ht : shape t = .primitive)
    (hv : IsPrimitive t.name v) : HasType t v
  | vecNone {t : ContractType} (ht : shape t = .vec) : HasType t (.vec none)
  | vec {t elem : ContractType} {items : List ScVal} (ht : shape t = .vec)
    (helem : t.typeArgs.head? = some elem) (hitems : ∀ v ∈ items, HasType elem v) :
    HasType t (.vec (some items))
  | optionNone {t : ContractType} (ht : shape t = .option) : HasType t .void
  | option {t elem : ContractType} {v : ScVal} (ht : shape t = .option)
    (helem : t.typeArgs.head? = some elem) (hv : HasType elem v) : HasType t v
  | mapNone {t : ContractType} (ht : shape t = .map) : HasType t (.map none)
  | map {t kt vt : ContractType} {entries : List ScMapEntry} (ht : shape t = .map)
    (hkt : t.typeArgs.head? = some kt) (hvt : t.typeArgs[1]? = some vt)
    (hkeys : ∀ e ∈ entries, HasType kt e.1) (hvals : ∀ e ∈ entries, HasType vt e.2)
    (hsorted : SortedByKey entries) : HasType t (.map (some entries))

/-- The items of a vector are of its element type. -/
theorem items_of_hasType {t : ContractType} {items : List ScVal} (ht : shape t = .vec)
    (h : HasType t (.vec (some items))) :
    ∃ elem, t.typeArgs.head? = some elem ∧ ∀ v ∈ items, HasType elem v := by
  cases h with
  | primitive _ hv => cases hv
  | vec _ helem hitems => exact ⟨_, helem, hitems⟩
  | option ht' =>
    rw [ht] at ht'
    cases ht'

/-- The keys and values of a map are of its key and value types. -/
theorem entries_of_hasType {t : ContractType} {entries : List ScMapEntry} (ht : shape t = .map)
    (h : HasType t (.map (some entries))) : ∃ kt vt, t.typeArgs.head? = some kt ∧
      t.typeArgs[1]? = some vt ∧ (∀ e ∈ entries, HasType kt e.1) ∧
      (∀ e ∈ entries, HasType vt e.2) ∧ SortedByKey entries := by
  cases h with
  | primitive _ hv => cases hv
  | option ht' =>
    rw [ht] at ht'
    cases ht'
  | map _ hkt hvt hkeys hvals hsorted => exact ⟨_, _, hkt, hvt, hkeys, hvals, hsorted⟩

/-! ### Maps -/

theorem sortByKey_perm (entries : List ScMapEntry) : (sortByKey entries).Perm entries :=
  List.mergeSort_perm _ _

/-- The keys of sorted entries do not decrease. -/
theorem pairwise_sortByKey (entries : List ScMapEntry) :
    (sortByKey entries).Pairwise fun a b => (ScVal.cmp a.1 b.1).isLE :=
  List.pairwise_mergeSort (fun _ _ _ => Std.TransCmp.isLE_trans)
    (fun a b => by
      have hswap : ScVal.cmp b.1 a.1 = (ScVal.cmp a.1 b.1).swap := Std.OrientedCmp.eq_swap
      rw [hswap]
      cases ScVal.cmp a.1 b.1 <;> rfl) entries

/-- A key before another one that it does not equal. -/
theorem cmp_eq_lt {a b : ScVal} (hle : (ScVal.cmp a b).isLE) (hne : a ≠ b) :
    ScVal.cmp a b = .lt := by
  cases h : ScVal.cmp a b with
  | lt => rfl
  | eq => exact absurd (Std.LawfulEqCmp.eq_of_compare h) hne
  | gt =>
    rw [h] at hle
    cases hle

theorem mem_of_mem_dedupAfter {last e : ScMapEntry} {entries : List ScMapEntry}
    (h : e ∈ dedupAfter last entries) : e ∈ last :: entries := by
  induction entries generalizing last with
  | nil => exact h
  | cons d entries ih =>
    rw [dedupAfter] at h
    split_ifs at h with hkey
    · obtain rfl | hmem := List.mem_cons.mp (ih h)
      · exact List.mem_cons_self
      · exact List.mem_cons_of_mem _ (List.mem_cons_of_mem _ hmem)
    · obtain rfl | hmem := List.mem_cons.mp h
      · exact List.mem_cons_self
      · exact List.mem_cons_of_mem _ (ih hmem)

/-- Without repeated keys, keys that do not decrease increase strictly. -/
theorem sortedByKey_dedupAfter {last : ScMapEntry} {entries : List ScMapEntry}
    (h : (last :: entries).Pairwise fun a b => (ScVal.cmp a.1 b.1).isLE) :
    SortedByKey (dedupAfter last entries) := by
  induction entries generalizing last with
  | nil => exact List.pairwise_singleton _ _
  | cons e entries ih =>
    obtain ⟨hlast, htail⟩ := List.pairwise_cons.mp h
    obtain ⟨he, hrest⟩ := List.pairwise_cons.mp htail
    rw [dedupAfter]
    split_ifs with hkey
    · exact ih (List.pairwise_cons.mpr
        ⟨fun d hd => hlast d (List.mem_cons_of_mem _ hd), hrest⟩)
    · have hlt : ScVal.cmp last.1 e.1 = .lt :=
        cmp_eq_lt (hlast e List.mem_cons_self) (Ne.symm hkey)
      refine List.pairwise_cons.mpr ⟨fun d hd => ?_, ih htail⟩
      obtain rfl | hmem := List.mem_cons.mp (mem_of_mem_dedupAfter hd)
      · exact hlt
      · exact Std.TransCmp.lt_of_lt_of_isLE hlt (he d hmem)

/-- The entries of a generated map. -/
theorem sortedByKey_generated (entries : List ScMapEntry) :
    SortedByKey (dedupByKey (sortByKey entries)) ∧
      ∀ e ∈ dedupByKey (sortByKey entries), e ∈ entries := by
  have hsorted := pairwise_sortByKey entries
  have hmem : ∀ e ∈ sortByKey entries, e ∈ entries :=
    fun e he => (sortByKey_perm entries).mem_iff.mp he
  cases h : sortByKey entries with
  | nil => exact ⟨List.Pairwise.nil, by simp [dedupByKey]⟩
  | cons e rest =>
    rw [h] at hsorted hmem
    exact ⟨sortedByKey_dedupAfter hsorted, fun d hd => hmem d (mem_of_mem_dedupAfter hd)⟩

/-- An entry with a new key is put in its place. -/
theorem sortedByKey_insert {entries : List ScMapEntry} {e : ScMapEntry}
    (h : SortedByKey entries) (he : ∀ d ∈ entries, d.1 ≠ e.1) :
    SortedByKey (sortByKey (entries ++ [e])) := by
  have hne : (entries ++ [e]).Pairwise fun a b => a.1 ≠ b.1 := by
    refine List.pairwise_append.mpr ⟨h.imp fun {a b} hab heq => ?_, List.pairwise_singleton _ _,
      fun d hd c hc => ?_⟩
    · have hself : ScVal.cmp b.1 b.1 = .eq := Std.ReflCmp.compare_self
      rw [heq, hself] at hab
      cases hab
    · rw [List.mem_singleton.mp hc]
      exact he d hd
  have hne' : (sortByKey (entries ++ [e])).Pairwise fun a b => a.1 ≠ b.1 :=
    ((sortByKey_perm _).pairwise_iff fun {a b} hab => Ne.symm hab).mpr hne
  exact (pairwise_sortByKey _).imp₂ (fun _ _ hle hne => cmp_eq_lt hle hne) hne'

/-- Fewer entries. -/
theorem SortedByKey.sublist {entries entries' : List ScMapEntry} (h : SortedByKey entries)
    (hsub : entries'.Sublist entries) : SortedByKey entries' :=
  List.Pairwise.sublist hsub h

/-! ### Generated values -/

/-- What a supported type is. -/
theorem typeSupported_cases {t : ContractType} (h : typeSupported t = true) :
    (shape t = .primitive ∧ t.name ∈ supportedPrimitives) ∨
      ((shape t = .vec ∨ shape t = .option) ∧ ∃ elem, t.typeArgs.head? = some elem ∧
        typeSupported elem = true) ∨
      (shape t = .map ∧ ∃ kt vt, t.typeArgs = [kt, vt] ∧ typeSupported kt = true ∧
        typeSupported vt = true) := by
  obtain ⟨name, kind, doc, members, typeArgs, bytesN⟩ := t
  rw [typeSupported] at h
  split_ifs at h with hprimitive hcompound helem hmap
  · exact .inl ⟨if_pos hprimitive, of_decide_eq_true h⟩
  · refine .inr (.inl ⟨?_, ?_⟩)
    · cases hvec : startsWith "vec<" name with
      | true => exact .inl (by simp [shape, hcompound, hvec])
      | false =>
        have hoption : startsWith "option<" name = true := by simpa [hvec] using helem
        exact .inr (by simp [shape, hcompound, hvec, hoption])
    · cases typeArgs with
      | nil => cases h
      | cons elem rest => exact ⟨elem, rfl, h⟩
  · refine .inr (.inr ⟨?_, ?_⟩)
    · simp only [Bool.or_eq_true, not_or, Bool.not_eq_true] at helem
      simp [shape, hcompound, helem, hmap]
    · obtain ⟨hlength, hall⟩ := (Bool.and_eq_true _ _).mp h
      obtain ⟨kt, vt, rfl⟩ := List.length_eq_two.mp (by simpa using hlength)
      obtain ⟨hkt, hrest⟩ := (Bool.and_eq_true _ _).mp hall
      obtain ⟨hvt, -⟩ := (Bool.and_eq_true _ _).mp hrest
      exact ⟨kt, vt, rfl, hkt, hvt⟩

/-- The element type of a supported type is supported. -/
theorem typeSupported_elem {t elem : ContractType} (hshape : shape t = .vec ∨ shape t = .option)
    (ht : typeSupported t = true) (helem : t.typeArgs.head? = some elem) :
    typeSupported elem = true := by
  obtain ⟨hprimitive, -⟩ | ⟨-, elem', helem', hsupported⟩ | ⟨hmap, -⟩ := typeSupported_cases ht
  · rw [hprimitive] at hshape
    simp at hshape
  · rw [helem] at helem'
    cases helem'
    exact hsupported
  · rw [hmap] at hshape
    simp at hshape

/-- The key and value types of a supported map type are supported. -/
theorem typeSupported_entry {t kt vt : ContractType} (hshape : shape t = .map)
    (ht : typeSupported t = true) (hkt : t.typeArgs.head? = some kt)
    (hvt : t.typeArgs[1]? = some vt) : typeSupported kt = true ∧ typeSupported vt = true := by
  obtain ⟨hprimitive, -⟩ | ⟨hother, -⟩ | ⟨-, kt', vt', hargs', hktSupported, hvtSupported⟩ :=
    typeSupported_cases ht
  · rw [hshape] at hprimitive
    cases hprimitive
  · rw [hshape] at hother
    simp at hother
  · rw [hargs'] at hkt hvt
    cases hkt
    cases hvt
    exact ⟨hktSupported, hvtSupported⟩

theorem isPrimitive_of_generatePrimitive {name : String} {rng : SplitMix64}
    {caps : GenerationCaps} {v : ScVal} (h : generatePrimitive name rng caps = some v) :
    IsPrimitive name v := by
  unfold generatePrimitive at h
  dsimp only at h
  split at h
  case h_8 | h_9 =>
    split_ifs at h
    cases h
    rfl
  case h_10 =>
    cases h
    exact .inl rfl
  case h_12 => cases h
  all_goals
    cases h
    rfl

section

variable {sha256 : List UInt8 → Bytes32} {caps : GenerationCaps}

theorem withinLimit_eq_ok {ε α : Type} {refusal : ε} {length : ℕ} {v w : α}
    (h : withinLimit refusal length v = .ok w) : w = v := by
  unfold withinLimit at h
  split_ifs at h
  cases h
  rfl

/-- What is generated above the depth cap. -/
theorem generateValueAbove_cases {levels depth : ℕ} {t : ContractType} {key : List UInt8}
    {v : ScVal} (h : generateValueAbove sha256 caps (levels + 1) t key depth = .ok v) :
    (shape t = .primitive ∧ ∃ rng, generatePrimitive t.name rng caps = some v) ∨
      (shape t = .vec ∧ ∃ elem items, t.typeArgs.head? = some elem ∧ v = .vec (some items) ∧
        ∀ item ∈ items, ∃ key depth,
          generateValueAbove sha256 caps levels elem key depth = .ok item) ∨
      (shape t = .option ∧ (v = .void ∨ ∃ elem key depth, t.typeArgs.head? = some elem ∧
        generateValueAbove sha256 caps levels elem key depth = .ok v)) ∨
      (shape t = .map ∧ ∃ kt vt rest entries, t.typeArgs = kt :: vt :: rest ∧
        v = .map (some (dedupByKey (sortByKey entries))) ∧ ∀ e ∈ entries,
          (∃ key depth, generateValueAbove sha256 caps levels kt key depth = .ok e.1) ∧
          ∃ key depth, generateValueAbove sha256 caps levels vt key depth = .ok e.2) := by
  rw [generateValueAbove] at h
  by_cases hprimitive : t.kind = "primitive"
  · refine .inl ⟨if_pos hprimitive, SplitMix64.keyed sha256 (key ++ littleEndian 4 depth), ?_⟩
    rw [if_pos hprimitive] at h
    split at h
    · next w hw =>
      cases h
      exact hw
    · cases h
  rw [if_neg hprimitive] at h
  by_cases hcompound : t.kind = "compound"
  swap
  · rw [if_neg hcompound] at h
    cases h
  rw [if_pos hcompound] at h
  by_cases hvec : startsWith "vec<" t.name = true
  · refine .inr (.inl ⟨by simp [shape, hcompound, hvec], ?_⟩)
    rw [if_pos hvec] at h
    cases hargs : t.typeArgs with
    | nil =>
      rw [hargs] at h
      cases h
    | cons elem rest =>
      rw [hargs] at h
      obtain ⟨items, hitems, h⟩ := Except.bind_eq_ok_iff.mp h
      refine ⟨elem, items, rfl, withinLimit_eq_ok h, fun item hitem => ?_⟩
      obtain ⟨i, -, hi⟩ := Except.mem_of_mapM_eq_ok hitems item hitem
      exact ⟨_, _, hi⟩
  rw [if_neg hvec] at h
  by_cases hoption : startsWith "option<" t.name = true
  · refine .inr (.inr (.inl ⟨by simp [shape, hcompound, hvec, hoption], ?_⟩))
    rw [if_pos hoption] at h
    cases hargs : t.typeArgs with
    | nil =>
      rw [hargs] at h
      cases h
    | cons elem rest =>
      rw [hargs] at h
      dsimp only at h
      split_ifs at h
      · cases h
        exact .inl rfl
      · exact .inr ⟨elem, _, _, rfl, h⟩
  rw [if_neg hoption] at h
  by_cases hmap : startsWith "map<" t.name = true
  · refine .inr (.inr (.inr ⟨by simp [shape, hcompound, hvec, hoption, hmap], ?_⟩))
    rw [if_pos hmap] at h
    cases hargs : t.typeArgs with
    | nil =>
      rw [hargs] at h
      cases h
    | cons kt rest =>
      cases rest with
      | nil =>
        rw [hargs] at h
        cases h
      | cons vt rest =>
        rw [hargs] at h
        obtain ⟨entries, hentries, h⟩ := Except.bind_eq_ok_iff.mp h
        refine ⟨kt, vt, rest, entries, rfl, withinLimit_eq_ok h, fun e he => ?_⟩
        obtain ⟨i, -, hi⟩ := Except.mem_of_mapM_eq_ok hentries e he
        obtain ⟨k, hk, hi⟩ := Except.bind_eq_ok_iff.mp hi
        obtain ⟨w, hw, hi⟩ := Except.bind_eq_ok_iff.mp hi
        cases hi
        exact ⟨⟨_, _, hk⟩, _, _, hw⟩
  · rw [if_neg hmap] at h
    cases h

/-- **What is generated for a supported type is a value of it.** -/
theorem generateValueAbove_hasType {levels depth : ℕ} {t : ContractType} {key : List UInt8}
    {v : ScVal} (ht : typeSupported t = true)
    (h : generateValueAbove sha256 caps levels t key depth = .ok v) : HasType t v := by
  induction levels generalizing t key depth v with
  | zero =>
    rw [generateValueAbove] at h
    obtain ⟨hshape, hname, rfl⟩ | ⟨hshape, rfl⟩ | ⟨hshape, rfl⟩ | ⟨hshape, rfl⟩ :=
      cappedValue_eq_ok h
    · exact .primitive hshape hname
    · exact .vecNone hshape
    · exact .optionNone hshape
    · exact .mapNone hshape
  | succ levels ih =>
    obtain ⟨hshape, rng, hv⟩ | ⟨hshape, elem, items, helem, rfl, hitems⟩ | ⟨hshape, hv⟩ |
      ⟨hshape, kt, vt, rest, entries, hargs, rfl, hentries⟩ := generateValueAbove_cases h
    · exact .primitive hshape (isPrimitive_of_generatePrimitive hv)
    · have hsupported := typeSupported_elem (.inl hshape) ht helem
      refine .vec hshape helem fun item hitem => ?_
      obtain ⟨key', depth', hitem⟩ := hitems item hitem
      exact ih hsupported hitem
    · obtain rfl | ⟨elem, key', depth', helem, hv⟩ := hv
      · exact .optionNone hshape
      · exact .option hshape helem (ih (typeSupported_elem (.inr hshape) ht helem) hv)
    · have hkt : t.typeArgs.head? = some kt := by rw [hargs, List.head?_cons]
      have hvt : t.typeArgs[1]? = some vt := by rw [hargs]; rfl
      obtain ⟨hktSupported, hvtSupported⟩ := typeSupported_entry hshape ht hkt hvt
      obtain ⟨hsorted, hmem⟩ := sortedByKey_generated entries
      refine .map hshape hkt hvt (fun e he => ?_) (fun e he => ?_) hsorted
      · obtain ⟨⟨key', depth', hk⟩, -⟩ := hentries e (hmem e he)
        exact ih hktSupported hk
      · obtain ⟨-, key', depth', hval⟩ := hentries e (hmem e he)
        exact ih hvtSupported hval

theorem generateValue_hasType {t : ContractType} {key : List UInt8} {depth : ℕ} {v : ScVal}
    (ht : typeSupported t = true) (h : generateValue sha256 caps t key depth = .ok v) :
    HasType t v :=
  generateValueAbove_hasType ht h

/-! ### Mutated values -/

theorem orNoMutation_eq_ok {ε α : Type} {v : Except ε α} {w : α} (h : orNoMutation v = .ok w) :
    v = .ok w :=
  Except.mapError_eq_ok_iff.mp h

theorem someOrNoMutation_eq_ok {α : Type} {v : Option α} {w : α}
    (h : someOrNoMutation v = .ok w) : v = some w := by
  cases v with
  | none => cases h
  | some v =>
    cases h
    rfl

theorem isPrimitive_of_numeric {t : ContractType} {magnitude : UInt64} {boundary : Bool}
    {v : ScVal} (h : numeric t magnitude boundary = some v) : IsPrimitive t.name v := by
  unfold numeric at h
  dsimp only at h
  split at h
  case h_7 => cases h
  all_goals
    next hname =>
      cases h
      rw [hname]
      try split_ifs
      all_goals rfl

variable {applyTo : ContractType → ScVal → Operator → SplitMix64 → Except MutationError ScVal}
  {t : ContractType} {current v : ScVal} {operator : Operator} {rng : SplitMix64}

/-- An operator of a primitive type yields a value of it. -/
theorem applyOperatorWith_primitive (ht : typeSupported t = true) (hshape : shape t = .primitive)
    (hoperator : operator ∈ operatorsFor t)
    (h : applyOperatorWith sha256 caps applyTo t current operator rng = .ok v) : HasType t v := by
  rw [operatorsFor_eq, hshape] at hoperator
  dsimp only at hoperator
  split_ifs at hoperator with hbool hnumeric hbytes
  · refine .primitive hshape ?_
    rcases List.mem_pair.mp hoperator with rfl | rfl
    · cases h
      exact hbool
    · cases h
      exact hbool
  · simp only [List.mem_cons, List.not_mem_nil, or_false] at hoperator
    rcases hoperator with rfl | rfl | rfl | rfl | rfl
    · exact .primitive hshape (isPrimitive_of_numeric (someOrNoMutation_eq_ok h))
    · exact .primitive hshape (isPrimitive_of_numeric (someOrNoMutation_eq_ok h))
    · exact .primitive hshape (isPrimitive_of_numeric (someOrNoMutation_eq_ok h))
    · exact .primitive hshape (isPrimitive_of_numeric (someOrNoMutation_eq_ok h))
    · exact generateValue_hasType ht (orNoMutation_eq_ok h)
  · simp only [List.mem_cons, List.not_mem_nil, or_false] at hoperator
    rcases hoperator with rfl | rfl | rfl
    · refine .primitive hshape ?_
      unfold applyOperatorWith at h
      dsimp only at h
      split at h <;> cases h <;> assumption
    · refine .primitive hshape ?_
      unfold applyOperatorWith at h
      dsimp only at h
      split at h
      · rw [withinLimit_eq_ok h]
        assumption
      · rw [withinLimit_eq_ok h]
        assumption
      · cases h
    · exact generateValue_hasType ht (orNoMutation_eq_ok h)
  · rw [List.mem_singleton.mp hoperator] at h
    exact generateValue_hasType ht (orNoMutation_eq_ok h)

theorem listWithinLimit_eq_ok {α : Type} {mk : Option (List α) → ScVal} {items : List α}
    (h : listWithinLimit mk items = .ok v) : v = mk (some items) :=
  withinLimit_eq_ok h

theorem mem_getD {α : Type} {a : α} {as : List α} (i : ℕ) : (a :: as).getD i a ∈ a :: as := by
  rw [List.getD_eq_getElem?_getD]
  cases h : (a :: as)[i]? with
  | none => exact List.mem_cons_self
  | some b => exact List.mem_of_getElem? h

/-- An operator of a vector type yields a value of it. -/
theorem applyOperatorWith_vec (ht : typeSupported t = true) (hshape : shape t = .vec)
    (hcurrent : HasType t current) (hoperator : operator ∈ operatorsFor t)
    (happly : ∀ elem w op rng w', typeSupported elem = true → op ∈ operatorsFor elem →
      HasType elem w → applyTo elem w op rng = .ok w' → HasType elem w')
    (h : applyOperatorWith sha256 caps applyTo t current operator rng = .ok v) : HasType t v := by
  rw [operatorsFor_eq, hshape] at hoperator
  simp only [List.mem_cons, List.not_mem_nil, or_false] at hoperator
  rcases hoperator with rfl | rfl | rfl | rfl | rfl
  case inl =>
    cases h
    exact .vecNone hshape
  all_goals unfold applyOperatorWith at h
  all_goals dsimp only at h
  -- remove the last item
  · split at h
    · next item items =>
      obtain ⟨elem, helem, hitems⟩ := items_of_hasType hshape hcurrent
      rw [listWithinLimit_eq_ok h]
      exact .vec hshape helem fun w hw => hitems w (List.mem_of_mem_dropLast hw)
    · cases h
  -- repeat the last item
  · split at h
    · next item items =>
      obtain ⟨elem, helem, hitems⟩ := items_of_hasType hshape hcurrent
      rw [listWithinLimit_eq_ok h]
      refine .vec hshape helem fun w hw => ?_
      obtain rfl | hw := List.eq_or_mem_of_mem_insertIdx (List.mem_of_mem_take hw)
      · exact hitems _ (List.getLast_mem _)
      · exact hitems w hw
    · cases h
  -- append a generated item
  · obtain ⟨elem, helem, h⟩ := Except.bind_eq_ok_iff.mp h
    have helem := someOrNoMutation_eq_ok helem
    obtain ⟨w, hw, h⟩ := Except.bind_eq_ok_iff.mp h
    have hwtype : HasType elem w :=
      generateValue_hasType (typeSupported_elem (.inl hshape) ht helem) (orNoMutation_eq_ok hw)
    split_ifs at h
    rw [listWithinLimit_eq_ok h]
    refine .vec hshape helem fun u hu => ?_
    obtain hu | hu := List.mem_append.mp hu
    · split at hu
      · next items =>
        obtain ⟨elem', helem', hitems⟩ := items_of_hasType hshape hcurrent
        rw [helem] at helem'
        cases helem'
        exact hitems u hu
      · cases hu
    · rw [List.mem_singleton.mp hu]
      exact hwtype
  -- mutate one item
  · obtain ⟨elem, helem, h⟩ := Except.bind_eq_ok_iff.mp h
    have helem := someOrNoMutation_eq_ok helem
    split at h
    · next item items =>
      obtain ⟨elem', helem', hitems⟩ := items_of_hasType hshape hcurrent
      rw [helem] at helem'
      cases helem'
      obtain ⟨op, hop, h⟩ := Except.bind_eq_ok_iff.mp h
      obtain ⟨w, hw, h⟩ := Except.bind_eq_ok_iff.mp h
      rw [listWithinLimit_eq_ok h]
      refine .vec hshape helem fun u hu => ?_
      obtain hu | rfl := List.mem_or_eq_of_mem_set hu
      · exact hitems u hu
      · refine happly elem _ op _ u (typeSupported_elem (.inl hshape) ht helem)
          (List.mem_of_getElem? (someOrNoMutation_eq_ok hop)) (hitems _ ?_) hw
        exact mem_getD _
    · cases h

/-- An operator of an option type yields a value of it. -/
theorem applyOperatorWith_option (ht : typeSupported t = true) (hshape : shape t = .option)
    (hoperator : operator ∈ operatorsFor t)
    (happly : ∀ elem w op rng w', typeSupported elem = true → op ∈ operatorsFor elem →
      HasType elem w → applyTo elem w op rng = .ok w' → HasType elem w')
    (h : applyOperatorWith sha256 caps applyTo t current operator rng = .ok v) : HasType t v := by
  rw [operatorsFor_eq, hshape] at hoperator
  simp only [List.mem_cons, List.not_mem_nil, or_false] at hoperator
  rcases hoperator with rfl | rfl | rfl
  · cases h
    exact .optionNone hshape
  · obtain ⟨elem, helem, h⟩ := Except.bind_eq_ok_iff.mp h
    have helem := someOrNoMutation_eq_ok helem
    exact .option hshape helem (generateValue_hasType
      (typeSupported_elem (.inr hshape) ht helem) (orNoMutation_eq_ok h))
  · obtain ⟨elem, helem, h⟩ := Except.bind_eq_ok_iff.mp h
    have helem := someOrNoMutation_eq_ok helem
    have hsupported := typeSupported_elem (.inr hshape) ht helem
    obtain ⟨op, hop, h⟩ := Except.bind_eq_ok_iff.mp h
    obtain ⟨base, hbase, h⟩ := Except.bind_eq_ok_iff.mp h
    exact .option hshape helem (happly elem base op _ v hsupported
      (List.mem_of_getElem? (someOrNoMutation_eq_ok hop))
      (generateValue_hasType hsupported (orNoMutation_eq_ok hbase)) h)

/-- The entry that is found is generated, and its key is new. -/
theorem freshEntry_eq_some {kt vt : ContractType} {entries : List ScMapEntry} {attempts : ℕ}
    {rng : SplitMix64} {e : ScMapEntry}
    (h : freshEntry sha256 caps kt vt entries attempts rng = some e) :
    (∀ d ∈ entries, d.1 ≠ e.1) ∧ (∃ key, generateValue sha256 caps kt key 1 = .ok e.1) ∧
      ∃ key, generateValue sha256 caps vt key 1 = .ok e.2 := by
  induction attempts generalizing rng with
  | zero => cases h
  | succ attempts ih =>
    rw [freshEntry] at h
    dsimp only at h
    split at h
    · exact ih h
    · next key hkey =>
      split_ifs at h with hany
      · exact ih h
      · split at h
        · exact ih h
        · next val hval =>
          cases h
          refine ⟨fun d hd heq => hany (List.any_eq_true.mpr ⟨d, hd, decide_eq_true heq⟩),
            ⟨_, hkey⟩, _, hval⟩

/-- What `MapInsertKey` yields, an absent map having no entries. -/
theorem mapInsertKey_eq_ok
    (h : applyOperatorWith sha256 caps applyTo t current .mapInsertKey rng = .ok v) :
    ∃ kt vt entries e, t.typeArgs.head? = some kt ∧ t.typeArgs[1]? = some vt ∧
      (current = .map (some entries) ∨ entries = []) ∧
      freshEntry sha256 caps kt vt entries 100 rng = some e ∧
      v = .map (some (sortByKey (entries ++ [e]))) := by
  obtain ⟨kt, hkt, h⟩ := Except.bind_eq_ok_iff.mp h
  obtain ⟨vt, hvt, h⟩ := Except.bind_eq_ok_iff.mp h
  obtain ⟨e, he, h⟩ := Except.bind_eq_ok_iff.mp h
  dsimp only at h
  split_ifs at h
  refine ⟨kt, vt, _, e, someOrNoMutation_eq_ok hkt, someOrNoMutation_eq_ok hvt, ?_,
    someOrNoMutation_eq_ok he, listWithinLimit_eq_ok h⟩
  split
  · exact .inl rfl
  · exact .inr rfl

/-- An operator of a map type yields a value of it. -/
theorem applyOperatorWith_map (ht : typeSupported t = true) (hshape : shape t = .map)
    (hcurrent : HasType t current) (hoperator : operator ∈ operatorsFor t)
    (h : applyOperatorWith sha256 caps applyTo t current operator rng = .ok v) : HasType t v := by
  rw [operatorsFor_eq, hshape] at hoperator
  simp only [List.mem_cons, List.not_mem_nil, or_false] at hoperator
  rcases hoperator with rfl | rfl | rfl
  · cases h
    exact .mapNone hshape
  · unfold applyOperatorWith at h
    dsimp only at h
    split at h
    · next e entries =>
      obtain ⟨kt, vt, hkt, hvt, hkeys, hvals, hsorted⟩ := entries_of_hasType hshape hcurrent
      rw [listWithinLimit_eq_ok h]
      exact .map hshape hkt hvt (fun d hd => hkeys d (List.mem_of_mem_dropLast hd))
        (fun d hd => hvals d (List.mem_of_mem_dropLast hd))
          (hsorted.sublist (List.dropLast_sublist _))
    · cases h
  · obtain ⟨kt, vt, entries, e, hkt, hvt, hentries, he, rfl⟩ := mapInsertKey_eq_ok h
    obtain ⟨hfresh, ⟨keyBytes, hkey⟩, valBytes, hval⟩ := freshEntry_eq_some he
    obtain ⟨hktSupported, hvtSupported⟩ := typeSupported_entry hshape ht hkt hvt
    obtain ⟨hkeys, hvals, hsorted⟩ : (∀ d ∈ entries, HasType kt d.1) ∧
        (∀ d ∈ entries, HasType vt d.2) ∧ SortedByKey entries := by
      obtain rfl | rfl := hentries
      · obtain ⟨kt', vt', hkt', hvt', hkeys, hvals, hsorted⟩ := entries_of_hasType hshape hcurrent
        rw [hkt] at hkt'
        rw [hvt] at hvt'
        cases hkt'
        cases hvt'
        exact ⟨hkeys, hvals, hsorted⟩
      · exact ⟨nofun, nofun, List.Pairwise.nil⟩
    have hmem : ∀ d ∈ sortByKey (entries ++ [e]), d ∈ entries ∨ d = e := by
      intro d hd
      rw [(sortByKey_perm _).mem_iff, List.mem_append, List.mem_singleton] at hd
      exact hd
    refine .map hshape hkt hvt (fun d hd => ?_) (fun d hd => ?_) (sortedByKey_insert hsorted hfresh)
    · obtain hd | rfl := hmem d hd
      · exact hkeys d hd
      · exact generateValue_hasType hktSupported hkey
    · obtain hd | rfl := hmem d hd
      · exact hvals d hd
      · exact generateValue_hasType hvtSupported hval

/-- **An operator of a type takes values of it to values of it.** -/
theorem applyOperatorAbove_hasType {levels : ℕ} (ht : typeSupported t = true)
    (hcurrent : HasType t current) (hoperator : operator ∈ operatorsFor t)
    (h : applyOperatorAbove sha256 caps levels t current operator rng = .ok v) : HasType t v := by
  have hstep {applyTo : ContractType → ScVal → Operator → SplitMix64 → Except MutationError ScVal}
      {t : ContractType} {current v : ScVal} {operator : Operator} {rng : SplitMix64}
      (happly : ∀ elem w op rng w', typeSupported elem = true → op ∈ operatorsFor elem →
        HasType elem w → applyTo elem w op rng = .ok w' → HasType elem w')
      (ht : typeSupported t = true) (hcurrent : HasType t current)
      (hoperator : operator ∈ operatorsFor t)
      (h : applyOperatorWith sha256 caps applyTo t current operator rng = .ok v) :
      HasType t v := by
    cases hshape : shape t with
    | primitive => exact applyOperatorWith_primitive ht hshape hoperator h
    | vec => exact applyOperatorWith_vec ht hshape hcurrent hoperator happly h
    | option => exact applyOperatorWith_option ht hshape hoperator happly h
    | map => exact applyOperatorWith_map ht hshape hcurrent hoperator h
    | other =>
      rw [operatorsFor_eq, hshape] at hoperator
      cases hoperator
  induction levels generalizing t current operator rng v with
  | zero => exact hstep (fun _ _ _ _ _ _ _ _ hnone => by cases hnone) ht hcurrent hoperator h
  | succ levels ih =>
    exact hstep (fun elem w op rng w' helem hop hw hw' => ih helem hw hop hw') ht hcurrent
      hoperator h

/-! ### The arguments of a call -/

/-- A mutation replaces its target, by a value of its type, and nothing else. -/
theorem mutateArg_eq_ok {args : List ScVal} {argIndex : ℕ} {seed : Bytes32} {caseId : String}
    {mutation : Mutation} (h : mutateArg sha256 caps t args argIndex operator seed caseId =
      .ok mutation) : ∃ current value, args[argIndex]? = some current ∧
      mutation.args = args.set argIndex value ∧
      (typeSupported t = true → HasType t current → HasType t value) := by
  unfold mutateArg at h
  split at h
  · cases h
  · next current hcurrent =>
    split_ifs at h with hoperator hnone
    obtain ⟨value, hvalue, h⟩ := Except.bind_eq_ok_iff.mp h
    cases h
    exact ⟨current, value, hcurrent, rfl,
      fun ht hw => applyOperatorAbove_hasType ht hw hoperator hvalue⟩

end

/-- One successful mutation of the arguments of a call: of any argument with its declared type, by
any operator, under any seed, case and caps. -/
def MutationStep (sha256 : List UInt8 → Bytes32) (types : List ContractType)
    (args args' : List ScVal) : Prop :=
  ∃ caps t argIndex operator seed caseId mutation, types[argIndex]? = some t ∧
    mutateArg sha256 caps t args argIndex operator seed caseId = .ok mutation ∧
    args' = mutation.args

/-- Arguments of the declared types. -/
def WellTyped (types : List ContractType) (args : List ScVal) : Prop :=
  args.length = types.length ∧
    ∀ (i : ℕ) (t : ContractType) (v : ScVal), types[i]? = some t → args[i]? = some v → HasType t v

section

variable {sha256 : List UInt8 → Bytes32} {types : List ContractType} {args args' : List ScVal}

/-- A mutation leaves arguments of the declared types. -/
theorem MutationStep.wellTyped (htypes : ∀ t ∈ types, typeSupported t = true)
    (hargs : WellTyped types args) (h : MutationStep sha256 types args args') :
    WellTyped types args' := by
  obtain ⟨caps, t, i, operator, seed, caseId, mutation, ht, hmutation, rfl⟩ := h
  obtain ⟨current, value, hcurrent, hset, htype⟩ := mutateArg_eq_ok hmutation
  have hvalue : HasType t value :=
    htype (htypes t (List.mem_of_getElem? ht)) (hargs.2 i t current ht hcurrent)
  rw [hset]
  refine ⟨by rw [List.length_set, hargs.1], fun j u v hu hv => ?_⟩
  rw [List.getElem?_set] at hv
  split_ifs at hv with hij
  · rw [← hij, ht] at hu
    cases hu
    cases hv
    exact hvalue
  · exact hargs.2 j u v hu hv

/-- The arguments of a generated call are of the declared types, which are supported. -/
theorem generateCall_wellTyped {spec : ContractSpec} {function caseId : String} {seed : Bytes32}
    {caps : GenerationCaps} {call : GeneratedCall} {f : ContractFunction}
    (hf : (spec.functions.find? fun f => f.name == function) = some f)
    (h : generateCall sha256 spec function seed caseId caps = .ok call) :
    (∀ t ∈ f.parameters.map (·.type), typeSupported t = true) ∧
      WellTyped (f.parameters.map (·.type)) call.args := by
  rw [generateCall, hf] at h
  obtain ⟨args, hargs, h⟩ := Except.bind_eq_ok_iff.mp h
  cases h
  have hlength := Except.length_of_mapM_eq_ok hargs
  rw [List.length_zipIdx] at hlength
  have hparameter : ∀ (i : ℕ) p, f.parameters[i]? = some p → typeSupported p.type = true ∧
      ∀ v, args[i]? = some v → HasType p.type v := by
    intro i p hp
    have hzip : f.parameters.zipIdx[i]? = some (p, i) := by
      rw [List.getElem?_zipIdx, hp, Option.map_some, Nat.zero_add]
    obtain ⟨v, hv, hgenerated⟩ := Except.getElem?_of_mapM_eq_ok hargs hzip
    dsimp only at hgenerated
    split_ifs at hgenerated with hsupported
    refine ⟨hsupported, fun w hw => ?_⟩
    rw [hv] at hw
    cases hw
    exact generateValue_hasType hsupported (Except.mapError_eq_ok_iff.mp hgenerated)
  refine ⟨fun t ht => ?_, by rw [hlength, List.length_map], fun i t v ht hv => ?_⟩
  · obtain ⟨p, hp, rfl⟩ := List.mem_map.mp ht
    obtain ⟨i, hi⟩ := List.mem_iff_getElem?.mp hp
    exact (hparameter i p hi).1
  · rw [List.getElem?_map] at ht
    obtain ⟨p, hp, rfl⟩ := Option.map_eq_some_iff.mp ht
    exact (hparameter i p hp).2 v hv

/-- **Fuzz inputs stay well-typed**: the arguments of a generated call, after any mutations one
after the other, are of the declared types, and a further mutation replaces its target and nothing
else. -/
theorem fuzz_inputs_well_typed {spec : ContractSpec} {function caseId : String} {seed : Bytes32}
    {caps : GenerationCaps} {call : GeneratedCall} {f : ContractFunction}
    (hf : (spec.functions.find? fun f => f.name == function) = some f)
    (hcall : generateCall sha256 spec function seed caseId caps = .ok call)
    (hargs : Relation.ReflTransGen (MutationStep sha256 (f.parameters.map (·.type)))
      call.args args) :
    WellTyped (f.parameters.map (·.type)) args ∧
      ∀ caps t i operator seed caseId mutation, (f.parameters.map (·.type))[i]? = some t →
        mutateArg sha256 caps t args i operator seed caseId = .ok mutation →
          mutation.args.length = args.length ∧ ∀ j ≠ i, mutation.args[j]? = args[j]? := by
  obtain ⟨hsupported, hgenerated⟩ := generateCall_wellTyped hf hcall
  constructor
  · induction hargs with
    | refl => exact hgenerated
    | tail _ hstep ih => exact hstep.wellTyped hsupported ih
  · intro caps t i operator seed caseId mutation _ hmutation
    obtain ⟨current, value, -, hset, -⟩ := mutateArg_eq_ok hmutation
    rw [hset]
    exact ⟨List.length_set, fun j hj => List.getElem?_set_ne (Ne.symm hj)⟩

end

section Flags

/-- A vector of flags. -/
def flagsType : ContractType :=
  ⟨"vec<bool>", "compound", "", [], [Wasm.primitive "bool"], none⟩

/-- A function of a vector of flags. -/
def setFlags : ContractFunction :=
  ⟨"set_flags", "", [⟨"flags", "", flagsType⟩], []⟩

/-- A contract with a function of a vector of flags. -/
def flagsSpec : ContractSpec where
  envMeta := none
  functions := [setFlags]
  customTypes := []
  events := []

/-- A vector of flags, as a value. -/
def flagsOf (flags : List Bool) : ScVal := .vec (some (flags.map .bool))

theorem mutationStep_flags {operator : Operator} {flags flags' : List Bool}
    (h : (mutateArg Sha256.digest .default flagsType [flagsOf flags] 0 operator
      (Vector.replicate 32 0) "case0001").map (·.args) = .ok [flagsOf flags']) :
    MutationStep Sha256.digest [flagsType] [flagsOf flags] [flagsOf flags'] := by
  obtain ⟨mutation, hmutation, hargs⟩ := Except.map_eq_ok_iff.mp h
  exact ⟨_, flagsType, 0, _, _, _, mutation, rfl, hmutation, hargs.symm⟩

theorem generateValue_flags :
    generateValue Sha256.digest .default flagsType (deriveKeyChild Sha256.digest (deriveKey
      Sha256.digest (Vector.replicate 32 0) ["case0001", "set_flags", "args"]) "arg0") 0 =
        .ok (flagsOf [true, true, false, false]) := by
  decide +kernel

/-- The flags that are generated for the first case. -/
theorem generateCall_flags :
    (generateCall Sha256.digest flagsSpec "set_flags" (Vector.replicate 32 0) "case0001"
      .default).map (·.args) = .ok [flagsOf [true, true, false, false]] := by
  have hf : (flagsSpec.functions.find? fun f => f.name == "set_flags") = some setFlags := rfl
  have hsupported : typeSupported flagsType = true := by decide
  have hname : "arg" ++ toString 0 = "arg0" := rfl
  rw [generateCall, hf]
  simp only [setFlags, List.zipIdx_cons, List.zipIdx_nil, List.mapM_cons, List.mapM_nil, hsupported,
    hname, generateValue_flags, if_true]
  rfl

/-- The flags of a generated call are of their type, and after one is appended and another one
duplicated they still are. -/
theorem fuzz_inputs_well_typed_flags :
    (generateCall Sha256.digest flagsSpec "set_flags" (Vector.replicate 32 0) "case0001"
        .default).map (·.args) = .ok [flagsOf [true, true, false, false]] ∧
      Relation.ReflTransGen (MutationStep Sha256.digest [flagsType])
        [flagsOf [true, true, false, false]] [flagsOf [true, false, true, false, false, false]] ∧
      WellTyped [flagsType] [flagsOf [true, false, true, false, false, false]] := by
  have happend : MutationStep Sha256.digest [flagsType] [flagsOf [true, true, false, false]]
      [flagsOf [true, true, false, false, false]] :=
    mutationStep_flags (show (mutateArg _ _ _ _ _ .vecAppend _ _).map _ = _ by decide +kernel)
  have hduplicate : MutationStep Sha256.digest [flagsType]
      [flagsOf [true, true, false, false, false]]
      [flagsOf [true, false, true, false, false, false]] :=
    mutationStep_flags (show (mutateArg _ _ _ _ _ .vecDuplicate _ _).map _ = _ by decide +kernel)
  have hsteps := Relation.ReflTransGen.head happend (.single hduplicate)
  obtain ⟨call, hcall, hargs⟩ := Except.map_eq_ok_iff.mp generateCall_flags
  have hf : (flagsSpec.functions.find? fun f => f.name == "set_flags") = some setFlags := rfl
  rw [← hargs] at hsteps
  have hwell := (fuzz_inputs_well_typed hf hcall hsteps).1
  rw [hargs] at hsteps
  exact ⟨generateCall_flags, hsteps, hwell⟩

end Flags

end SorobanDevkit.Fuzz
