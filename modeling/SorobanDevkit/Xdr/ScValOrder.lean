import SorobanDevkit.Library.LexCode
import SorobanDevkit.Xdr.ScVal

/-!
# The order of contract values

The order of `ScVal` that the `stellar-xdr` crate derives is linear. Values are compared as their
codes: the position of the variant, then the code of each field.

## Main definitions

* `Scalar.code`, `ScVal.code`.

## Main results

* `ScVal.codes` — values are compared as their codes.
* The instances `Std.TransCmp ScVal.cmp` and `Std.LawfulEqCmp ScVal.cmp`.
-/

namespace SorobanDevkit.Xdr

open Codes (listCode)
open Std

/-! ### Fields -/

theorem codes_bool : Codes (compare : Bool → Bool → Ordering) fun b => [(b.toNat : ℤ)] :=
  .of_key fun a b => by cases a <;> cases b <;> rfl

theorem codes_uint8 : Codes (compare : UInt8 → UInt8 → Ordering) fun n => [(n.toNat : ℤ)] :=
  .of_key fun a b => by
    change compareOfLessAndEq _ _ = compareOfLessAndEq _ _
    simp only [compareOfLessAndEq, UInt8.lt_iff_toNat_lt, ← UInt8.toNat_inj, Int.ofNat_lt,
      Int.natCast_inj]

theorem codes_uint32 : Codes (compare : UInt32 → UInt32 → Ordering) fun n => [(n.toNat : ℤ)] :=
  .of_key fun a b => by
    change compareOfLessAndEq _ _ = compareOfLessAndEq _ _
    simp only [compareOfLessAndEq, UInt32.lt_iff_toNat_lt, ← UInt32.toNat_inj, Int.ofNat_lt,
      Int.natCast_inj]

theorem codes_uint64 : Codes (compare : UInt64 → UInt64 → Ordering) fun n => [(n.toNat : ℤ)] :=
  .of_key fun a b => by
    change compareOfLessAndEq _ _ = compareOfLessAndEq _ _
    simp only [compareOfLessAndEq, UInt64.lt_iff_toNat_lt, ← UInt64.toNat_inj, Int.ofNat_lt,
      Int.natCast_inj]

theorem codes_int32 : Codes (compare : Int32 → Int32 → Ordering) fun n => [n.toInt] :=
  .of_key fun a b => by
    change compareOfLessAndEq _ _ = compareOfLessAndEq _ _
    simp only [compareOfLessAndEq, Int32.lt_iff_toInt_lt, ← Int32.toInt_inj]

theorem codes_int64 : Codes (compare : Int64 → Int64 → Ordering) fun n => [n.toInt] :=
  .of_key fun a b => by
    change compareOfLessAndEq _ _ = compareOfLessAndEq _ _
    simp only [compareOfLessAndEq, Int64.lt_iff_toInt_lt, ← Int64.toInt_inj]

theorem codes_errorType :
    Codes (compare : ScErrorType → ScErrorType → Ordering) fun t => [(t.ctorIdx : ℤ)] :=
  .of_key fun a b => by
    change compareOfLessAndEq _ _ = compareOfLessAndEq _ _
    simp only [compareOfLessAndEq, Int.ofNat_lt, Int.natCast_inj]

/-- The code of a list of bytes. -/
def bytesCode (b : List UInt8) : List ℤ := listCode (fun n => [(n.toNat : ℤ)]) b

theorem codes_bytes : Codes (compare : List UInt8 → List UInt8 → Ordering) bytesCode :=
  codes_uint8.list

theorem codes_bytes32 :
    Codes (compare : Bytes32 → Bytes32 → Ordering) fun v => bytesCode v.toList := by
  intro a b r r'
  rw [Vector.compare_eq_compare_toList]
  exact codes_bytes a.toList b.toList r r'

/-- The code of an address. -/
def ScAddress.code : ScAddress → List ℤ
  | .account ⟨.ed25519 key⟩ => 0 :: bytesCode key.toList
  | .contract id => 1 :: bytesCode id.toList
  | .muxedAccount id key => 2 :: ([(id.toNat : ℤ)] ++ bytesCode key.toList)
  | .claimableBalance id => 3 :: bytesCode id.toList
  | .liquidityPool id => 4 :: bytesCode id.toList

/-- Addresses of different variants differ in the first number of their codes. -/
theorem ScAddress.codes : Codes (compare : ScAddress → ScAddress → Ordering) ScAddress.code := by
  intro a b r r'
  cases a <;> cases b <;> try rfl
  case account.account a b =>
    obtain ⟨⟨a⟩⟩ := a
    obtain ⟨⟨b⟩⟩ := b
    have hkeys : compare (account ⟨.ed25519 a⟩) (account ⟨.ed25519 b⟩) =
      (compare a b).then .eq := by
      change (((compare a b).then .eq).then .eq).then .eq = _
      simp only [Ordering.then_eq]
    exact Codes.variant 0 (codes_bytes32.last hkeys r r')
  case contract.contract => exact Codes.variant 1 (codes_bytes32.last rfl r r')
  case muxedAccount.muxedAccount =>
    exact Codes.variant 2 (codes_uint64.field rfl (codes_bytes32.last rfl) r r')
  case claimableBalance.claimableBalance => exact Codes.variant 3 (codes_bytes32.last rfl r r')
  case liquidityPool.liquidityPool => exact Codes.variant 4 (codes_bytes32.last rfl r r')

/-- The code of an executable. -/
def ContractExecutable.code : ContractExecutable → List ℤ
  | .wasm hash => 0 :: bytesCode hash.toList
  | .stellarAsset => [1]
  | .externalRef owner tag => 2 :: (owner.code ++ bytesCode tag)

theorem ContractExecutable.codes :
    Codes (compare : ContractExecutable → ContractExecutable → Ordering)
      ContractExecutable.code := by
  intro a b r r'
  cases a <;> cases b <;> try rfl
  case wasm.wasm => exact Codes.variant 0 (codes_bytes32.last rfl r r')
  case externalRef.externalRef =>
    exact Codes.variant 2 (ScAddress.codes.field rfl (codes_bytes.last rfl) r r')

/-- The code of the fields of a flat value. -/
def Scalar.fieldsCode : Scalar → List ℤ
  | .bool b => [(b.toNat : ℤ)]
  | .void | .ledgerKeyContractInstance => []
  | .error type code => [(type.ctorIdx : ℤ)] ++ [(code.toNat : ℤ)]
  | .u32 n => [(n.toNat : ℤ)]
  | .i32 n => [n.toInt]
  | .u64 n | .timepoint n | .duration n => [(n.toNat : ℤ)]
  | .i64 n | .ledgerKeyNonce n => [n.toInt]
  | .u128 hi lo => [(hi.toNat : ℤ)] ++ [(lo.toNat : ℤ)]
  | .i128 hi lo => [hi.toInt] ++ [(lo.toNat : ℤ)]
  | .u256 hiHi hiLo loHi loLo =>
    [(hiHi.toNat : ℤ)] ++ ([(hiLo.toNat : ℤ)] ++ ([(loHi.toNat : ℤ)] ++ [(loLo.toNat : ℤ)]))
  | .i256 hiHi hiLo loHi loLo =>
    [hiHi.toInt] ++ ([(hiLo.toNat : ℤ)] ++ ([(loHi.toNat : ℤ)] ++ [(loLo.toNat : ℤ)]))
  | .bytes b | .string b | .symbol b | .executableTag b => bytesCode b
  | .address a => a.code

/-- The code of a flat value. -/
def Scalar.code (s : Scalar) : List ℤ := (s.discriminant : ℤ) :: s.fieldsCode

/-- Flat values of different variants differ in the first number of their codes. -/
theorem Scalar.codes : Codes (compare : Scalar → Scalar → Ordering) Scalar.code := by
  intro a b r r'
  cases a <;> cases b <;> try rfl
  case bool.bool => exact Codes.variant 0 (codes_bool.last rfl r r')
  case error.error =>
    exact Codes.variant 2 (codes_errorType.field rfl (codes_uint32.last rfl) r r')
  case u32.u32 => exact Codes.variant 3 (codes_uint32.last rfl r r')
  case i32.i32 => exact Codes.variant 4 (codes_int32.last rfl r r')
  case u64.u64 => exact Codes.variant 5 (codes_uint64.last rfl r r')
  case i64.i64 => exact Codes.variant 6 (codes_int64.last rfl r r')
  case timepoint.timepoint => exact Codes.variant 7 (codes_uint64.last rfl r r')
  case duration.duration => exact Codes.variant 8 (codes_uint64.last rfl r r')
  case u128.u128 => exact Codes.variant 9 (codes_uint64.field rfl (codes_uint64.last rfl) r r')
  case i128.i128 => exact Codes.variant 10 (codes_int64.field rfl (codes_uint64.last rfl) r r')
  case u256.u256 =>
    exact Codes.variant 11 (codes_uint64.field rfl (codes_uint64.field rfl
      (codes_uint64.field rfl (codes_uint64.last rfl))) r r')
  case i256.i256 =>
    exact Codes.variant 12 (codes_int64.field rfl (codes_uint64.field rfl
      (codes_uint64.field rfl (codes_uint64.last rfl))) r r')
  case bytes.bytes => exact Codes.variant 13 (codes_bytes.last rfl r r')
  case string.string => exact Codes.variant 14 (codes_bytes.last rfl r r')
  case symbol.symbol => exact Codes.variant 15 (codes_bytes.last rfl r r')
  case address.address => exact Codes.variant 18 (ScAddress.codes.last rfl r r')
  case ledgerKeyNonce.ledgerKeyNonce => exact Codes.variant 21 (codes_int64.last rfl r r')
  case executableTag.executableTag => exact Codes.variant 22 (codes_bytes.last rfl r r')

/-! ### Values that are compared as equal -/

/-- A field that is compared as equal, before others. -/
theorem eq_of_then {α : Type} [Ord α] [LawfulEqOrd α] {a b : α} {o : Ordering}
    (h : (compare a b).then o = .eq) : a = b ∧ o = .eq :=
  ⟨LawfulEqOrd.eq_of_compare (Ordering.then_eq_eq.mp h).1, (Ordering.then_eq_eq.mp h).2⟩

instance : LawfulEqOrd ScErrorType where
  compare_self {t} := by cases t <;> rfl
  eq_of_compare {a b} h := by cases a <;> cases b <;> first | rfl | cases h

instance : LawfulEqOrd ScAddress where
  compare_self {a} := by rw [ScAddress.codes.compare_eq, compare_self]
  eq_of_compare {a b} h := by
    cases a <;> cases b <;> try cases h
    case account.account a b =>
      obtain ⟨⟨a⟩⟩ := a
      obtain ⟨⟨b⟩⟩ := b
      obtain ⟨h, -⟩ := Ordering.then_eq_eq.mp h
      obtain ⟨h, -⟩ := Ordering.then_eq_eq.mp h
      rw [(eq_of_then h).1]
    case contract.contract => rw [(eq_of_then h).1]
    case muxedAccount.muxedAccount => rw [(eq_of_then h).1, (eq_of_then (eq_of_then h).2).1]
    case claimableBalance.claimableBalance => rw [(eq_of_then h).1]
    case liquidityPool.liquidityPool => rw [(eq_of_then h).1]

instance : LawfulEqOrd ContractExecutable where
  compare_self {a} := by rw [ContractExecutable.codes.compare_eq, compare_self]
  eq_of_compare {a b} h := by
    cases a <;> cases b <;> try cases h
    case wasm.wasm => rw [(eq_of_then h).1]
    case stellarAsset.stellarAsset => rfl
    case externalRef.externalRef => rw [(eq_of_then h).1, (eq_of_then (eq_of_then h).2).1]

instance : LawfulEqOrd Scalar where
  compare_self {s} := by rw [Scalar.codes.compare_eq, compare_self]
  eq_of_compare {a b} h := by
    cases a <;> cases b <;> first
      | rfl
      | cases h
      -- one field, and then those with more
      | (rw [(eq_of_then h).1]; done)
      | skip
    case error.error => rw [(eq_of_then h).1, (eq_of_then (eq_of_then h).2).1]
    case u128.u128 => rw [(eq_of_then h).1, (eq_of_then (eq_of_then h).2).1]
    case i128.i128 => rw [(eq_of_then h).1, (eq_of_then (eq_of_then h).2).1]
    case u256.u256 =>
      obtain ⟨hHiHi, h⟩ := eq_of_then h
      obtain ⟨hHiLo, h⟩ := eq_of_then h
      obtain ⟨hLoHi, h⟩ := eq_of_then h
      rw [hHiHi, hHiLo, hLoHi, (eq_of_then h).1]
    case i256.i256 =>
      obtain ⟨hHiHi, h⟩ := eq_of_then h
      obtain ⟨hHiLo, h⟩ := eq_of_then h
      obtain ⟨hLoHi, h⟩ := eq_of_then h
      rw [hHiHi, hHiLo, hLoHi, (eq_of_then h).1]

/-! ### Values -/

namespace ScVal

mutual

/-- The code of a value. -/
def code : ScVal → List ℤ
  | .scalar s => s.code
  | .vec none => 16 :: [0]
  | .vec (some items) => 16 :: 1 :: itemsCode items
  | .map none => 17 :: [0]
  | .map (some entries) => 17 :: 1 :: entriesCode entries
  | .contractInstance executable none => 19 :: (executable.code ++ [0])
  | .contractInstance executable (some entries) =>
    19 :: (executable.code ++ 1 :: entriesCode entries)

/-- The code of a list of values. -/
def itemsCode : List ScVal → List ℤ
  | [] => [0]
  | v :: items => 1 :: (code v ++ itemsCode items)

/-- The code of a list of map entries. -/
def entriesCode : List (ScVal × ScVal) → List ℤ
  | [] => [0]
  | (k, v) :: entries => 1 :: ((code k ++ code v) ++ entriesCode entries)

end

theorem exists_code_eq (a : ScVal) : ∃ l, code a = (a.discriminant : ℤ) :: l := by
  obtain s | (_ | items) | (_ | entries) | ⟨executable, _ | entries⟩ := a <;> exact ⟨_, rfl⟩

/-- Values of different variants are compared by their discriminants. -/
theorem cmp_of_ne (a b : ScVal) (h : a.discriminant ≠ b.discriminant)
    (hscalar : ∀ s s', a = .scalar s → b ≠ .scalar s') :
    cmp a b = compare a.discriminant b.discriminant := by
  obtain s | (_ | items) | (_ | entries) | ⟨x, _ | entries⟩ := a <;>
    obtain s' | (_ | items') | (_ | entries') | ⟨y, _ | entries'⟩ := b <;>
    first
      | rfl
      | exact absurd rfl h
      | exact absurd rfl (hscalar _ _ rfl)

/-- Values of different variants differ in the first number of their codes. -/
theorem codes_of_ne (a b : ScVal) (h : a.discriminant ≠ b.discriminant)
    (hscalar : ∀ s s', a = .scalar s → b ≠ .scalar s') (r r' : List ℤ) :
    compare (code a ++ r) (code b ++ r') = (cmp a b).then (compare r r') := by
  obtain ⟨l, hl⟩ := exists_code_eq a
  obtain ⟨l', hl'⟩ := exists_code_eq b
  have hcast : compare (a.discriminant : ℤ) (b.discriminant : ℤ) =
      compare a.discriminant b.discriminant := by
    change compareOfLessAndEq _ _ = compareOfLessAndEq _ _
    simp only [compareOfLessAndEq, Int.ofNat_lt, Int.natCast_inj]
  rw [cmp_of_ne a b h hscalar, hl, hl', List.cons_append, List.cons_append,
    List.compare_cons_cons, hcast]
  rcases Nat.lt_or_gt_of_ne h with hlt | hgt
  · rw [Nat.compare_eq_lt.mpr hlt]
    rfl
  · rw [Nat.compare_eq_gt.mpr hgt]
    rfl

theorem discriminant_scalar_ne (s : Scalar) :
    s.discriminant ≠ 16 ∧ s.discriminant ≠ 17 ∧ s.discriminant ≠ 19 := by
  cases s <;> simp [Scalar.discriminant]

mutual

/-- **Values are compared as their codes.** -/
theorem codes : (a b : ScVal) → ∀ r r',
    compare (code a ++ r) (code b ++ r') = (cmp a b).then (compare r r')
  | .scalar s, .scalar s', r, r' => Scalar.codes s s' r r'
  | .vec none, .vec none, r, r' => Codes.variant 16 (Codes.variant 0 rfl)
  | .vec none, .vec (some _), r, r' => rfl
  | .vec (some _), .vec none, r, r' => rfl
  | .vec (some items), .vec (some items'), r, r' =>
    Codes.variant 16 (Codes.variant 1 (codes_items items items' r r'))
  | .map none, .map none, r, r' => Codes.variant 17 (Codes.variant 0 rfl)
  | .map none, .map (some _), r, r' => rfl
  | .map (some _), .map none, r, r' => rfl
  | .map (some entries), .map (some entries'), r, r' =>
    Codes.variant 17 (Codes.variant 1 (codes_entries entries entries' r r'))
  | .contractInstance x none, .contractInstance y none, r, r' =>
    Codes.variant 19 (ContractExecutable.codes.field Ordering.then_eq.symm
      (fun r r' => Codes.variant 0 rfl) r r')
  | .contractInstance x none, .contractInstance y (some _), r, r' =>
    Codes.variant 19 (ContractExecutable.codes.field rfl (fun _ _ => rfl) r r')
  | .contractInstance x (some _), .contractInstance y none, r, r' =>
    Codes.variant 19 (ContractExecutable.codes.field rfl (fun _ _ => rfl) r r')
  | .contractInstance x (some entries), .contractInstance y (some entries'), r, r' =>
    Codes.variant 19 (ContractExecutable.codes.field rfl
      (fun r r' => Codes.variant 1 (codes_entries entries entries' r r')) r r')
  | .scalar s, .vec x, r, r' =>
    codes_of_ne (.scalar s) (.vec x) (discriminant_scalar_ne s).1 (fun _ _ _ h => by cases h) r r'
  | .scalar s, .map x, r, r' =>
    codes_of_ne (.scalar s) (.map x) (discriminant_scalar_ne s).2.1 (fun _ _ _ h => by cases h) r r'
  | .scalar s, .contractInstance x y, r, r' =>
    codes_of_ne (.scalar s) (.contractInstance x y) (discriminant_scalar_ne s).2.2
      (fun _ _ _ h => by cases h) r r'
  | .vec x, .scalar s, r, r' =>
    codes_of_ne (.vec x) (.scalar s) (discriminant_scalar_ne s).1.symm
      (fun _ _ h => by cases h) r r'
  | .map x, .scalar s, r, r' =>
    codes_of_ne (.map x) (.scalar s) (discriminant_scalar_ne s).2.1.symm
      (fun _ _ h => by cases h) r r'
  | .contractInstance x y, .scalar s, r, r' =>
    codes_of_ne (.contractInstance x y) (.scalar s) (discriminant_scalar_ne s).2.2.symm
      (fun _ _ h => by cases h) r r'
  | .vec x, .map y, r, r' =>
    codes_of_ne (.vec x) (.map y) (Nat.ne_of_beq_eq_false rfl) (fun _ _ h => by cases h) r r'
  | .vec x, .contractInstance y z, r, r' =>
    codes_of_ne (.vec x) (.contractInstance y z) (Nat.ne_of_beq_eq_false rfl)
      (fun _ _ h => by cases h) r r'
  | .map x, .vec y, r, r' =>
    codes_of_ne (.map x) (.vec y) (Nat.ne_of_beq_eq_false rfl) (fun _ _ h => by cases h) r r'
  | .map x, .contractInstance y z, r, r' =>
    codes_of_ne (.map x) (.contractInstance y z) (Nat.ne_of_beq_eq_false rfl)
      (fun _ _ h => by cases h) r r'
  | .contractInstance x y, .vec z, r, r' =>
    codes_of_ne (.contractInstance x y) (.vec z) (Nat.ne_of_beq_eq_false rfl)
      (fun _ _ h => by cases h) r r'
  | .contractInstance x y, .map z, r, r' =>
    codes_of_ne (.contractInstance x y) (.map z) (Nat.ne_of_beq_eq_false rfl)
      (fun _ _ h => by cases h) r r'

/-- Lists of values are compared as their codes. -/
theorem codes_items : (items items' : List ScVal) → ∀ r r',
    compare (itemsCode items ++ r) (itemsCode items' ++ r') =
      (cmpList items items').then (compare r r')
  | [], [], r, r' => Codes.variant 0 rfl
  | [], _ :: _, r, r' => rfl
  | _ :: _, [], r, r' => rfl
  | v :: items, v' :: items', r, r' => by
    refine Codes.variant 1 ?_
    rw [List.append_assoc, List.append_assoc, codes v v', codes_items items items', cmpList,
      Ordering.then_assoc]

/-- Lists of map entries are compared as their codes. -/
theorem codes_entries : (entries entries' : List (ScVal × ScVal)) → ∀ r r',
    compare (entriesCode entries ++ r) (entriesCode entries' ++ r') =
      (cmpEntries entries entries').then (compare r r')
  | [], [], r, r' => Codes.variant 0 rfl
  | [], _ :: _, r, r' => rfl
  | _ :: _, [], r, r' => rfl
  | (k, v) :: entries, (k', v') :: entries', r, r' => by
    refine Codes.variant 1 ?_
    simp only [List.append_assoc, codes k k', codes v v', codes_entries entries entries',
      cmpEntries, Ordering.then_assoc]

end

/-- Values that are compared as equal are of one variant. -/
theorem discriminant_eq_of_cmp {a b : ScVal} (h : cmp a b = .eq) :
    a.discriminant = b.discriminant := by
  by_contra hne
  have hscalar : ∀ s s', a = .scalar s → b ≠ .scalar s' := by
    rintro s s' rfl rfl
    rw [LawfulEqOrd.eq_of_compare (show compare s s' = .eq from h)] at hne
    exact hne rfl
  rw [cmp_of_ne a b hne hscalar] at h
  exact hne (Nat.compare_eq_eq.mp h)

mutual

theorem eq_of_cmp : (a b : ScVal) → cmp a b = .eq → a = b
  | .scalar s, .scalar s', h => congrArg _ (LawfulEqOrd.eq_of_compare h)
  | .vec none, .vec none, _ => rfl
  | .vec (some items), .vec (some items'), h =>
    congrArg (fun l => vec (some l)) (eq_of_cmpList items items' h)
  | .map none, .map none, _ => rfl
  | .map (some entries), .map (some entries'), h =>
    congrArg (fun l => map (some l)) (eq_of_cmpEntries entries entries' h)
  | .contractInstance x none, .contractInstance y none, h =>
    congrArg (contractInstance · none) (LawfulEqOrd.eq_of_compare h)
  | .contractInstance x none, .contractInstance y (some _), h => by
    cases (Ordering.then_eq_eq.mp h).2
  | .contractInstance x (some _), .contractInstance y none, h => by
    cases (Ordering.then_eq_eq.mp h).2
  | .contractInstance x (some entries), .contractInstance y (some entries'), h => by
    obtain ⟨hx, h⟩ := Ordering.then_eq_eq.mp h
    rw [LawfulEqOrd.eq_of_compare hx, eq_of_cmpEntries entries entries' h]
  | .vec none, .vec (some _), h => by cases h
  | .vec (some _), .vec none, h => by cases h
  | .map none, .map (some _), h => by cases h
  | .map (some _), .map none, h => by cases h
  | .scalar s, .vec x, h => absurd (discriminant_eq_of_cmp h) (discriminant_scalar_ne s).1
  | .scalar s, .map x, h => absurd (discriminant_eq_of_cmp h) (discriminant_scalar_ne s).2.1
  | .scalar s, .contractInstance x y, h => absurd (discriminant_eq_of_cmp h)
    (discriminant_scalar_ne s).2.2
  | .vec x, .scalar s, h => absurd (discriminant_eq_of_cmp h) (discriminant_scalar_ne s).1.symm
  | .map x, .scalar s, h => absurd (discriminant_eq_of_cmp h) (discriminant_scalar_ne s).2.1.symm
  | .contractInstance x y, .scalar s, h => absurd (discriminant_eq_of_cmp h)
    (discriminant_scalar_ne s).2.2.symm
  | .vec x, .map y, h => by cases discriminant_eq_of_cmp h
  | .vec x, .contractInstance y z, h => by cases discriminant_eq_of_cmp h
  | .map x, .vec y, h => by cases discriminant_eq_of_cmp h
  | .map x, .contractInstance y z, h => by cases discriminant_eq_of_cmp h
  | .contractInstance x y, .vec z, h => by cases discriminant_eq_of_cmp h
  | .contractInstance x y, .map z, h => by cases discriminant_eq_of_cmp h

theorem eq_of_cmpList : (items items' : List ScVal) → cmpList items items' = .eq → items = items'
  | [], [], _ => rfl
  | [], _ :: _, h => by cases h
  | _ :: _, [], h => by cases h
  | v :: items, v' :: items', h => by
    obtain ⟨hv, h⟩ := Ordering.then_eq_eq.mp h
    rw [eq_of_cmp v v' hv, eq_of_cmpList items items' h]

theorem eq_of_cmpEntries : (entries entries' : List (ScVal × ScVal)) →
    cmpEntries entries entries' = .eq → entries = entries'
  | [], [], _ => rfl
  | [], _ :: _, h => by cases h
  | _ :: _, [], h => by cases h
  | (k, v) :: entries, (k', v') :: entries', h => by
    obtain ⟨he, h⟩ := Ordering.then_eq_eq.mp h
    obtain ⟨hk, hv⟩ := Ordering.then_eq_eq.mp he
    rw [eq_of_cmp k k' hk, eq_of_cmp v v' hv, eq_of_cmpEntries entries entries' h]

end

instance : TransCmp cmp := Codes.transCmp codes

instance : LawfulEqCmp cmp where
  eq_of_compare {a b} h := eq_of_cmp a b h

end ScVal

end SorobanDevkit.Xdr
