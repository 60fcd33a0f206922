import SorobanDevkit.Library.Fallible
import SorobanDevkit.Library.Utf8Lossy
import SorobanDevkit.Xdr.ScValOrder

/-!
# JSON arguments as contract values

`json_to_scval` of `sdkt-xdr/src/typed.rs` turns a JSON value into a contract value. A number
becomes the first of `U32`, `U64`, `I32` and `I64` that holds it, and a number that is no integer is
refused.

JSON values are those of the `serde_json` crate: a number is a `u64`, a negative `i64` or a 64-bit
float, and the members of an object are sorted by their keys, which are compared by their bytes.
Floats are a parameter.
-/

namespace SorobanDevkit.Xdr

namespace TypedJson

/-! ### JSON values -/

/-- `serde_json::Number`. -/
inductive Number (Float : Type)
  | posInt (n : UInt64)
  | negInt (n : Int64) (neg : n < 0)
  | float (f : Float)

/-- `serde_json::Value`. The members of an object are in the order of its iterator. -/
inductive Json (Float : Type)
  | null
  | bool (value : Bool)
  | number (number : Number Float)
  | string (value : String)
  | array (values : List (Json Float))
  | object (values : List (String × Json Float))

section Json

variable {Float : Type}

/-- `Number::as_u64`. -/
def Number.asU64 : Number Float → Option UInt64
  | .posInt n => some n
  | _ => none

/-- `Number::as_i64`. -/
def Number.asI64 : Number Float → Option Int64
  | .posInt n => if n.toNat < 2 ^ 63 then some n.toInt64 else none
  | .negInt n _ => some n
  | .float _ => none

/-- The display of a number. -/
def Number.text (display : Float → String) : Number Float → String
  | .posInt n => toString n.toNat
  | .negInt n _ => toString n.toInt
  | .float f => display f

mutual

/-- A property holds of a value and of all that it contains. -/
def Json.Every (p : Json Float → Prop) : Json Float → Prop
  | .array values => p (.array values) ∧ EveryItem p values
  | .object values => p (.object values) ∧ EveryMember p values
  | .null => p .null
  | .bool value => p (.bool value)
  | .number number => p (.number number)
  | .string value => p (.string value)

/-- A property holds of all that the items of an array contain. -/
def EveryItem (p : Json Float → Prop) : List (Json Float) → Prop
  | [] => True
  | value :: values => value.Every p ∧ EveryItem p values

/-- A property holds of all that the members of an object contain. -/
def EveryMember (p : Json Float → Prop) : List (String × Json Float) → Prop
  | [] => True
  | (_, value) :: values => value.Every p ∧ EveryMember p values

end

/-- The value is no number that is outside the integers of 64 bits. -/
def Json.IntegerNode : Json Float → Prop
  | .number (.float _) => False
  | _ => True

/-- The text has no more bytes than XDR allows. -/
def ShortText (s : String) : Prop := (Utf8Lossy.encode s).length ≤ u32Max

/-- The value is no text, list or map with more members than XDR allows. -/
def Json.ShortNode : Json Float → Prop
  | .string s => ShortText s
  | .array values => values.length ≤ u32Max
  | .object values => values.length ≤ u32Max ∧ ∀ e ∈ values, ShortText e.1
  | _ => True

/-- The value is no object whose keys are out of order. -/
def Json.SortedNode : Json Float → Prop
  | .object values => values.Pairwise fun e e' =>
      compare (Utf8Lossy.encode e.1) (Utf8Lossy.encode e'.1) = .lt
  | _ => True

/-! ### The conversion -/

/-- `ScValError`, as far as it is raised here. -/
inductive ScValError
  | tooLong
  | json (message : String)
  deriving DecidableEq, Repr

/-- `into_scval` of a string. -/
def intoScval (s : String) : Except ScValError ScVal :=
  let bytes := Utf8Lossy.encode s
  if bytes.length ≤ u32Max then .ok (.string bytes) else .error .tooLong

/-- The arm of `json_to_scval` for numbers. -/
def numberToScval (display : Float → String) (number : Number Float) : Except ScValError ScVal :=
  match number.asU64 with
  | some value => if value ≤ 4294967295 then .ok (.u32 value.toUInt32) else .ok (.u64 value)
  | none =>
    match number.asI64 with
    | some value =>
      if -2147483648 ≤ value ∧ value ≤ 2147483647 then .ok (.i32 value.toInt32)
        else .ok (.i64 value)
    | none => .error (.json (number.text display))

mutual

/-- `json_to_scval`. -/
def jsonToScval (display : Float → String) : Json Float → Except ScValError ScVal
  | .null => .ok .void
  | .bool value => .ok (.bool value)
  | .string value => intoScval value
  | .number number => numberToScval display number
  | .array values => do
    let values ← itemsToScval display values
    if values.length ≤ u32Max then .ok (.vec (some values)) else .error .tooLong
  | .object values => do
    let entries ← membersToScval display values
    if entries.length ≤ u32Max then .ok (.map (some entries)) else .error .tooLong

/-- The items of an array. -/
def itemsToScval (display : Float → String) : List (Json Float) → Except ScValError (List ScVal)
  | [] => .ok []
  | value :: values => do
    let v ← jsonToScval display value
    let vs ← itemsToScval display values
    .ok (v :: vs)

/-- The members of an object. -/
def membersToScval (display : Float → String) :
    List (String × Json Float) → Except ScValError (List ScMapEntry)
  | [] => .ok []
  | (key, value) :: values => do
    let k ← intoScval key
    let v ← jsonToScval display value
    let es ← membersToScval display values
    .ok ((k, v) :: es)

end

/-! ### What is converted -/

section Converted

variable {display : Float → String}

theorem intoScval_eq_ok_iff {s : String} {v : ScVal} :
    intoScval s = .ok v ↔ ShortText s ∧ v = .string (Utf8Lossy.encode s) := by
  rw [intoScval, ShortText]
  split
  · next h =>
    rw [Except.ok.injEq, and_iff_right h]
    exact eq_comm
  · next h => exact iff_of_false (by simp) fun hshort => h hshort.1

theorem exists_numberToScval_iff {number : Number Float} :
    (∃ v, numberToScval display number = .ok v) ↔ (Json.number number).IntegerNode := by
  cases number with
  | posInt n =>
    refine iff_of_true ?_ trivial
    simp only [numberToScval, Number.asU64]
    split <;> exact ⟨_, rfl⟩
  | negInt n neg =>
    refine iff_of_true ?_ trivial
    simp only [numberToScval, Number.asU64, Number.asI64]
    split <;> exact ⟨_, rfl⟩
  | float f =>
    refine iff_of_false ?_ id
    rintro ⟨v, hv⟩
    cases hv

theorem itemsToScval_cons_eq_ok_iff {value : Json Float} {values : List (Json Float)}
    {vs : List ScVal} : itemsToScval display (value :: values) = .ok vs ↔ ∃ v vs',
      jsonToScval display value = .ok v ∧ itemsToScval display values = .ok vs' ∧
        vs = v :: vs' := by
  simp only [itemsToScval, Except.bind_eq_ok_iff, Except.ok.injEq]
  constructor
  · rintro ⟨v, hv, vs', hvs', rfl⟩
    exact ⟨v, vs', hv, hvs', rfl⟩
  · rintro ⟨v, vs', hv, hvs', rfl⟩
    exact ⟨v, hv, vs', hvs', rfl⟩

theorem membersToScval_cons_eq_ok_iff {key : String} {value : Json Float}
    {values : List (String × Json Float)} {es : List ScMapEntry} :
    membersToScval display ((key, value) :: values) = .ok es ↔ ∃ v es', ShortText key ∧
      jsonToScval display value = .ok v ∧ membersToScval display values = .ok es' ∧
        es = (.string (Utf8Lossy.encode key), v) :: es' := by
  simp only [membersToScval, Except.bind_eq_ok_iff, Except.ok.injEq, intoScval_eq_ok_iff]
  constructor
  · rintro ⟨k, ⟨hkey, rfl⟩, v, hv, es', hes', rfl⟩
    exact ⟨v, es', hkey, hv, hes', rfl⟩
  · rintro ⟨v, es', hkey, hv, hes', rfl⟩
    exact ⟨_, ⟨hkey, rfl⟩, v, hv, es', hes', rfl⟩

theorem jsonToScval_array_eq_ok_iff {values : List (Json Float)} {v : ScVal} :
    jsonToScval display (.array values) = .ok v ↔ ∃ vs, itemsToScval display values = .ok vs ∧
      vs.length ≤ u32Max ∧ v = .vec (some vs) := by
  simp only [jsonToScval, Except.bind_eq_ok_iff]
  refine exists_congr fun vs => and_congr_right fun _ => ?_
  split
  · next h => rw [Except.ok.injEq, and_iff_right h, eq_comm]
  · next h => exact iff_of_false (by simp) fun hlen => h hlen.1

theorem jsonToScval_object_eq_ok_iff {values : List (String × Json Float)} {v : ScVal} :
    jsonToScval display (.object values) = .ok v ↔ ∃ es, membersToScval display values = .ok es ∧
      es.length ≤ u32Max ∧ v = .map (some es) := by
  simp only [jsonToScval, Except.bind_eq_ok_iff]
  refine exists_congr fun es => and_congr_right fun _ => ?_
  split
  · next h => rw [Except.ok.injEq, and_iff_right h, eq_comm]
  · next h => exact iff_of_false (by simp) fun hlen => h hlen.1

theorem length_itemsToScval {values : List (Json Float)} {vs : List ScVal}
    (h : itemsToScval display values = .ok vs) : vs.length = values.length := by
  induction values generalizing vs with
  | nil => obtain rfl := Except.ok.inj h; rfl
  | cons value values ih =>
    obtain ⟨v, vs', -, hvs', rfl⟩ := itemsToScval_cons_eq_ok_iff.mp h
    rw [List.length_cons, List.length_cons, ih hvs']

theorem length_membersToScval {values : List (String × Json Float)} {es : List ScMapEntry}
    (h : membersToScval display values = .ok es) : es.length = values.length := by
  induction values generalizing es with
  | nil => obtain rfl := Except.ok.inj h; rfl
  | cons e values ih =>
    obtain ⟨v, es', -, -, hes', rfl⟩ := membersToScval_cons_eq_ok_iff.mp h
    rw [List.length_cons, List.length_cons, ih hes']

mutual

/-- The values that are converted. -/
theorem exists_jsonToScval_iff : (value : Json Float) →
    ((∃ v, jsonToScval display value = .ok v) ↔
      value.Every Json.IntegerNode ∧ value.Every Json.ShortNode)
  | .null => iff_of_true ⟨_, rfl⟩ ⟨trivial, trivial⟩
  | .bool _ => iff_of_true ⟨_, rfl⟩ ⟨trivial, trivial⟩
  | .number number => by
    simp only [jsonToScval, exists_numberToScval_iff, Json.Every]
    exact (and_iff_left trivial).symm
  | .string s => by
    simp only [jsonToScval, intoScval_eq_ok_iff, Json.Every, Json.ShortNode, exists_eq_right]
    exact (and_iff_right trivial).symm
  | .array values => by
    have ih := exists_itemsToScval_iff values
    simp only [jsonToScval_array_eq_ok_iff, Json.Every, Json.ShortNode]
    constructor
    · rintro ⟨v, vs, hvs, hlength, rfl⟩
      rw [length_itemsToScval hvs] at hlength
      obtain ⟨hint, hshort⟩ := ih.mp ⟨vs, hvs⟩
      exact ⟨⟨trivial, hint⟩, hlength, hshort⟩
    · rintro ⟨⟨-, hint⟩, hlength, hshort⟩
      obtain ⟨vs, hvs⟩ := ih.mpr ⟨hint, hshort⟩
      exact ⟨_, vs, hvs, by rwa [length_itemsToScval hvs], rfl⟩
  | .object values => by
    have ih := exists_membersToScval_iff values
    simp only [jsonToScval_object_eq_ok_iff, Json.Every, Json.ShortNode]
    constructor
    · rintro ⟨v, es, hes, hlength, rfl⟩
      rw [length_membersToScval hes] at hlength
      obtain ⟨hint, hshort, hkeys⟩ := ih.mp ⟨es, hes⟩
      exact ⟨⟨trivial, hint⟩, ⟨hlength, hkeys⟩, hshort⟩
    · rintro ⟨⟨-, hint⟩, ⟨hlength, hkeys⟩, hshort⟩
      obtain ⟨es, hes⟩ := ih.mpr ⟨hint, hshort, hkeys⟩
      exact ⟨_, es, hes, by rwa [length_membersToScval hes], rfl⟩

/-- The items that are converted. -/
theorem exists_itemsToScval_iff : (values : List (Json Float)) →
    ((∃ vs, itemsToScval display values = .ok vs) ↔
      EveryItem Json.IntegerNode values ∧ EveryItem Json.ShortNode values)
  | [] => iff_of_true ⟨_, rfl⟩ ⟨trivial, trivial⟩
  | value :: values => by
    have ihv := exists_jsonToScval_iff value
    have ih := exists_itemsToScval_iff values
    simp only [itemsToScval_cons_eq_ok_iff, EveryItem]
    constructor
    · rintro ⟨vs, v, vs', hv, hvs', rfl⟩
      obtain ⟨hint, hshort⟩ := ihv.mp ⟨v, hv⟩
      obtain ⟨hints, hshorts⟩ := ih.mp ⟨vs', hvs'⟩
      exact ⟨⟨hint, hints⟩, hshort, hshorts⟩
    · rintro ⟨⟨hint, hints⟩, hshort, hshorts⟩
      obtain ⟨v, hv⟩ := ihv.mpr ⟨hint, hshort⟩
      obtain ⟨vs', hvs'⟩ := ih.mpr ⟨hints, hshorts⟩
      exact ⟨_, v, vs', hv, hvs', rfl⟩

/-- The members that are converted. -/
theorem exists_membersToScval_iff : (values : List (String × Json Float)) →
    ((∃ es, membersToScval display values = .ok es) ↔
      EveryMember Json.IntegerNode values ∧ EveryMember Json.ShortNode values ∧
        ∀ e ∈ values, ShortText e.1)
  | [] => iff_of_true ⟨_, rfl⟩ ⟨trivial, trivial, by simp⟩
  | (key, value) :: values => by
    have ihv := exists_jsonToScval_iff value
    have ih := exists_membersToScval_iff values
    simp only [membersToScval_cons_eq_ok_iff, EveryMember, List.forall_mem_cons]
    constructor
    · rintro ⟨es, v, es', hkey, hv, hes', rfl⟩
      obtain ⟨hint, hshort⟩ := ihv.mp ⟨v, hv⟩
      obtain ⟨hints, hshorts, hkeys⟩ := ih.mp ⟨es', hes'⟩
      exact ⟨⟨hint, hints⟩, ⟨hshort, hshorts⟩, hkey, hkeys⟩
    · rintro ⟨⟨hint, hints⟩, ⟨hshort, hshorts⟩, hkey, hkeys⟩
      obtain ⟨v, hv⟩ := ihv.mpr ⟨hint, hshort⟩
      obtain ⟨es', hes'⟩ := ih.mpr ⟨hints, hshorts, hkeys⟩
      exact ⟨_, v, es', hkey, hv, hes', rfl⟩

end

/-! ### What is read back -/

/-- The number of a negative integer. -/
def Number.ofNeg (n : Int64) : Option (Number Float) :=
  if neg : n < 0 then some (.negInt n neg) else none

/-- The JSON value of a flat contract value. -/
def ofScalar : Scalar → Option (Json Float)
  | .void => some .null
  | .bool value => some (.bool value)
  | .string bytes => (Utf8Lossy.fromUtf8 bytes).map .string
  | .u32 n => some (.number (.posInt n.toUInt64))
  | .u64 n => some (.number (.posInt n))
  | .i32 n => (Number.ofNeg n.toInt64).map .number
  | .i64 n => (Number.ofNeg n).map .number
  | _ => none

mutual

/-- The JSON value of a contract value. -/
def ofScVal : ScVal → Option (Json Float)
  | .scalar s => ofScalar s
  | .vec (some items) => (ofItems items).map .array
  | .map (some entries) => (ofEntries entries).map .object
  | _ => none

/-- The JSON values of the items of a vector. -/
def ofItems : List ScVal → Option (List (Json Float))
  | [] => some []
  | v :: vs => do
    let value ← ofScVal v
    let values ← ofItems vs
    some (value :: values)

/-- The members of an object for the entries of a map. -/
def ofEntries : List ScMapEntry → Option (List (String × Json Float))
  | [] => some []
  | (.string bytes, v) :: es => do
    let key ← Utf8Lossy.fromUtf8 bytes
    let value ← ofScVal v
    let values ← ofEntries es
    some ((key, value) :: values)
  | _ :: _ => none

end

theorem toInt64_toInt32 {n : Int64} (hlow : -2147483648 ≤ n) (hhigh : n ≤ 2147483647) :
    n.toInt32.toInt64 = n := by
  have hlow' : -2147483648 ≤ n.toInt := Int64.le_iff_toInt_le.mp hlow
  have hhigh' : n.toInt ≤ 2147483647 := Int64.le_iff_toInt_le.mp hhigh
  apply Int64.toInt_inj.mp
  rw [Int32.toInt_toInt64, Int64.toInt_toInt32]
  exact Int.bmod_eq_of_le (by omega) (by omega)

theorem toUInt64_toUInt32 {n : UInt64} (h : n ≤ 4294967295) : n.toUInt32.toUInt64 = n := by
  have hle : n.toNat ≤ 4294967295 := UInt64.le_iff_toNat_le.mp h
  apply UInt64.toNat_inj.mp
  rw [UInt32.toNat_toUInt64, UInt64.toNat_toUInt32]
  exact Nat.mod_eq_of_lt (by omega)

/-- A number can be read off the value that it becomes: the four ranges have nothing in common. -/
theorem ofScVal_of_numberToScval {number : Number Float} {v : ScVal}
    (h : numberToScval display number = .ok v) : ofScVal v = some (.number number) := by
  cases number with
  | posInt n =>
    simp only [numberToScval, Number.asU64] at h
    split at h
    · next hle =>
      obtain rfl := Except.ok.inj h
      simp only [ofScVal, ofScalar, toUInt64_toUInt32 hle]
    · next hle =>
      obtain rfl := Except.ok.inj h
      rfl
  | negInt n neg =>
    simp only [numberToScval, Number.asU64, Number.asI64] at h
    split at h
    · next hrange =>
      obtain rfl := Except.ok.inj h
      simp only [ofScVal, ofScalar, toInt64_toInt32 hrange.1 hrange.2, Number.ofNeg, dif_pos neg,
        Option.map_some]
    · next hrange =>
      obtain rfl := Except.ok.inj h
      simp only [ofScVal, ofScalar, Number.ofNeg, dif_pos neg, Option.map_some]
  | float f => cases h

mutual

/-- **The JSON value can be read off the contract value.** -/
theorem ofScVal_of_jsonToScval : (value : Json Float) → {v : ScVal} →
    jsonToScval display value = .ok v → ofScVal v = some value
  | .null, _, h => by obtain rfl := Except.ok.inj h; rfl
  | .bool _, _, h => by obtain rfl := Except.ok.inj h; rfl
  | .number number, v, h => ofScVal_of_numberToScval h
  | .string s, v, h => by
    obtain ⟨-, rfl⟩ := intoScval_eq_ok_iff.mp h
    simp only [ofScVal, ofScalar, Utf8Lossy.fromUtf8_encode, Option.map_some]
  | .array values, v, h => by
    obtain ⟨vs, hvs, -, rfl⟩ := jsonToScval_array_eq_ok_iff.mp h
    simp only [ofScVal, ofItems_of_itemsToScval values hvs, Option.map_some]
  | .object values, v, h => by
    obtain ⟨es, hes, -, rfl⟩ := jsonToScval_object_eq_ok_iff.mp h
    simp only [ofScVal, ofEntries_of_membersToScval values hes, Option.map_some]

/-- The items can be read off the vector. -/
theorem ofItems_of_itemsToScval : (values : List (Json Float)) → {vs : List ScVal} →
    itemsToScval display values = .ok vs → ofItems vs = some values
  | [], vs, h => by obtain rfl := Except.ok.inj h; rfl
  | value :: values, vs, h => by
    obtain ⟨v, vs', hv, hvs', rfl⟩ := itemsToScval_cons_eq_ok_iff.mp h
    simp only [ofItems, ofScVal_of_jsonToScval value hv, ofItems_of_itemsToScval values hvs',
      Option.bind_eq_bind, Option.bind_some]

/-- The members can be read off the map. -/
theorem ofEntries_of_membersToScval : (values : List (String × Json Float)) →
    {es : List ScMapEntry} → membersToScval display values = .ok es → ofEntries es = some values
  | [], es, h => by obtain rfl := Except.ok.inj h; rfl
  | (key, value) :: values, es, h => by
    obtain ⟨v, es', -, hv, hes', rfl⟩ := membersToScval_cons_eq_ok_iff.mp h
    simp only [ofEntries, Utf8Lossy.fromUtf8_encode, ofScVal_of_jsonToScval value hv,
      ofEntries_of_membersToScval values hes', Option.bind_eq_bind, Option.bind_some]

end

/-! ### The maps -/

mutual

/-- The keys of all maps in a contract value are strictly increasing. -/
def MapsSorted : ScVal → Prop
  | .scalar _ => True
  | .vec none => True
  | .vec (some items) => ItemsSorted items
  | .map none => True
  | .map (some entries) => (entries.Pairwise fun e e' => ScVal.cmp e.1 e'.1 = .lt) ∧
      EntriesSorted entries
  | .contractInstance _ none => True
  | .contractInstance _ (some entries) =>
      (entries.Pairwise fun e e' => ScVal.cmp e.1 e'.1 = .lt) ∧ EntriesSorted entries

/-- The same for the items of a vector. -/
def ItemsSorted : List ScVal → Prop
  | [] => True
  | v :: vs => MapsSorted v ∧ ItemsSorted vs

/-- The same for the keys and values of a map. -/
def EntriesSorted : List ScMapEntry → Prop
  | [] => True
  | (k, v) :: es => MapsSorted k ∧ MapsSorted v ∧ EntriesSorted es

end

theorem exists_scalar_of_numberToScval {number : Number Float} {v : ScVal}
    (h : numberToScval display number = .ok v) : ∃ s, v = .scalar s := by
  rw [numberToScval] at h
  split at h
  · split at h
    · exact ⟨_, (Except.ok.inj h).symm⟩
    · exact ⟨_, (Except.ok.inj h).symm⟩
  · split at h
    · split at h
      · exact ⟨_, (Except.ok.inj h).symm⟩
      · exact ⟨_, (Except.ok.inj h).symm⟩
    · cases h

theorem cmp_string (a b : List UInt8) : ScVal.cmp (.string a) (.string b) = compare a b := by
  show (compare a b).then .eq = compare a b
  cases compare a b <;> rfl

/-- The keys of a map are those of the object. -/
theorem exists_of_mem_membersToScval {values : List (String × Json Float)} {es : List ScMapEntry}
    (h : membersToScval display values = .ok es) :
    ∀ e ∈ es, ∃ e' ∈ values, e.1 = .string (Utf8Lossy.encode e'.1) := by
  induction values generalizing es with
  | nil =>
    obtain rfl := Except.ok.inj h
    simp
  | cons member values ih =>
    obtain ⟨v, es', -, -, hes', rfl⟩ := membersToScval_cons_eq_ok_iff.mp h
    intro e he
    rcases List.mem_cons.mp he with rfl | he
    · exact ⟨member, List.mem_cons_self, rfl⟩
    · obtain ⟨e', he', hkey⟩ := ih hes' e he
      exact ⟨e', List.mem_cons_of_mem _ he', hkey⟩

/-- The keys of a map are in the order of the object. -/
theorem pairwise_membersToScval {values : List (String × Json Float)} {es : List ScMapEntry}
    (hsorted : values.Pairwise fun e e' =>
      compare (Utf8Lossy.encode e.1) (Utf8Lossy.encode e'.1) = .lt)
    (h : membersToScval display values = .ok es) :
    es.Pairwise fun e e' => ScVal.cmp e.1 e'.1 = .lt := by
  induction values generalizing es with
  | nil =>
    obtain rfl := Except.ok.inj h
    exact List.Pairwise.nil
  | cons member values ih =>
    obtain ⟨v, es', -, -, hes', rfl⟩ := membersToScval_cons_eq_ok_iff.mp h
    obtain ⟨hfirst, hrest⟩ := List.pairwise_cons.mp hsorted
    refine List.pairwise_cons.mpr ⟨fun e he => ?_, ih hrest hes'⟩
    obtain ⟨e', he', hkey⟩ := exists_of_mem_membersToScval hes' e he
    rw [hkey, cmp_string]
    exact hfirst e' he'

mutual

/-- The maps of a converted value are sorted if its objects are. -/
theorem mapsSorted_of_jsonToScval : (value : Json Float) → {v : ScVal} →
    value.Every Json.SortedNode → jsonToScval display value = .ok v → MapsSorted v
  | .null, _, _, h => by obtain rfl := Except.ok.inj h; exact trivial
  | .bool _, _, _, h => by obtain rfl := Except.ok.inj h; exact trivial
  | .number number, v, _, h => by
    obtain ⟨s, rfl⟩ : ∃ s, v = .scalar s := exists_scalar_of_numberToScval h
    exact trivial
  | .string s, v, _, h => by
    obtain ⟨-, rfl⟩ := intoScval_eq_ok_iff.mp h
    exact trivial
  | .array values, v, hsorted, h => by
    obtain ⟨vs, hvs, -, rfl⟩ := jsonToScval_array_eq_ok_iff.mp h
    exact itemsSorted_of_itemsToScval values hsorted.2 hvs
  | .object values, v, hsorted, h => by
    obtain ⟨es, hes, -, rfl⟩ := jsonToScval_object_eq_ok_iff.mp h
    exact ⟨pairwise_membersToScval hsorted.1 hes,
      entriesSorted_of_membersToScval values hsorted.2 hes⟩

/-- The same for items. -/
theorem itemsSorted_of_itemsToScval : (values : List (Json Float)) → {vs : List ScVal} →
    EveryItem Json.SortedNode values → itemsToScval display values = .ok vs → ItemsSorted vs
  | [], vs, _, h => by obtain rfl := Except.ok.inj h; exact trivial
  | value :: values, vs, hsorted, h => by
    obtain ⟨v, vs', hv, hvs', rfl⟩ := itemsToScval_cons_eq_ok_iff.mp h
    exact ⟨mapsSorted_of_jsonToScval value hsorted.1 hv,
      itemsSorted_of_itemsToScval values hsorted.2 hvs'⟩

/-- The same for members. -/
theorem entriesSorted_of_membersToScval : (values : List (String × Json Float)) →
    {es : List ScMapEntry} → EveryMember Json.SortedNode values →
      membersToScval display values = .ok es → EntriesSorted es
  | [], es, _, h => by obtain rfl := Except.ok.inj h; exact trivial
  | (key, value) :: values, es, hsorted, h => by
    obtain ⟨v, es', -, hv, hes', rfl⟩ := membersToScval_cons_eq_ok_iff.mp h
    exact ⟨trivial, mapsSorted_of_jsonToScval value hsorted.1 hv,
      entriesSorted_of_membersToScval values hsorted.2 hes'⟩

end

/-- **JSON arguments are converted without loss.** A value is converted if and only if it has no
number outside the integers of 64 bits and nothing longer than XDR allows, at any depth. No two
values become the same contract value. The maps of the contract value are sorted where the members
of the objects are. -/
theorem json_to_scval_lossless (display : Float → String) :
    (∀ value : Json Float, (∃ v, jsonToScval display value = .ok v) ↔
      value.Every Json.IntegerNode ∧ value.Every Json.ShortNode) ∧
    (∀ (value value' : Json Float) (v : ScVal), jsonToScval display value = .ok v →
      jsonToScval display value' = .ok v → value = value') ∧
    (∀ (value : Json Float) (v : ScVal), value.Every Json.SortedNode →
      jsonToScval display value = .ok v → MapsSorted v) := by
  refine ⟨exists_jsonToScval_iff, fun value value' v hv hv' => ?_, fun value v hsorted hv =>
    mapsSorted_of_jsonToScval value hsorted hv⟩
  have hback := ofScVal_of_jsonToScval value hv
  rw [ofScVal_of_jsonToScval value' hv'] at hback
  exact (Option.some.inj hback).symm

end Converted

end Json

end TypedJson

end SorobanDevkit.Xdr
