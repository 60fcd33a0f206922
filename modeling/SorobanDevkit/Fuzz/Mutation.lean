import SorobanDevkit.Fuzz.Generator

/-!
# Typed mutation

An argument is replaced by another value of its type (`sdkt-fuzz/src/mutation.rs`). The operators
are chosen from the type; one that yields nothing usable for a value is refused.

## Main definitions

* `Operator`, `operatorsFor`, `applyOperator`.
* `mutateArg`, `planMutation`.
-/

namespace SorobanDevkit.Fuzz

open Strings (startsWith)
open Wasm (ContractType utf8)
open Xdr (Bytes32 ScVal u32Max)

/-- `Operator`. -/
inductive Operator
  | boolTrue
  | boolFalse
  | zero
  | one
  | min
  | max
  | random
  | empty
  | lengthBoundary
  | vecEmpty
  | vecRemoveOne
  | vecDuplicate
  | vecAppend
  | vecMutateOne
  | optionNone
  | optionSome
  | optionSomeMutated
  | mapEmpty
  | mapRemoveOne
  | mapInsertKey
  deriving DecidableEq

/-- `Operator::name`. -/
def Operator.name : Operator → String
  | .boolTrue => "bool_true"
  | .boolFalse => "bool_false"
  | .zero => "zero"
  | .one => "one"
  | .min => "min"
  | .max => "max"
  | .random => "random"
  | .empty => "empty"
  | .lengthBoundary => "length_boundary"
  | .vecEmpty => "vec_empty"
  | .vecRemoveOne => "vec_remove_one"
  | .vecDuplicate => "vec_duplicate"
  | .vecAppend => "vec_append"
  | .vecMutateOne => "vec_mutate_one"
  | .optionNone => "option_none"
  | .optionSome => "option_some"
  | .optionSomeMutated => "option_some_mutated"
  | .mapEmpty => "map_empty"
  | .mapRemoveOne => "map_remove_one"
  | .mapInsertKey => "map_insert_key"

/-- `operators_for`: the operators of a type, in order. -/
def operatorsFor (t : ContractType) : List Operator :=
  if t.kind = "primitive" then
    if t.name = "bool" then [.boolTrue, .boolFalse]
    else if t.name ∈ ["u32", "i32", "u64", "i64", "u128", "i128"] then
      [.zero, .one, .min, .max, .random]
    else if t.name ∈ ["string", "bytes"] then [.empty, .lengthBoundary, .random]
    else [.random]
  else if t.kind = "compound" then
    if startsWith "vec<" t.name then
      [.vecEmpty, .vecRemoveOne, .vecDuplicate, .vecAppend, .vecMutateOne]
    else if startsWith "option<" t.name then [.optionNone, .optionSome, .optionSomeMutated]
    else if startsWith "map<" t.name then [.mapEmpty, .mapRemoveOne, .mapInsertKey]
    else []
  else []

/-- `Mutation`. -/
structure Mutation where
  mutationId : String
  argIndex : ℕ
  operator : Operator
  value : ScVal
  args : List ScVal
  deriving DecidableEq

/-- `MutationError`. -/
inductive MutationError
  | argIndexOutOfRange (argIndex arity : ℕ)
  | unsupportedType (typeName typeKind : String)
  | operatorNotApplicableForType (operator typeName : String)
  | noApplicableMutation
  deriving DecidableEq

/-- The text of the error. -/
def MutationError.message : MutationError → String
  | .argIndexOutOfRange argIndex arity =>
    "arg index " ++ toString argIndex ++ " out of range for arity " ++ toString arity
  | .unsupportedType typeName typeKind =>
    "no mutation operators for type \x60" ++ typeName ++ "\x60 (kind \x60" ++ typeKind ++ "\x60)"
  | .operatorNotApplicableForType operator typeName =>
    "operator \x60" ++ operator ++ "\x60 does not apply to type \x60" ++ typeName ++ "\x60"
  | .noApplicableMutation => "operator produced no applicable mutation for this value"

/-- `numeric`: a number of the type; the greatest and the least one at a boundary. -/
def numeric (t : ContractType) (magnitude : UInt64) (boundary : Bool) : Option ScVal :=
  let greatest := boundary && magnitude == 0xFFFFFFFFFFFFFFFF
  match t.name with
  | "u32" => some (.u32 (if greatest then 0xFFFFFFFF else magnitude.toUInt32))
  | "i32" => some (.i32 (if greatest then Int32.maxValue else if boundary then Int32.minValue
      else magnitude.toUInt32.toInt32))
  | "u64" => some (.u64 magnitude)
  | "i64" => some (.i64 (if greatest then Int64.maxValue else if boundary then Int64.minValue
      else magnitude.toInt64))
  | "u128" =>
    some (if greatest then .u128 0xFFFFFFFFFFFFFFFF 0xFFFFFFFFFFFFFFFF else .u128 0 magnitude)
  | "i128" =>
    some (if greatest then .i128 Int64.maxValue 0xFFFFFFFFFFFFFFFF
      else if boundary then .i128 Int64.minValue 0 else .i128 0 magnitude)
  | _ => none

/-- `usize::saturating_mul` by two. -/
def saturatingDouble (n : UInt64) : ℕ := min (2 * n.toNat) (2 ^ 64 - 1)

/-- A value, or the refusal of the mutation. -/
def orNoMutation {ε α : Type} (v : Except ε α) : Except MutationError α :=
  v.mapError fun _ => .noApplicableMutation

/-- What is there, or the refusal of the mutation. -/
def someOrNoMutation {α : Type} : Option α → Except MutationError α
  | some v => .ok v
  | none => .error .noApplicableMutation

/-- A list in a compound value, if the XDR type admits its length. -/
def listWithinLimit {α : Type} (mk : Option (List α) → ScVal) (items : List α) :
    Except MutationError ScVal :=
  withinLimit .noApplicableMutation items.length (mk (some items))

section

variable (sha256 : List UInt8 → Bytes32) (caps : GenerationCaps)

/-- The first of `attempts` generated pairs whose key is new, as `MapInsertKey` looks for it. -/
def freshEntry (kt vt : ContractType) (entries : List (ScVal × ScVal)) :
    (attempts : ℕ) → SplitMix64 → Option (ScVal × ScVal)
  | 0, _ => none
  | attempts + 1, rng =>
    let (keyBytes, rng) := rng.bytes 16
    match generateValue sha256 caps kt keyBytes 1 with
    | .error _ => freshEntry kt vt entries attempts rng
    | .ok key =>
      if entries.any fun e => e.1 = key then freshEntry kt vt entries attempts rng
      else
        let (valBytes, rng) := rng.bytes 16
        match generateValue sha256 caps vt valBytes 1 with
        | .error _ => freshEntry kt vt entries attempts rng
        | .ok val => some (key, val)

/-- `apply_operator`, where `applyTo` applies an operator to a value of an element type. -/
def applyOperatorWith
    (applyTo : ContractType → ScVal → Operator → SplitMix64 → Except MutationError ScVal)
    (t : ContractType) (current : ScVal) (operator : Operator) (rng : SplitMix64) :
    Except MutationError ScVal :=
  match operator with
  | .boolTrue => .ok (.bool true)
  | .boolFalse => .ok (.bool false)
  | .zero => someOrNoMutation (numeric t 0 false)
  | .one => someOrNoMutation (numeric t 1 false)
  | .min => someOrNoMutation (numeric t 0 true)
  | .max => someOrNoMutation (numeric t 0xFFFFFFFFFFFFFFFF true)
  | .random => orNoMutation (generateValue sha256 caps t (rng.bytes 16).1 0)
  | .empty =>
    match t.name with
    | "string" => .ok (.string [])
    | "bytes" => .ok (.bytes [])
    | _ => .error .noApplicableMutation
  | .lengthBoundary =>
    let payload := (rng.bytes caps.maxByteLen.toNat).1
    match t.name with
    | "string" => withinLimit .noApplicableMutation payload.length (.string payload)
    | "bytes" => withinLimit .noApplicableMutation payload.length (.bytes payload)
    | _ => .error .noApplicableMutation
  | .vecEmpty => .ok (.vec none)
  | .vecRemoveOne =>
    match current with
    | .vec (some (item :: items)) => listWithinLimit .vec (item :: items).dropLast
    | _ => .error .noApplicableMutation
  | .vecDuplicate =>
    match current with
    | .vec (some (item :: items)) =>
      let all := item :: items
      let last := all.getLast (List.cons_ne_nil item items)
      let idx := (rng.below (UInt64.ofNat all.length)).1.toNat
      let inserted := all.insertIdx idx last
      listWithinLimit .vec
        (inserted.take (max (saturatingDouble caps.maxVecLen) inserted.length))
    | _ => .error .noApplicableMutation
  | .vecAppend => do
    let elem ← someOrNoMutation t.typeArgs.head?
    let v ← orNoMutation (generateValue sha256 caps elem (rng.bytes 16).1 1)
    let items := match current with
      | .vec (some items) => items
      | _ => []
    if items.length ≥ max (saturatingDouble caps.maxVecLen) 1 then .error .noApplicableMutation
    else listWithinLimit .vec (items ++ [v])
  | .vecMutateOne => do
    let elem ← someOrNoMutation t.typeArgs.head?
    match current with
    | .vec (some (item :: items)) =>
      let all := item :: items
      let (idx, rng) := rng.below (UInt64.ofNat all.length)
      let ops := operatorsFor elem
      let (choice, rng) := rng.below (UInt64.ofNat ops.length)
      let op ← someOrNoMutation ops[choice.toNat]?
      let mutated ← applyTo elem (all.getD idx.toNat item) op
        (SplitMix64.keyed sha256 (rng.bytes 16).1)
      listWithinLimit .vec (all.set idx.toNat mutated)
    | _ => .error .noApplicableMutation
  | .optionNone => .ok .void
  | .optionSome => do
    let elem ← someOrNoMutation t.typeArgs.head?
    orNoMutation (generateValue sha256 caps elem (rng.bytes 16).1 1)
  | .optionSomeMutated => do
    let elem ← someOrNoMutation t.typeArgs.head?
    let ops := operatorsFor elem
    let (choice, rng) := rng.below (UInt64.ofNat ops.length)
    let op ← someOrNoMutation ops[choice.toNat]?
    let (innerKey, rng) := rng.bytes 16
    let base ← orNoMutation (generateValue sha256 caps elem (rng.bytes 16).1 1)
    applyTo elem base op (SplitMix64.keyed sha256 innerKey)
  | .mapEmpty => .ok (.map none)
  | .mapRemoveOne =>
    match current with
    | .map (some (e :: entries)) => listWithinLimit .map (e :: entries).dropLast
    | _ => .error .noApplicableMutation
  | .mapInsertKey => do
    let kt ← someOrNoMutation t.typeArgs.head?
    let vt ← someOrNoMutation t.typeArgs[1]?
    let entries := match current with
      | .map (some entries) => entries
      | _ => []
    let e ← someOrNoMutation (freshEntry sha256 caps kt vt entries 100 rng)
    let entries := sortByKey (entries ++ [e])
    if entries.length > max (saturatingDouble caps.maxMapEntries) 1 then
      .error .noApplicableMutation
    else listWithinLimit .map entries

/-- `apply_operator` with at most `levels` element types below `t`. -/
def applyOperatorAbove : (levels : ℕ) → (t : ContractType) → (current : ScVal) →
    (operator : Operator) → (rng : SplitMix64) → Except MutationError ScVal
  | 0 => applyOperatorWith sha256 caps fun _ _ _ _ => .error .noApplicableMutation
  | levels + 1 => applyOperatorWith sha256 caps (applyOperatorAbove levels)

mutual

/-- The number of levels of type arguments in a type. -/
def typeLevels : ContractType → ℕ
  | ⟨_, _, _, _, typeArgs, _⟩ => argLevels typeArgs

/-- The number of levels of types in a list. -/
def argLevels : List ContractType → ℕ
  | [] => 0
  | t :: ts => max (typeLevels t + 1) (argLevels ts)

end

/-- `apply_operator`. -/
def applyOperator (t : ContractType) (current : ScVal) (operator : Operator) (rng : SplitMix64) :
    Except MutationError ScVal :=
  applyOperatorAbove sha256 caps (typeLevels t) t current operator rng

/-- `mutation_id`. -/
def mutationId (seed : Bytes32) (caseId : String) (argIndex : ℕ) (operator : Operator) : String :=
  Hex.encode (bytesOf (sha256 (bytesOf seed ++ utf8 caseId ++ [0xff] ++ littleEndian 8 argIndex ++
    utf8 operator.name)))

/-- `mutate_arg`. -/
def mutateArg (t : ContractType) (args : List ScVal) (argIndex : ℕ) (operator : Operator)
    (seed : Bytes32) (caseId : String) : Except MutationError Mutation :=
  match args[argIndex]? with
  | none => .error (.argIndexOutOfRange argIndex args.length)
  | some current =>
    if operator ∈ operatorsFor t then do
      let rng := SplitMix64.keyed sha256 (deriveKeyChild sha256 (bytesOf seed) caseId ++
        littleEndian 8 argIndex ++ utf8 operator.name)
      let value ← applyOperator sha256 caps t current operator rng
      pure { mutationId := mutationId sha256 seed caseId argIndex operator, argIndex, operator,
             value, args := args.set argIndex value }
    else if operatorsFor t = [] then .error (.unsupportedType t.name t.kind)
    else .error (.operatorNotApplicableForType operator.name t.name)

/-- `plan_mutation`: the candidates are walked through in a circle. -/
def planMutation (paramTypes : List ContractType) (seed : Bytes32) (caseId : String) (step : ℕ) :
    Option (ℕ × Operator) :=
  let candidates := paramTypes.zipIdx.flatMap fun (t, i) => (operatorsFor t).map fun op => (i, op)
  let rng := SplitMix64.keyed sha256 (deriveKeyChild sha256 (bytesOf seed) caseId)
  let start := (rng.below (UInt64.ofNat candidates.length)).1.toNat
  candidates[(start + step) % candidates.length]?

end

end SorobanDevkit.Fuzz
