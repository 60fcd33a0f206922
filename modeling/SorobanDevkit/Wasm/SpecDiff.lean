import Mathlib.Algebra.Order.Floor.Ring
import Mathlib.Data.Rat.Floor
import SorobanDevkit.Library.NameIndex
import SorobanDevkit.Wasm.Spec

/-!
# Comparing two contract specifications

`diff_specs` of `sdkt-wasm/src/spec_diff.rs` indexes the functions, events and user-defined types of
both specifications by name, in sorted maps, and classifies every name. Functions are compared by
the derived equality of their parameter and output records; events and types by `event_signature_eq`
and `type_definition_eq`, which skip doc strings and compare referenced types by `type_ref_eq`.
`UpgradeVerdict::from_diff` turns removals and changes into breaking changes, additions into
non-breaking ones.
-/

namespace SorobanDevkit.Wasm

open NameIndex

/-- `WasmError`. The parameters stand for the error values of the WASM and XDR parsers. -/
inductive WasmError (ParseError XdrError : Type)
  | parse (e : ParseError)
  | empty
  | noContractSpec
  | specXdr (e : XdrError)
  | metaXdr (e : XdrError)

/-! ### The comparators -/

mutual

/-- `type_ref_eq`: references are compared by name and kind, and for a compound type by members. -/
def typeRefEq : ContractType → ContractType → Bool
  | ⟨n, k, _, ms, _, _⟩, b =>
    if n ≠ b.name ∨ k ≠ b.kind then false
    else if k = "compound" then ms.length == b.members.length && membersRefEq ms b.members
    else true

/-- The loop of `type_ref_eq` over the zipped members. -/
def membersRefEq : List TypeMember → List TypeMember → Bool
  | ⟨n, _, ts, _⟩ :: xs, y :: ys =>
    (n == y.name && (ts.length == y.types.length && typesRefEq ts y.types)) && membersRefEq xs ys
  | _, _ => true

/-- The loop of `member_types_eq` over the zipped types. -/
def typesRefEq : List ContractType → List ContractType → Bool
  | x :: xs, y :: ys => typeRefEq x y && typesRefEq xs ys
  | _, _ => true

end

/-- `member_types_eq`. -/
def memberTypesEq (a b : List ContractType) : Bool := a.length == b.length && typesRefEq a b

/-- `event_signature_eq`: topics, data format and parameters, without doc strings. -/
def eventSignatureEq (a b : ContractEvent) : Bool :=
  a.prefixTopics == b.prefixTopics && a.dataFormat == b.dataFormat &&
    a.params.length == b.params.length &&
    (a.params.zip b.params).all fun (x, y) =>
      x.name == y.name && x.location == y.location && typeRefEq x.type y.type

/-- `type_definition_eq`: kind, member names, discriminants and types, without doc strings. -/
def typeDefinitionEq (a b : ContractType) : Bool :=
  a.kind == b.kind && a.members.length == b.members.length &&
    (a.members.zip b.members).all fun (x, y) =>
      x.name == y.name && x.value == y.value && memberTypesEq x.types y.types

/-- The comparison of two functions in `diff_specs`: the derived equality of their parameters and
outputs. -/
def functionSignatureEq (a b : ContractFunction) : Bool :=
  a.parameters == b.parameters && a.outputs == b.outputs

/-! ### The diff -/

/-- `WasmSummary`. -/
structure WasmSummary where
  hash : String
  sizeBytes : ℕ
  deriving DecidableEq

/-- `FunctionSignatureChange`, `EventSignatureChange` and `TypeDefinitionChange`: a named item with
its two definitions. -/
structure DefinitionChange (α : Type) where
  name : String
  old : α
  new : α
  deriving DecidableEq

/-- `SpecDiff`. The percentage is the exact rational one. -/
structure SpecDiff where
  old : WasmSummary
  new : WasmSummary
  addedFunctions : List ContractFunction
  removedFunctions : List ContractFunction
  changedFunctions : List (DefinitionChange ContractFunction)
  addedEvents : List String
  removedEvents : List String
  changedEvents : List (DefinitionChange ContractEvent)
  addedTypes : List String
  removedTypes : List String
  changedTypes : List (DefinitionChange ContractType)
  sizeDeltaBytes : ℤ
  sizeDeltaPct : Option ℚ

/-- `SpecDiff::default()`. -/
def SpecDiff.default : SpecDiff where
  old := ⟨"", 0⟩
  new := ⟨"", 0⟩
  addedFunctions := []
  removedFunctions := []
  changedFunctions := []
  addedEvents := []
  removedEvents := []
  changedEvents := []
  addedTypes := []
  removedTypes := []
  changedTypes := []
  sizeDeltaBytes := 0
  sizeDeltaPct := none

/-- `is_identical`. -/
def SpecDiff.isIdentical (d : SpecDiff) : Bool :=
  d.addedFunctions.isEmpty && d.removedFunctions.isEmpty && d.changedFunctions.isEmpty &&
    d.addedEvents.isEmpty && d.removedEvents.isEmpty && d.changedEvents.isEmpty &&
    d.addedTypes.isEmpty && d.removedTypes.isEmpty && d.changedTypes.isEmpty

/-- `size_delta_bytes`. Artifact sizes are below `2^63`, where the casts to `i64` are exact. -/
def sizeDeltaBytes (oldBytes newBytes : ℕ) : ℤ := (newBytes : ℤ) - oldBytes

/-- `f64::round` on exact rationals: to the nearest integer, halves away from zero. -/
def roundHalfAway (q : ℚ) : ℤ := if 0 ≤ q then ⌊q + 1 / 2⌋ else ⌈q - 1 / 2⌉

/-- `size_delta_pct`, computed on exact rationals. -/
def sizeDeltaPct (oldBytes newBytes : ℕ) : Option ℚ :=
  if oldBytes = 0 then
    if newBytes = 0 then some 0 else none
  else
    let pct : ℚ := ((newBytes : ℚ) - oldBytes) * 100 / oldBytes
    some (roundHalfAway (pct * 10) / 10)

/-- `diff_set`: the names of `new` that `old` lacks, and the names of `old` that `new` lacks. -/
def diffSet (old new : List String) : List String × List String :=
  let oldSet := Std.TreeSet.ofList old
  let newSet := Std.TreeSet.ofList new
  (newSet.toList.filter fun n => !oldSet.contains n,
    oldSet.toList.filter fun n => !newSet.contains n)

/-- The loop of `diff_specs` that collects the items of both maps with different definitions. -/
def collectChanges {α : Type} (sameDef : α → α → Bool) (old new : Std.TreeMap String α) :
    List (DefinitionChange α) :=
  new.toList.filterMap fun (name, b) =>
    match old[name]? with
    | none => none
    | some a => if sameDef a b then none else some { name, old := a, new := b }

/-- The functions of a specification by name. -/
def ContractSpec.functionIndex (s : ContractSpec) : Std.TreeMap String ContractFunction :=
  indexBy ContractFunction.name s.functions

/-- The events of a specification by name. -/
def ContractSpec.eventIndex (s : ContractSpec) : Std.TreeMap String ContractEvent :=
  indexBy ContractEvent.name s.events

/-- The user-defined types of a specification by name. -/
def ContractSpec.typeIndex (s : ContractSpec) : Std.TreeMap String ContractType :=
  indexBy ContractType.name s.customTypes

/-- The comparison that `diff_specs` fills in, field by field. -/
def specDiff (old new : ContractSpec) (oldSummary newSummary : WasmSummary) : SpecDiff :=
  let events := diffSet (old.events.map ContractEvent.name) (new.events.map ContractEvent.name)
  let types :=
    diffSet (old.customTypes.map ContractType.name) (new.customTypes.map ContractType.name)
  { old := oldSummary
    new := newSummary
    addedFunctions := new.functionIndex.toList.filterMap fun (name, nf) =>
      if (old.functionIndex[name]?).isNone then some nf else none
    removedFunctions := old.functionIndex.toList.filterMap fun (name, of) =>
      if !new.functionIndex.contains name then some of else none
    changedFunctions := collectChanges functionSignatureEq old.functionIndex new.functionIndex
    addedEvents := events.1
    removedEvents := events.2
    changedEvents := collectChanges eventSignatureEq old.eventIndex new.eventIndex
    addedTypes := types.1
    removedTypes := types.2
    changedTypes := collectChanges typeDefinitionEq old.typeIndex new.typeIndex
    sizeDeltaBytes := sizeDeltaBytes oldSummary.sizeBytes newSummary.sizeBytes
    sizeDeltaPct := sizeDeltaPct oldSummary.sizeBytes newSummary.sizeBytes }

/-- `diff_specs`, which never fails. -/
def diffSpecs {PE XE : Type} (old new : ContractSpec) (oldSummary newSummary : WasmSummary) :
    Except (WasmError PE XE) SpecDiff :=
  .ok (specDiff old new oldSummary newSummary)

/-! ### The verdict -/

/-- `ChangeKind`. -/
inductive ChangeKind
  | removedFunction
  | changedSignature
  | removedEvent
  | removedType
  | addedFunction
  | addedEvent
  | addedType
  | changedEvent
  | changedTypeDefinition
  deriving DecidableEq

/-- `VerdictChange`. -/
structure VerdictChange where
  kind : ChangeKind
  name : String
  detail : String
  deriving DecidableEq

/-- `UpgradeVerdict`. -/
structure UpgradeVerdict where
  compatible : Bool
  breakingChanges : List VerdictChange
  nonBreakingChanges : List VerdictChange
  deriving DecidableEq

/-- `sig_of`: the signature text of a function. -/
def sigOf (f : ContractFunction) : String :=
  f.name ++ "(" ++ ", ".intercalate (f.parameters.map fun p => p.type.name) ++ ") -> (" ++
    ", ".intercalate (f.outputs.map ContractType.name) ++ ")"

/-- `event_sig`: the signature text of an event. -/
def eventSig (e : ContractEvent) : String :=
  let parts := e.prefixTopics.map (fun t => t ++ ": symbol [prefix]") ++
    e.params.map fun p => p.name ++ ": " ++ p.type.name ++ " [" ++ p.location ++ "]"
  e.name ++ "(" ++ ", ".intercalate parts ++ ") -> " ++ e.dataFormat

/-- The text of a member in `type_sig`. -/
def memberSig (m : TypeMember) : String :=
  let types := m.types.map ContractType.name
  match m.value with
  | none =>
    let shape := match types with
      | [] => "void"
      | [t] => t
      | _ => "(" ++ ", ".intercalate types ++ ")"
    m.name ++ ": " ++ shape
  | some value =>
    if types.isEmpty then m.name ++ "=" ++ toString value.toNat
    else m.name ++ "=" ++ toString value.toNat ++ ": (" ++ ", ".intercalate types ++ ")"

/-- `type_sig`: the definition text of a user-defined type. -/
def typeSig (t : ContractType) : String :=
  let members := t.members.map memberSig
  if members.isEmpty then t.kind ++ " " ++ t.name
  else t.kind ++ " " ++ t.name ++ " \x7b " ++ ", ".intercalate members ++ " \x7d"

/-- The detail of a change: both definitions, in text. -/
def changeDetail {α : Type} (text : α → String) (c : DefinitionChange α) : String :=
  "old: " ++ text c.old ++ "\n      new: " ++ text c.new

/-- `UpgradeVerdict::from_diff`. -/
def UpgradeVerdict.fromDiff (diff : SpecDiff) : UpgradeVerdict :=
  let breaking : List VerdictChange :=
    (diff.removedFunctions.map fun f => ⟨.removedFunction, f.name, ""⟩) ++
    (diff.changedFunctions.map fun c => ⟨.changedSignature, c.name, changeDetail sigOf c⟩) ++
    (diff.removedEvents.map fun e => ⟨.removedEvent, e, ""⟩) ++
    (diff.changedEvents.map fun c => ⟨.changedEvent, c.name, changeDetail eventSig c⟩) ++
    (diff.removedTypes.map fun t => ⟨.removedType, t, ""⟩) ++
    (diff.changedTypes.map fun c => ⟨.changedTypeDefinition, c.name, changeDetail typeSig c⟩)
  let nonBreaking : List VerdictChange :=
    (diff.addedFunctions.map fun f => ⟨.addedFunction, f.name, ""⟩) ++
    (diff.addedEvents.map fun e => ⟨.addedEvent, e, ""⟩) ++
    (diff.addedTypes.map fun t => ⟨.addedType, t, ""⟩)
  { compatible := breaking.isEmpty, breakingChanges := breaking, nonBreakingChanges := nonBreaking }

/-- `upgrade_safety`. -/
def upgradeSafety (old new : ContractSpec) : UpgradeVerdict :=
  let diff : Except (WasmError Unit Unit) SpecDiff := diffSpecs old new ⟨"", 0⟩ ⟨"", 0⟩
  UpgradeVerdict.fromDiff (diff.toOption.getD SpecDiff.default)

/-! ### The diff by added, removed and changed names -/

section ByName

variable {α : Type} (key : α → String)

/-- An item is indexed under its own name. -/
theorem key_of_indexBy {items : List α} {n : String} {a : α}
    (h : (indexBy key items)[n]? = some a) : key a = n :=
  (mem_of_lastAt ((indexBy_getElem? key items n).symm.trans h)).2

theorem map_name_collectChanges (sameDef : α → α → Bool) (old new : Std.TreeMap String α) :
    (collectChanges sameDef old new).map DefinitionChange.name = changedKeys sameDef old new := by
  refine map_filterMap_toList new _ _ _ fun n b hb => ?_
  cases ha : old[n]? with
  | none => simp [changedAt, ha]
  | some a => cases h : sameDef a b <;> simp [changedAt, ha, hb, h]

theorem map_key_added (old new : List α) :
    ((indexBy key new).toList.filterMap fun x =>
      if ((indexBy key old)[x.1]?).isNone then some x.2 else none).map key =
      addedKeys (indexBy key old) (indexBy key new) := by
  refine map_filterMap_toList _ _ _ _ fun n a ha => ?_
  rw [Std.TreeMap.contains_eq_isSome_getElem?]
  cases h : (indexBy key old)[n]? <;> simp [key_of_indexBy key ha]

theorem map_key_removed (old new : List α) :
    ((indexBy key old).toList.filterMap fun x =>
      if !(indexBy key new).contains x.1 then some x.2 else none).map key =
      removedKeys (indexBy key old) (indexBy key new) := by
  refine map_filterMap_toList _ _ _ _ fun n a ha => ?_
  cases h : (indexBy key new).contains n <;> simp [key_of_indexBy key ha]

/-- The set of the names of a list holds the keys of its index. -/
theorem toList_ofList_names (items : List α) :
    (Std.TreeSet.ofList (items.map key)).toList = (indexBy key items).keys := by
  refine eq_of_ordered Std.TreeSet.ordered_toList Std.TreeMap.ordered_keys fun n => ?_
  rw [Std.TreeSet.mem_toList, Std.TreeMap.mem_keys, mem_indexBy_iff_exists, Std.TreeSet.mem_ofList]
  simp

theorem contains_ofList_names (items : List α) (n : String) :
    (Std.TreeSet.ofList (items.map key)).contains n = (indexBy key items).contains n := by
  rw [Bool.eq_iff_iff, ← Std.TreeSet.mem_iff_contains, ← Std.TreeMap.mem_iff_contains,
    mem_indexBy_iff_exists, Std.TreeSet.mem_ofList]
  simp

theorem diffSet_names (old new : List α) :
    diffSet (old.map key) (new.map key) =
      (addedKeys (indexBy key old) (indexBy key new),
        removedKeys (indexBy key old) (indexBy key new)) := by
  simp only [diffSet, toList_ofList_names, contains_ofList_names, addedKeys, removedKeys]

end ByName

/-- The kind and name of a change. -/
def VerdictChange.entry (c : VerdictChange) : ChangeKind × String := (c.kind, c.name)

theorem upgradeSafety_eq (old new : ContractSpec) :
    upgradeSafety old new = UpgradeVerdict.fromDiff (specDiff old new ⟨"", 0⟩ ⟨"", 0⟩) :=
  rfl

/-- The breaking changes are the removed and the changed names, category by category. -/
theorem breakingEntries_eq (old new : ContractSpec) :
    (upgradeSafety old new).breakingChanges.map VerdictChange.entry =
      (removedKeys old.functionIndex new.functionIndex).map (ChangeKind.removedFunction, ·) ++
      (changedKeys functionSignatureEq old.functionIndex new.functionIndex).map
        (ChangeKind.changedSignature, ·) ++
      (removedKeys old.eventIndex new.eventIndex).map (ChangeKind.removedEvent, ·) ++
      (changedKeys eventSignatureEq old.eventIndex new.eventIndex).map
        (ChangeKind.changedEvent, ·) ++
      (removedKeys old.typeIndex new.typeIndex).map (ChangeKind.removedType, ·) ++
      (changedKeys typeDefinitionEq old.typeIndex new.typeIndex).map
        (ChangeKind.changedTypeDefinition, ·) := by
  simp only [upgradeSafety_eq, UpgradeVerdict.fromDiff, specDiff, diffSet_names, List.map_append,
    List.map_map, ← map_name_collectChanges, ContractSpec.functionIndex, ContractSpec.eventIndex,
    ContractSpec.typeIndex, ← map_key_removed ContractFunction.name]
  rfl

/-- The non-breaking changes are the added names, category by category. -/
theorem nonBreakingEntries_eq (old new : ContractSpec) :
    (upgradeSafety old new).nonBreakingChanges.map VerdictChange.entry =
      (addedKeys old.functionIndex new.functionIndex).map (ChangeKind.addedFunction, ·) ++
      (addedKeys old.eventIndex new.eventIndex).map (ChangeKind.addedEvent, ·) ++
      (addedKeys old.typeIndex new.typeIndex).map (ChangeKind.addedType, ·) := by
  simp only [upgradeSafety_eq, UpgradeVerdict.fromDiff, specDiff, diffSet_names, List.map_append,
    List.map_map, ContractSpec.functionIndex, ContractSpec.eventIndex, ContractSpec.typeIndex,
    ← map_key_added ContractFunction.name]
  rfl

/-- The comparison is identical exactly when the verdict lists no change. -/
theorem isIdentical_iff (old new : ContractSpec) (oldSummary newSummary : WasmSummary) :
    (specDiff old new oldSummary newSummary).isIdentical = true ↔
      (upgradeSafety old new).breakingChanges = [] ∧
        (upgradeSafety old new).nonBreakingChanges = [] := by
  simp only [SpecDiff.isIdentical, upgradeSafety_eq, UpgradeVerdict.fromDiff, specDiff,
    Bool.and_eq_true, List.isEmpty_iff, List.append_eq_nil_iff, List.map_eq_nil_iff]
  tauto

/-! ### Compatible upgrades -/

/-- Everything `old` declares is declared alike by `new`, as far as the comparators see. -/
structure AbiPreserved (old new : ContractSpec) : Prop where
  functions : Preserved (fun a b => functionSignatureEq a b = true) old.functionIndex
    new.functionIndex
  events : Preserved (fun a b => eventSignatureEq a b = true) old.eventIndex new.eventIndex
  types : Preserved (fun a b => typeDefinitionEq a b = true) old.typeIndex new.typeIndex

theorem compatible_iff_breakingEntries (old new : ContractSpec) :
    (upgradeSafety old new).compatible = true ↔
      (upgradeSafety old new).breakingChanges.map VerdictChange.entry = [] := by
  rw [List.map_eq_nil_iff, ← List.isEmpty_iff]
  rfl

/-- An upgrade is compatible exactly when the old declarations are preserved. -/
theorem compatible_iff (old new : ContractSpec) :
    (upgradeSafety old new).compatible = true ↔ AbiPreserved old new := by
  rw [compatible_iff_breakingEntries, breakingEntries_eq]
  simp only [List.append_eq_nil_iff, List.map_eq_nil_iff]
  constructor
  · rintro ⟨⟨⟨⟨⟨hrf, hcf⟩, hre⟩, hce⟩, hrt⟩, hct⟩
    exact ⟨(preserved_iff _ _ _).mp ⟨hrf, hcf⟩, (preserved_iff _ _ _).mp ⟨hre, hce⟩,
      (preserved_iff _ _ _).mp ⟨hrt, hct⟩⟩
  · rintro ⟨hf, he, ht⟩
    obtain ⟨hrf, hcf⟩ := (preserved_iff _ _ _).mpr hf
    obtain ⟨hre, hce⟩ := (preserved_iff _ _ _).mpr he
    obtain ⟨hrt, hct⟩ := (preserved_iff _ _ _).mpr ht
    exact ⟨⟨⟨⟨⟨hrf, hcf⟩, hre⟩, hce⟩, hrt⟩, hct⟩

end SorobanDevkit.Wasm
