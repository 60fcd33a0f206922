import SorobanDevkit.Wasm.TypeRef

/-!
# The diff as a partition

The names of two specifications are divided into those that are added, removed, changed and
unchanged, in each of the three categories. The diff in the other direction has the added and the
removed ones swapped.

## Main results

* `count_addedKeys_append` — two indexes divide their keys.
* `functionSignatureEq_comm`, `eventSignatureEq_comm`, `typeDefinitionEq_comm` — the comparators are
  symmetric.
* `diff_partition_mirror` — the diff, the diff in the other direction and the verdict.
-/

namespace NameIndex

variable {κ α : Type} [Ord κ] [Std.TransOrd κ] [Std.LawfulEqOrd κ]

/-- The keys of both maps under which the items are related. -/
def unchangedKeys (rel : α → α → Bool) (old new : Std.TreeMap κ α) : List κ :=
  new.keys.filter fun k => old.contains k && !changedAt rel old new k

theorem nodup_keys (m : Std.TreeMap κ α) : m.keys.Nodup :=
  m.ordered_keys.imp fun {a b} hab heq => by
    have hself : compare b b = .eq := Std.ReflCmp.compare_self
    rw [heq, hself] at hab
    cases hab

variable [DecidableEq κ]

theorem count_keys_filter (m : Std.TreeMap κ α) (p : κ → Bool) (k : κ) :
    (m.keys.filter p).count k = if k ∈ m ∧ p k = true then 1 else 0 := by
  rw [((nodup_keys m).filter p).count]
  simp only [List.mem_filter, Std.TreeMap.mem_keys]

/-- **Two indexes divide their keys** into those that are added, removed, changed and unchanged. -/
theorem count_addedKeys_append (rel : α → α → Bool) (old new : Std.TreeMap κ α) (k : κ) :
    (addedKeys old new ++ removedKeys old new ++ changedKeys rel old new ++
      unchangedKeys rel old new).count k = if k ∈ old ∨ k ∈ new then 1 else 0 := by
  simp only [List.count_append, addedKeys, removedKeys, changedKeys, unchangedKeys,
    count_keys_filter, Bool.not_eq_true', Bool.and_eq_true]
  have hchanged : changedAt rel old new k = true → k ∈ old ∧ k ∈ new := by
    intro h
    rw [Std.TreeMap.mem_iff_isSome_getElem?, Std.TreeMap.mem_iff_isSome_getElem?]
    cases hold : old[k]? <;> cases hnew : new[k]? <;> simp [changedAt, hold, hnew] at h ⊢
  have hcontains : ∀ m : Std.TreeMap κ α, m.contains k = true ↔ k ∈ m := fun m =>
    Std.TreeMap.mem_iff_contains.symm
  have hcontains' : ∀ m : Std.TreeMap κ α, m.contains k = false ↔ k ∉ m := fun m => by
    rw [← hcontains, Bool.not_eq_true]
  simp only [hcontains, hcontains']
  by_cases hold : k ∈ old <;> by_cases hnew : k ∈ new <;>
    cases hch : changedAt rel old new k <;> simp_all

omit [Std.TransOrd κ] [Std.LawfulEqOrd κ] [DecidableEq κ] in
/-- What is changed in one direction is changed in the other, if the relation is symmetric. -/
theorem changedAt_swap {rel : α → α → Bool} (hrel : ∀ a b, rel a b = rel b a)
    (old new : Std.TreeMap κ α) (k : κ) : changedAt rel old new k = changedAt rel new old k := by
  cases hold : old[k]? <;> cases hnew : new[k]? <;> simp [changedAt, hold, hnew, hrel]

omit [DecidableEq κ] in
theorem changedKeys_swap {rel : α → α → Bool} (hrel : ∀ a b, rel a b = rel b a)
    (old new : Std.TreeMap κ α) : changedKeys rel old new = changedKeys rel new old := by
  refine eq_of_ordered (new.ordered_keys.filter _) (old.ordered_keys.filter _) fun k => ?_
  have hmem := changedAt_swap hrel old new k
  exact mem_changedKeys.trans ((Bool.eq_iff_iff.mp hmem).trans mem_changedKeys.symm)

end NameIndex

namespace SorobanDevkit.Wasm

open NameIndex

/-! ### The comparators are symmetric -/

/-- A relation that is symmetric at the elements of the first list is symmetric on lists. -/
theorem forall₂_symm_of_mem {α : Type} {r : α → α → Prop} {l₁ l₂ : List α}
    (hsymm : ∀ x ∈ l₁, ∀ y, r x y → r y x) (h : List.Forall₂ r l₁ l₂) : List.Forall₂ r l₂ l₁ := by
  induction h with
  | nil => exact .nil
  | cons hxy _ ih =>
    obtain ⟨hx, hxs⟩ := List.forall_mem_cons.mp hsymm
    exact .cons (hx _ hxy) (ih hxs)

theorem typeRefEq_symm {a b : ContractType} (h : typeRefEq a b = true) : typeRefEq b a = true := by
  induction a using ContractType.induction generalizing b with
  | step t hms _ =>
    obtain ⟨hn, hk, hm⟩ := (typeRefEq_iff t b).mp h
    refine (typeRefEq_iff b t).mpr ⟨hn.symm, hk.symm, fun hc => ?_⟩
    refine forall₂_symm_of_mem (fun x hx y hxy => ⟨hxy.1.symm, (memberTypesEq_iff _ _).mpr ?_⟩)
      (hm (hk.trans hc))
    exact forall₂_symm_of_mem (fun u hu v huv => hms x hx u hu huv)
      ((memberTypesEq_iff _ _).mp hxy.2)

theorem memberTypesEq_symm {a b : List ContractType} (h : memberTypesEq a b = true) :
    memberTypesEq b a = true :=
  (memberTypesEq_iff b a).mpr
    (forall₂_symm_of_mem (fun _ _ _ => typeRefEq_symm) ((memberTypesEq_iff a b).mp h))

theorem typeDefinitionEq_symm {a b : ContractType} (h : typeDefinitionEq a b = true) :
    typeDefinitionEq b a = true := by
  obtain ⟨hk, hm⟩ := (typeDefinitionEq_iff a b).mp h
  refine (typeDefinitionEq_iff b a).mpr ⟨hk.symm, forall₂_symm_of_mem ?_ hm⟩
  rintro x - y ⟨hn, hv, ht⟩
  exact ⟨hn.symm, hv.symm, memberTypesEq_symm ht⟩

theorem eventSignatureEq_symm {a b : ContractEvent} (h : eventSignatureEq a b = true) :
    eventSignatureEq b a = true := by
  obtain ⟨ht, hf, hp⟩ := (eventSignatureEq_iff a b).mp h
  refine (eventSignatureEq_iff b a).mpr ⟨ht.symm, hf.symm, forall₂_symm_of_mem ?_ hp⟩
  rintro x - y ⟨hn, hl, hr⟩
  exact ⟨hn.symm, hl.symm, typeRefEq_symm hr⟩

theorem functionSignatureEq_symm {a b : ContractFunction} (h : functionSignatureEq a b = true) :
    functionSignatureEq b a = true := by
  obtain ⟨hp, ho⟩ := (functionSignatureEq_iff a b).mp h
  exact (functionSignatureEq_iff b a).mpr ⟨hp.symm, ho.symm⟩

theorem functionSignatureEq_comm (a b : ContractFunction) :
    functionSignatureEq a b = functionSignatureEq b a :=
  Bool.eq_iff_iff.mpr ⟨functionSignatureEq_symm, functionSignatureEq_symm⟩

theorem eventSignatureEq_comm (a b : ContractEvent) : eventSignatureEq a b = eventSignatureEq b a :=
  Bool.eq_iff_iff.mpr ⟨eventSignatureEq_symm, eventSignatureEq_symm⟩

theorem typeDefinitionEq_comm (a b : ContractType) : typeDefinitionEq a b = typeDefinitionEq b a :=
  Bool.eq_iff_iff.mpr ⟨typeDefinitionEq_symm, typeDefinitionEq_symm⟩

/-! ### The diff in the other direction -/

/-- The change in the other direction. -/
def DefinitionChange.swap {α : Type} (c : DefinitionChange α) : DefinitionChange α where
  name := c.name
  old := c.new
  new := c.old

/-- A diff is that in the other direction: what one adds the other removes, and each change is
swapped. -/
structure SpecDiff.Mirrors (d d' : SpecDiff) : Prop where
  addedFunctions : d'.addedFunctions = d.removedFunctions
  removedFunctions : d'.removedFunctions = d.addedFunctions
  changedFunctions : d'.changedFunctions = d.changedFunctions.map DefinitionChange.swap
  addedEvents : d'.addedEvents = d.removedEvents
  removedEvents : d'.removedEvents = d.addedEvents
  changedEvents : d'.changedEvents = d.changedEvents.map DefinitionChange.swap
  addedTypes : d'.addedTypes = d.removedTypes
  removedTypes : d'.removedTypes = d.addedTypes
  changedTypes : d'.changedTypes = d.changedTypes.map DefinitionChange.swap

/-- Each name of two lists is in one of four lists, once. -/
def Partitions (old new added removed changed unchanged : List String) : Prop :=
  ∀ n, (added ++ removed ++ changed ++ unchanged).count n = if n ∈ old ∨ n ∈ new then 1 else 0

/-- `total_changes`. -/
def SpecDiff.totalChanges (d : SpecDiff) : ℕ :=
  d.addedFunctions.length + d.removedFunctions.length + d.changedFunctions.length +
    d.addedEvents.length + d.removedEvents.length + d.changedEvents.length +
    d.addedTypes.length + d.removedTypes.length + d.changedTypes.length

section ByName

variable {α : Type} {rel : α → α → Bool}

/-- The changes by their names. -/
theorem collectChanges_eq (old new : Std.TreeMap String α) :
    collectChanges rel old new = (changedKeys rel old new).filterMap fun n =>
      (old[n]?).bind fun a => (new[n]?).map fun b => { name := n, old := a, new := b } := by
  rw [collectChanges, changedKeys, ← Std.TreeMap.map_fst_toList_eq_keys, List.filterMap_filter,
    List.filterMap_map]
  refine List.filterMap_congr fun x hx => ?_
  have hb := Std.TreeMap.mem_toList_iff_getElem?_eq_some.mp hx
  cases ha : old[x.1]? with
  | none => simp [changedAt, ha]
  | some a => cases h : rel a x.2 <;> simp [changedAt, ha, hb, h]

/-- The changes in the other direction, in the same order of names. -/
theorem collectChanges_swap (hrel : ∀ a b, rel a b = rel b a) (old new : Std.TreeMap String α) :
    collectChanges rel new old = (collectChanges rel old new).map DefinitionChange.swap := by
  rw [collectChanges_eq, collectChanges_eq, changedKeys_swap hrel, List.map_filterMap]
  refine List.filterMap_congr fun n _ => ?_
  cases old[n]? <;> cases new[n]? <;> rfl

variable (key : α → String)

theorem partitions_indexBy (rel : α → α → Bool) (old new : List α) :
    Partitions (old.map key) (new.map key) (addedKeys (indexBy key old) (indexBy key new))
      (removedKeys (indexBy key old) (indexBy key new))
      (changedKeys rel (indexBy key old) (indexBy key new))
      (unchangedKeys rel (indexBy key old) (indexBy key new)) := by
  intro n
  rw [count_addedKeys_append]
  simp only [mem_indexBy_iff_exists, List.mem_map]

end ByName

/-- **The diff is a partition, and the diff in the other direction is its mirror.** The verdict has
all changes, and is that of a compatible upgrade exactly if nothing is removed or changed. -/
theorem diff_partition_mirror (old new : ContractSpec) (oldSummary newSummary : WasmSummary) :
    let d := specDiff old new oldSummary newSummary
    let verdict := UpgradeVerdict.fromDiff d
    Partitions (old.functions.map ContractFunction.name) (new.functions.map ContractFunction.name)
        (d.addedFunctions.map ContractFunction.name)
        (d.removedFunctions.map ContractFunction.name)
        (d.changedFunctions.map DefinitionChange.name)
        (unchangedKeys functionSignatureEq old.functionIndex new.functionIndex) ∧
      Partitions (old.events.map ContractEvent.name) (new.events.map ContractEvent.name)
        d.addedEvents d.removedEvents (d.changedEvents.map DefinitionChange.name)
        (unchangedKeys eventSignatureEq old.eventIndex new.eventIndex) ∧
      Partitions (old.customTypes.map ContractType.name) (new.customTypes.map ContractType.name)
        d.addedTypes d.removedTypes (d.changedTypes.map DefinitionChange.name)
        (unchangedKeys typeDefinitionEq old.typeIndex new.typeIndex) ∧
      SpecDiff.Mirrors d (specDiff new old newSummary oldSummary) ∧
      verdict.breakingChanges.length + verdict.nonBreakingChanges.length = d.totalChanges ∧
      (verdict.compatible = true ↔ d.removedFunctions = [] ∧ d.changedFunctions = [] ∧
        d.removedEvents = [] ∧ d.changedEvents = [] ∧ d.removedTypes = [] ∧
        d.changedTypes = []) := by
  intro d verdict
  refine ⟨?_, ?_, ?_, ⟨?_, ?_, ?_, ?_, ?_, ?_, ?_, ?_, ?_⟩, ?_, ?_⟩
  · have hpart := partitions_indexBy ContractFunction.name functionSignatureEq old.functions
      new.functions
    rwa [← map_key_added, ← map_key_removed, ← map_name_collectChanges] at hpart
  · have hpart := partitions_indexBy ContractEvent.name eventSignatureEq old.events new.events
    rw [← map_name_collectChanges] at hpart
    simp only [d, specDiff, diffSet_names]
    exact hpart
  · have hpart := partitions_indexBy ContractType.name typeDefinitionEq old.customTypes
      new.customTypes
    rw [← map_name_collectChanges] at hpart
    simp only [d, specDiff, diffSet_names]
    exact hpart
  · simp only [d, specDiff, Std.TreeMap.contains_eq_isSome_getElem?, Option.not_isSome]
  · simp only [d, specDiff, Std.TreeMap.contains_eq_isSome_getElem?, Option.not_isSome]
  · exact collectChanges_swap functionSignatureEq_comm _ _
  · simp only [d, specDiff, diffSet_names]
    rfl
  · simp only [d, specDiff, diffSet_names]
    rfl
  · exact collectChanges_swap eventSignatureEq_comm _ _
  · simp only [d, specDiff, diffSet_names]
    rfl
  · simp only [d, specDiff, diffSet_names]
    rfl
  · exact collectChanges_swap typeDefinitionEq_comm _ _
  · simp only [verdict, UpgradeVerdict.fromDiff, SpecDiff.totalChanges, List.length_append,
      List.length_map]
    omega
  · simp only [verdict, UpgradeVerdict.fromDiff, List.isEmpty_iff, List.append_eq_nil_iff,
      List.map_eq_nil_iff, and_assoc]

end SorobanDevkit.Wasm
