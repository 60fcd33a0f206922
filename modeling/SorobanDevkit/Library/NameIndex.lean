import Mathlib.Data.List.Induction
import Mathlib.Data.List.Sort

/-!
# Lists indexed by a key

Collecting a list of keyed items into a sorted map keeps, for every key, the last item of that key,
and lists the keys in increasing order. Two such indexes are compared key by key: a key is *added*,
*removed*, or *changed* when the two items under it are not related.

## Main results

* `indexBy_getElem?` — the index is `lastAt`.
* `eq_of_ordered`, `keys_eq_of_mem_iff` — the keys of an index are determined by which keys occur.
* `addedKeys_congr`, `removedKeys_congr`, `changedKeys_congr` — the comparison of indexes that agree
  up to a map of the items.
* `preserved_iff` — nothing is removed or changed exactly when the first index is preserved.
* `Preserved.refl`, `Preserved.trans`.
-/

namespace NameIndex

variable {κ : Type} {α β : Type}

/-! ### The last item of a key -/

section LastAt

variable [DecidableEq κ]

/-- The last item of a list under the key `k`. -/
def lastAt (key : α → κ) (items : List α) (k : κ) : Option α :=
  items.reverse.find? fun i => key i = k

/-- One more item hides the earlier items of its key. -/
theorem lastAt_append_singleton (key : α → κ) (items : List α) (i : α) (k : κ) :
    lastAt key (items ++ [i]) k = if key i = k then some i else lastAt key items k := by
  rw [lastAt, List.reverse_append, List.reverse_singleton, List.singleton_append, List.find?_cons]
  by_cases h : key i = k
  · simp [h]
  · simp [h, lastAt]

theorem mem_of_lastAt {key : α → κ} {items : List α} {k : κ} {a : α}
    (h : lastAt key items k = some a) : a ∈ items ∧ key a = k := by
  refine ⟨List.mem_reverse.mp (List.mem_of_find?_eq_some h), ?_⟩
  simpa using List.find?_some h

/-- An item whose key occurs once is the last item of its key. -/
theorem lastAt_of_mem {key : α → κ} {items : List α} (hnd : (items.map key).Nodup) {a : α}
    (ha : a ∈ items) : lastAt key items (key a) = some a := by
  cases h : lastAt key items (key a) with
  | none =>
    have hall := List.find?_eq_none.mp h a (List.mem_reverse.mpr ha)
    simp at hall
  | some b =>
    obtain ⟨hb, hkey⟩ := mem_of_lastAt h
    rw [List.inj_on_of_nodup_map hnd hb ha hkey]

/-- A map of the items that keeps their keys maps the last item. -/
theorem lastAt_map (key : α → κ) (f : α → α) (hf : ∀ a, key (f a) = key a) (items : List α)
    (k : κ) : lastAt key (items.map f) k = (lastAt key items k).map f := by
  rw [lastAt, ← List.map_reverse, List.find?_map, lastAt]
  simp only [Function.comp_def, hf]

/-- Lists that a key-keeping map sends to the same list have last items that it sends to the same
item. -/
theorem map_lastAt_congr (key : α → κ) (f : α → α) (hf : ∀ a, key (f a) = key a)
    {items items' : List α} (h : items.map f = items'.map f) (k : κ) :
    (lastAt key items k).map f = (lastAt key items' k).map f := by
  rw [← lastAt_map key f hf, h, lastAt_map key f hf]

end LastAt

variable [Ord κ] [Std.TransOrd κ] [Std.LawfulEqOrd κ]

/-! ### Indexing a list -/

/-- The sorted map of the items of a list, the last item of each key winning. -/
def indexBy (key : α → κ) (items : List α) : Std.TreeMap κ α :=
  .ofList (items.map fun i => (key i, i))

section IndexBy

variable [DecidableEq κ]

theorem indexBy_getElem? (key : α → κ) (items : List α) (k : κ) :
    (indexBy key items)[k]? = lastAt key items k := by
  induction items using List.reverseRecOn with
  | nil => simp [indexBy, lastAt]
  | append_singleton items i ih =>
    have hstep : indexBy key (items ++ [i]) = (indexBy key items).insert (key i) i := by
      simp only [indexBy, List.map_append, List.map_cons, List.map_nil,
        Std.TreeMap.ofList_eq_insertMany_empty, Std.TreeMap.insertMany_append,
        Std.TreeMap.insertMany_cons, Std.TreeMap.insertMany_nil]
    rw [hstep, Std.TreeMap.getElem?_insert, lastAt_append_singleton, ih]
    simp only [Std.LawfulEqOrd.compare_eq_iff_eq]

theorem mem_indexBy (key : α → κ) (items : List α) (k : κ) :
    k ∈ indexBy key items ↔ (lastAt key items k).isSome := by
  rw [Std.TreeMap.mem_iff_isSome_getElem?, indexBy_getElem?]

theorem mem_indexBy_iff_exists (key : α → κ) (items : List α) (k : κ) :
    k ∈ indexBy key items ↔ ∃ a ∈ items, key a = k := by
  rw [mem_indexBy, lastAt, List.find?_isSome]
  simp

end IndexBy

/-! ### Keys -/

/-- Two strictly increasing lists with the same elements are equal. -/
theorem eq_of_ordered {l l' : List κ} (hl : l.Pairwise fun a b => compare a b = .lt)
    (hl' : l'.Pairwise fun a b => compare a b = .lt) (h : ∀ k, k ∈ l ↔ k ∈ l') : l = l' := by
  have hne : ∀ {a b : κ}, compare a b = .lt → a ≠ b := by
    rintro a b hab rfl
    have hself : compare a a = .eq := Std.ReflCmp.compare_self
    rw [hself] at hab
    cases hab
  have hperm : l.Perm l' :=
    (List.perm_ext_iff_of_nodup (hl.imp fun hab => hne hab) (hl'.imp fun hab => hne hab)).mpr h
  have hantisymm : ∀ a b : κ, a ∈ l → b ∈ l' → compare a b = .lt → compare b a = .lt → a = b := by
    intro a b _ _ hab hba
    have hswap : compare b a = (compare a b).swap := Std.OrientedCmp.eq_swap
    rw [hswap, hab] at hba
    cases hba
  exact hperm.eq_of_pairwise hantisymm hl hl'

/-- The keys of a sorted map are determined by which keys occur in it. -/
theorem keys_eq_of_mem_iff {m : Std.TreeMap κ α} {m' : Std.TreeMap κ β}
    (h : ∀ k, k ∈ m ↔ k ∈ m') : m.keys = m'.keys :=
  eq_of_ordered m.ordered_keys m'.ordered_keys fun k => by
    rw [Std.TreeMap.mem_keys, Std.TreeMap.mem_keys, h]

/-- Filtering the entries of a sorted map and reading their names filters its keys. -/
theorem map_filterMap_toList (m : Std.TreeMap κ α) (p : κ → Bool) (f : κ × α → Option β)
    (name : β → κ)
    (hf : ∀ k a, m[k]? = some a → (f (k, a)).map name = if p k then some k else none) :
    (m.toList.filterMap f).map name = m.keys.filter p := by
  rw [List.map_filterMap, ← Std.TreeMap.map_fst_toList_eq_keys, List.filter_map,
    ← List.filterMap_eq_filter, List.map_filterMap]
  refine List.filterMap_congr fun x hx => ?_
  have hk := hf x.1 x.2 (Std.TreeMap.mem_toList_iff_getElem?_eq_some.mp hx)
  rw [hk]
  cases h : p x.1 <;> simp [h]

/-! ### Comparing two indexes -/

/-- The keys of `new` that `old` does not have. -/
def addedKeys (old new : Std.TreeMap κ α) : List κ := new.keys.filter fun k => !old.contains k

/-- The keys of `old` that `new` does not have. -/
def removedKeys (old new : Std.TreeMap κ α) : List κ := old.keys.filter fun k => !new.contains k

/-- `k` is a key of both maps and the two items under it are not related. -/
def changedAt (rel : α → α → Bool) (old new : Std.TreeMap κ α) (k : κ) : Bool :=
  match old[k]?, new[k]? with
  | some a, some b => !rel a b
  | _, _ => false

/-- The keys of both maps under which the items are not related. -/
def changedKeys (rel : α → α → Bool) (old new : Std.TreeMap κ α) : List κ :=
  new.keys.filter (changedAt rel old new)

omit [Std.TransOrd κ] [Std.LawfulEqOrd κ] in
/-- What is changed under a key depends only on what the relation sees of the items there. -/
theorem changedAt_congr {rel : α → α → Bool} {erase : α → α}
    (hrel : ∀ a b, rel (erase a) (erase b) = rel a b) {old old' new new' : Std.TreeMap κ α} {k : κ}
    (hold : (old[k]?).map erase = (old'[k]?).map erase)
    (hnew : (new[k]?).map erase = (new'[k]?).map erase) :
    changedAt rel old new k = changedAt rel old' new' k := by
  have hread : ∀ m m' : Std.TreeMap κ α, changedAt rel m m' k =
      match (m[k]?).map erase, (m'[k]?).map erase with
      | some a, some b => !rel a b
      | _, _ => false := by
    intro m m'
    cases h : m[k]? <;> cases h' : m'[k]? <;> simp [changedAt, h, h', hrel]
  rw [hread old new, hread old' new', hold, hnew]

/-- A key under which the items are not related is a key of the second index. -/
theorem mem_changedKeys {rel : α → α → Bool} {old new : Std.TreeMap κ α} {k : κ} :
    k ∈ changedKeys rel old new ↔ changedAt rel old new k = true := by
  rw [changedKeys, List.mem_filter, Std.TreeMap.mem_keys, and_iff_right_iff_imp,
    Std.TreeMap.mem_iff_isSome_getElem?]
  intro h
  cases hnew : new[k]? with
  | none => cases hold : old[k]? <;> simp [changedAt, hold, hnew] at h
  | some b => rfl

/-! ### Indexes that agree up to a map of the items -/

section Congr

variable {erase : α → α} {old old' new new' : Std.TreeMap κ α}
  (hold : ∀ k : κ, (old[k]?).map erase = (old'[k]?).map erase)
  (hnew : ∀ k : κ, (new[k]?).map erase = (new'[k]?).map erase)

include hold

omit [Std.LawfulEqOrd κ] in
theorem mem_congr (k : κ) : k ∈ old ↔ k ∈ old' := by
  have h := congrArg Option.isSome (hold k)
  rw [Option.isSome_map, Option.isSome_map] at h
  rw [Std.TreeMap.mem_iff_isSome_getElem?, Std.TreeMap.mem_iff_isSome_getElem?, h]

theorem keys_congr : old.keys = old'.keys := keys_eq_of_mem_iff (mem_congr hold)

omit [Std.LawfulEqOrd κ] in
theorem contains_congr (k : κ) : old.contains k = old'.contains k := by
  rw [Bool.eq_iff_iff, ← Std.TreeMap.mem_iff_contains, ← Std.TreeMap.mem_iff_contains,
    mem_congr hold]

include hnew

/-- The same keys are added. -/
theorem addedKeys_congr : addedKeys old new = addedKeys old' new' := by
  simp only [addedKeys, keys_congr hnew, contains_congr hold]

/-- The same keys are removed. -/
theorem removedKeys_congr : removedKeys old new = removedKeys old' new' := by
  simp only [removedKeys, keys_congr hold, contains_congr hnew]

/-- The same keys are changed, if the relation sees no more of the items than the map keeps. -/
theorem changedKeys_congr {rel : α → α → Bool}
    (hrel : ∀ a b, rel (erase a) (erase b) = rel a b) :
    changedKeys rel old new = changedKeys rel old' new' := by
  rw [changedKeys, changedKeys, keys_congr hnew]
  exact List.filter_congr fun k _ => changedAt_congr hrel (hold k) (hnew k)

end Congr

/-! ### Preserved indexes -/

/-- Every item of `old` is related to the item of `new` under its key. -/
def Preserved (rel : α → α → Prop) (old new : Std.TreeMap κ α) : Prop :=
  ∀ (k : κ) (a : α), old[k]? = some a → ∃ b : α, new[k]? = some b ∧ rel a b

omit [Std.TransOrd κ] [Std.LawfulEqOrd κ] in
theorem Preserved.refl {rel : α → α → Prop} (hrefl : ∀ a, rel a a) (m : Std.TreeMap κ α) :
    Preserved rel m m :=
  fun _ a ha => ⟨a, ha, hrefl a⟩

omit [Std.TransOrd κ] [Std.LawfulEqOrd κ] in
theorem Preserved.trans {rel : α → α → Prop} (htrans : ∀ a b c, rel a b → rel b c → rel a c)
    {m₁ m₂ m₃ : Std.TreeMap κ α} (h₁₂ : Preserved rel m₁ m₂) (h₂₃ : Preserved rel m₂ m₃) :
    Preserved rel m₁ m₃ := by
  intro k a ha
  obtain ⟨b, hb, hab⟩ := h₁₂ k a ha
  obtain ⟨c, hc, hbc⟩ := h₂₃ k b hb
  exact ⟨c, hc, htrans a b c hab hbc⟩

/-- Nothing is removed and nothing is changed exactly when the first index is preserved. -/
theorem preserved_iff (rel : α → α → Bool) (old new : Std.TreeMap κ α) :
    removedKeys old new = [] ∧ changedKeys rel old new = [] ↔
      Preserved (fun a b => rel a b = true) old new := by
  simp only [removedKeys, changedKeys, List.filter_eq_nil_iff, Std.TreeMap.mem_keys,
    Bool.not_eq_true, Bool.not_eq_false', ← Std.TreeMap.mem_iff_contains]
  constructor
  · rintro ⟨hrem, hch⟩ k a ha
    have hk : k ∈ old := Std.TreeMap.mem_iff_isSome_getElem?.mpr (by rw [ha]; rfl)
    obtain ⟨b, hb⟩ := Option.isSome_iff_exists.mp
      (Std.TreeMap.mem_iff_isSome_getElem?.mp (hrem k hk))
    refine ⟨b, hb, ?_⟩
    simpa [changedAt, ha, hb] using hch k (hrem k hk)
  · intro h
    constructor
    · intro k hk
      obtain ⟨a, ha⟩ := Option.isSome_iff_exists.mp (Std.TreeMap.mem_iff_isSome_getElem?.mp hk)
      obtain ⟨b, hb, -⟩ := h k a ha
      exact Std.TreeMap.mem_iff_isSome_getElem?.mpr (by rw [hb]; rfl)
    · intro k _
      cases ha : old[k]? with
      | none => simp [changedAt, ha]
      | some a =>
        obtain ⟨b, hb, hab⟩ := h k a ha
        simp [changedAt, ha, hb, hab]

/-- An index has no key that it lacks. -/
theorem addedKeys_self (m : Std.TreeMap κ α) : addedKeys m m = [] := by
  simp only [addedKeys, List.filter_eq_nil_iff, Std.TreeMap.mem_keys]
  intro k hk
  simpa using hk

end NameIndex
