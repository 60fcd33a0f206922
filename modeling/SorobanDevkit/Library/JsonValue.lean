import Mathlib.Data.List.Induction
import Mathlib.Data.List.Perm.Basic
import Mathlib.Data.String.Basic
import Mathlib.Tactic.SplitIfs

/-!
# JSON values

JSON values with the members of an object in an order. Two of them are the same value when one has
the members of the other in another order, at any depth. Values with distinct keys are rebuilt with
sorted maps, which leaves one of all that are the same.

## Main results

* `JsonValue.reordered_rebuild` — a value that is rebuilt is the same value.
* `JsonValue.Reordered.rebuild_eq` — values that are the same are rebuilt as one.
* `JsonValue.sortedKeys_rebuild`, `JsonValue.rebuild_of_sortedKeys` — the values that are rebuilt as
  themselves.
-/

/-- JSON values with numbers of a type. -/
inductive JsonValue (N : Type)
  | null
  | bool (value : Bool)
  | number (value : N)
  | string (value : String)
  | array (items : List (JsonValue N))
  | object (members : List (String × JsonValue N))

namespace JsonValue

variable {N : Type}

/-! ### The order of members -/

/-- The values are the same up to the order of the members of objects. -/
inductive Reordered : JsonValue N → JsonValue N → Prop
  | refl (v : JsonValue N) : Reordered v v
  | trans {u v w : JsonValue N} (huv : Reordered u v) (hvw : Reordered v w) : Reordered u w
  | object {members members' : List (String × JsonValue N)} (h : members.Perm members') :
    Reordered (.object members) (.object members')
  | item (before after : List (JsonValue N)) {v w : JsonValue N} (h : Reordered v w) :
    Reordered (.array (before ++ v :: after)) (.array (before ++ w :: after))
  | member (before after : List (String × JsonValue N)) (key : String) {v w : JsonValue N}
    (h : Reordered v w) :
    Reordered (.object (before ++ (key, v) :: after)) (.object (before ++ (key, w) :: after))

/-- The members have one key, and the same value. -/
def SameMember (e e' : String × JsonValue N) : Prop := e.1 = e'.1 ∧ e.2.Reordered e'.2

theorem Reordered.items (before : List (JsonValue N)) {items items' : List (JsonValue N)}
    (h : List.Forall₂ Reordered items items') :
    (JsonValue.array (before ++ items)).Reordered (.array (before ++ items')) := by
  induction h generalizing before with
  | nil => exact .refl _
  | @cons v w items items' hvw _ ih =>
    have hrest := ih (before ++ [w])
    rw [List.append_assoc, List.append_assoc] at hrest
    exact (Reordered.item before items hvw).trans hrest

theorem Reordered.members (before : List (String × JsonValue N))
    {members members' : List (String × JsonValue N)}
    (h : List.Forall₂ SameMember members members') :
    (JsonValue.object (before ++ members)).Reordered (.object (before ++ members')) := by
  induction h generalizing before with
  | nil => exact .refl _
  | @cons e e' members members' he _ ih =>
    obtain ⟨key, v⟩ := e
    obtain ⟨key', w⟩ := e'
    obtain ⟨rfl, hvw⟩ := he
    have hrest := ih (before ++ [(key, w)])
    rw [List.append_assoc, List.append_assoc] at hrest
    exact (Reordered.member before members key hvw).trans hrest

mutual

/-- The objects of a value have distinct keys. -/
def DistinctKeys : JsonValue N → Prop
  | .array items => DistinctItems items
  | .object members => (members.map Prod.fst).Nodup ∧ DistinctMembers members
  | .null => True
  | .bool _ => True
  | .number _ => True
  | .string _ => True

/-- The objects of the items of an array have distinct keys. -/
def DistinctItems : List (JsonValue N) → Prop
  | [] => True
  | v :: items => v.DistinctKeys ∧ DistinctItems items

/-- The objects of the values of members have distinct keys. -/
def DistinctMembers : List (String × JsonValue N) → Prop
  | [] => True
  | (_, v) :: members => v.DistinctKeys ∧ DistinctMembers members

end

theorem distinctItems_iff {items : List (JsonValue N)} :
    DistinctItems items ↔ ∀ v ∈ items, v.DistinctKeys := by
  induction items with
  | nil => exact iff_of_true trivial fun v h => absurd h List.not_mem_nil
  | cons v items ih => rw [DistinctItems, ih, List.forall_mem_cons]

theorem distinctMembers_iff {members : List (String × JsonValue N)} :
    DistinctMembers members ↔ ∀ e ∈ members, e.2.DistinctKeys := by
  induction members with
  | nil => exact iff_of_true trivial fun e h => absurd h List.not_mem_nil
  | cons e members ih => rw [DistinctMembers, ih, List.forall_mem_cons]

theorem Reordered.distinctKeys {v w : JsonValue N} (h : v.Reordered w) (hv : v.DistinctKeys) :
    w.DistinctKeys := by
  induction h with
  | refl => exact hv
  | trans _ _ ihu ihv => exact ihv (ihu hv)
  | object h =>
    rw [DistinctKeys, distinctMembers_iff] at hv ⊢
    exact ⟨(h.map Prod.fst).nodup_iff.mp hv.1, fun e he => hv.2 e (h.mem_iff.mpr he)⟩
  | item before after h ih =>
    rw [DistinctKeys, distinctItems_iff, List.forall_mem_append, List.forall_mem_cons] at hv ⊢
    exact ⟨hv.1, ih hv.2.1, hv.2.2⟩
  | member before after key h ih =>
    rw [DistinctKeys, distinctMembers_iff, List.forall_mem_append, List.forall_mem_cons,
      List.map_append, List.map_cons] at hv ⊢
    exact ⟨hv.1, hv.2.1, ih hv.2.2.1, hv.2.2.2⟩

/-! ### Sorted maps -/

/-- The map with a member, which replaces one of its key. -/
def insert (key : String) (v : JsonValue N) :
    List (String × JsonValue N) → List (String × JsonValue N)
  | [] => [(key, v)]
  | (key', v') :: members =>
    if key < key' then (key, v) :: (key', v') :: members
    else if key = key' then (key, v) :: members
    else (key', v') :: insert key v members

/-- The map of members that are inserted in turn. -/
def collect (members : List (String × JsonValue N)) : List (String × JsonValue N) :=
  members.foldl (fun map e => insert e.1 e.2 map) []

/-- The members of a map, by increasing keys. -/
def Sorted (map : List (String × JsonValue N)) : Prop := map.Pairwise fun e e' => e.1 < e'.1

theorem insert_perm {key : String} {map : List (String × JsonValue N)} (v : JsonValue N)
    (h : key ∉ map.map Prod.fst) : (insert key v map).Perm ((key, v) :: map) := by
  induction map with
  | nil => exact .refl _
  | cons e map ih =>
    obtain ⟨key', v'⟩ := e
    rw [List.map_cons, List.mem_cons, not_or] at h
    rw [insert, if_neg h.1]
    by_cases hlt : key < key'
    · rw [if_pos hlt]
    · rw [if_neg hlt]
      exact ((ih h.2).cons _).trans (.swap _ _ _)

theorem sorted_insert {key : String} {v : JsonValue N} {map : List (String × JsonValue N)}
    (h : Sorted map) : Sorted (insert key v map) ∧
      ∀ e ∈ insert key v map, e.1 = key ∨ e ∈ map := by
  induction map with
  | nil =>
    refine ⟨List.pairwise_singleton _ _, fun e he => ?_⟩
    exact .inl (congrArg Prod.fst (List.mem_singleton.mp he))
  | cons e map ih =>
    obtain ⟨key', v'⟩ := e
    obtain ⟨hhead, htail⟩ := List.pairwise_cons.mp h
    rw [insert]
    split
    next hlt =>
      refine ⟨List.pairwise_cons.mpr ⟨List.forall_mem_cons.mpr ⟨hlt, fun e he => ?_⟩, h⟩, ?_⟩
      · exact hlt.trans (hhead e he)
      · exact List.forall_mem_cons.mpr ⟨.inl rfl, fun e he => .inr he⟩
    next hlt =>
      split
      next heq =>
        subst heq
        exact ⟨List.pairwise_cons.mpr ⟨hhead, htail⟩,
          List.forall_mem_cons.mpr ⟨.inl rfl, fun e he => .inr (List.mem_cons_of_mem _ he)⟩⟩
      next hne =>
        obtain ⟨hsorted, hmem⟩ := ih htail
        have hgt : key' < key := lt_of_le_of_ne (not_lt.mp hlt) (Ne.symm hne)
        refine ⟨List.pairwise_cons.mpr ⟨fun e he => ?_, hsorted⟩, ?_⟩
        · exact (hmem e he).elim (fun hkey => hkey ▸ hgt) (hhead e)
        · refine List.forall_mem_cons.mpr ⟨.inr List.mem_cons_self, fun e he => ?_⟩
          exact (hmem e he).imp_right (List.mem_cons_of_mem _)

theorem collect_append (members : List (String × JsonValue N)) (e : String × JsonValue N) :
    collect (members ++ [e]) = insert e.1 e.2 (collect members) := by
  rw [collect, List.foldl_append]
  rfl

theorem mem_insert {key : String} {v : JsonValue N} {map : List (String × JsonValue N)}
    {e : String × JsonValue N} (h : e ∈ insert key v map) : e = (key, v) ∨ e ∈ map := by
  induction map with
  | nil => exact .inl (List.mem_singleton.mp h)
  | cons e' map ih =>
    rw [insert] at h
    split_ifs at h with hlt heq
    · exact List.mem_cons.mp h
    · exact (List.mem_cons.mp h).imp_right (List.mem_cons_of_mem _)
    · rcases List.mem_cons.mp h with rfl | h
      · exact .inr List.mem_cons_self
      · exact (ih h).imp_right (List.mem_cons_of_mem _)

/-- A map has no members but those that are inserted. -/
theorem mem_collect {members : List (String × JsonValue N)} {e : String × JsonValue N}
    (h : e ∈ collect members) : e ∈ members := by
  induction members using List.reverseRecOn with
  | nil => exact h
  | append_singleton members e' ih =>
    rw [collect_append] at h
    rw [List.mem_append, List.mem_singleton, or_comm]
    exact (mem_insert h).imp_right ih

/-- Members with distinct keys are all in their map. -/
theorem collect_perm {members : List (String × JsonValue N)} (h : (members.map Prod.fst).Nodup) :
    (collect members).Perm members := by
  induction members using List.reverseRecOn with
  | nil => exact .refl _
  | append_singleton members e ih =>
    rw [List.map_append, List.nodup_append] at h
    have hperm := ih h.1
    have hnew : e.1 ∉ (collect members).map Prod.fst := by
      rw [(hperm.map Prod.fst).mem_iff]
      exact fun hmem => h.2.2 e.1 hmem e.1 List.mem_cons_self rfl
    rw [collect_append]
    exact ((insert_perm e.2 hnew).trans (hperm.cons e)).trans
      (List.perm_append_singleton e members).symm

theorem sorted_collect (members : List (String × JsonValue N)) : Sorted (collect members) := by
  induction members using List.reverseRecOn with
  | nil => exact List.Pairwise.nil
  | append_singleton members e ih =>
    rw [collect_append]
    exact (sorted_insert ih).1

/-- The map does not depend on the order of members with distinct keys. -/
theorem collect_congr {members members' : List (String × JsonValue N)}
    (hperm : members.Perm members') (h : (members.map Prod.fst).Nodup) :
    collect members = collect members' := by
  have h' : (members'.map Prod.fst).Nodup := (hperm.map Prod.fst).nodup_iff.mp h
  refine List.Perm.eq_of_pairwise (fun e e' _ _ hlt hgt => absurd hgt hlt.not_gt)
    (sorted_collect members) (sorted_collect members') ?_
  exact ((collect_perm h).trans hperm).trans (collect_perm h').symm

/-- Sorted members are their own map. -/
theorem collect_of_sorted {members : List (String × JsonValue N)} (h : Sorted members) :
    collect members = members := by
  have hdistinct : (members.map Prod.fst).Nodup :=
    List.pairwise_map.mpr (h.imp fun hlt => hlt.ne)
  exact (collect_perm hdistinct).eq_of_pairwise (fun e e' _ _ hlt hgt => absurd hgt hlt.not_gt)
    (sorted_collect members) h

mutual

/-- The members of the objects of a value are by increasing keys. -/
def SortedKeys : JsonValue N → Prop
  | .array items => SortedItems items
  | .object members => Sorted members ∧ SortedMembers members
  | .null => True
  | .bool _ => True
  | .number _ => True
  | .string _ => True

/-- The items of an array have their members by increasing keys. -/
def SortedItems : List (JsonValue N) → Prop
  | [] => True
  | v :: items => v.SortedKeys ∧ SortedItems items

/-- The values of members have their members by increasing keys. -/
def SortedMembers : List (String × JsonValue N) → Prop
  | [] => True
  | (_, v) :: members => v.SortedKeys ∧ SortedMembers members

end

theorem sortedMembers_iff {members : List (String × JsonValue N)} :
    SortedMembers members ↔ ∀ e ∈ members, e.2.SortedKeys := by
  induction members with
  | nil => exact iff_of_true trivial fun e h => absurd h List.not_mem_nil
  | cons e members ih => rw [SortedMembers, ih, List.forall_mem_cons]

/-! ### Values that are rebuilt -/

section

variable (order : List (String × JsonValue N) → List (String × JsonValue N))

mutual

/-- The value with all its objects collected, their members inserted in an order. -/
def rebuild : JsonValue N → JsonValue N
  | .array items => .array (rebuildItems items)
  | .object members => .object (collect (order (rebuildMembers members)))
  | .null => .null
  | .bool value => .bool value
  | .number value => .number value
  | .string value => .string value

/-- The items of an array, rebuilt. -/
def rebuildItems : List (JsonValue N) → List (JsonValue N)
  | [] => []
  | v :: items => v.rebuild :: rebuildItems items

/-- The members of an object, their values rebuilt. -/
def rebuildMembers : List (String × JsonValue N) → List (String × JsonValue N)
  | [] => []
  | (key, v) :: members => (key, v.rebuild) :: rebuildMembers members

end

theorem keys_rebuildMembers (members : List (String × JsonValue N)) :
    (rebuildMembers order members).map Prod.fst = members.map Prod.fst := by
  induction members with
  | nil => rfl
  | cons e members ih => rw [rebuildMembers, List.map_cons, ih, List.map_cons]

theorem rebuildItems_append (items items' : List (JsonValue N)) :
    rebuildItems order (items ++ items') =
      rebuildItems order items ++ rebuildItems order items' := by
  induction items with
  | nil => rfl
  | cons v items ih => rw [List.cons_append, rebuildItems, ih, rebuildItems, List.cons_append]

theorem rebuildMembers_append (members members' : List (String × JsonValue N)) :
    rebuildMembers order (members ++ members') =
      rebuildMembers order members ++ rebuildMembers order members' := by
  induction members with
  | nil => rfl
  | cons e members ih =>
    rw [List.cons_append, rebuildMembers, ih, rebuildMembers, List.cons_append]

theorem rebuildMembers_eq_map (members : List (String × JsonValue N)) :
    rebuildMembers order members = members.map fun e => (e.1, e.2.rebuild order) := by
  induction members with
  | nil => rfl
  | cons e members ih => rw [rebuildMembers, ih, List.map_cons]

variable {order}

mutual

/-- **A value that is rebuilt is the same value**, if its keys are distinct. -/
theorem reordered_rebuild (horder : ∀ members, (order members).Perm members) :
    (v : JsonValue N) → v.DistinctKeys → v.Reordered (v.rebuild order)
  | .array items, h => .items [] (forall₂_rebuildItems horder items h)
  | .object members, h => by
    rw [rebuild]
    have hkeys : ((order (rebuildMembers order members)).map Prod.fst).Nodup := by
      rw [((horder _).map Prod.fst).nodup_iff, keys_rebuildMembers]
      exact h.1
    exact (Reordered.members [] (forall₂_rebuildMembers horder members h.2)).trans
      (.object (((collect_perm hkeys).trans (horder _)).symm))
  | .null, _ => .refl _
  | .bool _, _ => .refl _
  | .number _, _ => .refl _
  | .string _, _ => .refl _

theorem forall₂_rebuildItems (horder : ∀ members, (order members).Perm members) :
    (items : List (JsonValue N)) → DistinctItems items →
      List.Forall₂ Reordered items (rebuildItems order items)
  | [], _ => .nil
  | v :: items, h => .cons (reordered_rebuild horder v h.1) (forall₂_rebuildItems horder items h.2)

theorem forall₂_rebuildMembers (horder : ∀ members, (order members).Perm members) :
    (members : List (String × JsonValue N)) → DistinctMembers members →
      List.Forall₂ SameMember members (rebuildMembers order members)
  | [], _ => .nil
  | (_, v) :: members, h =>
    .cons ⟨rfl, reordered_rebuild horder v h.1⟩ (forall₂_rebuildMembers horder members h.2)

end

/-- **Values that are the same are rebuilt as one**, if their keys are distinct. -/
theorem Reordered.rebuild_eq (horder : ∀ members, (order members).Perm members)
    {v w : JsonValue N} (h : v.Reordered w) (hv : v.DistinctKeys) :
    v.rebuild order = w.rebuild order := by
  induction h with
  | refl => rfl
  | trans huv _ ihu ihv => exact (ihu hv).trans (ihv (huv.distinctKeys hv))
  | @object members members' h =>
    have hperm : (order (rebuildMembers order members)).Perm
        (order (rebuildMembers order members')) := by
      refine ((horder _).trans ?_).trans (horder _).symm
      rw [rebuildMembers_eq_map, rebuildMembers_eq_map]
      exact h.map _
    have hkeys : ((order (rebuildMembers order members)).map Prod.fst).Nodup := by
      rw [((horder _).map Prod.fst).nodup_iff, keys_rebuildMembers]
      exact hv.1
    rw [rebuild, rebuild, collect_congr hperm hkeys]
  | item before after _ ih =>
    rw [DistinctKeys, distinctItems_iff, List.forall_mem_append, List.forall_mem_cons] at hv
    rw [rebuild, rebuild, rebuildItems_append, rebuildItems_append, rebuildItems, rebuildItems,
      ih hv.2.1]
  | member before after key _ ih =>
    rw [DistinctKeys, distinctMembers_iff, List.forall_mem_append, List.forall_mem_cons] at hv
    rw [rebuild, rebuild, rebuildMembers_append, rebuildMembers_append, rebuildMembers,
      rebuildMembers, ih hv.2.2.1]

mutual

/-- What is rebuilt has the members of all its objects by increasing keys. -/
theorem sortedKeys_rebuild (horder : ∀ members, (order members).Perm members) :
    (v : JsonValue N) → (v.rebuild order).SortedKeys
  | .array items => sortedItems_rebuildItems horder items
  | .object members => by
    refine ⟨sorted_collect _, sortedMembers_iff.mpr fun e he => ?_⟩
    exact sortedMembers_iff.mp (sortedMembers_rebuildMembers horder members) e
      ((horder _).mem_iff.mp (mem_collect he))
  | .null => trivial
  | .bool _ => trivial
  | .number _ => trivial
  | .string _ => trivial

theorem sortedItems_rebuildItems (horder : ∀ members, (order members).Perm members) :
    (items : List (JsonValue N)) → SortedItems (rebuildItems order items)
  | [] => trivial
  | v :: items => ⟨sortedKeys_rebuild horder v, sortedItems_rebuildItems horder items⟩

theorem sortedMembers_rebuildMembers (horder : ∀ members, (order members).Perm members) :
    (members : List (String × JsonValue N)) → SortedMembers (rebuildMembers order members)
  | [] => trivial
  | (_, v) :: members => ⟨sortedKeys_rebuild horder v, sortedMembers_rebuildMembers horder members⟩

end

end

mutual

/-- A value with sorted members is rebuilt as itself. -/
theorem rebuild_of_sortedKeys : (v : JsonValue N) → v.SortedKeys → v.rebuild id = v
  | .array items, h => congrArg array (rebuildItems_of_sortedItems items h)
  | .object members, h => by
    rw [rebuild, rebuildMembers_of_sortedMembers members h.2]
    exact congrArg object (collect_of_sorted h.1)
  | .null, _ => rfl
  | .bool _, _ => rfl
  | .number _, _ => rfl
  | .string _, _ => rfl

theorem rebuildItems_of_sortedItems : (items : List (JsonValue N)) → SortedItems items →
    rebuildItems id items = items
  | [], _ => rfl
  | v :: items, h => congrArg₂ List.cons (rebuild_of_sortedKeys v h.1)
      (rebuildItems_of_sortedItems items h.2)

theorem rebuildMembers_of_sortedMembers : (members : List (String × JsonValue N)) →
    SortedMembers members → rebuildMembers id members = members
  | [], _ => rfl
  | (key, v) :: members, h => by
    rw [rebuildMembers, rebuild_of_sortedKeys v h.1, rebuildMembers_of_sortedMembers members h.2]

end

end JsonValue
