import Mathlib.Data.List.Nodup
import Mathlib.Data.List.Perm.Basic
import Mathlib.Logic.Function.Basic

/-!
# Histories of a keyed store

A store holds at most one value under each key. A change replaces the value under a key, and it is
valid when the value that it replaces is the one the store holds; a history is valid when its
changes are, one after the other. A valid history is taken back by the inverse changes in reverse
order.

A store is also given as a list of values with distinct keys, in which a value is replaced by
removing it and adding the new one at the end.

## Main results

* `History.replay_undo` — the inverse changes in reverse order take a valid history back.
* `KeyedList.lookup_carry`, `KeyedList.nodup_carry` — a list carries the store through a history.
-/

/-- The value under a key before and after. -/
structure Change (κ α : Type) where
  key : κ
  before : Option α
  after : Option α

/-- The change back. -/
def Change.inverse {κ α : Type} (c : Change κ α) : Change κ α where
  key := c.key
  before := c.after
  after := c.before

namespace History

variable {κ α : Type} [DecidableEq κ] {m : κ → Option α} {c : Change κ α}
  {cs ds : List (Change κ α)}

/-- The store after a history. -/
def replay (m : κ → Option α) (cs : List (Change κ α)) : κ → Option α :=
  cs.foldl (fun m c => Function.update m c.key c.after) m

/-- Each change replaces what the store then holds. -/
def ValidFrom : (κ → Option α) → List (Change κ α) → Prop
  | _, [] => True
  | m, c :: cs => m c.key = c.before ∧ ValidFrom (Function.update m c.key c.after) cs

theorem replay_cons : replay m (c :: cs) = replay (Function.update m c.key c.after) cs := rfl

theorem replay_append : replay m (cs ++ ds) = replay (replay m cs) ds := List.foldl_append

theorem validFrom_append : ValidFrom m (cs ++ ds) ↔ ValidFrom m cs ∧ ValidFrom
    (replay m cs) ds := by
  induction cs generalizing m with
  | nil => simp [ValidFrom, replay]
  | cons c cs ih => rw [List.cons_append, ValidFrom, ValidFrom, ih, replay_cons, and_assoc]

/-- **The inverse changes in reverse order take a valid history back.** -/
theorem replay_undo (h : ValidFrom m cs) :
    ValidFrom (replay m cs) (cs.reverse.map Change.inverse) ∧
      replay (replay m cs) (cs.reverse.map Change.inverse) = m := by
  induction cs generalizing m with
  | nil => exact ⟨trivial, rfl⟩
  | cons c cs ih =>
    obtain ⟨hbefore, hrest⟩ := h
    obtain ⟨hvalid, hreplay⟩ := ih hrest
    rw [List.reverse_cons, List.map_append, replay_cons, validFrom_append, replay_append, hreplay]
    refine ⟨⟨hvalid, Function.update_self .., trivial⟩, ?_⟩
    have hback : Function.update (Function.update m c.key c.after) c.key c.before = m := by
      rw [Function.update_idem, ← hbefore, Function.update_eq_self]
    exact hback

end History

namespace KeyedList

variable {κ α : Type} [DecidableEq κ]

section

variable (key : α → κ)

/-- The value under a key. -/
def lookup (l : List α) (k : κ) : Option α := l.find? fun a => key a = k

/-- The list with another value, or none, under a key. -/
def replace (l : List α) (k : κ) (after : Option α) : List α :=
  (l.filter fun a => key a ≠ k) ++ after.toList

/-- The list after a history. -/
def carry (l : List α) (cs : List (Change κ α)) : List α :=
  cs.foldl (fun l c => replace key l c.key c.after) l

end

variable {key : α → κ} {l l' : List α} {k : κ} {after : Option α} {a : α}
  {cs : List (Change κ α)}

theorem lookup_eq_none : lookup key l k = none ↔ ∀ a ∈ l, key a ≠ k := by
  simp [lookup, List.find?_eq_none]

theorem mem_of_lookup (h : lookup key l k = some a) : a ∈ l ∧ key a = k :=
  ⟨List.mem_of_find?_eq_some h, by simpa using List.find?_some h⟩

/-- A list with distinct keys holds the values that are looked up. -/
theorem lookup_eq_some (hl : (l.map key).Nodup) : lookup key l k = some a ↔ a ∈ l ∧ key a = k := by
  refine ⟨mem_of_lookup, fun ⟨ha, hkey⟩ => ?_⟩
  cases hfind : lookup key l k with
  | none => exact absurd hkey (lookup_eq_none.mp hfind a ha)
  | some b =>
    obtain ⟨hb, hkb⟩ := mem_of_lookup hfind
    rw [List.inj_on_of_nodup_map hl hb ha (hkb.trans hkey.symm)]

/-- A value is added at the end if there is none under its key. -/
theorem replace_of_lookup_eq_none (h : lookup key l k = none) :
    replace key l k after = l ++ after.toList := by
  rw [replace, List.filter_eq_self.mpr fun a ha => by simpa using lookup_eq_none.mp h a ha]

theorem lookup_replace (hafter : ∀ a, after = some a → key a = k) :
    lookup key (replace key l k after) = Function.update (lookup key l) k after := by
  funext k'
  rw [lookup, replace, List.find?_append]
  by_cases hk : k' = k
  · subst hk
    have hnone : (l.filter fun a => key a ≠ k').find? (fun a => key a = k') = none := by
      simp [List.find?_eq_none]
    rw [hnone, Option.none_or, Function.update_self]
    cases after with
    | none => rfl
    | some a => simp [hafter a rfl]
  · have hfind : (l.filter fun a => key a ≠ k).find? (fun a => key a = k') =
        l.find? fun a => key a = k' := by
      rw [List.find?_filter]
      congr 1
      funext a
      by_cases ha : key a = k'
      · simp [ha, hk]
      · simp [ha]
    have hlast : after.toList.find? (fun a => key a = k') = none := by
      cases after with
      | none => rfl
      | some a => simp [hafter a rfl, Ne.symm hk]
    rw [hfind, hlast, Option.or_none, Function.update_of_ne hk, lookup]

theorem nodup_replace (hl : (l.map key).Nodup) (hafter : ∀ a, after = some a → key a = k) :
    ((replace key l k after).map key).Nodup := by
  rw [replace, List.map_append, List.nodup_append]
  refine ⟨(List.filter_sublist.map key).nodup hl, by cases after <;> simp, ?_⟩
  intro k₁ hk₁ k₂ hk₂
  obtain ⟨a, ha, rfl⟩ := List.mem_map.mp hk₁
  obtain ⟨b, hb, rfl⟩ := List.mem_map.mp hk₂
  rw [hafter b (Option.mem_toList.mp hb)]
  simpa using (List.mem_filter.mp ha).2

/-- **A list carries its store through a history.** -/
theorem lookup_carry (hcs : ∀ c ∈ cs, ∀ a, c.after = some a → key a = c.key) :
    lookup key (carry key l cs) = History.replay (lookup key l) cs := by
  induction cs generalizing l with
  | nil => rfl
  | cons c cs ih =>
    obtain ⟨hc, hcs⟩ := List.forall_mem_cons.mp hcs
    rw [History.replay_cons, ← lookup_replace hc, ← ih hcs]
    rfl

theorem nodup_carry (hl : (l.map key).Nodup)
    (hcs : ∀ c ∈ cs, ∀ a, c.after = some a → key a = c.key) :
    ((carry key l cs).map key).Nodup := by
  induction cs generalizing l with
  | nil => exact hl
  | cons c cs ih =>
    obtain ⟨hc, hcs⟩ := List.forall_mem_cons.mp hcs
    exact ih (nodup_replace hl hc) hcs

end KeyedList
