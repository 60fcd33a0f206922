import Mathlib.Data.List.Nodup
import Mathlib.Data.List.Perm.Basic

/-!
# Hash maps in an iteration order

A hash map is iterated in an order of which nothing is known. A map is given here in one such order,
as a list of entries with distinct keys; two of these are the same map when one lists the entries of
the other. The order in which a map built by a program is iterated is an arbitrary rearrangement of
the insertion order.
-/

/-- A map in one of its iteration orders. -/
structure UnorderedMap (κ α : Type) where
  entries : List (κ × α)
  nodup : (entries.map Prod.fst).Nodup

/-- An iteration order: a way to rearrange any list. -/
structure Rearrangement (α : Type) where
  order : List α → List α
  perm : ∀ l, (order l).Perm l

/-- The iteration order that keeps every list. -/
def Rearrangement.id {α : Type} : Rearrangement α := ⟨fun l => l, fun _ => .refl _⟩

/-- The iteration order that reverses every list. -/
def Rearrangement.reverse {α : Type} : Rearrangement α := ⟨List.reverse, List.reverse_perm⟩

namespace Rearrangement

variable {α : Type} {p : α → Bool}

/-- The iteration order that has one element in front, where it occurs. -/
def toFront [DecidableEq α] (a : α) : Rearrangement α where
  order l := if a ∈ l then a :: l.erase a else l
  perm l := by
    split_ifs with h
    · exact (List.perm_cons_erase h).symm
    · exact .refl l

theorem find?_toFront [DecidableEq α] {a : α} {l : List α} (ha : a ∈ l) (hp : p a = true) :
    ((toFront a).order l).find? p = some a := by
  have hfront : (toFront a).order l = a :: l.erase a := if_pos ha
  rw [hfront, List.find?_cons_of_pos hp]

/-- What is found is one of those that match. -/
theorem find?_order (r : Rearrangement α) {l : List α} {a : α} (h : (r.order l).find? p = some a) :
    a ∈ l.filter p :=
  List.mem_filter.mpr ⟨(r.perm l).mem_iff.mp (List.mem_of_find?_eq_some h), List.find?_some h⟩

end Rearrangement

namespace UnorderedMap

variable {κ α : Type}

/-- The keys, in the iteration order. -/
def keys (m : UnorderedMap κ α) : List κ := m.entries.map Prod.fst

/-- The value under a key. -/
def get? [DecidableEq κ] (m : UnorderedMap κ α) (k : κ) : Option α :=
  (m.entries.find? fun e => e.1 = k).map Prod.snd

/-- Both list the entries of one map. -/
def SameEntries (m m' : UnorderedMap κ α) : Prop := m.entries.Perm m'.entries

theorem SameEntries.keys_perm {m m' : UnorderedMap κ α} (h : m.SameEntries m') :
    m.keys.Perm m'.keys :=
  List.Perm.map Prod.fst h

/-- The entry of a key is its value. -/
theorem get?_eq_some [DecidableEq κ] {m : UnorderedMap κ α} {k : κ} {a : α} :
    m.get? k = some a ↔ (k, a) ∈ m.entries := by
  rw [get?, Option.map_eq_some_iff]
  constructor
  · rintro ⟨⟨k', a'⟩, hfind, rfl⟩
    have hkey : k' = k := by simpa using List.find?_some hfind
    exact hkey ▸ List.mem_of_find?_eq_some hfind
  · intro hmem
    cases hfind : m.entries.find? fun e => e.1 = k with
    | none => simpa using List.find?_eq_none.mp hfind (k, a) hmem
    | some e =>
      have hkey : e.1 = k := by simpa using List.find?_some hfind
      have he := List.inj_on_of_nodup_map m.nodup (List.mem_of_find?_eq_some hfind) hmem hkey
      exact ⟨e, rfl, by rw [he]⟩

/-- The same map in another iteration order. -/
def rearrange (r : Rearrangement (κ × α)) (m : UnorderedMap κ α) : UnorderedMap κ α where
  entries := r.order m.entries
  nodup := ((r.perm m.entries).map Prod.fst).nodup_iff.mpr m.nodup

theorem rearrange_sameEntries (r : Rearrangement (κ × α)) (m : UnorderedMap κ α) :
    (m.rearrange r).SameEntries m :=
  r.perm m.entries

/-! ### Mapping the values with a check -/

section Traverse

variable {β ε : Type}

/-- The entries with their values mapped, up to the first error. -/
def traverseEntries (f : κ → α → Except ε β) :
    (l : List (κ × α)) → Except ε { l' : List (κ × β) // l'.map Prod.fst = l.map Prod.fst }
  | [] => .ok ⟨[], rfl⟩
  | (k, a) :: l =>
    match f k a with
    | .error e => .error e
    | .ok b =>
      match traverseEntries f l with
      | .error e => .error e
      | .ok ⟨l', h⟩ => .ok ⟨(k, b) :: l', by rw [List.map_cons, List.map_cons, h]⟩

/-- The map with its values mapped in the iteration order, or the first error. -/
def traverse (f : κ → α → Except ε β) (m : UnorderedMap κ α) : Except ε (UnorderedMap κ β) :=
  match traverseEntries f m.entries with
  | .error e => .error e
  | .ok ⟨l, h⟩ => .ok ⟨l, h ▸ m.nodup⟩

theorem traverseEntries_forall₂ {f : κ → α → Except ε β} {l : List (κ × α)}
    {l' : { l' : List (κ × β) // l'.map Prod.fst = l.map Prod.fst }}
    (h : traverseEntries f l = .ok l') :
    List.Forall₂ (fun e e' => e'.1 = e.1 ∧ f e.1 e.2 = .ok e'.2) l l'.1 := by
  induction l with
  | nil => cases h; exact .nil
  | cons e l ih =>
    obtain ⟨k, a⟩ := e
    rw [traverseEntries] at h
    split at h
    · cases h
    · next b hb =>
      split at h
      · cases h
      · next l'' h'' hl =>
        cases h
        exact .cons ⟨rfl, hb⟩ (ih hl)

/-- The values are mapped one by one. -/
theorem traverse_forall₂ {f : κ → α → Except ε β} {m : UnorderedMap κ α} {m' : UnorderedMap κ β}
    (h : m.traverse f = .ok m') :
    List.Forall₂ (fun e e' => e'.1 = e.1 ∧ f e.1 e.2 = .ok e'.2) m.entries m'.entries := by
  rw [traverse] at h
  split at h
  · cases h
  · next l hkeys hl =>
    cases h
    exact traverseEntries_forall₂ hl

theorem exists_traverseEntries_iff (f : κ → α → Except ε β) (l : List (κ × α)) :
    (∃ l', traverseEntries f l = .ok l') ↔ ∀ e ∈ l, ∃ b, f e.1 e.2 = .ok b := by
  induction l with
  | nil => simp [traverseEntries]
  | cons e l ih =>
    obtain ⟨k, a⟩ := e
    rw [List.forall_mem_cons, ← ih, traverseEntries]
    cases f k a with
    | error err => simp
    | ok b => cases traverseEntries f l <;> simp

/-- There is no error when no value makes one. -/
theorem exists_traverse_iff (f : κ → α → Except ε β) (m : UnorderedMap κ α) :
    (∃ m', m.traverse f = .ok m') ↔ ∀ e ∈ m.entries, ∃ b, f e.1 e.2 = .ok b := by
  rw [← exists_traverseEntries_iff, traverse]
  cases traverseEntries f m.entries <;> simp

theorem keys_traverse {f : κ → α → Except ε β} {m : UnorderedMap κ α} {m' : UnorderedMap κ β}
    (h : m.traverse f = .ok m') : m'.keys = m.keys := by
  rw [traverse] at h
  split at h
  · cases h
  · next l hkeys _ =>
    cases h
    exact hkeys

/-- An entry of the result is the image of an entry, and every entry has its image. -/
theorem mem_traverse {f : κ → α → Except ε β} {m : UnorderedMap κ α} {m' : UnorderedMap κ β}
    (h : m.traverse f = .ok m') {k : κ} {b : β} :
    (k, b) ∈ m'.entries ↔ ∃ a, (k, a) ∈ m.entries ∧ f k a = .ok b := by
  have hmem : ∀ {l : List (κ × α)} {l' : List (κ × β)},
      List.Forall₂ (fun e e' => e'.1 = e.1 ∧ f e.1 e.2 = .ok e'.2) l l' →
        ((k, b) ∈ l' ↔ ∃ a, (k, a) ∈ l ∧ f k a = .ok b) := by
    intro l l' hall
    induction hall with
    | nil => simp
    | @cons e e' l l' he _ ih =>
      obtain ⟨k', a⟩ := e
      obtain ⟨k'', b'⟩ := e'
      obtain ⟨rfl, hb⟩ := he
      simp only [List.mem_cons, Prod.mk.injEq, ih]
      constructor
      · rintro (⟨rfl, rfl⟩ | ⟨a', ha', hb'⟩)
        · exact ⟨a, .inl ⟨rfl, rfl⟩, hb⟩
        · exact ⟨a', .inr ha', hb'⟩
      · rintro ⟨a', ⟨rfl, rfl⟩ | ha', hb'⟩
        · exact .inl ⟨rfl, Except.ok.inj (hb'.symm.trans hb)⟩
        · exact .inr ⟨a', ha', hb'⟩
  exact hmem (traverse_forall₂ h)

end Traverse

end UnorderedMap
