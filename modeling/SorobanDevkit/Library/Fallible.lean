import Mathlib.Data.List.Forall2

/-!
# Fallible computations

When a computation with exceptions succeeds, so does every computation it is made of.

## Main results

* `Except.bind_eq_ok_iff`, `Except.map_eq_ok_iff`, `Except.mapError_eq_ok_iff`,
  `Except.bind_eq_error_iff`.
* `Except.mapM_map_eq_ok` — a list is read back if each of its members is.
* `Except.exists_mapM_eq_ok` — a computation for every member succeeds if each does.
* `Except.mem_of_mapM_eq_ok`, `Except.exists_mem_of_mapM_eq_ok` — its results are those of the
  members.
* `Option.mapM_eq_some_iff`, `Option.exists_mapM_eq_some_iff` — the same without an error.
-/

namespace Except

variable {ε ε' α β : Type}

/-- A check with an error. -/
def ensure (p : Prop) [Decidable p] (e : ε) : Except ε Unit := if p then .ok () else .error e

theorem ensure_eq_ok_iff {p : Prop} [Decidable p] {e : ε} {u : Unit} : ensure p e = .ok u ↔ p := by
  rw [ensure]
  split
  · next h => exact iff_of_true rfl h
  · next h => exact iff_of_false (by simp) h

theorem bind_eq_ok_iff {x : Except ε α} {f : α → Except ε β} {b : β} :
    (x >>= f) = .ok b ↔ ∃ a, x = .ok a ∧ f a = .ok b := by
  cases x with
  | error e => simp [bind, Except.bind]
  | ok a => simp [bind, Except.bind]

theorem bind_eq_error_iff {x : Except ε α} {f : α → Except ε β} {e : ε} :
    (x >>= f) = .error e ↔ x = .error e ∨ ∃ a, x = .ok a ∧ f a = .error e := by
  cases x with
  | error e => simp [bind, Except.bind]
  | ok a => simp [bind, Except.bind]

theorem map_eq_ok_iff {x : Except ε α} {f : α → β} {b : β} :
    x.map f = .ok b ↔ ∃ a, x = .ok a ∧ f a = b := by
  cases x <;> simp [Except.map]

theorem map_map {γ : Type} (f : α → β) (g : β → γ) (x : Except ε α) :
    (x.map f).map g = x.map fun a => g (f a) := by
  cases x <;> rfl

theorem map_id' (x : Except ε α) : (x.map fun a => a) = x := by
  cases x <;> rfl

theorem mapError_ok (f : ε → ε') (a : α) : (Except.ok a : Except ε α).mapError f = .ok a := rfl

theorem mapError_error (f : ε → ε') (e : ε) :
    (Except.error e : Except ε α).mapError f = .error (f e) := rfl

theorem mapError_eq_ok_iff {x : Except ε α} {f : ε → ε'} {a : α} :
    x.mapError f = .ok a ↔ x = .ok a := by
  cases x <;> simp [mapError_ok, mapError_error]

theorem mapError_eq_error_iff {x : Except ε α} {f : ε → ε'} {e' : ε'} :
    x.mapError f = .error e' ↔ ∃ e, x = .error e ∧ f e = e' := by
  cases x <;> simp [mapError_ok, mapError_error]

theorem toOption_eq_some_iff {x : Except ε α} {a : α} : x.toOption = some a ↔ x = .ok a := by
  cases x <;> simp [Except.toOption]

/-- A list is read back if each of its members is. -/
theorem mapM_map_eq_ok {f : β → Except ε α} {g : α → β} {l : List α}
    (h : ∀ a ∈ l, f (g a) = .ok a) : (l.map g).mapM f = .ok l := by
  induction l with
  | nil => rfl
  | cons a l ih =>
    obtain ⟨ha, hl⟩ := List.forall_mem_cons.mp h
    rw [List.map_cons, List.mapM_cons, ha, ih hl]
    rfl

/-- A computation for every member succeeds if each does. -/
theorem exists_mapM_eq_ok {f : α → Except ε β} {l : List α} (h : ∀ a ∈ l, ∃ b, f a = .ok b) :
    ∃ bs, l.mapM f = .ok bs := by
  induction l with
  | nil => exact ⟨[], rfl⟩
  | cons a l ih =>
    obtain ⟨⟨b, hb⟩, hl⟩ := List.forall_mem_cons.mp h
    obtain ⟨bs, hbs⟩ := ih hl
    exact ⟨b :: bs, by rw [List.mapM_cons, hb, hbs]; rfl⟩

theorem mapM_cons_eq_ok_iff {f : α → Except ε β} {a : α} {l : List α} {cs : List β} :
    (a :: l).mapM f = .ok cs ↔ ∃ b bs, f a = .ok b ∧ l.mapM f = .ok bs ∧ cs = b :: bs := by
  rw [List.mapM_cons, bind_eq_ok_iff]
  constructor
  · rintro ⟨b, hb, h⟩
    obtain ⟨bs, hbs, hcs⟩ := bind_eq_ok_iff.mp h
    cases hcs
    exact ⟨b, bs, hb, hbs, rfl⟩
  · rintro ⟨b, bs, hb, hbs, rfl⟩
    exact ⟨b, hb, bind_eq_ok_iff.mpr ⟨bs, hbs, rfl⟩⟩

/-- Two computations for every member, one after the other or member by member. -/
theorem mapM_eq_ok_iff_of_bind {γ : Type} {f : α → Except ε β} {g : β → Except ε γ}
    {k : α → Except ε γ} (h : ∀ a c, k a = .ok c ↔ ∃ b, f a = .ok b ∧ g b = .ok c) {l : List α}
    {cs : List γ} : l.mapM k = .ok cs ↔ ∃ bs, l.mapM f = .ok bs ∧ bs.mapM g = .ok cs := by
  induction l generalizing cs with
  | nil => exact ⟨fun hcs => ⟨[], rfl, hcs⟩, fun ⟨bs, hbs, hcs⟩ => by cases hbs; exact hcs⟩
  | cons a l ih =>
    rw [mapM_cons_eq_ok_iff]
    constructor
    · rintro ⟨c, cs, hc, hcs, rfl⟩
      obtain ⟨b, hb, hc⟩ := (h a c).mp hc
      obtain ⟨bs, hbs, hcs⟩ := ih.mp hcs
      exact ⟨b :: bs, mapM_cons_eq_ok_iff.mpr ⟨b, bs, hb, hbs, rfl⟩,
        mapM_cons_eq_ok_iff.mpr ⟨c, cs, hc, hcs, rfl⟩⟩
    · rintro ⟨bs, hbs, hcs⟩
      obtain ⟨b, bs, hb, hl, rfl⟩ := mapM_cons_eq_ok_iff.mp hbs
      obtain ⟨c, cs, hc, hrest, rfl⟩ := mapM_cons_eq_ok_iff.mp hcs
      exact ⟨c, cs, (h a c).mpr ⟨b, hb, hc⟩, ih.mpr ⟨bs, hl, hrest⟩, rfl⟩

theorem mapM_mapError_eq_ok {f : α → Except ε β} (g : ε → ε') {l : List α} {bs : List β}
    (h : l.mapM f = .ok bs) : l.mapM (fun a => (f a).mapError g) = .ok bs := by
  induction l generalizing bs with
  | nil =>
    cases h
    rfl
  | cons a l ih =>
    obtain ⟨b, bs, hb, hbs, rfl⟩ := mapM_cons_eq_ok_iff.mp h
    exact mapM_cons_eq_ok_iff.mpr ⟨b, bs, mapError_eq_ok_iff.mpr hb, ih hbs, rfl⟩

theorem length_of_mapM_eq_ok {f : α → Except ε β} {l : List α} {bs : List β}
    (h : l.mapM f = .ok bs) : bs.length = l.length := by
  induction l generalizing bs with
  | nil =>
    cases h
    rfl
  | cons a l ih =>
    obtain ⟨b, bs, -, hbs, rfl⟩ := mapM_cons_eq_ok_iff.mp h
    rw [List.length_cons, List.length_cons, ih hbs]

/-- The result for each member, at its place. -/
theorem getElem?_of_mapM_eq_ok {f : α → Except ε β} {l : List α} {bs : List β}
    (h : l.mapM f = .ok bs) {i : Nat} {a : α} (ha : l[i]? = some a) :
    ∃ b, bs[i]? = some b ∧ f a = .ok b := by
  induction l generalizing bs i with
  | nil => cases ha
  | cons c l ih =>
    obtain ⟨b, bs, hb, hbs, rfl⟩ := mapM_cons_eq_ok_iff.mp h
    cases i with
    | zero =>
      cases ha
      exact ⟨b, rfl, hb⟩
    | succ i => exact ih hbs ha

/-- The results correspond to the members. -/
theorem forall₂_of_mapM_eq_ok {f : α → Except ε β} {l : List α} {bs : List β}
    (h : l.mapM f = .ok bs) : List.Forall₂ (fun a b => f a = .ok b) l bs := by
  induction l generalizing bs with
  | nil =>
    cases h
    exact .nil
  | cons a l ih =>
    obtain ⟨b, bs, hb, hbs, rfl⟩ := mapM_cons_eq_ok_iff.mp h
    exact .cons hb (ih hbs)

theorem mapM_eq_ok_iff {f : α → Except ε β} {l : List α} {bs : List β} :
    l.mapM f = .ok bs ↔ List.Forall₂ (fun a b => f a = .ok b) l bs := by
  refine ⟨forall₂_of_mapM_eq_ok, fun h => ?_⟩
  induction h with
  | nil => rfl
  | cons ha _ ih => exact mapM_cons_eq_ok_iff.mpr ⟨_, _, ha, ih, rfl⟩

theorem mem_of_mapM_eq_ok {f : α → Except ε β} {l : List α} {bs : List β}
    (h : l.mapM f = .ok bs) : ∀ b ∈ bs, ∃ a ∈ l, f a = .ok b := by
  induction l generalizing bs with
  | nil =>
    cases h
    simp
  | cons a l ih =>
    obtain ⟨b, bs, hb, hbs, rfl⟩ := mapM_cons_eq_ok_iff.mp h
    refine List.forall_mem_cons.mpr ⟨⟨a, List.mem_cons_self, hb⟩, fun c hc => ?_⟩
    obtain ⟨a', ha', hc'⟩ := ih hbs c hc
    exact ⟨a', List.mem_cons_of_mem _ ha', hc'⟩

theorem exists_mem_of_mapM_eq_ok {f : α → Except ε β} {l : List α} {bs : List β}
    (h : l.mapM f = .ok bs) : ∀ a ∈ l, ∃ b ∈ bs, f a = .ok b := by
  induction l generalizing bs with
  | nil => simp
  | cons a l ih =>
    obtain ⟨b, bs, hb, hbs, rfl⟩ := mapM_cons_eq_ok_iff.mp h
    refine List.forall_mem_cons.mpr ⟨⟨b, List.mem_cons_self, hb⟩, fun a' ha' => ?_⟩
    obtain ⟨c, hc, hc'⟩ := ih hbs a' ha'
    exact ⟨c, List.mem_cons_of_mem _ hc, hc'⟩

theorem exists_mapM_eq_ok_iff {f : α → Except ε β} {l : List α} :
    (∃ bs, l.mapM f = .ok bs) ↔ ∀ a ∈ l, ∃ b, f a = .ok b := by
  refine ⟨fun ⟨bs, h⟩ a ha => ?_, exists_mapM_eq_ok⟩
  obtain ⟨b, -, hb⟩ := exists_mem_of_mapM_eq_ok h a ha
  exact ⟨b, hb⟩

/-- A check of a member fails if the checks do. -/
theorem exists_of_forM_eq_error {f : α → Except ε Unit} {l : List α} {e : ε}
    (h : l.forM f = .error e) : ∃ a ∈ l, f a = .error e := by
  induction l with
  | nil => cases h
  | cons a l ih =>
    rw [List.forM, bind_eq_error_iff] at h
    obtain ha | ⟨_, -, hl⟩ := h
    · exact ⟨a, List.mem_cons_self, ha⟩
    · obtain ⟨a', ha', he⟩ := ih hl
      exact ⟨a', List.mem_cons_of_mem _ ha', he⟩

/-- A result is missing for a member if the results are. -/
theorem exists_of_mapM_eq_error {f : α → Except ε β} {l : List α} {e : ε}
    (h : l.mapM f = .error e) : ∃ a ∈ l, f a = .error e := by
  induction l with
  | nil => cases h
  | cons a l ih =>
    rw [List.mapM_cons, bind_eq_error_iff] at h
    obtain ha | ⟨b, -, h⟩ := h
    · exact ⟨a, List.mem_cons_self, ha⟩
    · obtain hl | ⟨bs, -, h⟩ := bind_eq_error_iff.mp h
      · obtain ⟨a', ha', he⟩ := ih hl
        exact ⟨a', List.mem_cons_of_mem _ ha', he⟩
      · cases h

/-- Checks of all members succeed if each does. -/
theorem forM_eq_ok_iff {f : α → Except ε Unit} {l : List α} :
    l.forM f = .ok () ↔ ∀ a ∈ l, f a = .ok () := by
  induction l with
  | nil => exact ⟨fun _ => by simp, fun _ => rfl⟩
  | cons a l ih =>
    rw [List.forM, bind_eq_ok_iff, List.forall_mem_cons, ih]
    exact ⟨fun ⟨_, ha, hl⟩ => ⟨ha, hl⟩, fun ⟨ha, hl⟩ => ⟨⟨⟩, ha, hl⟩⟩

end Except

namespace Option

variable {α β : Type}

/-- Values of the members are the values of a list. -/
theorem mapM_eq_some_iff {f : α → Option β} {l : List α} {bs : List β} :
    l.mapM f = some bs ↔ List.Forall₂ (fun a b => f a = some b) l bs := by
  induction l generalizing bs with
  | nil =>
    rw [List.mapM_nil, List.forall₂_nil_left_iff]
    exact ⟨fun h => (Option.some_inj.mp h).symm, fun h => by rw [h]; rfl⟩
  | cons a l ih =>
    rw [List.mapM_cons, List.forall₂_cons_left_iff]
    constructor
    · intro h
      obtain ⟨b, hb, h⟩ := Option.bind_eq_some_iff.mp h
      obtain ⟨rest, hrest, h⟩ := Option.bind_eq_some_iff.mp h
      exact ⟨b, rest, hb, ih.mp hrest, (Option.some_inj.mp h).symm⟩
    · rintro ⟨b, rest, hb, hrest, rfl⟩
      exact Option.bind_eq_some_iff.mpr
        ⟨b, hb, Option.bind_eq_some_iff.mpr ⟨rest, ih.mpr hrest, rfl⟩⟩

theorem exists_of_mem_mapM {f : α → Option β} {l : List α} {bs : List β}
    (h : l.mapM f = some bs) {b : β}
    (hb : b ∈ bs) : ∃ a ∈ l, f a = some b := by
  induction mapM_eq_some_iff.mp h with
  | nil => cases hb
  | cons ha hl ih =>
    obtain rfl | hb := List.mem_cons.mp hb
    · exact ⟨_, List.mem_cons_self, ha⟩
    · obtain ⟨a, hmem, hf⟩ := ih (mapM_eq_some_iff.mpr hl) hb
      exact ⟨a, List.mem_cons_of_mem _ hmem, hf⟩

theorem exists_mapM_eq_some_iff {f : α → Option β} {l : List α} :
    (∃ bs, l.mapM f = some bs) ↔ ∀ a ∈ l, ∃ b, f a = some b := by
  simp only [mapM_eq_some_iff]
  induction l with
  | nil => exact iff_of_true ⟨[], .nil⟩ nofun
  | cons a l ih =>
    rw [List.forall_mem_cons, ← ih]
    constructor
    · rintro ⟨bs, h⟩
      obtain ⟨b, rest, hb, hrest, -⟩ := List.forall₂_cons_left_iff.mp h
      exact ⟨⟨b, hb⟩, rest, hrest⟩
    · rintro ⟨⟨b, hb⟩, rest, hrest⟩
      exact ⟨b :: rest, .cons hb hrest⟩

end Option
