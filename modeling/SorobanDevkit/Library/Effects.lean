import Mathlib.Init

/-!
# Computations that change a state and may fail

What has been changed before a failure stays changed.

## Main results

* `Effect.bind_eq_ok_iff` — when two computations in sequence succeed.
* `Effect.Keeps.bind`, `Effect.Keeps.each` — computations in sequence keep what each does.
-/

/-- A computation that changes a state and may fail. -/
def Effect (σ ε α : Type) := σ → Except ε α × σ

namespace Effect

variable {σ ε α β : Type}

/-- One computation after another, unless the first fails. -/
def bind (x : Effect σ ε α) (f : α → Effect σ ε β) : Effect σ ε β := fun s =>
  match x s with
  | (.ok a, s') => f a s'
  | (.error e, s') => (.error e, s')

instance : Monad (Effect σ ε) where
  pure a := fun s => (.ok a, s)
  bind := bind

/-- A computation that does not look at the state. -/
def lift (x : Except ε α) : Effect σ ε α := fun s => (x, s)

/-- What is computed from the state. -/
def ask (f : σ → α) : Effect σ ε α := fun s => (.ok (f s), s)

/-- A change of the state. When it fails, the state stays. -/
def change (f : σ → Except ε σ) : Effect σ ε Unit := fun s =>
  match f s with
  | .ok s' => (.ok (), s')
  | .error e => (.error e, s)

/-- A computation with another error. -/
def mapError {ε' : Type} (f : ε → ε') (x : Effect σ ε α) : Effect σ ε' α := fun s =>
  ((x s).1.mapError f, (x s).2)

/-- A computation for each member of a list, until one fails. -/
def each (f : α → Effect σ ε Unit) : List α → Effect σ ε Unit
  | [] => pure ()
  | a :: l => do
    f a
    each f l

/-! ### Success -/

/-- What is computed from the result of a computation. -/
theorem bind_pure_apply (x : Effect σ ε α) (f : α → β) (s : σ) :
    (x >>= fun a => pure (f a)) s = ((x s).1.map f, (x s).2) := by
  show bind x (fun a => pure (f a)) s = _
  rw [bind]
  cases x s with
  | mk result s' => cases result <;> rfl

theorem pure_eq_ok_iff {a b : α} {s s' : σ} :
    (pure a : Effect σ ε α) s = (.ok b, s') ↔ a = b ∧ s = s' :=
  ⟨fun h => by cases h; exact ⟨rfl, rfl⟩, fun ⟨ha, hs⟩ => by rw [ha, hs]; rfl⟩

/-- After a computation that succeeds, the second one goes on with its result. -/
theorem bind_of_ok {x : Effect σ ε α} {f : α → Effect σ ε β} {s s' : σ} {a : α}
    (h : x s = (.ok a, s')) : (x >>= f) s = f a s' := by
  show bind x f s = _
  rw [bind, h]

/-- A failure of the first computation is the one of both. -/
theorem bind_of_error {x : Effect σ ε α} {f : α → Effect σ ε β} {s s' : σ} {e : ε}
    (h : x s = (.error e, s')) : (x >>= f) s = (.error e, s') := by
  show bind x f s = _
  rw [bind, h]

/-- **Two computations in sequence succeed if the first does, and the second after it.** -/
theorem bind_eq_ok_iff {x : Effect σ ε α} {f : α → Effect σ ε β} {s s'' : σ} {b : β} :
    (x >>= f) s = (.ok b, s'') ↔ ∃ a s', x s = (.ok a, s') ∧ f a s' = (.ok b, s'') := by
  show bind x f s = _ ↔ _
  rw [bind]
  cases hx : x s with
  | mk result s' =>
    cases result with
    | error e => simp
    | ok a =>
      constructor
      · exact fun h => ⟨a, s', rfl, h⟩
      · rintro ⟨a', s'', heq, h⟩
        cases heq
        exact h

theorem lift_eq_ok_iff {x : Except ε α} {a : α} {s s' : σ} :
    lift x s = (.ok a, s') ↔ x = .ok a ∧ s = s' := by
  rw [lift, Prod.mk.injEq]

theorem ask_eq_ok_iff {f : σ → α} {a : α} {s s' : σ} :
    (ask f : Effect σ ε α) s = (.ok a, s') ↔ f s = a ∧ s = s' := by
  rw [ask, Prod.mk.injEq, Except.ok.injEq]

theorem change_eq_ok_iff {f : σ → Except ε σ} {u : Unit} {s s' : σ} :
    change f s = (.ok u, s') ↔ f s = .ok s' := by
  rw [change]
  cases f s <;> simp

theorem mapError_eq_ok_iff {ε' : Type} {f : ε → ε'} {x : Effect σ ε α} {a : α} {s s' : σ} :
    mapError f x s = (.ok a, s') ↔ x s = (.ok a, s') := by
  rw [mapError]
  cases x s with
  | mk result s'' =>
    cases result with
    | ok b => exact ⟨fun h => by cases h; rfl, fun h => by cases h; rfl⟩
    | error e => exact iff_of_false (fun h => by cases h) (fun h => by cases h)

/-! ### What is kept -/

/-- The state after a computation is related to the state before. -/
def Keeps (R : σ → σ → Prop) (x : Effect σ ε α) : Prop := ∀ s, R s (x s).2

variable {R : σ → σ → Prop}

theorem Keeps.bind (htrans : ∀ s s' s'', R s s' → R s' s'' → R s s'') {x : Effect σ ε α}
    {f : α → Effect σ ε β} (hx : Keeps R x) (hf : ∀ a, Keeps R (f a)) : Keeps R (x >>= f) := by
  intro s
  show R s (Effect.bind x f s).2
  have hs := hx s
  rw [Effect.bind]
  cases hresult : x s with
  | mk result s' =>
    rw [hresult] at hs
    cases result with
    | error e => exact hs
    | ok a => exact htrans _ _ _ hs (hf a s')

/-- What comes after a computation that does not look at the state. -/
theorem Keeps.lift_bind (hrefl : ∀ s, R s s) {x : Except ε α} {f : α → Effect σ ε β}
    (hf : ∀ a, x = .ok a → Keeps R (f a)) : Keeps R (lift x >>= f) := by
  intro s
  cases x with
  | error e => exact hrefl s
  | ok a => exact hf a rfl s

theorem Keeps.each (hrefl : ∀ s, R s s) (htrans : ∀ s s' s'', R s s' → R s' s'' → R s s'')
    {f : α → Effect σ ε Unit} {l : List α} (hf : ∀ a ∈ l, Keeps R (f a)) : Keeps R (each f l) := by
  induction l with
  | nil => exact hrefl
  | cons a l ih =>
    obtain ⟨ha, hl⟩ := List.forall_mem_cons.mp hf
    exact Keeps.bind htrans ha fun _ => ih hl

theorem Keeps.mapError {ε' : Type} (f : ε → ε') {x : Effect σ ε α} (h : Keeps R x) :
    Keeps R (mapError f x) := h

theorem keeps_pure (hrefl : ∀ s, R s s) (a : α) : Keeps R (pure a : Effect σ ε α) := hrefl

theorem keeps_lift (hrefl : ∀ s, R s s) (x : Except ε α) : Keeps R (lift x : Effect σ ε α) := hrefl

theorem keeps_change {f : σ → Except ε σ} (hrefl : ∀ s, R s s)
    (h : ∀ s s', f s = .ok s' → R s s') : Keeps R (change f) := by
  intro s
  rw [change]
  cases hf : f s with
  | error e => exact hrefl s
  | ok s' => exact h s s' hf

end Effect
