import SorobanDevkit.Library.Disk

/-!
# Sequences of atomic steps

A step is atomic if it changes nothing when it fails. A sequence of atomic steps leaves behind what
the steps before the failure have done, so that it changes nothing when it fails only if these have
found what they make.

Computations that look at a state through a relation have the same results in related states.

## Main results

* `Effect.failsAs_bind_iff` — what is left behind when one of two steps fails.
* `FileTree.same_makeDirs_iff`, `FileTree.same_write_iff` — when a change of a tree changes nothing.
* `Disk.respects_makeDirs`, `Disk.respects_write`, `Disk.respects_removeFile`.
-/

namespace Effect

variable {σ ε α β : Type}

/-- A computation that changes nothing when it fails. -/
def Atomic (x : Effect σ ε α) : Prop := ∀ s e s', x s = (.error e, s') → s' = s

/-- A computation succeeds in a state. -/
def Succeeds (x : Effect σ ε α) (s : σ) : Prop := ∃ a s', x s = (.ok a, s')

/-- If a computation fails in a state, what it leaves behind is related to a start. -/
def FailsAs (R : σ → σ → Prop) (start : σ) (x : Effect σ ε α) (s : σ) : Prop :=
  ∀ e s', x s = (.error e, s') → R start s'

theorem atomic_pure (a : α) : Atomic (pure a : Effect σ ε α) := fun _ _ _ h => by cases h

theorem atomic_lift (x : Except ε α) : Atomic (lift x : Effect σ ε α) := fun _ _ _ h => by
  cases h
  rfl

theorem atomic_change (f : σ → Except ε σ) : Atomic (change f) := by
  intro s e s' h
  rw [change] at h
  split at h <;> cases h
  rfl

theorem Atomic.mapError {ε' : Type} {f : ε → ε'} {x : Effect σ ε α} (hx : Atomic x) :
    Atomic (mapError f x) := by
  intro s e s' h
  obtain ⟨herror, rfl⟩ := Prod.mk.injEq .. ▸ h
  cases hrun : x s with
  | mk result s' =>
    rw [hrun] at herror
    cases result with
    | ok a => cases herror
    | error e' => exact hx s e' s' hrun

/-- Two computations in sequence, of which the first changes nothing. -/
theorem Atomic.bind {x : Effect σ ε α} {f : α → Effect σ ε β} (hx : Keeps (fun s s' => s' = s) x)
    (hf : ∀ a, Atomic (f a)) : Atomic (x >>= f) := by
  intro s e s' h
  have hkept := hx s
  change Effect.bind x f s = _ at h
  rw [Effect.bind] at h
  cases hrun : x s with
  | mk result s'' =>
    rw [hrun] at h hkept
    obtain rfl : s'' = s := hkept
    cases result with
    | ok a => exact hf a s'' e s' h
    | error e' =>
      cases h
      rfl

theorem not_succeeds_iff {x : Effect σ ε α} {s : σ} :
    ¬ Succeeds x s ↔ ∃ e s', x s = (.error e, s') := by
  cases hrun : x s with
  | mk result s' =>
    cases result with
    | ok a => exact iff_of_false (not_not.mpr ⟨a, s', hrun⟩) (by simp)
    | error e => exact iff_of_true (fun ⟨a, s'', h⟩ => by rw [hrun] at h; cases h) ⟨e, s', rfl⟩

section

variable {R : σ → σ → Prop} {start s : σ}

theorem Atomic.failsAs_iff {x : Effect σ ε α} (hx : Atomic x) :
    FailsAs R start x s ↔ (¬ Succeeds x s → R start s) := by
  rw [not_succeeds_iff]
  constructor
  · rintro h ⟨e, s', hrun⟩
    exact hx s e s' hrun ▸ h e s' hrun
  · intro h e s' hrun
    rw [hx s e s' hrun]
    exact h ⟨e, s', hrun⟩

/-- **What is left behind when one of two steps fails.** -/
theorem failsAs_bind_iff {x : Effect σ ε α} {f : α → Effect σ ε β} (hx : Atomic x) :
    FailsAs R start (x >>= f) s ↔
      (¬ Succeeds x s → R start s) ∧ ∀ a s', x s = (.ok a, s') → FailsAs R start (f a) s' := by
  have hbind : (x >>= f) s = Effect.bind x f s := rfl
  rw [← hx.failsAs_iff, FailsAs, hbind, Effect.bind]
  cases hrun : x s with
  | mk result s' =>
    cases result with
    | ok a =>
      constructor
      · refine fun h => ⟨fun e s'' herror => ?_, fun a' s'' hok => ?_⟩
        · rw [hrun] at herror
          cases herror
        · cases hok
          exact h
      · exact fun h => h.2 a s' rfl
    | error e =>
      constructor
      · refine fun h => ⟨fun e' s'' herror => ?_, fun a s'' hok => by cases hok⟩
        rw [hrun] at herror
        cases herror
        exact h e s' rfl
      · intro h e' s'' herror
        cases herror
        exact h.1 e s' hrun

/-- A result that is replaced does not matter. -/
theorem failsAs_bind_pure_iff {x : Effect σ ε α} {b : β} :
    FailsAs R start (x >>= fun _ => pure b) s ↔ FailsAs R start x s := by
  have hbind : (x >>= fun _ => pure b) s = Effect.bind x (fun _ => pure b) s := rfl
  rw [FailsAs, FailsAs, hbind, Effect.bind]
  cases x s with
  | mk result s' =>
    cases result with
    | ok a => exact iff_of_true (fun e s'' h => by cases h) fun e s'' h => by cases h
    | error e =>
      constructor
      · intro h e' s'' herror
        cases herror
        exact h e s' rfl
      · intro h e' s'' herror
        cases herror
        exact h e s' rfl

/-! ### Related states -/

/-- The results in related states are the same, and the states after it are related. -/
def Respects (R : σ → σ → Prop) (x : Effect σ ε α) : Prop :=
  ∀ s s', R s s' → (x s).1 = (x s').1 ∧ R (x s).2 (x s').2

theorem respects_pure (a : α) : Respects R (pure a : Effect σ ε α) := fun _ _ h => ⟨rfl, h⟩

theorem respects_lift (x : Except ε α) : Respects R (lift x : Effect σ ε α) := fun _ _ h => ⟨rfl, h⟩

theorem respects_ask {f : σ → α} (hf : ∀ s s', R s s' → f s = f s') :
    Respects R (ask f : Effect σ ε α) :=
  fun s s' h => ⟨congrArg Except.ok (hf s s' h), h⟩

theorem Respects.mapError {ε' : Type} (f : ε → ε') {x : Effect σ ε α} (hx : Respects R x) :
    Respects R (mapError f x) :=
  fun s s' h => ⟨congrArg (Except.mapError f) (hx s s' h).1, (hx s s' h).2⟩

theorem Respects.bind {x : Effect σ ε α} {f : α → Effect σ ε β} (hx : Respects R x)
    (hf : ∀ a, Respects R (f a)) : Respects R (x >>= f) := by
  intro s s' h
  obtain ⟨hresult, hstate⟩ := hx s s' h
  show (Effect.bind x f s).1 = (Effect.bind x f s').1 ∧
    R (Effect.bind x f s).2 (Effect.bind x f s').2
  rw [Effect.bind, Effect.bind]
  generalize x s = run, x s' = run' at hresult hstate
  obtain ⟨result, t⟩ := run
  obtain ⟨result', t'⟩ := run'
  obtain rfl : result = result' := hresult
  cases result with
  | ok a => exact hf a t t' hstate
  | error e => exact ⟨rfl, hstate⟩

end

end Effect

/-! ### Trees -/

namespace FileTree

/-- There is the same at every path of two trees. -/
def Same (tree tree' : FileTree) : Prop := ∀ path, tree'.get? path = tree.get? path

variable {tree tree' start : FileTree} {path : List String}

theorem Same.refl (tree : FileTree) : Same tree tree := fun _ => rfl

theorem Same.symm (h : Same tree tree') : Same tree' tree := fun path => (h path).symm

theorem Same.read (h : Same tree tree') (path : List String) : tree'.read path = tree.read path :=
  read_congr (h path)

theorem Same.children_perm (h : Same tree tree') (path : List String) :
    (tree'.children path).Perm (tree.children path) := by
  rw [List.perm_ext_iff_of_nodup nodup_children nodup_children]
  intro name
  rw [mem_children, mem_children, h]

/-- Making a directory changes nothing if it is there. -/
theorem same_makeDirs_iff (h : tree.makeDirs path = some tree') :
    Same tree tree' ↔ tree.get? path = some .dir := by
  constructor
  · intro hsame
    rw [← hsame path, get?_makeDirs h, if_pos List.prefix_rfl]
  · intro hdir other
    rw [get?_makeDirs h]
    split
    · next hpre =>
      by_cases heq : other = path
      · rw [heq, hdir]
      · rw [tree.isDir_of_prefix hpre heq hdir]
    · rfl

/-- Writing a file after other changes changes nothing if they do not, and the file is there. -/
theorem same_write_iff {content : List UInt8} (h : tree.write path content = some tree')
    (hpath : tree.get? path = start.get? path) :
    Same start tree' ↔ Same start tree ∧ start.read path = some content := by
  have hget := get?_write h
  constructor
  · intro hsame
    refine ⟨fun other => ?_, ?_⟩
    · by_cases heq : other = path
      · rw [heq, hpath]
      · rw [← hsame other, hget, if_neg heq]
    · rw [read_eq_some_iff, ← hsame path, hget, if_pos rfl]
  · rintro ⟨hsame, hread⟩ other
    rw [hget]
    split
    · next heq => rw [heq, read_eq_some_iff.mp hread]
    · exact hsame other

theorem exists_removeFile_iff :
    (∃ tree', tree.removeFile path = some tree') ↔ (tree.read path).isSome := by
  rw [removeFile]
  split
  · next h => exact iff_of_true ⟨_, rfl⟩ h
  · next h => exact iff_of_false (by simp) h

end FileTree

namespace Disk

open Effect FileTree

variable {refuses : Refusals} {access : Access} {path : List String}

/-- A change that can be made in one of two trees that are the same can be made in the other. -/
theorem respects_change {f : FileTree → Option FileTree}
    (hf : ∀ tree tree', Same tree tree' → ∀ t, f tree = some t → ∃ t',
      f tree' = some t' ∧ Same t t') :
    Respects Same (change fun tree => refuses.grant access path (f tree)) := by
  intro tree tree' h
  simp only [change, Refusals.grant]
  cases refuses access path with
  | some message => exact ⟨rfl, h⟩
  | none =>
    cases ht : f tree with
    | some t =>
      obtain ⟨t', ht', hsame⟩ := hf tree tree' h t ht
      rw [ht']
      exact ⟨rfl, hsame⟩
    | none =>
      cases ht' : f tree' with
      | some t' =>
        obtain ⟨t, hsome, -⟩ := hf tree' tree h.symm t' ht'
        rw [hsome] at ht
        cases ht
      | none => exact ⟨rfl, h⟩

theorem respects_makeDirs : Respects Same (makeDirs refuses path) := by
  refine respects_change fun tree tree' h t ht => ?_
  obtain ⟨t', ht'⟩ := exists_makeDirs_iff.mpr fun above habove =>
    (h.read above).trans (exists_makeDirs_iff.mp ⟨t, ht⟩ above habove)
  exact ⟨t', ht', fun other => by rw [get?_makeDirs ht', get?_makeDirs ht, h]⟩

theorem respects_write {content : List UInt8} : Respects Same (write refuses path content) := by
  refine respects_change fun tree tree' h t ht => ?_
  obtain ⟨hparent, hfile⟩ := exists_write_iff.mp ⟨t, ht⟩
  obtain ⟨t', ht'⟩ := exists_write_iff.mpr
    ⟨(h path.dropLast).trans hparent, fun hdir => hfile ((h path).symm.trans hdir)⟩
  exact ⟨t', ht', fun other => by rw [get?_write ht', get?_write ht, h]⟩

theorem respects_removeFile : Respects Same (removeFile refuses path) := by
  refine respects_change fun tree tree' h t ht => ?_
  obtain ⟨t', ht'⟩ := exists_removeFile_iff.mpr
    ((congrArg Option.isSome (h.read path)).trans (exists_removeFile_iff.mp ⟨t, ht⟩))
  exact ⟨t', ht', fun other => by rw [get?_removeFile ht', get?_removeFile ht, h]⟩

end Disk
