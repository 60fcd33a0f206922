import Mathlib.Data.List.Basic
import Mathlib.Data.Nat.Notation

/-!
# Reading entry after entry

A loop that reads an entry off the front of its input, puts it into an accumulator and goes on
behind it, until nothing is left or no entry can be read. If every entry that is read takes at least
one item, the loop ends; if the reader takes exactly what a writer writes, the loop accepts the
concatenations of written entries, and nothing else.

## Main results

* `exists_ends` — the loop ends.
* `ends_ok_iff` — the loop succeeds on concatenations of entries, and on nothing else.
* `Concatenates.ends_append` — on a concatenation and what follows, the loop goes on with what
  follows.
-/

namespace EntryLoop

variable {α β ε σ : Type}

/-- The loop: the entries accumulated and the way it ended, if it did within `fuel` rounds. -/
def run (read : List β → Except ε (α × ℕ)) (push : σ → α → σ) :
    (fuel : ℕ) → List β → σ → Option (σ × Except ε Unit)
  | _, [], acc => some (acc, .ok ())
  | 0, _ :: _, _ => none
  | fuel + 1, b :: items, acc =>
    match read (b :: items) with
    | .error e => some (acc, .error e)
    | .ok (a, consumed) => run read push fuel ((b :: items).drop consumed) (push acc a)

/-- An entry that is read takes at least one item, and none beyond the end. -/
def Progress (read : List β → Except ε (α × ℕ)) : Prop :=
  ∀ items a n, read items = .ok (a, n) → 0 < n ∧ n ≤ items.length

/-- The reader takes what the writer writes, whatever follows, and nothing else. -/
def Inverts (read : List β → Except ε (α × ℕ)) (write : α → Option (List β)) : Prop :=
  ∀ items a n, read items = .ok (a, n) ↔ n ≤ items.length ∧ write a = some (items.take n)

/-- The items are those of the entries, one after the other. -/
inductive Concatenates (write : α → Option (List β)) : List α → List β → Prop
  | nil : Concatenates write [] []
  | cons {a : α} {as : List α} {part items : List β} : write a = some part →
      Concatenates write as items → Concatenates write (a :: as) (part ++ items)

/-- The loop ends so, within as many rounds as there are items. -/
def Ends (read : List β → Except ε (α × ℕ)) (push : σ → α → σ) (items : List β) (acc : σ)
    (out : σ × Except ε Unit) : Prop :=
  ∀ fuel, items.length ≤ fuel → run read push fuel items acc = some out

variable {read : List β → Except ε (α × ℕ)} {write : α → Option (List β)} {push : σ → α → σ}
  {items : List β} {acc : σ} {out : σ × Except ε Unit}

theorem run_of_ok {a : α} {n fuel : ℕ} (hitems : items ≠ []) (h : read items = .ok (a, n)) :
    run read push (fuel + 1) items acc = run read push fuel (items.drop n) (push acc a) := by
  obtain ⟨b, rest, rfl⟩ := List.exists_cons_of_ne_nil hitems
  rw [run, h]

theorem run_of_error {e : ε} {fuel : ℕ} (hitems : items ≠ []) (h : read items = .error e) :
    run read push (fuel + 1) items acc = some (acc, .error e) := by
  obtain ⟨b, rest, rfl⟩ := List.exists_cons_of_ne_nil hitems
  rw [run, h]

/-- A view of the accumulator that goes along with every entry goes along with the loop. -/
theorem run_map {τ : Type} {push' : τ → α → τ} {f : σ → τ}
    (h : ∀ acc a, push' (f acc) a = f (push acc a)) (fuel : ℕ) (items : List β) (acc : σ) :
    run read push' fuel items (f acc) =
      (run read push fuel items acc).map fun (acc', result) => (f acc', result) := by
  induction fuel generalizing items acc with
  | zero =>
    rcases items with _ | ⟨b, items⟩
    · rw [run, run, Option.map_some]
    · rw [run, run, Option.map_none]
  | succ fuel ih =>
    by_cases hitems : items = []
    · subst hitems
      rw [run, run, Option.map_some]
    · rcases hread : read items with e | ⟨a, n⟩
      · rw [run_of_error hitems hread, run_of_error hitems hread, Option.map_some]
      · rw [run_of_ok hitems hread, run_of_ok hitems hread, h, ih]

theorem Ends.unique {out' : σ × Except ε Unit} (h : Ends read push items acc out)
    (h' : Ends read push items acc out') : out = out' :=
  Option.some_inj.mp ((h items.length (Nat.le_refl _)).symm.trans (h' items.length (Nat.le_refl _)))

theorem ends_nil : Ends read push [] acc (acc, .ok ()) := by
  intro fuel _
  rw [run]

theorem ends_of_error {e : ε} (hitems : items ≠ []) (h : read items = .error e) :
    Ends read push items acc (acc, .error e) := by
  intro fuel hfuel
  obtain ⟨fuel, rfl⟩ := Nat.exists_eq_add_of_lt
    (Nat.lt_of_lt_of_le (List.length_pos_of_ne_nil hitems) hfuel)
  rw [Nat.zero_add]
  exact run_of_error hitems h

/-- One round: the loop goes on behind the entry that is read. -/
theorem ends_of_ok (hread : Progress read) {a : α} {n : ℕ} (h : read items = .ok (a, n))
    (hrest : Ends read push (items.drop n) (push acc a) out) : Ends read push items acc out := by
  obtain ⟨hpos, hle⟩ := hread items a n h
  have hlength : 0 < items.length := Nat.lt_of_lt_of_le hpos hle
  intro fuel hfuel
  obtain ⟨fuel, rfl⟩ := Nat.exists_eq_add_of_lt (Nat.lt_of_lt_of_le hlength hfuel)
  rw [Nat.zero_add, run_of_ok (List.ne_nil_of_length_pos hlength) h]
  apply hrest
  rw [List.length_drop]
  omega

/-- **The loop ends.** -/
theorem exists_ends (hread : Progress read) (push : σ → α → σ) (items : List β) (acc : σ) :
    ∃ out, Ends read push items acc out := by
  by_cases hitems : items = []
  · subst hitems
    exact ⟨_, ends_nil⟩
  rcases h : read items with e | ⟨a, n⟩
  · exact ⟨_, ends_of_error hitems h⟩
  · obtain ⟨hpos, hle⟩ := hread items a n h
    have hshorter : (items.drop n).length < items.length := by
      rw [List.length_drop]
      omega
    obtain ⟨out, hout⟩ := exists_ends hread push (items.drop n) (push acc a)
    exact ⟨out, ends_of_ok hread h hout⟩
termination_by items.length

/-! ### Concatenations -/

theorem Inverts.read_append (h : Inverts read write) {a : α} {part : List β}
    (ha : write a = some part) (rest : List β) :
    read (part ++ rest) = .ok (a, part.length) := by
  rw [h, List.take_left, List.length_append]
  exact ⟨Nat.le_add_right _ _, ha⟩

/-- On a concatenation and what follows, the loop takes the entries and goes on with what
follows. -/
theorem Concatenates.ends_append (hread : Progress read) (hinv : Inverts read write)
    {as : List α} {front : List β} (h : Concatenates write as front) {rest : List β}
    (hrest : Ends read push rest (as.foldl push acc) out) :
    Ends read push (front ++ rest) acc out := by
  induction h generalizing acc with
  | nil => exact hrest
  | @cons a as part items ha _ ih =>
    have hhead : read (part ++ (items ++ rest)) = .ok (a, part.length) := hinv.read_append ha _
    rw [List.append_assoc]
    apply ends_of_ok hread hhead
    rw [List.drop_left]
    exact ih hrest

/-- What the loop has taken when it ends, and why it ends. -/
theorem Ends.exists_concatenates (hread : Progress read) (hinv : Inverts read write)
    {items : List β} {acc : σ} {out : σ × Except ε Unit} (h : Ends read push items acc out) :
    ∃ as front rest, items = front ++ rest ∧ Concatenates write as front ∧
      out.1 = as.foldl push acc ∧
      (out.2 = .ok () ∧ rest = [] ∨ ∃ e, out.2 = .error e ∧ rest ≠ [] ∧ read rest = .error e) := by
  by_cases hitems : items = []
  · subst hitems
    obtain rfl := h.unique ends_nil
    exact ⟨[], [], [], rfl, .nil, rfl, .inl ⟨rfl, rfl⟩⟩
  rcases hnext : read items with e | ⟨a, n⟩
  · obtain rfl := h.unique (ends_of_error hitems hnext)
    exact ⟨[], [], items, rfl, .nil, rfl, .inr ⟨e, rfl, hitems, hnext⟩⟩
  · obtain ⟨hpos, hle⟩ := hread items a n hnext
    have hshorter : (items.drop n).length < items.length := by
      rw [List.length_drop]
      omega
    have ha : write a = some (items.take n) := ((hinv items a n).mp hnext).2
    obtain ⟨out', hout'⟩ := exists_ends hread push (items.drop n) (push acc a)
    obtain rfl := h.unique (ends_of_ok hread hnext hout')
    obtain ⟨as, front, rest, hsplit, has, hacc, hend⟩ := hout'.exists_concatenates hread hinv
    refine ⟨a :: as, items.take n ++ front, rest, ?_, .cons ha has, hacc, hend⟩
    rw [List.append_assoc, ← hsplit, List.take_append_drop]
termination_by items.length

/-- **The loop succeeds on concatenations of entries**, and on nothing else. -/
theorem ends_ok_iff (hread : Progress read) (hinv : Inverts read write) {acc' : σ} :
    Ends read push items acc (acc', .ok ()) ↔
      ∃ as, Concatenates write as items ∧ acc' = as.foldl push acc := by
  constructor
  · intro h
    obtain ⟨as, front, rest, rfl, has, hacc, ⟨-, rfl⟩ | ⟨e, he, -⟩⟩ :=
      h.exists_concatenates hread hinv
    · rw [List.append_nil]
      exact ⟨as, has, hacc⟩
    · exact absurd he (by simp)
  · rintro ⟨as, has, rfl⟩
    have hends : Ends read push (items ++ []) acc (as.foldl push acc, .ok ()) :=
      has.ends_append hread hinv ends_nil
    rwa [List.append_nil] at hends

/-- Items that are no concatenation of entries are rejected, with the error of a reading. -/
theorem exists_ends_error (hread : Progress read) (hinv : Inverts read write)
    (h : ∀ as, ¬ Concatenates write as items) (push : σ → α → σ) (acc : σ) :
    ∃ acc' e rest, read rest = .error e ∧ Ends read push items acc (acc', .error e) := by
  obtain ⟨⟨acc', result⟩, hout⟩ := exists_ends hread push items acc
  obtain ⟨as, front, rest, rfl, has, -, ⟨-, rfl⟩ | ⟨e, rfl, -, he⟩⟩ :=
    hout.exists_concatenates hread hinv
  · rw [List.append_nil] at h
    exact absurd has (h as)
  · exact ⟨acc', e, rest, he, hout⟩

end EntryLoop
