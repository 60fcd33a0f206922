import SorobanDevkit.Library.Descent

/-!
# Greedy descent with a clock

A greedy descent whose test may answer differently each time it is asked. The tests that a descent
makes are numbered, and the answer to a test depends on its number: this covers every test that is
not deterministic. The descent ends all the same, since an offered state is smaller than the one it
is offered at whatever the answers are.

A test that does not depend on the clock makes it a descent without one.

## Main results

* `TimedDescent.Progress.attempts` — moves go from one offered state to the next.
* `TimedDescent.exhaust_spec`, `TimedDescent.exhaust_total` — the rules for the whole run.
* `TimedDescent.attempts_const` — a test that does not depend on the clock.
-/

namespace TimedDescent

variable {σ ε : Type}

section

variable (test : ℕ → σ → Except ε Bool)

/-- The first state that passes the test, and the time after the tests. -/
def firstAccepted : List σ → ℕ → Except ε (Option σ × ℕ)
  | [], n => .ok (none, n)
  | c :: cs, n => do if ← test n c then .ok (some c, n + 1) else firstAccepted cs (n + 1)

/-- One move, at a state, a flag that tells whether anything was taken, and a time. -/
def attempt (move : σ → List σ) (s : (σ × Bool) × ℕ) : Except ε ((σ × Bool) × ℕ) := do
  match ← firstAccepted test (move s.1.1) s.2 with
  | (some c, n) => .ok ((c, true), n)
  | (none, n) => .ok (s.1, n)

/-- Moves, one after the other. -/
def attempts : List (σ → List σ) → (σ × Bool) × ℕ → Except ε ((σ × Bool) × ℕ)
  | [], s => .ok s
  | move :: moves, s => do attempts moves (← attempt test move s)

end

/-- What moves have done since the state `s₀`, whatever the tests answer. -/
inductive Progress (offered : σ → σ → Prop) (s₀ : σ) : σ × Bool → Prop
  | none : Progress offered s₀ (s₀, false)
  | some {s : σ} (h : Relation.TransGen offered s₀ s) : Progress offered s₀ (s, true)

variable {test : ℕ → σ → Except ε Bool}

/-! ### Moves -/

theorem mem_of_firstAccepted {cs : List σ} {c : σ} {n n' : ℕ}
    (h : firstAccepted test cs n = .ok (some c, n')) : c ∈ cs := by
  induction cs generalizing n with
  | nil => cases h
  | cons d cs ih =>
    obtain ⟨verdict, -, hrest⟩ := Except.bind_eq_ok_iff.mp h
    cases verdict with
    | true =>
      cases hrest
      exact List.mem_cons_self
    | false => exact List.mem_cons_of_mem _ (ih hrest)

theorem firstAccepted_total {cs : List σ} (htest : ∀ n, ∀ c ∈ cs, ∃ verdict, test n c = .ok verdict)
    (n : ℕ) : ∃ r, firstAccepted test cs n = .ok r := by
  induction cs generalizing n with
  | nil => exact ⟨(none, n), rfl⟩
  | cons c cs ih =>
    obtain ⟨verdict, hc⟩ := htest n c List.mem_cons_self
    obtain ⟨r, hr⟩ := ih (fun n d hd => htest n d (List.mem_cons_of_mem _ hd)) (n + 1)
    cases verdict with
    | true => exact ⟨(some c, n + 1), Except.bind_eq_ok_iff.mpr ⟨true, hc, rfl⟩⟩
    | false => exact ⟨r, Except.bind_eq_ok_iff.mpr ⟨false, hc, hr⟩⟩

/-- A move leaves everything but the time as it is, or takes an offer. -/
theorem attempt_cases {move : σ → List σ} {s r : (σ × Bool) × ℕ} (h : attempt test move s = .ok r) :
    r.1 = s.1 ∨ (r.1.2 = true ∧ r.1.1 ∈ move s.1.1) := by
  obtain ⟨⟨first, n⟩, hfirst, hr⟩ := Except.bind_eq_ok_iff.mp h
  cases first with
  | none =>
    cases hr
    exact .inl rfl
  | some c =>
    cases hr
    exact .inr ⟨rfl, mem_of_firstAccepted hfirst⟩

/-- Moves go from one offered state to the next. -/
theorem Progress.attempts {offered : σ → σ → Prop} {s₀ : σ} {moves : List (σ → List σ)}
    (hoffered : ∀ move ∈ moves, ∀ s, ∀ c ∈ move s, offered s c) {s r : (σ × Bool) × ℕ}
    (hs : Progress offered s₀ s.1) (h : attempts test moves s = .ok r) :
      Progress offered s₀ r.1 := by
  induction moves generalizing s with
  | nil =>
    cases h
    exact hs
  | cons move moves ih =>
    obtain ⟨⟨⟨c, flag⟩, n⟩, hm, hrest⟩ := Except.bind_eq_ok_iff.mp h
    obtain ⟨hhead, htail⟩ := List.forall_mem_cons.mp hoffered
    refine ih htail ?_ hrest
    obtain heq | ⟨htaken, hmem⟩ := attempt_cases hm
    · dsimp only at heq
      rw [heq]
      exact hs
    · cases htaken
      have hstep : offered s.1.1 c := hhead s.1.1 c hmem
      obtain ⟨⟨d, flag⟩, time⟩ := s
      cases hs with
      | none => exact .some (.single hstep)
      | some hreach => exact .some (hreach.tail hstep)

/-- What moves have done preserves what every offer preserves. -/
theorem Progress.preserves {offered : σ → σ → Prop} {P : σ → Prop}
    (hP : ∀ s c, P s → offered s c → P c) {s₀ : σ} {r : σ × Bool} (hs : P s₀)
    (h : Progress offered s₀ r) : P r.1 := by
  cases h with
  | none => exact hs
  | some hreach =>
    induction hreach with
    | single hstep => exact hP _ _ hs hstep
    | tail _ hstep ih => exact hP _ _ ih hstep

/-- Moves that take something make the state smaller. -/
theorem Progress.lt {offered : σ → σ → Prop} {μ : σ → ℕ} (hμ : ∀ s c, offered s c → μ c < μ s)
    {s₀ c : σ} (h : Progress offered s₀ (c, true)) : μ c < μ s₀ := by
  cases h with
  | some hreach =>
    induction hreach with
    | single hstep => exact hμ _ _ hstep
    | tail _ hstep ih => exact Nat.lt_trans (hμ _ _ hstep) ih

/-- Moves yield a state if every test of an offered state yields a verdict. -/
theorem attempts_total {P : σ → Prop} (htest : ∀ n s, P s → ∃ verdict, test n s = .ok verdict)
    {moves : List (σ → List σ)} (hmoves : ∀ move ∈ moves, ∀ s, P s → ∀ c ∈ move s, P c)
    {s : (σ × Bool) × ℕ} (hs : P s.1.1) : ∃ r, attempts test moves s = .ok r ∧ P r.1.1 := by
  induction moves generalizing s with
  | nil => exact ⟨s, rfl, hs⟩
  | cons move moves ih =>
    obtain ⟨hhead, htail⟩ := List.forall_mem_cons.mp hmoves
    have hoffers := hhead s.1.1 hs
    obtain ⟨⟨first, n⟩, hfirst⟩ :=
      firstAccepted_total (fun n c hc => htest n c (hoffers c hc)) s.2
    cases first with
    | none =>
      obtain ⟨r, hr, hPr⟩ := ih htail (s := (s.1, n)) hs
      have hattempt : attempt test move s = .ok (s.1, n) :=
        Except.bind_eq_ok_iff.mpr ⟨(none, n), hfirst, rfl⟩
      exact ⟨r, Except.bind_eq_ok_iff.mpr ⟨(s.1, n), hattempt, hr⟩, hPr⟩
    | some c =>
      have hPc : P c := hoffers c (mem_of_firstAccepted hfirst)
      obtain ⟨r, hr, hPr⟩ := ih htail (s := ((c, true), n)) hPc
      have hattempt : attempt test move s = .ok ((c, true), n) :=
        Except.bind_eq_ok_iff.mpr ⟨(some c, n), hfirst, rfl⟩
      exact ⟨r, Except.bind_eq_ok_iff.mpr ⟨((c, true), n), hattempt, hr⟩, hPr⟩

/-! ### Tests that do not depend on the clock -/

section Const

variable {verdictOf : σ → Except ε Bool} (hconst : ∀ n s, test n s = verdictOf s)

include hconst

theorem firstAccepted_const (cs : List σ) (n : ℕ) :
    (firstAccepted test cs n).map (·.1) = Descent.firstAccepted verdictOf cs := by
  induction cs generalizing n with
  | nil => rfl
  | cons c cs ih =>
    rw [firstAccepted, Descent.firstAccepted, hconst]
    cases verdictOf c with
    | error e => rfl
    | ok verdict =>
      cases verdict with
      | true => rfl
      | false => exact ih (n + 1)

theorem attempt_const (move : σ → List σ) (s : (σ × Bool) × ℕ) :
    (attempt test move s).map (·.1) = Descent.attempt verdictOf move s.1 := by
  rw [attempt, Descent.attempt, ← firstAccepted_const hconst (move s.1.1) s.2]
  cases firstAccepted test (move s.1.1) s.2 with
  | error e => rfl
  | ok r =>
    obtain ⟨first, n⟩ := r
    cases first with
    | none => rfl
    | some c => rfl

/-- Moves with a test that does not depend on the clock. -/
theorem attempts_const (moves : List (σ → List σ)) (s : (σ × Bool) × ℕ) :
    (attempts test moves s).map (·.1) = Descent.attempts verdictOf moves s.1 := by
  induction moves generalizing s with
  | nil => rfl
  | cons move moves ih =>
    rw [attempts, Descent.attempts, ← attempt_const hconst move s]
    cases attempt test move s with
    | error e => rfl
    | ok r => exact ih r

end Const

/-! ### Repeated passes -/

/-- Passes until one takes nothing. A pass that takes something makes the state smaller. -/
def exhaust (μ : σ → ℕ) (pass : σ → ℕ → Except ε ((σ × Bool) × ℕ))
    (hpass : ∀ s n c n', pass s n = .ok ((c, true), n') → μ c < μ s) (s : σ) (n : ℕ) :
    Except ε (σ × ℕ) :=
  match _h : pass s n with
  | .error e => .error e
  | .ok ((c, true), n') => exhaust μ pass hpass c n'
  | .ok ((c, false), n') => .ok (c, n')
termination_by μ s
decreasing_by exact hpass s n c n' _h

variable {μ : σ → ℕ} {pass : σ → ℕ → Except ε ((σ × Bool) × ℕ)}
  {hpass : ∀ s n c n', pass s n = .ok ((c, true), n') → μ c < μ s}

/-- The run with its first pass made. -/
theorem exhaust_eq (s : σ) (n : ℕ) : exhaust μ pass hpass s n =
    match pass s n with
    | .error e => .error e
    | .ok ((c, true), n') => exhaust μ pass hpass c n'
    | .ok ((c, false), n') => .ok (c, n') := by
  rw [exhaust]
  split <;> simp_all

/-- **The rule for the whole run**: what every pass preserves holds where the last one starts. -/
theorem exhaust_spec {P : σ → Prop} (hP : ∀ s n c n', P s → pass s n = .ok ((c, true), n') → P c)
    {s : σ} {n : ℕ} {r : σ × ℕ} (hs : P s) (h : exhaust μ pass hpass s n = .ok r) :
    ∃ s' n', P s' ∧ pass s' n' = .ok ((r.1, false), r.2) := by
  induction s, n using exhaust.induct μ pass hpass with
  | case1 s n e hp =>
    rw [exhaust_eq, hp] at h
    cases h
  | case2 s n d n' hp ih =>
    rw [exhaust_eq, hp] at h
    exact ih (hP s n d n' hs hp) h
  | case3 s n d n' hp =>
    rw [exhaust_eq, hp] at h
    cases h
    exact ⟨s, n, hs, hp⟩

/-- The run yields a state if every pass does. -/
theorem exhaust_total {P : σ → Prop} (htotal : ∀ s n, P s → ∃ r, pass s n = .ok r ∧ P r.1.1) {s : σ}
    (n : ℕ) (hs : P s) : ∃ r, exhaust μ pass hpass s n = .ok r := by
  induction s, n using exhaust.induct μ pass hpass with
  | case1 s n e hp =>
    obtain ⟨r, hr, -⟩ := htotal s n hs
    rw [hp] at hr
    cases hr
  | case2 s n d n' hp ih =>
    obtain ⟨r, hr, hPr⟩ := htotal s n hs
    rw [hp] at hr
    cases hr
    rw [exhaust_eq, hp]
    exact ih hPr
  | case3 s n d n' hp =>
    rw [exhaust_eq, hp]
    exact ⟨_, rfl⟩

end TimedDescent
