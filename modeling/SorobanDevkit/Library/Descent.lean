import Mathlib.Data.Nat.Notation
import Mathlib.Logic.Relation
import SorobanDevkit.Library.Fallible

/-!
# Greedy descent

A state is simplified by moves. A move offers simpler states in order, of which the first one that
passes a test is taken; the test may fail with an error. A pass makes a number of moves one after
the other, and passes are repeated until one takes nothing. As every offered state is smaller than
the one it is offered at, this ends, at a state where every offer is rejected.

## Main results

* `Descent.attempts_eq_false` — moves that take nothing leave the state, and all their offers are
  rejected.
* `Descent.Progress.attempts` — moves go from one accepted state to the next.
* `Descent.exhaust_spec` — the rule for the whole run.
* `Descent.exhaust_total` — it yields a state if every test yields a verdict.
-/

namespace Descent

variable {σ ε : Type}

section

variable (test : σ → Except ε Bool)

/-- The first state that passes the test. -/
def firstAccepted : List σ → Except ε (Option σ)
  | [] => .ok none
  | c :: cs => do if ← test c then .ok (some c) else firstAccepted cs

/-- One move, at a state and a flag that tells whether anything was taken. -/
def attempt (move : σ → List σ) (s : σ × Bool) : Except ε (σ × Bool) := do
  match ← firstAccepted test (move s.1) with
  | some c => .ok (c, true)
  | none => .ok s

/-- Moves, one after the other. -/
def attempts : List (σ → List σ) → σ × Bool → Except ε (σ × Bool)
  | [], s => .ok s
  | move :: moves, s => do attempts moves (← attempt test move s)

/-- The state `c` is offered at `s` and passes the test. -/
def Accepts (offered : σ → σ → Prop) (s c : σ) : Prop := offered s c ∧ test c = .ok true

/-- What moves have done since the state `s₀`. -/
inductive Progress (offered : σ → σ → Prop) (s₀ : σ) : σ × Bool → Prop
  | none : Progress offered s₀ (s₀, false)
  | some {s : σ} (h : Relation.TransGen (Accepts test offered) s₀ s) :
    Progress offered s₀ (s, true)

end

variable {test : σ → Except ε Bool}

/-! ### One move -/

theorem firstAccepted_eq_none {cs : List σ} (h : firstAccepted test cs = .ok none) :
    ∀ c ∈ cs, test c = .ok false := by
  induction cs with
  | nil => simp
  | cons c cs ih =>
    obtain ⟨verdict, hc, hrest⟩ := Except.bind_eq_ok_iff.mp h
    cases verdict with
    | true => cases hrest
    | false => exact List.forall_mem_cons.mpr ⟨hc, ih hrest⟩

theorem firstAccepted_eq_some {cs : List σ} {c : σ} (h : firstAccepted test cs = .ok (some c)) :
    c ∈ cs ∧ test c = .ok true := by
  induction cs with
  | nil => cases h
  | cons d cs ih =>
    obtain ⟨verdict, hd, hrest⟩ := Except.bind_eq_ok_iff.mp h
    cases verdict with
    | true =>
      cases hrest
      exact ⟨List.mem_cons_self, hd⟩
    | false => exact ⟨List.mem_cons_of_mem _ (ih hrest).1, (ih hrest).2⟩

theorem firstAccepted_total {cs : List σ} (htest : ∀ c ∈ cs, ∃ verdict, test c = .ok verdict) :
    ∃ r, firstAccepted test cs = .ok r := by
  induction cs with
  | nil => exact ⟨none, rfl⟩
  | cons c cs ih =>
    obtain ⟨⟨verdict, hc⟩, hcs⟩ := List.forall_mem_cons.mp htest
    obtain ⟨r, hr⟩ := ih hcs
    cases verdict with
    | true => exact ⟨some c, Except.bind_eq_ok_iff.mpr ⟨true, hc, rfl⟩⟩
    | false => exact ⟨r, Except.bind_eq_ok_iff.mpr ⟨false, hc, hr⟩⟩

/-- A move leaves everything as it is and all its offers are rejected, or it takes an offer. -/
theorem attempt_cases {move : σ → List σ} {s r : σ × Bool} (h : attempt test move s = .ok r) :
    (r = s ∧ ∀ c ∈ move s.1, test c = .ok false) ∨
      (r.2 = true ∧ r.1 ∈ move s.1 ∧ test r.1 = .ok true) := by
  obtain ⟨first, hfirst, hr⟩ := Except.bind_eq_ok_iff.mp h
  cases first with
  | none =>
    cases hr
    exact .inl ⟨rfl, firstAccepted_eq_none hfirst⟩
  | some c =>
    cases hr
    exact .inr ⟨rfl, firstAccepted_eq_some hfirst⟩

/-! ### Lists of moves -/

/-- Moves that take nothing leave the state, and all their offers are rejected. -/
theorem attempts_eq_false {moves : List (σ → List σ)} {s r : σ × Bool}
    (h : attempts test moves s = .ok r) (hr : r.2 = false) :
    r = s ∧ ∀ move ∈ moves, ∀ c ∈ move s.1, test c = .ok false := by
  induction moves generalizing s with
  | nil =>
    cases h
    exact ⟨rfl, by simp⟩
  | cons move moves ih =>
    obtain ⟨m, hm, hrest⟩ := Except.bind_eq_ok_iff.mp h
    obtain ⟨rfl, hrejected⟩ := ih hrest
    obtain ⟨rfl, hmove⟩ | ⟨htaken, -⟩ := attempt_cases hm
    · exact ⟨rfl, List.forall_mem_cons.mpr ⟨hmove, hrejected⟩⟩
    · rw [hr] at htaken
      cases htaken

/-- Moves go from one accepted state to the next. -/
theorem Progress.attempts {offered : σ → σ → Prop} {s₀ : σ} {moves : List (σ → List σ)}
    (hoffered : ∀ move ∈ moves, ∀ s, ∀ c ∈ move s, offered s c) {s r : σ × Bool}
    (hs : Progress test offered s₀ s) (h : attempts test moves s = .ok r) :
    Progress test offered s₀ r := by
  induction moves generalizing s with
  | nil =>
    cases h
    exact hs
  | cons move moves ih =>
    obtain ⟨m, hm, hrest⟩ := Except.bind_eq_ok_iff.mp h
    obtain ⟨hhead, htail⟩ := List.forall_mem_cons.mp hoffered
    refine ih htail ?_ hrest
    obtain ⟨rfl, -⟩ | ⟨htaken, hmem, hpass⟩ := attempt_cases hm
    · exact hs
    · obtain ⟨c, flag⟩ := m
      cases htaken
      have hstep : Accepts test offered s.1 c := ⟨hhead s.1 c hmem, hpass⟩
      cases hs with
      | none => exact .some (.single hstep)
      | some hreach => exact .some (hreach.tail hstep)

/-- What moves have done preserves what every accepted state preserves. -/
theorem Progress.preserves {offered : σ → σ → Prop} {P : σ → Prop}
    (hP : ∀ s c, P s → Accepts test offered s c → P c) {s₀ : σ} {r : σ × Bool} (hs : P s₀)
    (h : Progress test offered s₀ r) : P r.1 := by
  cases h with
  | none => exact hs
  | some hreach =>
    induction hreach with
    | single hstep => exact hP _ _ hs hstep
    | tail _ hstep ih => exact hP _ _ ih hstep

/-- Moves that take something make the state smaller. -/
theorem Progress.lt {offered : σ → σ → Prop} {μ : σ → ℕ}
    (hμ : ∀ s c, offered s c → μ c < μ s) {s₀ c : σ} (h : Progress test offered s₀ (c, true)) :
    μ c < μ s₀ := by
  cases h with
  | some hreach =>
    induction hreach with
    | single hstep => exact hμ _ _ hstep.1
    | tail _ hstep ih => exact Nat.lt_trans (hμ _ _ hstep.1) ih

/-- Moves yield a state if every test of an offered state yields a verdict. -/
theorem attempts_total {P : σ → Prop} (htest : ∀ s, P s → ∃ verdict, test s = .ok verdict)
    {moves : List (σ → List σ)} (hmoves : ∀ move ∈ moves, ∀ s, P s → ∀ c ∈ move s, P c)
    {s : σ × Bool} (hs : P s.1) : ∃ r, attempts test moves s = .ok r ∧ P r.1 := by
  induction moves generalizing s with
  | nil => exact ⟨s, rfl, hs⟩
  | cons move moves ih =>
    obtain ⟨hhead, htail⟩ := List.forall_mem_cons.mp hmoves
    have hoffers := hhead s.1 hs
    obtain ⟨first, hfirst⟩ := firstAccepted_total fun c hc => htest c (hoffers c hc)
    cases first with
    | none =>
      obtain ⟨r, hr, hPr⟩ := ih htail hs
      have hattempt : attempt test move s = .ok s :=
        Except.bind_eq_ok_iff.mpr ⟨none, hfirst, rfl⟩
      exact ⟨r, Except.bind_eq_ok_iff.mpr ⟨s, hattempt, hr⟩, hPr⟩
    | some c =>
      have hPc : P c := hoffers c (firstAccepted_eq_some hfirst).1
      obtain ⟨r, hr, hPr⟩ := ih htail (s := (c, true)) hPc
      have hattempt : attempt test move s = .ok (c, true) :=
        Except.bind_eq_ok_iff.mpr ⟨some c, hfirst, rfl⟩
      exact ⟨r, Except.bind_eq_ok_iff.mpr ⟨(c, true), hattempt, hr⟩, hPr⟩

/-! ### Repeated passes -/

/-- Passes until one takes nothing. A pass that takes something makes the state smaller. -/
def exhaust (μ : σ → ℕ) (pass : σ → Except ε (σ × Bool))
    (hpass : ∀ s c, pass s = .ok (c, true) → μ c < μ s) (s : σ) : Except ε σ :=
  match _h : pass s with
  | .error e => .error e
  | .ok (c, true) => exhaust μ pass hpass c
  | .ok (c, false) => .ok c
termination_by μ s
decreasing_by exact hpass s c _h

variable {μ : σ → ℕ} {pass : σ → Except ε (σ × Bool)}
  {hpass : ∀ s c, pass s = .ok (c, true) → μ c < μ s}

/-- The run with its first pass made. -/
theorem exhaust_eq (s : σ) : exhaust μ pass hpass s =
    match pass s with
    | .error e => .error e
    | .ok (c, true) => exhaust μ pass hpass c
    | .ok (c, false) => .ok c := by
  rw [exhaust]
  split <;> simp_all

/-- **The rule for the whole run**: what every pass preserves holds where the last one starts. -/
theorem exhaust_spec {P : σ → Prop} (hP : ∀ s c, P s → pass s = .ok (c, true) → P c) {s c : σ}
    (hs : P s) (h : exhaust μ pass hpass s = .ok c) : ∃ s', P s' ∧ pass s' = .ok (c, false) := by
  induction s using exhaust.induct μ pass hpass with
  | case1 s e hp =>
    rw [exhaust_eq, hp] at h
    cases h
  | case2 s d hp ih =>
    rw [exhaust_eq, hp] at h
    exact ih (hP s d hs hp) h
  | case3 s d hp =>
    rw [exhaust_eq, hp] at h
    cases h
    exact ⟨s, hs, hp⟩

/-- The run yields a state if every pass does. -/
theorem exhaust_total {P : σ → Prop} (htotal : ∀ s, P s → ∃ r, pass s = .ok r ∧ P r.1) {s : σ}
    (hs : P s) : ∃ c, exhaust μ pass hpass s = .ok c := by
  induction s using exhaust.induct μ pass hpass with
  | case1 s e hp =>
    obtain ⟨r, hr, -⟩ := htotal s hs
    rw [hp] at hr
    cases hr
  | case2 s d hp ih =>
    obtain ⟨r, hr, hPr⟩ := htotal s hs
    rw [hp] at hr
    cases hr
    rw [exhaust_eq, hp]
    exact ih hPr
  | case3 s d hp =>
    rw [exhaust_eq, hp]
    exact ⟨d, rfl⟩

end Descent
