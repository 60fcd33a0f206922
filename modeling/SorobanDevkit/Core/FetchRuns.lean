import SorobanDevkit.Core.Fetch
import SorobanDevkit.Library.KeyedRuns

/-!
# Fetching one source after the other

The loops of `sdkt package fetch` and `apply_updates` fetch sources, each into the directory of its
key, so that sources with one key share a checkout, and what was fetched last decides where its
`HEAD` is.
-/

namespace SorobanDevkit.Core

/-- The commit that a name stands for in a checkout. -/
def Git.standsFor (git : Git) (c : Checkout) (ref : String) : Option ObjectId :=
  match c.heads ref with
  | some commit => some commit
  | none =>
    match c.tags ref with
    | some id => git.peel id
    | none =>
      match Git.trackedHead c ref with
      | some commit => some commit
      | none => (git.revision c ref).bind Checkout.headCommit

/-- **A switch ends at the commit that its name stands for.** -/
theorem headCommit_of_switchTo {git : Git} {c c' : Checkout} {ref : String}
    (h : git.switchTo c ref = some c') : c'.headCommit = git.standsFor c ref := by
  rw [Git.switchTo] at h
  rw [Git.standsFor]
  cases hhead : c.heads ref with
  | some commit =>
    rw [hhead] at h
    cases h
    exact hhead
  | none =>
    rw [hhead] at h
    cases htag : c.tags ref with
    | some id =>
      rw [htag] at h
      obtain ⟨commit, hpeel, rfl⟩ := Option.map_eq_some_iff.mp h
      exact hpeel.symm
    | none =>
      rw [htag] at h
      cases htracked : Git.trackedHead c ref with
      | some commit =>
        rw [htracked] at h
        cases h
        rfl
      | none =>
        rw [htracked] at h
        simp [show git.revision c ref = some c' from h]

/-- A URL with what is fetched from it. -/
abbrev Source := String × Dependency

/-- The directory of a source. -/
def sourceKey (s : Source) : String := gitCacheKey s.2

section Fetches

variable (git : Git) (cacheRoot : String) (force : Bool)

/-- A fetch of a source leads to a checkout. -/
def FetchesTo (s : Source) (cache : Cache) (c : Checkout) : Prop :=
  FetchStep git cacheRoot s.1 s.2 force (cache (sourceKey s)) c

/-- The checkout that is reused, as it is up to date. -/
def Reused (dep : Dependency) (start : Option Checkout) (c : Checkout) : Prop :=
  force = false ∧ start = some c ∧ upToDate git dep c = true

/-- A fetch of a source leaves `HEAD` at a commit: that of the checkout that is reused, or the one
that the reference stands for when the refs have been fetched. -/
def LeavesAt (commit : ObjectId) (s : Source) (cache : Cache) : Prop :=
  (∃ c, Reused git force s.2 (cache (sourceKey s)) c ∧ c.headCommit = some commit) ∨
    (∀ c, ¬Reused git force s.2 (cache (sourceKey s)) c) ∧
      ∃ c, prepare git cacheRoot s.1 (sourceKey s) force (cache (sourceKey s)) = .ok c ∧
        git.standsFor c (checkoutRef s.2) = some commit

variable {git cacheRoot force} {s : Source} {cache : Cache} {c : Checkout}

/-- **Where a fetch leaves `HEAD`.** -/
theorem FetchesTo.leavesAt_iff (h : FetchesTo git cacheRoot force s cache c) (commit : ObjectId) :
    LeavesAt git cacheRoot force commit s cache ↔ c.headCommit = some commit := by
  rw [LeavesAt]
  rw [FetchesTo] at h
  generalize cache (sourceKey s) = start at h ⊢
  cases h with
  | reuse hforce hcurrent =>
    constructor
    · rintro (⟨c', ⟨-, hstart, -⟩, hhead⟩ | ⟨hnever, -⟩)
      · rwa [Option.some.inj hstart]
      · exact absurd ⟨hforce, rfl, hcurrent⟩ (hnever c)
    · exact fun hhead => .inl ⟨c, ⟨hforce, rfl, hcurrent⟩, hhead⟩
  | @switch _ first _ hstale hprepare hcheckout =>
    have hnever : ∀ c₀, ¬Reused git force s.2 start c₀ := by
      rintro c₀ ⟨hforce, hstart, hcurrent⟩
      rcases hstale with hforce' | hstale
      · simp [hforce] at hforce'
      · simp [hstale c₀ hstart] at hcurrent
    rw [headCommit_of_switchTo (switchTo_of_checkout hcheckout)]
    constructor
    · rintro (⟨c', hreused, -⟩ | ⟨-, first', hprepare', hstands⟩)
      · exact absurd hreused (hnever c')
      · rwa [Except.ok.inj (hprepare.symm.trans hprepare')]
    · exact fun hstands => .inr ⟨hnever, first, hprepare, hstands⟩

theorem FetchesTo.unique (s : Source) (cache : Cache) (c c' : Checkout)
    (h : FetchesTo git cacheRoot force s cache c) (h' : FetchesTo git cacheRoot force s cache c') :
    c = c' := FetchStep.unique h h'

end Fetches

end SorobanDevkit.Core
