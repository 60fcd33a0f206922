import SorobanDevkit.Agent.Plan

/-!
# Options of a planned command line

Which words of a planned command line are options. The planner emits an option if the registry
declares it, but looks up some options as parts of declared ones, so that `--rpc` is found where
`--rpc-url` is declared; a value that is spelled into a flag or quoted can look like an option.
-/

namespace SorobanDevkit.Agent

open Strings (startsWith)

/-! ### What the registry declares -/

section Registry

/-- The flags that the planner looks up as parts of declared arguments, apart from the switch for
live statistics. -/
def lookupFlags : List String :=
  ["--contract", "--envelope", "--args", "--base-fees", "--rpc-url", "--network-passphrase"]

/-- The declarations of a capability on which the planner relies: the flags that it looks up as
parts of others are declared, an endpoint comes with a passphrase and a network, a passphrase with
an endpoint, and the switch for live statistics belongs to the fee estimate. -/
def Capability.wellDeclared (cap : Capability) : Bool :=
  (lookupFlags.all fun flag => !cap.flagFor flag || cap.declaresArg flag) &&
    cap.declaresArg "--format" &&
    (!cap.flagFor "--rpc-url" ||
      (cap.declaresArg "--network-passphrase" && cap.touchesNetwork)) &&
    (!cap.flagFor "--network-passphrase" || cap.flagFor "--rpc-url") &&
    cap.declaresArg "--rpc" == (cap.id = "fee.estimate" : Bool)

/-- Every capability that only reads is declared so. -/
theorem wellDeclared_of_readOnly {cap : Capability} (hcap : cap ∈ capabilities)
    (hreadOnly : cap.safety = .readOnly) : cap.wellDeclared = true := by
  have hall : capabilities.all (fun cap => cap.safety ≠ .readOnly || cap.wellDeclared) = true := by
    decide +kernel
  have hdeclared := List.all_eq_true.mp hall cap hcap
  rw [Bool.or_eq_true, decide_eq_true_eq] at hdeclared
  exact hdeclared.resolve_left fun hne => hne hreadOnly

/-- What `Capability.wellDeclared` checks. -/
structure Capability.WellDeclared (cap : Capability) : Prop where
  lookup : ∀ flag ∈ lookupFlags, cap.flagFor flag = true → cap.declaresArg flag = true
  format : cap.declaresArg "--format" = true
  endpoint : cap.flagFor "--rpc-url" = true →
    cap.declaresArg "--network-passphrase" = true ∧ cap.touchesNetwork = true
  passphrase : cap.flagFor "--network-passphrase" = true → cap.flagFor "--rpc-url" = true
  rpc : cap.declaresArg "--rpc" = true ↔ cap.id = "fee.estimate"

theorem Capability.wellDeclared_iff {cap : Capability} :
    cap.wellDeclared = true ↔ cap.WellDeclared := by
  have himp : ∀ {a b : Bool}, (!a || b) = true ↔ (a = true → b = true) := by
    intro a b
    cases a <;> simp
  have hiff : ∀ {a b : Bool}, (a == b) = true ↔ (a = true ↔ b = true) := by
    intro a b
    cases a <;> cases b <;> simp
  rw [wellDeclared]
  simp only [Bool.and_eq_true, List.all_eq_true, himp, hiff, decide_eq_true_eq]
  constructor
  · rintro ⟨⟨⟨⟨hlookup, hformat⟩, hendpoint⟩, hpassphrase⟩, hrpc⟩
    exact ⟨hlookup, hformat, hendpoint, hpassphrase, hrpc⟩
  · rintro ⟨hlookup, hformat, hendpoint, hpassphrase, hrpc⟩
    exact ⟨⟨⟨⟨hlookup, hformat⟩, hendpoint⟩, hpassphrase⟩, hrpc⟩

end Registry

/-! ### The words of a command line -/

section Words

variable {cap : Capability} {args : IntentArgs} {w : String}

/-- A plan has no output format, or the one for machines. -/
theorem formatWords_ok {format : List String} (h : formatWords cap args = .ok format) :
    format = [] ∨ format = ["--format", "json"] := by
  rw [formatWords] at h
  split at h
  · split at h
    · cases h
    · cases h
      split
      · exact .inr rfl
      · exact .inl rfl
  · split at h
    · cases h
      split
      · exact .inr rfl
      · exact .inl rfl
    · cases h

end Words

/-! ### Options -/

section Options

variable {cap : Capability} {args : IntentArgs} {w : String}

end Options

end SorobanDevkit.Agent
