import SorobanDevkit.Audit.Rules

/-!
# Rules about the names of functions

The scan of a method has the name of its type in front. A rule that goes by the name of a function
should see the bare name. The rule about transfers compares the whole name.
-/

namespace SorobanDevkit.Audit

open Strings

/-- The rules that go by the name of a function. -/
def nameRules : List BuiltinRule := [.auth001, .auth003, .auth004]

/-- The scan of a function that has been moved into a type. -/
def FnScan.qualified (typeName : String) (s : FnScan) : FnScan :=
  { s with fnName := typeName ++ "::" ++ s.fnName }

/-- The rules that go by the name of a function fire on a function in a type exactly if they fire on
the bare function, and at the same severity. -/
def FiresAlike (ctx : AuditContext) (typeName : String) (s : FnScan) : Prop :=
  ∀ rule ∈ nameRules, (rule.findingsOf ctx (s.qualified typeName)).map (·.severity) =
    (rule.findingsOf ctx s).map (·.severity)

/-- The names that the rule about transfers knows. -/
def transferNames : List String := ["transfer", "transfer_from", "transferfrom", "withdraw", "burn"]

/-- A name without colons is a bare name. -/
theorem unqualified_of_notMem {name : String} (h : ':' ∉ name.toList) :
    unqualified name = name :=
  afterLast_eq_self (splitOnceAux_eq_none [':'] (List.mem_reverse.not.mpr h))

/-- **What is in front of the bare name is dropped.** -/
theorem unqualified_append (typeName : String) {name : String} (h : ':' ∉ name.toList) :
    unqualified (typeName ++ "::" ++ name) = name := by
  have hsome := splitOnceAux_append [':'] (List.mem_reverse.not.mpr h) typeName.toList.reverse
  have hreverse : (typeName ++ "::" ++ name).toList.reverse =
      name.toList.reverse ++ (':' :: [':'] ++ typeName.toList.reverse) := by
    simp
  rw [← hreverse] at hsome
  have hafter : afterLast "::" (typeName ++ "::" ++ name) =
      String.ofList name.toList.reverse.reverse := afterLast_eq hsome
  rw [unqualified, hafter, List.reverse_reverse, String.ofList_toList]

/-- A name with colons in it is not that of a transfer. -/
theorem toLowercase_append_notMem (typeName name : String) :
    toLowercase (typeName ++ "::" ++ name) ∉ transferNames := by
  have hcolon : ':' ∈ (toLowercase (typeName ++ "::" ++ name)).toList := by
    simp [toLowercase, lowerChar]
  intro h
  have hbare : ∀ known ∈ transferNames, ':' ∉ known.toList := by decide
  exact hbare _ h hcolon

section

variable {ctx : AuditContext} {typeName : String} {s : FnScan}

theorem isPrivileged_qualified (h : ':' ∉ s.fnName.toList) :
    isPrivileged (s.qualified typeName).fnName = isPrivileged s.fnName := by
  rw [isPrivileged, FnScan.qualified, unqualified_append typeName h, isPrivileged,
    unqualified_of_notMem h]

theorem isInitialize_qualified (h : ':' ∉ s.fnName.toList) :
    isInitialize (s.qualified typeName).fnName = isInitialize s.fnName := by
  rw [isInitialize, FnScan.qualified, unqualified_append typeName h, isInitialize,
    unqualified_of_notMem h]

theorem requireAuth_qualified : (s.qualified typeName).requireAuth = s.requireAuth := rfl

theorem severities_auth001 (h : ':' ∉ s.fnName.toList) :
    (BuiltinRule.auth001.findingsOf ctx (s.qualified typeName)).map (·.severity) =
      (BuiltinRule.auth001.findingsOf ctx s).map (·.severity) := by
  show (BuiltinRule.flagAuth001 (s.qualified typeName)).toList.map (·.severity) =
    (BuiltinRule.flagAuth001 s).toList.map (·.severity)
  rw [BuiltinRule.flagAuth001, isPrivileged_qualified h, requireAuth_qualified,
    BuiltinRule.flagAuth001]
  split
  · rfl
  · rfl

theorem severities_auth003 (h : ':' ∉ s.fnName.toList) :
    (BuiltinRule.auth003.findingsOf ctx (s.qualified typeName)).map (·.severity) =
      (BuiltinRule.auth003.findingsOf ctx s).map (·.severity) := by
  have hname : unqualified (s.qualified typeName).fnName = unqualified s.fnName :=
    (unqualified_append typeName h).trans (unqualified_of_notMem h).symm
  show (BuiltinRule.flagAuth003 ctx (s.qualified typeName)).toList.map (·.severity) =
    (BuiltinRule.flagAuth003 ctx s).toList.map (·.severity)
  rw [BuiltinRule.flagAuth003, isInitialize_qualified h, hname, requireAuth_qualified,
    BuiltinRule.flagAuth003]
  split
  · rfl
  · cases ctx.spec with
    | none => rfl
    | some spec =>
      simp only
      split
      · rfl
      · rfl

/-- The rule about transfers never fires on a function in a type. -/
theorem severities_auth004_qualified :
    (BuiltinRule.auth004.findingsOf ctx (s.qualified typeName)).map (·.severity) = [] := by
  have hnot := toLowercase_append_notMem typeName s.fnName
  show (BuiltinRule.flagAuth004 (s.qualified typeName)).toList.map (·.severity) = []
  rw [transferNames] at hnot
  rw [BuiltinRule.flagAuth004, FnScan.qualified]
  simp only [decide_eq_false hnot]
  rfl

/-- When the rule about transfers fires. -/
theorem severities_auth004_eq_nil_iff :
    (BuiltinRule.auth004.findingsOf ctx s).map (·.severity) = [] ↔
      ¬ (s.requireAuth = 0 ∧ toLowercase s.fnName ∈ transferNames) := by
  show (BuiltinRule.flagAuth004 s).toList.map (·.severity) = [] ↔ _
  rw [BuiltinRule.flagAuth004, List.map_eq_nil_iff, Option.toList_eq_nil_iff]
  rw [transferNames, and_comm]
  split
  · next hfires =>
    rw [Bool.and_eq_true, decide_eq_true_eq, beq_iff_eq] at hfires
    exact iff_of_false (Option.some_ne_none _) (not_not.mpr hfires)
  · next hsilent =>
    rw [Bool.and_eq_true, decide_eq_true_eq, beq_iff_eq] at hsilent
    exact iff_of_true rfl hsilent

end

/-- **When the rules see no difference**: unless the function is a transfer without an
authorization. -/
theorem firesAlike_iff (ctx : AuditContext) (typeName : String) (s : FnScan)
    (hname : ':' ∉ s.fnName.toList) :
    FiresAlike ctx typeName s ↔
      ¬ (s.requireAuth = 0 ∧ toLowercase s.fnName ∈ transferNames) := by
  rw [← @severities_auth004_eq_nil_iff ctx, FiresAlike]
  simp only [nameRules, List.forall_mem_cons, severities_auth001 hname, severities_auth003 hname,
    severities_auth004_qualified, true_and, List.not_mem_nil, false_implies, implies_true, and_true]
  exact eq_comm

/-- A function that has no side effect and does not ask for an authorization. -/
def bareScan (name : String) : FnScan where
  fnName := name
  requireAuth := 0
  invokeContract := 0
  bound := []
  usage := ⟨[], List.nodup_nil⟩
  divisionBeforeMultiplication := false
  externalCallBeforeStateWrite := false
  stateWrites := 1
  isEntrypoint := true
  returnsValue := false

/-- A function that mints is seen in a type. -/
theorem firesAlike_mint : FiresAlike { spec := none } "Token" (bareScan "mint") :=
  (firesAlike_iff { spec := none } "Token" (bareScan "mint") (by decide)).mpr (by decide)

/-- A transfer is not seen in a type. -/
theorem transfer_hidden : ¬ FiresAlike { spec := none } "Token" (bareScan "transfer") := by
  intro h
  have hauth := h .auth004 (by decide)
  exact absurd hauth (by decide)

end SorobanDevkit.Audit
