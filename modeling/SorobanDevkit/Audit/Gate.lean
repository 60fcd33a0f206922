import Mathlib.Algebra.GroupWithZero.Nat
import SorobanDevkit.Audit.Registry

/-!
# The audit gate

The summary of a report decides whether `sdkt audit --fail-on` fails. It is right as long as every
rule adds its findings to the report; a WASM plugin pushes them on the list.
-/

namespace SorobanDevkit.Audit

open RuleRegistry

/-- How many findings the total of the summary lacks. -/
def AuditReport.uncounted (report : AuditReport) : ℤ :=
  report.findings.length - report.summary.total

namespace AuditReport

theorem Consistent.uncounted_eq_zero {report : AuditReport} (h : report.Consistent) :
    report.uncounted = 0 := by
  rw [uncounted, h.total, Int.sub_self]

theorem uncounted_addAll (report : AuditReport) (fs : List Finding) :
    (report.addAll fs).uncounted = report.uncounted := by
  induction fs generalizing report with
  | nil => rfl
  | cons f fs ih =>
    rw [addAll, List.foldl_cons, ← addAll, ih, uncounted, findings_add, total_add, uncounted,
      List.length_append, List.length_singleton]
    omega

theorem uncounted_pushAll (report : AuditReport) (fs : List Finding) :
    (report.pushAll fs).uncounted = report.uncounted + fs.length := by
  rw [uncounted, findings_pushAll, summary_pushAll, uncounted, List.length_append]
  omega

end AuditReport

section

variable (json : SerdeJson) (scans : List FnScan) (ctx : AuditContext)

/-- The number of findings that a rule pushes past the summary. -/
def BoxedRule.pushed : BoxedRule → ℕ
  | plugin (.wasm rule) => (rule.findings json scans).length
  | _ => 0

/-- A rule of a program that links the crate. -/
def BoxedRule.Linked (r : BoxedRule) : Prop := ∃ rule, r = plugin (.linked rule)

theorem uncounted_check {r : BoxedRule} (hr : ¬ r.Linked) (report : AuditReport) :
    (r.check json scans ctx report).uncounted = report.uncounted + r.pushed json scans := by
  match r with
  | .builtin rule =>
    have hcheck : (BoxedRule.builtin rule).check json scans ctx report =
        report.addAll (rule.findings scans ctx) := rule.check_eq scans ctx report
    rw [hcheck, AuditReport.uncounted_addAll]
    exact (Int.add_zero _).symm
  | .plugin (.native rule) =>
    have hcheck : (BoxedRule.plugin (.native rule)).check json scans ctx report =
        report.addAll rule.findings := rule.check_eq report
    rw [hcheck, AuditReport.uncounted_addAll]
    exact (Int.add_zero _).symm
  | .plugin (.wasm rule) =>
    have hcheck : (BoxedRule.plugin (.wasm rule)).check json scans ctx report =
        report.pushAll (rule.findings json scans) := rule.check_eq json scans report
    rw [hcheck, AuditReport.uncounted_pushAll]
    rfl
  | .plugin (.linked rule) => exact absurd ⟨rule, rfl⟩ hr

/-- A rule that pushes nothing keeps the summary right. -/
theorem check_consistent {r : BoxedRule} (hr : ¬ r.Linked) (hpushed : r.pushed json scans = 0)
    {report : AuditReport} (h : report.Consistent) :
    (r.check json scans ctx report).Consistent := by
  match r with
  | .builtin rule =>
    rw [BoxedRule.check, rule.check_eq]
    exact AuditReport.addAll_consistent h _
  | .plugin (.native rule) =>
    rw [BoxedRule.check, rule.check_eq]
    exact AuditReport.addAll_consistent h _
  | .plugin (.wasm rule) =>
    rw [BoxedRule.check, rule.check_eq, List.length_eq_zero_iff.mp hpushed]
    exact h
  | .plugin (.linked rule) => exact absurd ⟨rule, rfl⟩ hr

theorem uncounted_foldl {rules : List BoxedRule} (hrules : ∀ r ∈ rules, ¬ r.Linked)
    (report : AuditReport) :
    (rules.foldl (fun report r => r.check json scans ctx report) report).uncounted =
      report.uncounted + (rules.map (·.pushed json scans)).sum := by
  induction rules generalizing report with
  | nil => simp
  | cons r rules ih =>
    obtain ⟨hr, hrest⟩ := List.forall_mem_cons.mp hrules
    rw [List.foldl_cons, ih hrest, uncounted_check json scans ctx hr, List.map_cons, List.sum_cons,
      Int.natCast_add, Int.add_assoc]

theorem foldl_consistent {rules : List BoxedRule} (hrules : ∀ r ∈ rules, ¬ r.Linked)
    (hpushed : ∀ r ∈ rules, r.pushed json scans = 0) {report : AuditReport}
    (h : report.Consistent) :
    (rules.foldl (fun report r => r.check json scans ctx report) report).Consistent := by
  induction rules generalizing report with
  | nil => exact h
  | cons r rules ih =>
    obtain ⟨hr, hrest⟩ := List.forall_mem_cons.mp hrules
    obtain ⟨hfirst, hpushed⟩ := List.forall_mem_cons.mp hpushed
    exact ih hrest hpushed (check_consistent json scans ctx hr hfirst h)

/-- The summary counts the findings by severity and in total, and the gate trips at a level exactly
if there is a finding at or above it. -/
structure GateSeesAll (report : AuditReport) : Prop where
  counted : report.Consistent
  gate : ∀ level, auditGateTrips level report.summary = true ↔
    ∃ f ∈ report.findings, level.rank ≤ f.severity.rank

/-- **After a run of built-in rules and plugins, the gate sees every finding exactly if the WASM
plugins that run answer that they have none.** -/
theorem gateSeesAll_iff (reg : RuleRegistry) (hreg : ∀ r ∈ reg.rules, ¬ r.Linked)
    (disabled : List String) :
    GateSeesAll (reg.runAll json scans ctx disabled .default) ↔
      ∀ rule, .plugin (.wasm rule) ∈ reg.rules → rule.id ∉ disabled → rule.Silent json scans := by
  have hexecuted : ∀ r, r ∈ reg.executed disabled ↔ r ∈ reg.rules ∧ r.id ∉ disabled := by
    simp [executed]
  have hlinked : ∀ r ∈ reg.executed disabled, ¬ r.Linked :=
    fun r hr => hreg r ((hexecuted r).mp hr).1
  rw [runAll_eq]
  constructor
  · intro h rule hrule hdisabled
    have hsum := uncounted_foldl json scans ctx hlinked .default
    rw [h.counted.uncounted_eq_zero, AuditReport.default_consistent.uncounted_eq_zero, Int.zero_add,
      eq_comm, Int.natCast_eq_zero, List.sum_eq_zero_iff_forall_eq_nat] at hsum
    have hpushed : (BoxedRule.plugin (.wasm rule)).pushed json scans = 0 :=
      hsum _ (List.mem_map_of_mem ((hexecuted _).mpr ⟨hrule, hdisabled⟩))
    exact (rule.findings_eq_nil_iff json scans).mp (List.length_eq_zero_iff.mp hpushed)
  · intro h
    have hpushed : ∀ r ∈ reg.executed disabled, r.pushed json scans = 0 := by
      intro r hr
      obtain ⟨hr, hdisabled⟩ := (hexecuted r).mp hr
      rcases r with rule | (rule | rule | rule)
      · rfl
      · rfl
      · have hnone := (rule.findings_eq_nil_iff json scans).mpr (h rule hr hdisabled)
        exact List.length_eq_zero_iff.mpr hnone
      · rfl
    have hconsistent := foldl_consistent json scans ctx hlinked hpushed
      AuditReport.default_consistent
    exact ⟨hconsistent, hconsistent.auditGateTrips_iff⟩

end

/-- A WASM plugin with one answer, or a trap. -/
def answeringRule (answer : Except String String) : WasmPluginRule where
  id := "PLUGIN-001"
  severity := .critical
  description := ""
  poisoned := false
  call _ := answer

/-- The registry with the built-in rules and a WASM plugin. -/
def answeringRegistry (answer : Except String String) : RuleRegistry :=
  RuleRegistry.empty.registerBuiltinRules.registerRule (.plugin (.wasm (answeringRule answer)))

theorem rules_answeringRegistry (answer : Except String String) :
    (answeringRegistry answer).rules =
      allRules.map .builtin ++ [.plugin (.wasm (answeringRule answer))] := by
  have hnodup : ((allRules.map BoxedRule.builtin).map BoxedRule.id).Nodup := builtinIds_nodup
  have hbuiltins : RuleRegistry.empty.registerBuiltinRules.rules = allRules.map .builtin := by
    rw [registerBuiltinRules]
    exact rules_registerAll hnodup fun _ _ => List.not_mem_nil
  rw [answeringRegistry, rules_registerRule, hbuiltins]
  exact if_neg (show "PLUGIN-001" ∉ builtinIds by decide)

theorem not_linked_answeringRegistry (answer : Except String String) :
    ∀ r ∈ (answeringRegistry answer).rules, ¬ r.Linked := by
  rintro r hr ⟨rule, rfl⟩
  rw [rules_answeringRegistry] at hr
  simp [answeringRule] at hr

/-- A function that withdraws without an authorization, after it calls another contract. -/
def withdrawScan : FnScan where
  fnName := "withdraw"
  requireAuth := 0
  invokeContract := 1
  bound := []
  usage := ⟨[], List.nodup_nil⟩
  divisionBeforeMultiplication := false
  externalCallBeforeStateWrite := true
  stateWrites := 1
  isEntrypoint := true
  returnsValue := false

/-- JSON as it is for this function and for a plugin without findings. -/
def withdrawJson : SerdeJson where
  toString _ := .ok ("\x7b\"scans\":[\x7b\"fn_name\":\"withdraw\",\"require_auth\":0," ++
    "\"invoke_contract\":1,\"bound\":[],\"usage\":\x7b\x7d," ++
    "\"division_before_multiplication\":false,\"external_call_before_state_write\":true," ++
    "\"state_writes\":1,\"is_entrypoint\":true,\"returns_value\":false\x7d]\x7d")
  fromStr := SerdeJson.noScans.fromStr

/-- The report of the rules about this function, without one of them. -/
def withdrawReport : AuditReport :=
  (answeringRegistry (.ok "[]")).runAll withdrawJson [withdrawScan] { spec := none } ["AUTH-002"]
    .default

/-- The gate sees the findings of the built-in rules if the plugin has none. -/
theorem gateSeesAll_withdraw :
    GateSeesAll withdrawReport ∧
      withdrawReport.findings.map Finding.ruleId = ["AUTH-001", "AUTH-004", "CEI-001"] ∧
      auditGateTrips .critical withdrawReport.summary = true := by
  refine ⟨(gateSeesAll_iff withdrawJson [withdrawScan] { spec := none }
    (answeringRegistry (.ok "[]")) (not_linked_answeringRegistry _) ["AUTH-002"]).mpr
      fun rule hrule _ => ?_, by decide +kernel, by decide +kernel⟩
  rw [rules_answeringRegistry] at hrule
  obtain rfl : rule = answeringRule (.ok "[]") := by simpa using hrule
  exact ⟨_, "[]", rfl, rfl, rfl, rfl⟩

/-- The finding about a plugin that traps is not counted, and no gate trips. -/
theorem trap_unseen :
    ¬ ∀ (json : SerdeJson) (reg : RuleRegistry) (scans : List FnScan) (ctx : AuditContext)
        (disabled : List String), (∀ r ∈ reg.rules, ¬ r.Linked) →
      GateSeesAll (reg.runAll json scans ctx disabled .default) := by
  intro h
  have hgate := (h .noScans (answeringRegistry (.error "unreachable")) [] { spec := none } []
    (not_linked_answeringRegistry _)).gate .info
  exact absurd (hgate.mpr (by decide +kernel)) (by decide +kernel)

end SorobanDevkit.Audit
