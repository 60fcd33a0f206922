import Mathlib.Data.List.Nodup
import SorobanDevkit.Audit.Plugins
import SorobanDevkit.Library.Runs

/-!
# The rule registry

`sdkt-audit/src/registry.rs`. A registry is an ordered list of rules with distinct ids; the first
rule that is registered under an id stays. One registry belongs to the process. It starts empty, and
the built-in rules are registered by the calls that run or describe rules.
-/

namespace SorobanDevkit.Audit

open BoxedRule (builtin?)

/-- `RuleRegistry`: rules in order of registration, with distinct ids. -/
structure RuleRegistry where
  rules : List BoxedRule
  ids_nodup : (rules.map BoxedRule.id).Nodup

namespace RuleRegistry

variable (json : SerdeJson) (reg : RuleRegistry)

/-- `RuleRegistry::new`. -/
def empty : RuleRegistry := ⟨[], List.nodup_nil⟩

theorem ids_nodup_append {rule : BoxedRule} (h : rule.id ∉ reg.rules.map BoxedRule.id) :
    ((reg.rules ++ [rule]).map BoxedRule.id).Nodup := by
  rw [List.map_append, List.map_singleton]
  exact List.nodup_append.mpr ⟨reg.ids_nodup, List.nodup_singleton _,
    fun id hid id' hid' heq => h (List.mem_singleton.mp hid' ▸ heq ▸ hid)⟩

/-- `RuleRegistry::register_rule`. -/
def registerRule (rule : BoxedRule) : RuleRegistry :=
  if h : rule.id ∈ reg.rules.map BoxedRule.id then reg
  else ⟨reg.rules ++ [rule], reg.ids_nodup_append h⟩

/-- Rules registered one after the other. -/
def registerAll (rules : List BoxedRule) : RuleRegistry := rules.foldl registerRule reg

/-- `RuleRegistry::register_builtin_rules`. -/
@[irreducible] def registerBuiltinRules : RuleRegistry := reg.registerAll (allRules.map .builtin)

/-- `RuleRegistry::registered_rule_info`. -/
def ruleInfo : List RuleInfo :=
  reg.rules.map fun r => { id := r.id, severity := r.severity, description := r.description }

/-- `RuleRegistry::run_all`. -/
def runAll (scans : List FnScan) (ctx : AuditContext) (disabled : List String)
    (report : AuditReport) : AuditReport :=
  reg.rules.foldl (fun report rule =>
    if rule.id ∈ disabled then report else rule.check json scans ctx report) report

/-- The rules that run, in order. -/
def executed (disabled : List String) : List BoxedRule :=
  reg.rules.filter fun rule => rule.id ∉ disabled

/-- The built-in rules among the rules of a registry, in order. -/
def builtins : List BuiltinRule := reg.rules.filterMap builtin?

/-- **The rules that are not disabled run in order of registration.** -/
theorem runAll_eq (scans : List FnScan) (ctx : AuditContext) (disabled : List String)
    (report : AuditReport) :
    reg.runAll json scans ctx disabled report =
      (reg.executed disabled).foldl
        (fun report rule => rule.check json scans ctx report) report := by
  rw [runAll, executed]
  induction reg.rules generalizing report with
  | nil => rfl
  | cons rule rules ih =>
    rw [List.foldl_cons, ih]
    by_cases hdisabled : rule.id ∈ disabled
    · rw [if_pos hdisabled, List.filter_cons_of_neg (by simpa using hdisabled)]
    · rw [if_neg hdisabled, List.filter_cons_of_pos (by simpa using hdisabled), List.foldl_cons]

theorem rules_registerRule (rule : BoxedRule) :
    (reg.registerRule rule).rules =
      if rule.id ∈ reg.rules.map BoxedRule.id then reg.rules else reg.rules ++ [rule] := by
  rw [registerRule]
  split_ifs <;> rfl

variable {reg}

theorem mem_registerRule {rule r : BoxedRule} (h : r ∈ reg.rules) :
    r ∈ (reg.registerRule rule).rules := by
  rw [rules_registerRule]
  split_ifs
  · exact h
  · exact List.mem_append_left _ h

/-- A registered rule stays. -/
theorem mem_registerAll {rules : List BoxedRule} {r : BoxedRule} (h : r ∈ reg.rules) :
    r ∈ (reg.registerAll rules).rules := by
  induction rules generalizing reg with
  | nil => exact h
  | cons rule rules ih => exact ih (mem_registerRule h)

/-- Rules with new and distinct ids are registered in order. -/
theorem rules_registerAll {rules : List BoxedRule} (hnodup : (rules.map BoxedRule.id).Nodup)
    (hnew : ∀ rule ∈ rules, rule.id ∉ reg.rules.map BoxedRule.id) :
    (reg.registerAll rules).rules = reg.rules ++ rules := by
  induction rules generalizing reg with
  | nil => exact (List.append_nil _).symm
  | cons rule rules ih =>
    obtain ⟨hrule, hrules⟩ := List.forall_mem_cons.mp hnew
    obtain ⟨hfirst, hrest⟩ := List.nodup_cons.mp hnodup
    have hstep : (reg.registerRule rule).rules = reg.rules ++ [rule] := by
      rw [rules_registerRule, if_neg hrule]
    have hnew' : ∀ r ∈ rules, r.id ∉ (reg.registerRule rule).rules.map BoxedRule.id := by
      intro r hr hmem
      rw [hstep, List.map_append, List.mem_append, List.map_singleton, List.mem_singleton] at hmem
      rcases hmem with hmem | heq
      · exact hrules r hr hmem
      · exact hfirst (heq ▸ List.mem_map_of_mem hr)
    rw [registerAll, List.foldl_cons, ← registerAll, ih hrest hnew', hstep, List.append_assoc,
      List.singleton_append]

/-- Rules whose ids are taken are not registered. -/
theorem registerAll_of_mem {rules : List BoxedRule}
    (h : ∀ rule ∈ rules, rule.id ∈ reg.rules.map BoxedRule.id) : reg.registerAll rules = reg := by
  induction rules with
  | nil => rfl
  | cons rule rules ih =>
    obtain ⟨hrule, hrules⟩ := List.forall_mem_cons.mp h
    rw [registerAll, List.foldl_cons, registerRule, dif_pos hrule, ← registerAll, ih hrules]

/-- Two rules with one id are one. -/
theorem eq_of_id_eq {r r' : BoxedRule} (h : r ∈ reg.rules) (h' : r' ∈ reg.rules)
    (hid : r.id = r'.id) : r = r' :=
  List.inj_on_of_nodup_map reg.ids_nodup h h' hid

theorem mem_builtins {rule : BuiltinRule} : rule ∈ reg.builtins ↔ .builtin rule ∈ reg.rules := by
  rw [builtins, List.mem_filterMap]
  constructor
  · rintro ⟨r, hr, hrule⟩
    cases r with
    | builtin b => cases hrule; exact hr
    | plugin p => cases hrule
  · exact fun h => ⟨.builtin rule, h, rfl⟩

/-- The built-in rules that run are those that are registered and not disabled. -/
theorem builtins_executed (disabled : List String) :
    (reg.executed disabled).filterMap builtin? =
      reg.builtins.filter fun rule => rule.id ∉ disabled := by
  rw [executed, builtins, List.filterMap_filter, List.filter_filterMap]
  refine List.filterMap_congr fun r _ => ?_
  cases r with
  | builtin rule =>
    by_cases h : rule.id ∈ disabled <;> simp [builtin?, BoxedRule.id, h, Option.filter]
  | plugin p => by_cases h : p.id ∈ disabled <;> simp [builtin?, BoxedRule.id, h]

end RuleRegistry

open RuleRegistry

/-! ### The registry of the process -/

/-- The ids of the built-in rules. -/
def builtinIds : List String := allRules.map BuiltinRule.id

theorem builtinIds_nodup : builtinIds.Nodup :=
  List.Nodup.map (fun _ _ => BuiltinRule.id_injective) (by decide)

/-- A call on the registry of the process. -/
inductive Call
  | registerRule (rule : Plugin)
  | registerBuiltinRules
  | registeredRuleInfo
  | runRegistered (scans : List FnScan) (ctx : AuditContext) (disabled : List String)
      (report : AuditReport)

/-- `registered_rule_info`, with the registry after it. -/
def registeredRuleInfo (reg : RuleRegistry) : RuleRegistry × List RuleInfo :=
  let reg := reg.registerBuiltinRules
  (reg, reg.ruleInfo)

/-- `run_registered`, with the registry after it. -/
def runRegistered (json : SerdeJson) (reg : RuleRegistry) (scans : List FnScan)
    (ctx : AuditContext) (disabled : List String) (report : AuditReport) :
    RuleRegistry × AuditReport :=
  let reg := reg.registerBuiltinRules
  (reg, reg.runAll json scans ctx disabled report)

section Process

variable (json : SerdeJson)

/-- The registry of the process after a call. -/
def Call.step (reg : RuleRegistry) : Call → RuleRegistry
  | registerRule rule => reg.registerRule (.plugin rule)
  | registerBuiltinRules => reg.registerBuiltinRules
  | registeredRuleInfo => (Audit.registeredRuleInfo reg).1
  | runRegistered scans ctx disabled report =>
    (Audit.runRegistered json reg scans ctx disabled report).1

@[simp] theorem Call.step_registerRule (reg : RuleRegistry) (rule : Plugin) :
    (registerRule rule).step json reg = reg.registerRule (.plugin rule) := rfl

@[simp] theorem Call.step_registerBuiltinRules (reg : RuleRegistry) :
    registerBuiltinRules.step json reg = reg.registerBuiltinRules := rfl

@[simp] theorem Call.step_registeredRuleInfo (reg : RuleRegistry) :
    registeredRuleInfo.step json reg = reg.registerBuiltinRules := rfl

@[simp] theorem Call.step_runRegistered (reg : RuleRegistry) (scans : List FnScan)
    (ctx : AuditContext) (disabled : List String) (report : AuditReport) :
    (runRegistered scans ctx disabled report).step json reg = reg.registerBuiltinRules := rfl

/-- A plugin with the id of a built-in rule comes after the built-in rules. -/
def Call.ComesAfterBuiltins (reg : RuleRegistry) : Call → Prop
  | registerRule rule => rule.id ∈ builtinIds → ∀ b ∈ allRules, .builtin b ∈ reg.rules
  | _ => True

/-- A run executes the built-in rules that are not disabled, in their order, and the description is
that of the rules that a run executes, with distinct ids. -/
structure BuiltinsRun (reg : RuleRegistry) : Prop where
  run : ∀ scans ctx disabled report,
    (runRegistered json reg scans ctx disabled report).2 =
      ((runRegistered json reg scans ctx disabled report).1.executed disabled).foldl
        (fun report rule => rule.check json scans ctx report) report
  genuine : ∀ scans ctx disabled report,
    ((runRegistered json reg scans ctx disabled report).1.executed disabled).filterMap builtin? =
      allRules.filter fun b => b.id ∉ disabled
  described : (registeredRuleInfo reg).2 = ((registeredRuleInfo reg).1.executed []).map fun r =>
    { id := r.id, severity := r.severity, description := r.description }
  distinct : ((registeredRuleInfo reg).2.map RuleInfo.id).Nodup

/-- No plugin has the id of a built-in rule, and the built-in rules are all there or not yet. -/
structure Undisplaced (reg : RuleRegistry) : Prop where
  plugin : ∀ p, .plugin p ∈ reg.rules → p.id ∉ builtinIds
  builtins : reg.builtins = [] ∨ reg.builtins = allRules

theorem undisplaced_empty : Undisplaced .empty where
  plugin _ hp := (List.not_mem_nil hp).elim
  builtins := .inl rfl

/-- Plugins with other ids and no built-in rules leave room for the built-in rules. -/
theorem id_notMem_of_undisplaced {reg : RuleRegistry} (h : Undisplaced reg)
    (hbuiltins : reg.builtins = []) {id : String} (hid : id ∈ builtinIds) :
    id ∉ reg.rules.map BoxedRule.id := by
  intro hmem
  obtain ⟨r, hr, rfl⟩ := List.mem_map.mp hmem
  cases r with
  | builtin b => simpa [hbuiltins] using mem_builtins.mpr hr
  | plugin p => exact h.plugin p hr hid

theorem undisplaced_registerBuiltinRules {reg : RuleRegistry} (h : Undisplaced reg) :
    Undisplaced reg.registerBuiltinRules ∧ reg.registerBuiltinRules.builtins = allRules := by
  rcases h.builtins with hnone | hall
  · have hrules : reg.registerBuiltinRules.rules = reg.rules ++ allRules.map .builtin := by
      have hids : (allRules.map BoxedRule.builtin).map BoxedRule.id = builtinIds :=
        List.map_map
      rw [registerBuiltinRules]
      refine rules_registerAll (hids ▸ builtinIds_nodup) fun rule hrule => ?_
      obtain ⟨b, hb, rfl⟩ := List.mem_map.mp hrule
      exact id_notMem_of_undisplaced h hnone (List.mem_map_of_mem hb)
    have hbuiltins : reg.registerBuiltinRules.builtins = allRules := by
      rw [RuleRegistry.builtins, hrules, List.filterMap_append, ← RuleRegistry.builtins, hnone]
      rfl
    refine ⟨⟨fun p hp => ?_, .inr hbuiltins⟩, hbuiltins⟩
    rw [hrules, List.mem_append, List.mem_map] at hp
    rcases hp with hp | ⟨b, -, hb⟩
    · exact h.plugin p hp
    · cases hb
  · have hsame : reg.registerBuiltinRules = reg := by
      rw [registerBuiltinRules]
      refine registerAll_of_mem fun rule hrule => ?_
      obtain ⟨b, hb, rfl⟩ := List.mem_map.mp hrule
      exact List.mem_map_of_mem (mem_builtins.mp (hall ▸ hb))
    rw [hsame]
    exact ⟨h, hall⟩

/-- A registry that no plugin has displaced a rule of runs and describes the built-in rules. -/
theorem builtinsRun_of_undisplaced {reg : RuleRegistry} (h : Undisplaced reg) :
    BuiltinsRun json reg where
  run scans ctx disabled report := runAll_eq json _ scans ctx disabled report
  genuine scans ctx disabled report := by
    have hbuiltins : (runRegistered json reg scans ctx disabled report).1.builtins = allRules :=
      (undisplaced_registerBuiltinRules h).2
    rw [builtins_executed, hbuiltins]
  described := by
    have hall : reg.registerBuiltinRules.executed [] = reg.registerBuiltinRules.rules :=
      List.filter_eq_self.mpr fun r _ => by simp
    simp only [registeredRuleInfo, hall, ruleInfo]
  distinct := by
    have hids : (registeredRuleInfo reg).2.map RuleInfo.id =
        reg.registerBuiltinRules.rules.map BoxedRule.id := by
      simp only [registeredRuleInfo, ruleInfo, List.map_map]
      rfl
    rw [hids]
    exact reg.registerBuiltinRules.ids_nodup

/-- A plugin that comes after the built-in rules, or has another id, displaces none. -/
theorem undisplaced_step {reg : RuleRegistry} {call : Call} (h : Undisplaced reg)
    (hafter : call.ComesAfterBuiltins reg) : Undisplaced (call.step json reg) := by
  cases call with
  | registerRule rule =>
    rw [Call.step_registerRule]
    by_cases htaken : (BoxedRule.plugin rule).id ∈ reg.rules.map BoxedRule.id
    · rw [RuleRegistry.registerRule, dif_pos htaken]
      exact h
    · have hrules := reg.rules_registerRule (.plugin rule)
      rw [if_neg htaken] at hrules
      have hother : rule.id ∉ builtinIds := by
        intro hid
        obtain ⟨b, hb, hbid⟩ := List.mem_map.mp hid
        exact htaken (List.mem_map.mpr ⟨.builtin b, hafter hid b hb, hbid⟩)
      constructor
      · intro p hp
        rw [hrules, List.mem_append, List.mem_singleton] at hp
        rcases hp with hp | hp
        · exact h.plugin p hp
        · cases hp
          exact hother
      · have hsame : (reg.registerRule (.plugin rule)).builtins = reg.builtins := by
          rw [RuleRegistry.builtins, hrules, List.filterMap_append]
          exact List.append_nil _
        rw [hsame]
        exact h.builtins
  | registerBuiltinRules =>
    rw [Call.step_registerBuiltinRules]
    exact (undisplaced_registerBuiltinRules h).1
  | registeredRuleInfo =>
    rw [Call.step_registeredRuleInfo]
    exact (undisplaced_registerBuiltinRules h).1
  | runRegistered =>
    rw [Call.step_runRegistered]
    exact (undisplaced_registerBuiltinRules h).1

/-- A plugin with the id of a built-in rule keeps that rule from running. -/
theorem not_builtinsRun_of_plugin {reg : RuleRegistry} {p : Plugin} (hp : .plugin p ∈ reg.rules)
    (hid : p.id ∈ builtinIds) : ¬ BuiltinsRun json reg := by
  intro h
  obtain ⟨b, hb, hbid⟩ := List.mem_map.mp hid
  have hbuiltins := h.genuine [] { spec := none } [] .default
  rw [builtins_executed] at hbuiltins
  have hmem : b ∈ reg.registerBuiltinRules.builtins := by
    have : b ∈ reg.registerBuiltinRules.builtins.filter fun rule => rule.id ∉ ([] : List String) :=
      hbuiltins ▸ List.mem_filter.mpr ⟨hb, by simp⟩
    exact List.mem_of_mem_filter this
  have hstays : .plugin p ∈ reg.registerBuiltinRules.rules := by
    rw [registerBuiltinRules]
    exact mem_registerAll hp
  have heq := eq_of_id_eq (mem_builtins.mp hmem) hstays hbid
  cases heq

theorem not_builtinsRun_step {reg : RuleRegistry} {call : Call} (h : Undisplaced reg)
    (hbefore : ¬ call.ComesAfterBuiltins reg) : ¬ BuiltinsRun json (call.step json reg) := by
  cases call with
  | registerRule rule =>
    obtain ⟨hid, hmissing⟩ := Classical.not_imp.mp hbefore
    have hnone : reg.builtins = [] := by
      refine h.builtins.resolve_right fun hall => hmissing fun b hb => ?_
      exact mem_builtins.mp (hall ▸ hb)
    have hnew : (BoxedRule.plugin rule).id ∉ reg.rules.map BoxedRule.id :=
      id_notMem_of_undisplaced h hnone hid
    refine not_builtinsRun_of_plugin json ?_ hid
    rw [Call.step_registerRule, rules_registerRule, if_neg hnew]
    exact List.mem_append_right _ (List.mem_singleton_self _)
  | registerBuiltinRules => exact absurd trivial hbefore
  | registeredRuleInfo => exact absurd trivial hbefore
  | runRegistered => exact absurd trivial hbefore

/-- **In a run of calls, the built-in rules that are not disabled run in every state exactly if each
plugin with the id of a built-in rule is registered after the built-in rules.** -/
theorem builtinsRun_throughout_iff (calls : List Call) :
    (∀ before, before <+: calls →
      BuiltinsRun json (Runs.run (Call.step json) .empty before)) ↔
    ∀ before call, before ++ [call] <+: calls →
      call.ComesAfterBuiltins (Runs.run (Call.step json) .empty before) :=
  Runs.forall_prefix_iff undisplaced_empty
    (fun _ h => builtinsRun_of_undisplaced json h)
      (fun _ _ h hafter => undisplaced_step json h hafter)
    (fun _ _ h hbefore => not_builtinsRun_step json h hbefore) calls

/-- A linked rule that finds nothing, under the id of a built-in rule. -/
def shadowRule : Plugin :=
  .linked { id := "AUTH-001", severity := .info, description := "", check := fun _ _ r => r }

/-- A plugin that is registered first takes the id of a built-in rule. -/
theorem shadowRule_displaces :
    ¬ ∀ (json : SerdeJson) (calls : List Call),
      BuiltinsRun json (Runs.run (Call.step json) .empty calls) := by
  intro h
  have hmem : .plugin shadowRule ∈
      (Runs.run (Call.step .noScans) .empty [.registerRule shadowRule]).rules :=
    List.mem_singleton_self _
  exact not_builtinsRun_of_plugin .noScans hmem (by decide) (h .noScans [.registerRule shadowRule])

end Process

end SorobanDevkit.Audit
