import SorobanDevkit.Audit.Report
import SorobanDevkit.Library.Strings
import SorobanDevkit.Library.UnorderedMap
import SorobanDevkit.Wasm.Spec

/-!
# The built-in audit rules

`sdkt-audit/src/rules.rs` and the heuristics of `audit.rs` that the rules rest on. A rule reads the
scans of the functions of a contract and adds its findings to a report. The hash map of a
scan is given in the order in which it is iterated.
-/

namespace SorobanDevkit.Audit

open Strings

/-- `FnScan`. -/
structure FnScan where
  fnName : String
  requireAuth : ℕ
  invokeContract : ℕ
  /-- The local bindings, in the order in which the set is iterated. -/
  bound : List String
  /-- How often each local is an argument, in the order in which the map is iterated. -/
  usage : UnorderedMap String ℕ
  divisionBeforeMultiplication : Bool
  externalCallBeforeStateWrite : Bool
  stateWrites : ℕ
  isEntrypoint : Bool
  returnsValue : Bool

/-- `AuditContext`. -/
structure AuditContext where
  spec : Option Wasm.ContractSpec

/-! ### Heuristics -/

/-- `unqualified`. -/
def unqualified (name : String) : String := afterLast "::" name

/-- `is_initialize`. -/
def isInitialize (name : String) : Bool :=
  let n := toLowercase (unqualified name)
  n == "initialize" || startsWith "initialize_" n || n == "init" || startsWith "init_" n

/-- `is_privileged`. -/
def isPrivileged (name : String) : Bool :=
  let n := toLowercase (unqualified name)
  n == "initialize" || startsWith "initialize_" n || n == "init" || startsWith "init_" n ||
    startsWith "set_" n || startsWith "grant_" n || startsWith "revoke_" n ||
    ["admin", "mint", "burn", "pause", "unpause", "upgrade", "withdraw", "configure", "freeze",
      "ban", "set_admin", "owner_set", "transfer_ownership", "change_owner", "set_auth",
      "drain"].any fun p => contains p n

/-- `performs_side_effect`. -/
def FnScan.performsSideEffect (s : FnScan) : Bool :=
  decide (0 < s.stateWrites) || decide (0 < s.invokeContract)

/-- `privileged_match_severity`. -/
def FnScan.privilegedMatchSeverity (s : FnScan) : Severity :=
  if !s.isEntrypoint then .info
  else if s.performsSideEffect then .critical
  else if s.returnsValue then .info
  else .critical

/-! ### Rules -/

/-- The built-in rules. -/
inductive BuiltinRule
  | auth001
  | auth002
  | auth003
  | auth004
  | move001
  | math001
  | cei001
  deriving DecidableEq

/-- `all_rules`. -/
def allRules : List BuiltinRule :=
    [.auth001, .auth002, .auth003, .auth004, .move001, .math001, .cei001]

/-- A finding about a function, in no file. -/
def findingAt (ruleId : String) (severity : Severity) (message location : String) : Finding :=
  { ruleId, severity, message, file := none, location := some location }

/-- The loop of a rule that makes at most one finding of each scan. -/
def flagEach (flag : FnScan → Option Finding) (scans : List FnScan) (report : AuditReport) :
    AuditReport :=
  scans.foldl (fun report s => match flag s with
    | some f => report.add f
    | none => report) report

namespace BuiltinRule

/-- `AuditRule::id`. -/
def id : BuiltinRule → String
  | auth001 => "AUTH-001"
  | auth002 => "AUTH-002"
  | auth003 => "AUTH-003"
  | auth004 => "AUTH-004"
  | move001 => "MOVE-001"
  | math001 => "MATH-001"
  | cei001 => "CEI-001"

/-- `AuditRule::severity`. -/
def severity : BuiltinRule → Severity
  | auth001 | auth002 | auth003 | auth004 => .critical
  | move001 | math001 | cei001 => .warning

/-- `AuditRule::description`. -/
def description : BuiltinRule → String
  | auth001 => "Privileged/admin function must call require_auth()"
  | auth002 => "Cross-contract invoke_contract() must be guarded by require_auth()"
  | auth003 => "initialize()-style entrypoint must call require_auth()"
  | auth004 => "Token transfer function must call require_auth() on source or destination"
  | move001 => "Local used as a call argument multiple times (possible move-after-use)"
  | math001 => "Division before multiplication may truncate numeric precision"
  | cei001 => "External invocation before state write — reordering may prevent reentrancy"

/-- `Auth001::check`, for one scan. -/
def flagAuth001 (s : FnScan) : Option Finding :=
  if isPrivileged s.fnName && s.requireAuth == 0 then
    some (findingAt auth001.id s.privilegedMatchSeverity
      ("Function `" ++ s.fnName ++ "` looks privileged but does not call require_auth()") s.fnName)
  else none

/-- `Auth002::check`, for one scan. -/
def flagAuth002 (s : FnScan) : Option Finding :=
  if decide (0 < s.invokeContract) && s.requireAuth == 0 then
    some (findingAt auth002.id auth002.severity
      ("Function `" ++ s.fnName ++ "` calls invoke_contract() without require_auth()") s.fnName)
  else none

/-- `Auth003::check`, for one scan. -/
def flagAuth003 (ctx : AuditContext) (s : FnScan) : Option Finding :=
  if !isInitialize s.fnName || decide (0 < s.requireAuth) then none
  else
    let exported := match ctx.spec with
      | some spec => spec.functions.any fun f => eqIgnoreAsciiCase f.name (unqualified s.fnName)
      | none => true
    if exported then
      some (findingAt auth003.id auth003.severity
        ("initialize-style function `" ++ s.fnName ++ "` has no require_auth() guard") s.fnName)
    else none

/-- `Auth004::check`, for one scan. -/
def flagAuth004 (s : FnScan) : Option Finding :=
  let name := toLowercase s.fnName
  let isTransfer :=
    name ∈ ["transfer", "transfer_from", "transferfrom", "withdraw", "burn"]
  if isTransfer && s.requireAuth == 0 then
    some (findingAt auth004.id s.privilegedMatchSeverity
      ("Transfer-style function `" ++ s.fnName ++ "` does not call require_auth()") s.fnName)
  else none

/-- The finding of `Move001::check` about a local. -/
def reuseFinding (s : FnScan) (name : String) (count : ℕ) : Finding :=
  findingAt move001.id move001.severity
    ("Local `" ++ name ++ "` in `" ++ s.fnName ++ "` is used as a call argument " ++
      toString count ++
      " times — possible move-after-use")
    (s.fnName ++ ":" ++ name)

/-- The inner loop of `Move001::check`. -/
def checkUsage (s : FnScan) (report : AuditReport) : AuditReport :=
  s.usage.entries.foldl (fun report entry =>
    if 2 ≤ entry.2 then report.add (reuseFinding s entry.1 entry.2) else report) report

/-- `Math001::check`, for one scan. -/
def flagMath001 (s : FnScan) : Option Finding :=
  if s.divisionBeforeMultiplication then
    some (findingAt math001.id math001.severity
      ("Function `" ++ s.fnName ++ "` divides before multiplying; division may truncate precision")
      s.fnName)
  else none

/-- `Cei001::check`, for one scan. -/
def flagCei001 (s : FnScan) : Option Finding :=
  if s.externalCallBeforeStateWrite then
    some (findingAt cei001.id cei001.severity
      ("Function `" ++ s.fnName ++ "` calls an external contract before writing state — " ++
        "reorder to Checks → Effects → Interactions to prevent reentrancy") s.fnName)
  else none

/-- `AuditRule::check`. -/
def check (rule : BuiltinRule) (scans : List FnScan) (ctx : AuditContext) (report : AuditReport) :
    AuditReport :=
  match rule with
  | auth001 => flagEach flagAuth001 scans report
  | auth002 => flagEach flagAuth002 scans report
  | auth003 => flagEach (flagAuth003 ctx) scans report
  | auth004 => flagEach flagAuth004 scans report
  -- the only rule that iterates a hash map
  | move001 => scans.foldl (fun report s => checkUsage s report) report
  | math001 => flagEach flagMath001 scans report
  | cei001 => flagEach flagCei001 scans report

/-! ### The findings of a rule -/

/-- The findings about the locals of a function that are used at least twice. -/
def reuseFindings (s : FnScan) : List Finding :=
  (s.usage.entries.filter fun entry => 2 ≤ entry.2).map fun entry => reuseFinding s entry.1 entry.2

/-- The findings of a built-in rule about a function, in order. -/
def findingsOf (rule : BuiltinRule) (ctx : AuditContext) (s : FnScan) : List Finding :=
  match rule with
  | auth001 => (flagAuth001 s).toList
  | auth002 => (flagAuth002 s).toList
  | auth003 => (flagAuth003 ctx s).toList
  | auth004 => (flagAuth004 s).toList
  | move001 => reuseFindings s
  | math001 => (flagMath001 s).toList
  | cei001 => (flagCei001 s).toList

/-- The findings of a built-in rule, in order. -/
def findings (rule : BuiltinRule) (scans : List FnScan) (ctx : AuditContext) : List Finding :=
  scans.flatMap (rule.findingsOf ctx)

theorem flagEach_eq (flag : FnScan → Option Finding) (scans : List FnScan) (report : AuditReport) :
    flagEach flag scans report = report.addAll (scans.flatMap fun s => (flag s).toList) := by
  induction scans generalizing report with
  | nil => rfl
  | cons s scans ih =>
    rw [flagEach, List.foldl_cons, ← flagEach, ih, List.flatMap_cons, AuditReport.addAll_append]
    cases flag s <;> rfl

theorem checkUsage_eq (s : FnScan) (report : AuditReport) :
    checkUsage s report = report.addAll (reuseFindings s) := by
  rw [checkUsage, reuseFindings]
  induction s.usage.entries generalizing report with
  | nil => rfl
  | cons entry entries ih =>
    rw [List.foldl_cons, ih]
    by_cases hentry : 2 ≤ entry.2
    · rw [if_pos hentry, List.filter_cons_of_pos (by simpa using hentry), List.map_cons]
      rfl
    · rw [if_neg hentry, List.filter_cons_of_neg (by simpa using hentry)]

/-- **A built-in rule adds its findings, one after the other.** -/
theorem check_eq (rule : BuiltinRule) (scans : List FnScan) (ctx : AuditContext)
    (report : AuditReport) :
    rule.check scans ctx report = report.addAll (rule.findings scans ctx) := by
  cases rule with
  | auth001 => exact flagEach_eq flagAuth001 scans report
  | auth002 => exact flagEach_eq flagAuth002 scans report
  | auth003 => exact flagEach_eq (flagAuth003 ctx) scans report
  | auth004 => exact flagEach_eq flagAuth004 scans report
  | move001 =>
    rw [check, findings]
    induction scans generalizing report with
    | nil => rfl
    | cons s scans ih =>
      rw [List.foldl_cons, ih, checkUsage_eq, List.flatMap_cons, AuditReport.addAll_append]
      rfl
  | math001 => exact flagEach_eq flagMath001 scans report
  | cei001 => exact flagEach_eq flagCei001 scans report

/-- The ids of the built-in rules are distinct. -/
theorem id_injective {a b : BuiltinRule} (h : a.id = b.id) : a = b := by
  cases a <;> cases b <;> first | rfl | simp [id] at h

end BuiltinRule

end SorobanDevkit.Audit
