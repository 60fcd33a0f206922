import Mathlib.Data.Int.Notation
import SorobanDevkit.Audit.Rules
import SorobanDevkit.Library.Utf8Lossy

/-!
# Plugin rules

`sdkt-audit/src/plugin_loader.rs` and `plugin_loader_wasm.rs`. A native plugin writes its findings
in a buffer with a fixed number of slots; a WASM plugin answers with JSON. Rules that a program
links and registers itself are a third kind. What a plugin answers is arbitrary.
-/

namespace SorobanDevkit.Audit

/-! ### Native plugins -/

/-- `MAX_FINDINGS`, the same for both kinds of plugins. -/
def maxFindings : ℕ := 64

/-- `SdktAuditFindingC`: C strings, where `none` is the null pointer. -/
structure SdktAuditFindingC where
  ruleId : Option (List UInt8)
  severity : UInt32
  message : Option (List UInt8)
  location : Option (List UInt8)
  deriving DecidableEq

/-- `SdktAuditReportC`. -/
structure SdktAuditReportC where
  findings : Vector SdktAuditFindingC maxFindings
  count : ℕ

/-- `cstr_to_string`. -/
def cstrToString : Option (List UInt8) → String
  | none => ""
  | some bytes => String.ofList (Utf8Lossy.decode bytes)

/-- `PluginRule`, with the status and the buffer with which its `sdkt_plugin_check` returns. -/
structure PluginRule where
  id : String
  severity : Severity
  description : String
  status : ℤ
  buffer : SdktAuditReportC

namespace PluginRule

/-- The severity of a finding of a native plugin. -/
def severityOf (severity : UInt32) : Severity :=
  if severity = 0 then .critical else if severity = 2 then .info else .warning

/-- The finding in a slot of the buffer, if the slot has a rule id. -/
def findingOf (f : SdktAuditFindingC) : Option Finding :=
  match f.ruleId with
  | none => none
  | some ruleId => some
    { file := none
      ruleId := cstrToString (some ruleId)
      severity := severityOf f.severity
      message := cstrToString f.message
      location := f.location.map fun location => cstrToString (some location) }

/-- The finding about a plugin that returned a status other than 0. -/
def failureFinding (rule : PluginRule) : Finding where
  file := none
  ruleId := rule.id ++ "-RUNTIME"
  severity := .warning
  message := "plugin '" ++ rule.id ++ "' returned non-zero exit code " ++ toString rule.status ++
    " from sdkt_plugin_check; its findings were not collected"
  location := none

/-- `PluginRule::check`. -/
def check (rule : PluginRule) (report : AuditReport) : AuditReport :=
  if rule.status ≠ 0 then report.add rule.failureFinding
  else
    let safeCount := min rule.buffer.count maxFindings
    (rule.buffer.findings.toList.take safeCount).foldl (fun report f => match findingOf f with
      | none => report
      | some finding => report.add finding) report

/-- The findings of a native plugin. -/
def findings (rule : PluginRule) : List Finding :=
  if rule.status ≠ 0 then [rule.failureFinding]
  else (rule.buffer.findings.toList.take (min rule.buffer.count maxFindings)).filterMap findingOf

/-- **A native plugin adds its findings.** -/
theorem check_eq (rule : PluginRule) (report : AuditReport) :
    rule.check report = report.addAll rule.findings := by
  rw [check, findings]
  split_ifs
  · rfl
  · simp only
    induction rule.buffer.findings.toList.take (min rule.buffer.count maxFindings)
      generalizing report with
    | nil => rfl
    | cons f fs ih =>
      rw [List.foldl_cons, ih, List.filterMap_cons]
      cases findingOf f <;> rfl

end PluginRule

/-! ### WASM plugins -/

/-- `WasmFinding`. -/
structure WasmFinding where
  ruleId : String
  severity : UInt32
  message : String
  location : Option String
  deriving DecidableEq

/-- `severity_enum`. -/
def WasmFinding.severityEnum (f : WasmFinding) : Severity :=
  if f.severity = 0 then .critical
  else if f.severity = 1 then .warning
  else if f.severity = 2 then .info
  else .info

/-- `serde_json` for what a WASM plugin reads and answers, with the texts of its errors. -/
structure SerdeJson where
  toString : List FnScan → Except String String
  fromStr : String → Except String (List WasmFinding)

/-- JSON as it is for a contract without functions and for a plugin without findings. -/
def SerdeJson.noScans : SerdeJson where
  toString _ := .ok "\x7b\"scans\":[]\x7d"
  fromStr s := if s = "[]" then .ok [] else .error "expected value at line 1 column 1"

/-- `WasmPluginRule`, with the state of its lock and what its `sdkt_plugin_check` answers, or the
trap. -/
structure WasmPluginRule where
  id : String
  severity : Severity
  description : String
  poisoned : Bool
  call : String → Except String String

namespace WasmPluginRule

variable (json : SerdeJson)

/-- A finding about a plugin without an answer. -/
def failureFinding (rule : WasmPluginRule) (message : String) : Finding :=
  { file := none, ruleId := rule.id, severity := .warning, message, location := none }

/-- A finding of a plugin. -/
def findingOf (wf : WasmFinding) : Finding where
  file := none
  ruleId := wf.ruleId
  severity := wf.severityEnum
  message := wf.message
  location := wf.location

/-- `WasmPluginRule::check`. -/
def check (rule : WasmPluginRule) (scans : List FnScan) (report : AuditReport) : AuditReport :=
  match json.toString scans with
  | .error e => report.pushFinding
      (rule.failureFinding ("internal: failed to serialise check input: " ++ e))
  | .ok input =>
    if rule.poisoned then
      report.pushFinding (rule.failureFinding "internal: wasm plugin mutex poisoned")
    else match rule.call input with
      | .error e => report.pushFinding
          (rule.failureFinding ("wasm plugin trap during check: " ++ e))
      | .ok output => match json.fromStr output with
        | .error e => report.pushFinding
            (rule.failureFinding ("wasm plugin returned malformed JSON: " ++ e))
        | .ok rawFindings =>
          (rawFindings.take (min rawFindings.length maxFindings)).foldl
            (fun report wf => report.pushFinding (findingOf wf)) report

/-- The plugin is asked, and it answers that there are no findings. -/
def Silent (rule : WasmPluginRule) (scans : List FnScan) : Prop :=
  ∃ input output, json.toString scans = .ok input ∧ rule.poisoned = false ∧
    rule.call input = .ok output ∧ json.fromStr output = .ok []

/-- The findings of a WASM plugin. -/
def findings (rule : WasmPluginRule) (scans : List FnScan) : List Finding :=
  match json.toString scans with
  | .error e => [rule.failureFinding ("internal: failed to serialise check input: " ++ e)]
  | .ok input =>
    if rule.poisoned then [rule.failureFinding "internal: wasm plugin mutex poisoned"]
    else match rule.call input with
      | .error e => [rule.failureFinding ("wasm plugin trap during check: " ++ e)]
      | .ok output => match json.fromStr output with
        | .error e => [rule.failureFinding ("wasm plugin returned malformed JSON: " ++ e)]
        | .ok rawFindings => (rawFindings.take maxFindings).map findingOf

/-- **A WASM plugin pushes its findings past the summary.** -/
theorem check_eq (rule : WasmPluginRule) (scans : List FnScan) (report : AuditReport) :
    rule.check json scans report = report.pushAll (rule.findings json scans) := by
  rw [check, findings]
  cases json.toString scans with
  | error e => rfl
  | ok input =>
    simp only
    split_ifs
    · rfl
    · cases rule.call input with
      | error e => rfl
      | ok output =>
        simp only
        cases json.fromStr output with
        | error e => rfl
        | ok rawFindings =>
          have htake : rawFindings.take (min rawFindings.length maxFindings) =
              rawFindings.take maxFindings := by
            rw [List.take_eq_take_iff]
            omega
          simp only [AuditReport.pushAll, List.foldl_map, htake]

/-- A WASM plugin makes no findings exactly if it is asked and answers so. -/
theorem findings_eq_nil_iff (rule : WasmPluginRule) (scans : List FnScan) :
    rule.findings json scans = [] ↔ rule.Silent json scans := by
  rw [findings, Silent]
  cases json.toString scans with
  | error e => simp
  | ok input =>
    cases rule.poisoned with
    | true => simp
    | false =>
      cases hcall : rule.call input with
      | error e => simp [hcall]
      | ok output =>
        cases hanswer : json.fromStr output with
        | error e => simp [hcall, hanswer]
        | ok rawFindings => simp [hcall, hanswer, maxFindings]

end WasmPluginRule

/-! ### Rules of all kinds -/

/-- An `AuditRule` of a program that links the crate. -/
structure LinkedRule where
  id : String
  severity : Severity
  description : String
  check : List FnScan → AuditContext → AuditReport → AuditReport

/-- A rule that is not built in. -/
inductive Plugin
  | native (rule : PluginRule)
  | wasm (rule : WasmPluginRule)
  | linked (rule : LinkedRule)

/-- `BoxedRule`. -/
inductive BoxedRule
  | builtin (rule : BuiltinRule)
  | plugin (rule : Plugin)

/-- `AuditRule::id`. -/
def Plugin.id : Plugin → String
  | native rule => rule.id
  | wasm rule => rule.id
  | linked rule => rule.id

namespace BoxedRule

variable (json : SerdeJson)

/-- `AuditRule::id`. -/
def id : BoxedRule → String
  | builtin rule => rule.id
  | plugin rule => rule.id

/-- `AuditRule::severity`. -/
def severity : BoxedRule → Severity
  | builtin rule => rule.severity
  | plugin (.native rule) => rule.severity
  | plugin (.wasm rule) => rule.severity
  | plugin (.linked rule) => rule.severity

/-- `AuditRule::description`. -/
def description : BoxedRule → String
  | builtin rule => rule.description
  | plugin (.native rule) => rule.description
  | plugin (.wasm rule) => rule.description
  | plugin (.linked rule) => rule.description

/-- `AuditRule::check`. -/
def check (scans : List FnScan) (ctx : AuditContext) (report : AuditReport) :
    BoxedRule → AuditReport
  | builtin rule => rule.check scans ctx report
  | plugin (.native rule) => rule.check report
  | plugin (.wasm rule) => rule.check json scans report
  | plugin (.linked rule) => rule.check scans ctx report

/-- The built-in rule that a rule is. -/
def builtin? : BoxedRule → Option BuiltinRule
  | builtin rule => some rule
  | plugin _ => none

end BoxedRule

end SorobanDevkit.Audit
