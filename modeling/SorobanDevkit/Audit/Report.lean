import Mathlib.Data.List.Basic
import Mathlib.Data.Nat.Notation

/-!
# Audit reports

`sdkt-audit/src/types.rs`: the findings of an audit, and a summary that counts them by severity. The
summary is what the exit status of `sdkt audit --fail-on` is decided by.
-/

namespace SorobanDevkit.Audit

/-- `Severity`, from the most to the least severe. -/
inductive Severity
  | critical
  | warning
  | info
  deriving DecidableEq

/-- `RuleInfo`. -/
structure RuleInfo where
  id : String
  severity : Severity
  description : String
  deriving DecidableEq

/-- `Finding`. -/
structure Finding where
  ruleId : String
  severity : Severity
  message : String
  file : Option String
  location : Option String
  deriving DecidableEq

/-- `AuditSummary`. -/
structure AuditSummary where
  critical : ℕ
  warning : ℕ
  info : ℕ
  total : ℕ
  deriving DecidableEq

/-- `AuditReport`. -/
structure AuditReport where
  findings : List Finding
  summary : AuditSummary
  deriving DecidableEq

/-- `AuditSummary::default`. -/
def AuditSummary.default : AuditSummary := { critical := 0, warning := 0, info := 0, total := 0 }

/-- The counter of a severity. -/
def AuditSummary.count (summary : AuditSummary) : Severity → ℕ
  | .critical => summary.critical
  | .warning => summary.warning
  | .info => summary.info

/-- `audit_gate_trips`. -/
def auditGateTrips (level : Severity) (summary : AuditSummary) : Bool :=
  match level with
  | .critical => decide (0 < summary.critical)
  | .warning => decide (0 < summary.critical) || decide (0 < summary.warning)
  | .info => decide (0 < summary.total)

/-- How severe a severity is. -/
def Severity.rank : Severity → ℕ
  | .critical => 2
  | .warning => 1
  | .info => 0

namespace AuditReport

/-- `AuditReport::default`. -/
def default : AuditReport := { findings := [], summary := .default }

/-- `AuditReport::add`. -/
def add (report : AuditReport) (f : Finding) : AuditReport where
  findings := report.findings ++ [f]
  summary :=
    let counted := match f.severity with
      | .critical => { report.summary with critical := report.summary.critical + 1 }
      | .warning => { report.summary with warning := report.summary.warning + 1 }
      | .info => { report.summary with info := report.summary.info + 1 }
    { counted with total := counted.total + 1 }

/-- A finding pushed on the findings past `add`. -/
def pushFinding (report : AuditReport) (f : Finding) : AuditReport :=
  { report with findings := report.findings ++ [f] }

/-- Findings added one after the other. -/
def addAll (report : AuditReport) (fs : List Finding) : AuditReport := fs.foldl add report

/-- Findings pushed one after the other. -/
def pushAll (report : AuditReport) (fs : List Finding) : AuditReport := fs.foldl pushFinding report

/-- The number of findings of a severity. -/
def countOf (report : AuditReport) (severity : Severity) : ℕ :=
  report.findings.countP fun f => f.severity = severity

/-- The summary counts the findings. -/
structure Consistent (report : AuditReport) : Prop where
  count : ∀ severity, report.summary.count severity = report.countOf severity
  total : report.summary.total = report.findings.length

/-! ### Adding findings -/

@[simp] theorem findings_add (report : AuditReport) (f : Finding) :
    (report.add f).findings = report.findings ++ [f] := rfl

@[simp] theorem total_add (report : AuditReport) (f : Finding) :
    (report.add f).summary.total = report.summary.total + 1 := by
  rw [add]
  cases f.severity <;> rfl

@[simp] theorem count_add (report : AuditReport) (f : Finding) (severity : Severity) :
    (report.add f).summary.count severity =
      report.summary.count severity + if f.severity = severity then 1 else 0 := by
  rw [add]
  cases f.severity <;> cases severity <;> rfl

@[simp] theorem findings_pushFinding (report : AuditReport) (f : Finding) :
    (report.pushFinding f).findings = report.findings ++ [f] := rfl

@[simp] theorem summary_pushFinding (report : AuditReport) (f : Finding) :
    (report.pushFinding f).summary = report.summary := rfl

@[simp] theorem addAll_nil (report : AuditReport) : report.addAll [] = report := rfl

theorem addAll_append (report : AuditReport) (fs gs : List Finding) :
    report.addAll (fs ++ gs) = (report.addAll fs).addAll gs := List.foldl_append

theorem findings_addAll (report : AuditReport) (fs : List Finding) :
    (report.addAll fs).findings = report.findings ++ fs := by
  induction fs generalizing report with
  | nil => simp
  | cons f fs ih => rw [addAll, List.foldl_cons, ← addAll, ih, findings_add, List.append_assoc,
      List.singleton_append]

theorem findings_pushAll (report : AuditReport) (fs : List Finding) :
    (report.pushAll fs).findings = report.findings ++ fs := by
  induction fs generalizing report with
  | nil => simp [pushAll]
  | cons f fs ih => rw [pushAll, List.foldl_cons, ← pushAll, ih, findings_pushFinding,
      List.append_assoc, List.singleton_append]

theorem summary_pushAll (report : AuditReport) (fs : List Finding) :
    (report.pushAll fs).summary = report.summary := by
  induction fs generalizing report with
  | nil => rfl
  | cons f fs ih => rw [pushAll, List.foldl_cons, ← pushAll, ih, summary_pushFinding]

/-! ### The summary -/

theorem default_consistent : default.Consistent where
  count severity := by cases severity <;> rfl
  total := rfl

theorem countOf_add (report : AuditReport) (f : Finding) (severity : Severity) :
    (report.add f).countOf severity =
      report.countOf severity + if f.severity = severity then 1 else 0 := by
  rw [countOf, findings_add, List.countP_append, List.countP_singleton, countOf]
  simp only [decide_eq_true_eq]

/-- Adding a finding keeps the summary right. -/
theorem add_consistent {report : AuditReport} (h : report.Consistent) (f : Finding) :
    (report.add f).Consistent where
  count severity := by rw [count_add, countOf_add, h.count]
  total := by rw [total_add, findings_add, List.length_append, h.total, List.length_singleton]

theorem addAll_consistent {report : AuditReport} (h : report.Consistent) (fs : List Finding) :
    (report.addAll fs).Consistent := by
  induction fs generalizing report with
  | nil => exact h
  | cons f fs ih => exact ih (add_consistent h f)

/-- A summary of the findings counts one of them exactly if there is one. -/
theorem Consistent.count_pos_iff {report : AuditReport} (h : report.Consistent)
    (severity : Severity) :
    0 < report.summary.count severity ↔ ∃ f ∈ report.findings, f.severity = severity := by
  rw [h.count, countOf, List.countP_pos_iff]
  simp only [decide_eq_true_eq]

theorem Consistent.total_pos_iff {report : AuditReport} (h : report.Consistent) :
    0 < report.summary.total ↔ ∃ f, f ∈ report.findings := by
  rw [h.total, List.length_pos_iff_exists_mem]

/-- **With the right summary, the gate trips at a level exactly if there is a finding at or above
it.** -/
theorem Consistent.auditGateTrips_iff {report : AuditReport} (h : report.Consistent)
    (level : Severity) :
    auditGateTrips level report.summary = true ↔
      ∃ f ∈ report.findings, level.rank ≤ f.severity.rank := by
  have hcritical := h.count_pos_iff .critical
  have hwarning := h.count_pos_iff .warning
  cases level with
  | critical =>
    rw [auditGateTrips, decide_eq_true_eq]
    refine hcritical.trans (exists_congr fun f => and_congr_right fun _ => ?_)
    cases f.severity <;> simp [Severity.rank]
  | warning =>
    rw [auditGateTrips, Bool.or_eq_true, decide_eq_true_eq, decide_eq_true_eq]
    refine (or_congr hcritical hwarning).trans ?_
    rw [← exists_or]
    refine exists_congr fun f => ?_
    rw [← and_or_left]
    refine and_congr_right fun _ => ?_
    cases f.severity <;> simp [Severity.rank]
  | info =>
    rw [auditGateTrips, decide_eq_true_eq, h.total_pos_iff]
    exact exists_congr fun f => (and_iff_left (Nat.zero_le _)).symm

end AuditReport

end SorobanDevkit.Audit
