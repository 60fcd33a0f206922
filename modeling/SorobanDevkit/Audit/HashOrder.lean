import Mathlib.Data.List.Forall2
import SorobanDevkit.Audit.Registry

/-!
# Findings and the order of hash maps

The usage counts of a scan are in a hash map, and one of the built-in rules iterates it. The
findings of an audit are compared for two iteration orders of each map.
-/

namespace SorobanDevkit.Audit

open BoxedRule (builtin?)

/-- One scan, with its set and its map in two iteration orders. -/
structure FnScan.SameUpToOrder (s s' : FnScan) : Prop where
  eq : s' = { s with bound := s'.bound, usage := s'.usage }
  bound : s.bound.Perm s'.bound
  usage : s.usage.SameEntries s'.usage

/-- The locals that are used at least twice, with their counts. -/
def FnScan.reused (s : FnScan) : List (String × ℕ) :=
    s.usage.entries.filter fun entry => 2 ≤ entry.2

/-- The scan with its map iterated backwards. -/
def FnScan.reversed (s : FnScan) : FnScan := { s with usage := s.usage.rearrange .reverse }

theorem FnScan.sameUpToOrder_reversed (s : FnScan) : s.SameUpToOrder s.reversed where
  eq := rfl
  bound := .refl _
  usage := (List.reverse_perm _).symm

/-! ### Lists -/

theorem eq_of_perm_of_length_le_one {α : Type} {l l' : List α} (h : l.Perm l')
    (hl : l.length ≤ 1) : l = l' := by
  match l, hl with
  | [], _ => exact (List.nil_perm.mp h).symm
  | [a], _ => exact (List.singleton_perm.mp h)

/-- A list of distinct elements that is its own reverse has at most one. -/
theorem length_le_one_of_eq_reverse {α : Type} {l : List α} (hnodup : l.Nodup)
    (h : l = l.reverse) : l.length ≤ 1 := by
  match l with
  | [] => exact Nat.zero_le _
  | [a] => exact Nat.le_refl _
  | a :: b :: l =>
    have hhead := congrArg List.head? h
    rw [List.head?_reverse, List.head?_cons, List.getLast?_cons_cons] at hhead
    have hmem : a ∈ b :: l := List.mem_of_getLast? hhead.symm
    exact absurd hmem (List.nodup_cons.mp hnodup).1

/-- Concatenations of pieces of equal lengths are equal only piece by piece. -/
theorem eq_of_flatMap_eq {α β : Type} {f g : α → List β} {l : List α}
    (hlength : ∀ a ∈ l, (f a).length = (g a).length) (h : l.flatMap f = l.flatMap g) :
    ∀ a ∈ l, f a = g a := by
  induction l with
  | nil => exact fun a ha => (List.not_mem_nil ha).elim
  | cons b l ih =>
    obtain ⟨hb, hl⟩ := List.forall_mem_cons.mp hlength
    rw [List.flatMap_cons, List.flatMap_cons] at h
    obtain ⟨hfirst, hrest⟩ := List.append_inj h hb
    exact List.forall_mem_cons.mpr ⟨hfirst, ih hl hrest⟩

/-! ### One rule -/

namespace BuiltinRule

/-- **The findings of a rule that does not iterate the map have one order.** -/
theorem findingsOf_congr {rule : BuiltinRule} (hrule : rule ≠ move001) {s s' : FnScan}
    (h : s.SameUpToOrder s') (ctx : AuditContext) :
    rule.findingsOf ctx s = rule.findingsOf ctx s' := by
  rw [h.eq]
  cases rule with
  | move001 => exact absurd rfl hrule
  | _ => rfl

theorem reuseFindings_eq (s : FnScan) :
    reuseFindings s = s.reused.map fun entry => reuseFinding s entry.1 entry.2 := rfl

theorem reuseFindings_reversed (s : FnScan) :
    reuseFindings s.reversed = (reuseFindings s).reverse := by
  have hreused : s.reversed.reused = s.reused.reverse := List.filter_reverse
  rw [reuseFindings_eq, reuseFindings_eq, hreused, List.map_reverse]
  rfl

/-- The findings about different locals are different. -/
theorem reuseFindings_nodup (s : FnScan) : (reuseFindings s).Nodup := by
  have hkeys : (s.reused.map Prod.fst).Nodup :=
    List.Nodup.sublist (List.filter_sublist.map Prod.fst) s.usage.nodup
  have hlocation : (reuseFindings s).map Finding.location =
      (s.reused.map Prod.fst).map fun name => some (s.fnName ++ ":" ++ name) := by
    rw [reuseFindings_eq, List.map_map, List.map_map]
    rfl
  refine List.Nodup.of_map Finding.location (hlocation ▸ hkeys.map fun a b hab => ?_)
  have htext := congrArg String.toList (Option.some.inj hab)
  rw [String.toList_append, String.toList_append (s := s.fnName ++ ":"),
    List.append_cancel_left_eq] at htext
  exact String.toList_injective htext

theorem reuseFindings_congr {s s' : FnScan} (h : s.SameUpToOrder s')
    (hone : s.reused.length ≤ 1) : reuseFindings s = reuseFindings s' := by
  have hreused : s.reused = s'.reused :=
    eq_of_perm_of_length_le_one (List.Perm.filter _ h.usage) hone
  rw [reuseFindings_eq, reuseFindings_eq, hreused, h.eq]
  rfl

theorem length_findingsOf_reversed (rule : BuiltinRule) (ctx : AuditContext) (s : FnScan) :
    (rule.findingsOf ctx s).length = (rule.findingsOf ctx s.reversed).length := by
  by_cases hrule : rule = move001
  · rw [hrule, findingsOf, findingsOf, reuseFindings_reversed, List.length_reverse]
  · rw [findingsOf_congr hrule s.sameUpToOrder_reversed]

theorem findings_reversed (rule : BuiltinRule) (scans : List FnScan) (ctx : AuditContext) :
    rule.findings (scans.map FnScan.reversed) ctx =
      scans.flatMap fun s => rule.findingsOf ctx s.reversed :=
  List.flatMap_map _ _ _

/-- The findings of built-in rules have one order exactly if the rule that iterates the map is not
among them, or no scan has two reused locals. -/
theorem flatMap_findings_congr_iff (rules : List BuiltinRule) (scans : List FnScan)
    (ctx : AuditContext) :
    (∀ scans', List.Forall₂ FnScan.SameUpToOrder scans scans' →
      rules.flatMap (·.findings scans ctx) = rules.flatMap (·.findings scans' ctx)) ↔
    (move001 ∈ rules → ∀ s ∈ scans, s.reused.length ≤ 1) := by
  constructor
  · intro h hrule s hs
    have hreversed := h (scans.map FnScan.reversed)
      (List.forall₂_map_right_iff.mpr (List.forall₂_same.mpr fun s _ => s.sameUpToOrder_reversed))
    simp only [findings_reversed] at hreversed
    have hlength : ∀ rule ∈ rules, (rule.findings scans ctx).length =
        (scans.flatMap fun s => rule.findingsOf ctx s.reversed).length := fun rule _ => by
      have hscans : scans.map (fun s => (rule.findingsOf ctx s).length) =
          scans.map fun s => (rule.findingsOf ctx s.reversed).length :=
        List.map_congr_left fun s _ => length_findingsOf_reversed rule ctx s
      rw [findings, List.length_flatMap, List.length_flatMap, hscans]
    have hfindings := eq_of_flatMap_eq hlength hreversed move001 hrule
    have hscan := eq_of_flatMap_eq
      (fun s _ => length_findingsOf_reversed move001 ctx s) hfindings s hs
    have hpalindrome : reuseFindings s = (reuseFindings s).reverse :=
      hscan.trans (reuseFindings_reversed s)
    have hone := length_le_one_of_eq_reverse (reuseFindings_nodup s) hpalindrome
    rwa [reuseFindings_eq, List.length_map] at hone
  · intro h scans' hsame
    refine List.flatMap_congr fun rule hrule => ?_
    rw [findings, findings]
    have hone : rule = move001 → ∀ s ∈ scans, s.reused.length ≤ 1 := fun heq => h (heq ▸ hrule)
    clear h hrule
    induction hsame with
    | nil => rfl
    | @cons s s' scans scans' hs _ ih =>
      have hfirst : rule.findingsOf ctx s = rule.findingsOf ctx s' := by
        by_cases hmove : rule = move001
        · subst hmove
          exact reuseFindings_congr hs (hone rfl s List.mem_cons_self)
        · exact findingsOf_congr hmove hs ctx
      rw [List.flatMap_cons, List.flatMap_cons, hfirst,
        ih fun hmove s hs => hone hmove s (List.mem_cons_of_mem _ hs)]

end BuiltinRule

/-! ### Registries of built-in rules -/

namespace RuleRegistry

/-- A registry with built-in rules only, registered in some order. -/
def ofBuiltins (rules : List BuiltinRule) : RuleRegistry := empty.registerAll (rules.map .builtin)

theorem rules_registerAll_builtins {reg : RuleRegistry}
    (hreg : reg.rules = reg.builtins.map .builtin)
    (rules : List BuiltinRule) :
    (reg.registerAll (rules.map .builtin)).rules =
        (reg.registerAll (rules.map .builtin)).builtins.map .builtin ∧
      ∀ b, b ∈ (reg.registerAll (rules.map .builtin)).builtins ↔ b ∈ reg.builtins ∨ b ∈ rules := by
  induction rules generalizing reg with
  | nil => exact ⟨hreg, fun b => by simp [registerAll]⟩
  | cons rule rules ih =>
    by_cases htaken : (BoxedRule.builtin rule).id ∈ reg.rules.map BoxedRule.id
    · have hsame : reg.registerRule (.builtin rule) = reg := by rw [registerRule, dif_pos htaken]
      have hmem : rule ∈ reg.builtins := by
        obtain ⟨r, hr, hid⟩ := List.mem_map.mp htaken
        obtain ⟨b, hb, rfl⟩ := List.mem_map.mp (hreg ▸ hr)
        exact BuiltinRule.id_injective hid ▸ hb
      rw [List.map_cons, registerAll, List.foldl_cons, hsame, ← registerAll]
      refine ⟨(ih hreg).1, fun b => ((ih hreg).2 b).trans ?_⟩
      rw [List.mem_cons]
      constructor
      · exact Or.imp_right .inr
      · rintro (hb | rfl | hb)
        · exact .inl hb
        · exact .inl hmem
        · exact .inr hb
    · have hrules := reg.rules_registerRule (.builtin rule)
      rw [if_neg htaken] at hrules
      have hbuiltins : (reg.registerRule (.builtin rule)).builtins = reg.builtins ++ [rule] := by
        rw [builtins, hrules, List.filterMap_append]
        rfl
      have hreg' : (reg.registerRule (.builtin rule)).rules =
          (reg.registerRule (.builtin rule)).builtins.map .builtin := by
        rw [hrules, hbuiltins, List.map_append, ← hreg]
        rfl
      rw [List.map_cons, registerAll, List.foldl_cons, ← registerAll]
      refine ⟨(ih hreg').1, fun b => ((ih hreg').2 b).trans ?_⟩
      rw [hbuiltins, List.mem_append, List.mem_singleton, List.mem_cons, or_assoc]

/-- The findings of a registry of built-in rules are those of its rules, in order. -/
theorem findings_runAll_ofBuiltins (json : SerdeJson) (rules : List BuiltinRule)
    (scans : List FnScan) (ctx : AuditContext) (disabled : List String) :
    ((ofBuiltins rules).runAll json scans ctx disabled .default).findings =
      ((ofBuiltins rules).builtins.filter fun b => b.id ∉ disabled).flatMap
        (·.findings scans ctx) := by
  have hfold : ∀ (bs : List BuiltinRule) (report : AuditReport),
      ((bs.map BoxedRule.builtin).foldl
        (fun report rule => rule.check json scans ctx report) report) =
      report.addAll (bs.flatMap (·.findings scans ctx)) := by
    intro bs
    induction bs with
    | nil => exact fun report => rfl
    | cons b bs ih =>
      intro report
      rw [List.map_cons, List.foldl_cons, ih, List.flatMap_cons, AuditReport.addAll_append]
      exact congrArg (AuditReport.addAll · _) (b.check_eq scans ctx report)
  have hexecuted : (ofBuiltins rules).executed disabled =
      ((ofBuiltins rules).builtins.filter fun b => b.id ∉ disabled).map .builtin := by
    rw [executed, ofBuiltins, (rules_registerAll_builtins rfl rules).1, List.filter_map]
    rfl
  rw [runAll_eq, hexecuted, hfold, AuditReport.findings_addAll]
  rfl

end RuleRegistry

open RuleRegistry

/-- **The findings of built-in rules do not depend on the iteration order of the maps exactly if no
function has two reused locals, or the rule that looks for them does not run.** -/
theorem findings_order_iff (json : SerdeJson) (rules : List BuiltinRule) (scans : List FnScan)
    (ctx : AuditContext) (disabled : List String) :
    (∀ scans', List.Forall₂ FnScan.SameUpToOrder scans scans' →
      ((ofBuiltins rules).runAll json scans ctx disabled .default).findings =
        ((ofBuiltins rules).runAll json scans' ctx disabled .default).findings) ↔
    (.move001 ∈ rules → BuiltinRule.move001.id ∉ disabled → ∀ s ∈ scans, s.reused.length ≤ 1) := by
  have hmem : .move001 ∈ (ofBuiltins rules).builtins ↔ .move001 ∈ rules := by
    rw [ofBuiltins, (rules_registerAll_builtins rfl rules).2]
    exact or_iff_right List.not_mem_nil
  simp only [findings_runAll_ofBuiltins, BuiltinRule.flatMap_findings_congr_iff, List.mem_filter,
    decide_eq_true_eq, hmem, and_imp]

/-- A function with two locals that are both arguments twice. -/
def swapScan (usage : UnorderedMap String ℕ) : FnScan where
  fnName := "swap"
  requireAuth := 1
  invokeContract := 0
  bound := ["a", "b"]
  usage := usage
  divisionBeforeMultiplication := false
  externalCallBeforeStateWrite := false
  stateWrites := 0
  isEntrypoint := true
  returnsValue := false

/-- Two reused locals of one function are reported in the order of the map. -/
theorem swapScan_order :
    ¬ ∀ (json : SerdeJson) (rules : List BuiltinRule) (scans scans' : List FnScan)
        (ctx : AuditContext) (disabled : List String),
      List.Forall₂ FnScan.SameUpToOrder scans scans' →
      ((ofBuiltins rules).runAll json scans ctx disabled .default).findings =
        ((ofBuiltins rules).runAll json scans' ctx disabled .default).findings := by
  intro h
  let usage : UnorderedMap String ℕ := ⟨[("a", 2), ("b", 2)], by decide⟩
  have hfindings := h .noScans [.move001] [swapScan usage] [(swapScan usage).reversed]
    { spec := none } [] (.cons (swapScan usage).sameUpToOrder_reversed .nil)
  have hlocation := congrArg (List.map Finding.location) hfindings
  exact absurd hlocation (by decide)

end SorobanDevkit.Audit
