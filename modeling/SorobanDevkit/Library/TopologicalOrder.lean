import Mathlib.Data.List.Lex
import Mathlib.Data.List.Sort
import Mathlib.Logic.Relation
import Mathlib.Order.WellFoundedSet

/-!
# Topological orders

Nodes depend on each other by a relation, `dep a b` meaning that `a` depends on `b`. A topological
order lists every node once, each after the nodes it depends on. A greedy run appends, as long as
there is one, the smallest node whose dependencies have all been listed.

## Main results

* `IsTopological.acyclicOn` — nodes with a topological order are on no cycle.
* `GreedyRun.mem_of_stalled` — a greedy run that cannot go on has listed every node, unless there is
  a cycle.
* `GreedyRun.notMem_of_cycle`, `exists_cycle_of_stalled` — nodes on a cycle are not listed, and
  those that a run that cannot go on has not listed reach one.
* `GreedyRun.isTopological`, `GreedyRun.le` — a greedy run through all nodes is a topological order,
  and the smallest one in the lexicographic order.
-/

namespace TopologicalOrder

variable {α : Type} {nodes : List α} {dep : α → α → Prop}

/-- The order lists the nodes, each one after the nodes it depends on. -/
structure IsTopological (nodes : List α) (dep : α → α → Prop) (order : List α) : Prop where
  perm : order.Perm nodes
  before : ∀ a ∈ nodes, ∀ b, dep a b → [b, a].Sublist order

/-- No node depends on itself, directly or through others. -/
def AcyclicOn (nodes : List α) (dep : α → α → Prop) : Prop :=
  ∀ a ∈ nodes, ¬ Relation.TransGen dep a a

/-- A node that can be listed after `seen`: it is not listed yet, its dependencies are. -/
structure Ready (nodes : List α) (dep : α → α → Prop) (seen : List α) (a : α) : Prop where
  mem : a ∈ nodes
  notMem : a ∉ seen
  deps : ∀ b, dep a b → b ∈ seen

/-- What a node depends on is a node. -/
theorem IsTopological.mem_of_dep {order : List α} (h : IsTopological nodes dep order) {a b : α}
    (ha : a ∈ nodes) (hdep : dep a b) : b ∈ nodes :=
  h.perm.subset ((h.before a ha b hdep).subset List.mem_cons_self)

/-- The order in which the nodes are given does not matter. -/
theorem IsTopological.of_perm {nodes' order : List α} (h : IsTopological nodes dep order)
    (hperm : nodes.Perm nodes') : IsTopological nodes' dep order :=
  ⟨h.perm.trans hperm, fun a ha => h.before a (hperm.mem_iff.mpr ha)⟩

/-! ### Acyclicity -/

/-- In a list without duplicates, what is before an element comes earlier. -/
theorem idxOf_lt_of_sublist [DecidableEq α] {order : List α} (hnodup : order.Nodup) {a b : α}
    (h : [b, a].Sublist order) : order.idxOf b < order.idxOf a := by
  induction order with
  | nil => simp at h
  | cons x xs ih =>
    obtain ⟨hx, hxs⟩ := List.nodup_cons.mp hnodup
    cases h with
    | cons _ h =>
      have hb : b ∈ xs := h.subset List.mem_cons_self
      have ha : a ∈ xs := h.subset (List.mem_cons_of_mem b List.mem_cons_self)
      rw [List.idxOf_cons_ne xs fun hxb : x = b => hx (hxb ▸ hb),
        List.idxOf_cons_ne xs fun hxa : x = a => hx (hxa ▸ ha)]
      exact Nat.succ_lt_succ (ih hxs h)
    | cons_cons _ h =>
      have ha : a ∈ xs := h.subset List.mem_cons_self
      rw [List.idxOf_cons_self, List.idxOf_cons_ne xs fun hxa : b = a => hx (hxa ▸ ha)]
      exact Nat.succ_pos _

/-- **Nodes with a topological order are on no cycle.** -/
theorem IsTopological.acyclicOn (hnodup : nodes.Nodup) {order : List α}
    (h : IsTopological nodes dep order) : AcyclicOn nodes dep := by
  classical
  have hlt : ∀ a b, Relation.TransGen dep a b → a ∈ nodes →
      b ∈ nodes ∧ order.idxOf b < order.idxOf a := by
    intro a b hab
    induction hab with
    | single hdep =>
      intro ha
      exact ⟨h.mem_of_dep ha hdep,
        idxOf_lt_of_sublist (h.perm.nodup_iff.mpr hnodup) (h.before a ha _ hdep)⟩
    | tail _ hdep ih =>
      intro ha
      obtain ⟨hb, hlt⟩ := ih ha
      exact ⟨h.mem_of_dep hb hdep,
        (idxOf_lt_of_sublist (h.perm.nodup_iff.mpr hnodup) (h.before _ hb _ hdep)).trans hlt⟩
  intro a ha hcycle
  exact (hlt a a hcycle ha).2.false

/-- Among nodes that depend on nodes only and are on no cycle, if some are not listed then one of
them is ready. -/
theorem exists_ready (hclosed : ∀ a ∈ nodes, ∀ b, dep a b → b ∈ nodes)
    (hacyclic : AcyclicOn nodes dep) {seen : List α} (h : ∃ a ∈ nodes, a ∉ seen) :
    ∃ a, Ready nodes dep seen a := by
  have hfinite : Finite {a // a ∈ nodes} := (List.finite_toSet nodes).to_subtype
  let below (x y : {a // a ∈ nodes}) : Prop := Relation.TransGen dep y.1 x.1
  have htrans : IsTrans _ below := ⟨fun _ _ _ hxy hyz => hyz.trans hxy⟩
  have hirrefl : Std.Irrefl below := ⟨fun x => hacyclic x.1 x.2⟩
  obtain ⟨a, ha, hseen⟩ := h
  obtain ⟨⟨m, hm⟩, hmseen, hmin⟩ := (Finite.wellFounded_of_trans_of_irrefl below).has_min
    {x | x.1 ∉ seen} ⟨⟨a, ha⟩, hseen⟩
  refine ⟨m, hm, hmseen, fun b hb => ?_⟩
  by_contra hbseen
  exact hmin ⟨b, hclosed m hm b hb⟩ hbseen (Relation.TransGen.single hb)

/-- **A node that is not listed when none is ready reaches a cycle.** -/
theorem exists_cycle_of_stalled (hclosed : ∀ a ∈ nodes, ∀ b, dep a b → b ∈ nodes) {seen : List α}
    (hstalled : ∀ a, ¬ Ready nodes dep seen a) {a : α} (ha : a ∈ nodes) (hseen : a ∉ seen) :
    ∃ c, Relation.ReflTransGen dep a c ∧ Relation.TransGen dep c c := by
  classical
  by_contra hnone
  push Not at hnone
  -- the nodes that are not listed and that `a` reaches, among themselves
  let nodes' := nodes.filter fun x => x ∉ seen ∧ Relation.ReflTransGen dep a x
  let dep' (x y : α) : Prop := dep x y ∧ y ∉ seen
  have hmem : ∀ x, x ∈ nodes' ↔ x ∈ nodes ∧ x ∉ seen ∧ Relation.ReflTransGen dep a x := by
    simp [nodes']
  have hclosed' : ∀ x ∈ nodes', ∀ y, dep' x y → y ∈ nodes' := by
    intro x hx y hxy
    obtain ⟨hnode, -, hreach⟩ := (hmem x).mp hx
    exact (hmem y).mpr ⟨hclosed x hnode y hxy.1, hxy.2, hreach.tail hxy.1⟩
  have hacyclic : AcyclicOn nodes' dep' := fun x hx hcycle =>
    hnone x ((hmem x).mp hx).2.2 (Relation.TransGen.mono (fun _ _ hxy => hxy.1) x x hcycle)
  have hunlisted : ∃ x ∈ nodes', x ∉ ([] : List α) :=
    ⟨a, (hmem a).mpr ⟨ha, hseen, .refl⟩, List.not_mem_nil⟩
  obtain ⟨x, hready⟩ := exists_ready hclosed' hacyclic hunlisted
  obtain ⟨hnode, hxseen, -⟩ := (hmem x).mp hready.mem
  refine hstalled x ⟨hnode, hxseen, fun b hb => ?_⟩
  by_contra hbseen
  exact List.not_mem_nil (hready.deps b ⟨hb, hbseen⟩)

/-- In a topological order, the node after a prefix is ready when the prefix is listed. -/
theorem IsTopological.ready_of_append (hnodup : nodes.Nodup) {seen t : List α} {y : α}
    (h : IsTopological nodes dep (seen ++ y :: t)) : Ready nodes dep seen y := by
  classical
  have hnodup' := h.perm.nodup_iff.mpr hnodup
  have hy : y ∈ nodes := h.perm.subset (List.mem_append_right _ List.mem_cons_self)
  have hyseen : y ∉ seen := fun hmem =>
    (List.disjoint_of_nodup_append hnodup') hmem List.mem_cons_self
  refine ⟨hy, hyseen, fun b hb => ?_⟩
  have hlt := idxOf_lt_of_sublist hnodup' (h.before y hy b hb)
  rw [List.idxOf_append_of_notMem hyseen, List.idxOf_cons_self] at hlt
  by_contra hbseen
  rw [List.idxOf_append_of_notMem hbseen] at hlt
  omega

/-! ### Greedy runs -/

variable [LinearOrder α]

/-- The lists that come from always appending the smallest ready node. -/
inductive GreedyRun (nodes : List α) (dep : α → α → Prop) : List α → Prop
  | nil : GreedyRun nodes dep []
  | snoc {seen : List α} {a : α} : GreedyRun nodes dep seen → Ready nodes dep seen a →
      (∀ b, Ready nodes dep seen b → a ≤ b) → GreedyRun nodes dep (seen ++ [a])

namespace GreedyRun

variable {seen : List α}

theorem subset (h : GreedyRun nodes dep seen) : seen ⊆ nodes := by
  induction h with
  | nil => exact List.nil_subset _
  | snoc _ hready _ ih => exact List.append_subset.mpr ⟨ih, by simpa using hready.mem⟩

theorem nodup (h : GreedyRun nodes dep seen) : seen.Nodup := by
  induction h with
  | nil => exact List.nodup_nil
  | snoc _ hready _ ih =>
    rw [List.nodup_append_comm, List.singleton_append, List.nodup_cons]
    exact ⟨hready.notMem, ih⟩

/-- The dependencies of a listed node are listed before it. -/
theorem before (h : GreedyRun nodes dep seen) {a b : α} (ha : a ∈ seen) (hdep : dep a b) :
    [b, a].Sublist seen := by
  induction h with
  | nil => simp at ha
  | @snoc seen c _ hready _ ih =>
    rcases List.mem_append.mp ha with ha | ha
    · exact (ih ha).trans (List.sublist_append_left _ _)
    · obtain rfl := List.mem_singleton.mp ha
      exact (List.singleton_sublist.mpr (hready.deps b hdep)).append (List.Sublist.refl [a])

/-- What a listed node depends on, directly or through others, is listed before it. -/
theorem idxOf_lt (h : GreedyRun nodes dep seen) {a b : α} (hab : Relation.TransGen dep a b)
    (ha : a ∈ seen) : b ∈ seen ∧ seen.idxOf b < seen.idxOf a := by
  induction hab with
  | single hdep =>
    have hbefore := h.before ha hdep
    exact ⟨hbefore.subset List.mem_cons_self, idxOf_lt_of_sublist h.nodup hbefore⟩
  | tail _ hdep ih =>
    obtain ⟨hb, hlt⟩ := ih
    have hbefore := h.before hb hdep
    exact ⟨hbefore.subset List.mem_cons_self, (idxOf_lt_of_sublist h.nodup hbefore).trans hlt⟩

/-- Nodes on a cycle are not listed. -/
theorem notMem_of_cycle (h : GreedyRun nodes dep seen) {a : α}
    (hcycle : Relation.TransGen dep a a) :
    a ∉ seen :=
  fun ha => (h.idxOf_lt hcycle ha).2.false

/-- **A greedy run through all nodes is a topological order.** -/
theorem isTopological (h : GreedyRun nodes dep seen) (hnodup : nodes.Nodup)
    (hall : ∀ a ∈ nodes, a ∈ seen) : IsTopological nodes dep seen where
  perm := (List.perm_ext_iff_of_nodup h.nodup hnodup).mpr fun a => ⟨fun ha => h.subset ha, hall a⟩
  before a ha _ hdep := h.before (hall a ha) hdep

/-- **A greedy run that cannot go on has listed every node**, unless there is a cycle. -/
theorem mem_of_stalled (hclosed : ∀ a ∈ nodes, ∀ b, dep a b → b ∈ nodes)
    (hacyclic : AcyclicOn nodes dep) (hstalled : ∀ a, ¬ Ready nodes dep seen a) :
    ∀ a ∈ nodes, a ∈ seen := by
  by_contra hmissing
  push Not at hmissing
  obtain ⟨a, ha⟩ := exists_ready hclosed hacyclic hmissing
  exact hstalled a ha

/-- A topological order continues a greedy run, or differs first where the run has the smaller
node. -/
theorem prefix_or_exists_lt (h : GreedyRun nodes dep seen) (hnodup : nodes.Nodup) {order : List α}
    (horder : IsTopological nodes dep order) : seen <+: order ∨
      ∃ p x s y t, seen = p ++ x :: s ∧ order = p ++ y :: t ∧ x < y := by
  induction h with
  | nil => exact .inl List.nil_prefix
  | @snoc seen a hrun hready hmin ih =>
    obtain ⟨rest, rfl⟩ | ⟨p, x, s, y, t, rfl, horder', hlt⟩ := ih
    · cases rest with
      | nil =>
        rw [List.append_nil] at horder
        exact absurd (horder.perm.mem_iff.mpr hready.mem) hready.notMem
      | cons y t =>
        have hy := horder.ready_of_append hnodup
        rcases (hmin y hy).eq_or_lt with rfl | hlt
        · exact .inl ⟨t, by rw [List.append_assoc, List.singleton_append]⟩
        · exact .inr ⟨seen, a, [], y, t, rfl, rfl, hlt⟩
    · refine .inr ⟨p, x, s ++ [a], y, t, ?_, horder', hlt⟩
      rw [List.append_assoc, List.cons_append]

/-- **A greedy run through all nodes is the smallest topological order.** -/
theorem le (h : GreedyRun nodes dep seen) (hnodup : nodes.Nodup) (hall : ∀ a ∈ nodes, a ∈ seen)
    {order : List α} (horder : IsTopological nodes dep order) : seen ≤ order := by
  have hperm := (h.isTopological hnodup hall).perm
  rcases h.prefix_or_exists_lt hnodup horder with hpre | ⟨p, x, s, y, t, rfl, rfl, hlt⟩
  · exact (List.IsPrefix.eq_of_length hpre (hperm.length_eq.trans horder.perm.length_eq.symm)).le
  · exact (List.append_left_lt (List.cons_lt_cons_iff.mpr (.inl hlt))).le

end GreedyRun

end TopologicalOrder
