import Mathlib.Data.String.Basic
import Std.Data.TreeMap.Lemmas
import SorobanDevkit.Library.TopologicalOrder
import SorobanDevkit.Library.UnorderedMap

/-!
# The topological sort

`topo_sort` of `sdkt-core/src/package.rs` is Kahn's algorithm over a graph that maps each node to
the nodes it depends on. It counts the dependencies of every node, lists the nodes without any, and
lowers the counters of a node's dependants when the node is listed. The queue is sorted before every
round, so each round lists the smallest node all of whose dependencies are listed: the run is greedy
(`GreedyRun`), and its result is the smallest topological order, if there is one.

The graph and the map of counters are hash maps. The graph comes in an arbitrary iteration order,
and an arbitrary rearrangement stands for the order in which the counters are iterated.

## Main results

* `kahnStep_invariant`, `kahnLoop_invariant` — a round keeps the invariant, and so do all rounds.
* `exists_topoSort_eq_ok_iff`, `topoSort_isLeast` — when there is a result, and that it is the
  smallest topological order, whatever the iteration orders are.
* `error_on_cycle_iff` — when the node of an error is on a cycle.
-/

namespace SorobanDevkit.Core

open TopologicalOrder

/-- A graph: each node with the nodes it depends on. -/
abbrev DepGraph := UnorderedMap String (List String)

/-- The counters `in_degree` and the dependants `adj_list` of every node. -/
structure DegreeMaps where
  inDegree : Std.TreeMap String ℕ
  adjList : Std.TreeMap String (List String)

/-- The body of the first loop of `topo_sort`: a node, with no dependency counted. -/
def initNode (m : DegreeMaps) (node : String) : DegreeMaps where
  inDegree := m.inDegree.insertIfNew node 0
  adjList := m.adjList.insertIfNew node []

/-- The first loop of `topo_sort`. -/
def initNodes (graph : DepGraph) : DegreeMaps := graph.keys.foldl initNode ⟨∅, ∅⟩

/-- The body of the second loop of `topo_sort`: `node` depends on `dep`. -/
def countEdge (m : DegreeMaps) (node dep : String) : DegreeMaps where
  adjList := m.adjList.insert dep (m.adjList.getD dep [] ++ [node])
  inDegree := m.inDegree.insert node (m.inDegree.getD node 0 + 1)

/-- The second loop of `topo_sort`. -/
def countEdges (graph : DepGraph) : DegreeMaps :=
  graph.entries.foldl (fun m (node, deps) => deps.foldl (fun m dep => countEdge m node dep) m)
    (initNodes graph)

/-- The state of the main loop of `topo_sort`. -/
structure KahnState where
  inDegree : Std.TreeMap String ℕ
  queue : List String
  ordered : List String

/-- The body of the inner loop: one dependant of the listed node has a dependency less. -/
def lowerDegree (s : KahnState) (neighbor : String) : KahnState :=
  match s.inDegree[neighbor]? with
  | none => s
  | some d =>
    let s := { s with inDegree := s.inDegree.insert neighbor (d - 1) }
    if d - 1 = 0 then { s with queue := s.queue ++ [neighbor] } else s

/-- `Vec::sort` of strings. -/
def sortStrings (l : List String) : List String := l.insertionSort (· ≤ ·)

/-- A round of the main loop, which takes `current` from the front of the queue. -/
def kahnStep (adjList : Std.TreeMap String (List String)) (s : KahnState) (current : String)
    (rest : List String) : KahnState :=
  let s := { s with queue := rest, ordered := s.ordered ++ [current] }
  let s := match adjList[current]? with
    | none => s
    | some neighbors => neighbors.foldl lowerDegree s
  { s with queue := sortStrings s.queue }

/-- The main loop of `topo_sort`, for at most `fuel` rounds. -/
def kahnLoop (adjList : Std.TreeMap String (List String)) : ℕ → KahnState → KahnState
  | 0, s => s
  | fuel + 1, s =>
    match s.queue with
    | [] => s
    | current :: rest => kahnLoop adjList fuel (kahnStep adjList s current rest)

/-- The state before the main loop. The queue is collected from `in_degree` in its iteration
order. -/
def kahnInit (scan : Rearrangement String) (m : DegreeMaps) : KahnState where
  inDegree := m.inDegree
  queue := sortStrings ((scan.order m.inDegree.keys).filter fun n => m.inDegree.getD n 0 == 0)
  ordered := []

/-- The state after the main loop. A round lists a node, so there are as many rounds as nodes at
most. -/
def kahn (scan : Rearrangement String) (graph : DepGraph) : KahnState :=
  let m := countEdges graph
  kahnLoop m.adjList graph.keys.length (kahnInit scan m)

/-- `topo_sort`. -/
def topoSort (scan : Rearrangement String) (graph : DepGraph) : Except String (List String) :=
  let s := kahn scan graph
  if s.ordered.length ≠ graph.keys.length then
    .error (((scan.order s.inDegree.keys).find? fun n => 0 < s.inDegree.getD n 0).getD "Unknown")
  else
    .ok s.ordered

/-! ### The counted edges -/

/-- The pairs of a node and a node it depends on, as often as they are declared. -/
def edges (graph : DepGraph) : List (String × String) :=
  graph.entries.flatMap fun (node, deps) => deps.map fun dep => (node, dep)

/-- `a` declares that it depends on `b`. -/
def DependsOn (graph : DepGraph) (a b : String) : Prop := (a, b) ∈ edges graph

theorem dependsOn_iff {graph : DepGraph} {a b : String} :
    DependsOn graph a b ↔ ∃ deps, (a, deps) ∈ graph.entries ∧ b ∈ deps := by
  simp only [DependsOn, edges, List.mem_flatMap, List.mem_map, Prod.mk.injEq, Prod.exists]
  constructor
  · rintro ⟨_, deps, hmem, _, hb, rfl, rfl⟩
    exact ⟨deps, hmem, hb⟩
  · rintro ⟨deps, hmem, hb⟩
    exact ⟨a, deps, hmem, b, hb, rfl, rfl⟩

theorem DependsOn.mem_keys {graph : DepGraph} {a b : String} (h : DependsOn graph a b) :
    a ∈ graph.keys := by
  obtain ⟨deps, hmem, -⟩ := dependsOn_iff.mp h
  exact List.mem_map_of_mem hmem

/-- The nodes that depend on `b`, as often as they declare it. -/
def dependants (graph : DepGraph) (b : String) : List String :=
  ((edges graph).filter fun e => e.2 = b).map Prod.fst

theorem mem_dependants {graph : DepGraph} {a b : String} :
    a ∈ dependants graph b ↔ DependsOn graph a b := by
  simp [dependants, DependsOn]

/-- The nested loops count edge by edge. -/
theorem countEdges_eq (graph : DepGraph) :
    countEdges graph = (edges graph).foldl (fun m e => countEdge m e.1 e.2) (initNodes graph) := by
  rw [countEdges, edges, List.foldl_flatMap]
  simp only [List.foldl_map]

/-- Adding keys with a value keeps the keys that are there. -/
theorem getElem?_foldl_insertIfNew {β : Type} (v : β) (ks : List String) (m : Std.TreeMap String β)
    (n : String) : (ks.foldl (fun m k => m.insertIfNew k v) m)[n]? =
      if n ∈ ks then some (m.getD n v) else m[n]? := by
  induction ks generalizing m with
  | nil => simp
  | cons k ks ih =>
    rw [List.foldl_cons, ih, Std.TreeMap.getElem?_insertIfNew, Std.TreeMap.getD_insertIfNew]
    simp only [Std.LawfulEqOrd.compare_eq_iff_eq, List.mem_cons]
    by_cases hkn : k = n
    · subst hkn
      by_cases hk : k ∈ m
      · simp [hk, Std.TreeMap.getD_eq_getD_getElem?]
      · simp [hk, Std.TreeMap.getD_eq_fallback hk]
    · simp [hkn, Ne.symm hkn]

theorem initNodes_eq (graph : DepGraph) : initNodes graph =
    ⟨graph.keys.foldl (fun m k => m.insertIfNew k 0) ∅,
      graph.keys.foldl (fun m k => m.insertIfNew k []) ∅⟩ := by
  have h : ∀ (ks : List String) (m : DegreeMaps), ks.foldl initNode m =
      ⟨ks.foldl (fun m k => m.insertIfNew k 0) m.inDegree,
        ks.foldl (fun m k => m.insertIfNew k []) m.adjList⟩ := by
    intro ks
    induction ks with
    | nil => exact fun m => rfl
    | cons k ks ih => exact fun m => ih _
  exact h graph.keys _

theorem initNodes_inDegree (graph : DepGraph) (n : String) :
    (initNodes graph).inDegree[n]? = if n ∈ graph.keys then some 0 else none := by
  rw [initNodes_eq, getElem?_foldl_insertIfNew]
  simp

theorem initNodes_adjList (graph : DepGraph) (n : String) :
    (initNodes graph).adjList.getD n [] = [] := by
  rw [initNodes_eq, Std.TreeMap.getD_eq_getD_getElem?, getElem?_foldl_insertIfNew]
  split <;> simp

/-- The counter of a node is the number of its edges. -/
theorem foldl_countEdge_inDegree (es : List (String × String)) (m : DegreeMaps)
    (hmem : ∀ e ∈ es, (m.inDegree[e.1]?).isSome) (n : String) :
    (es.foldl (fun m e => countEdge m e.1 e.2) m).inDegree[n]? =
      (m.inDegree[n]?).map (· + es.countP fun e => e.1 = n) := by
  induction es generalizing m with
  | nil => simp
  | cons e es ih =>
    obtain ⟨he, hes⟩ := List.forall_mem_cons.mp hmem
    have hstep : ∀ k, (countEdge m e.1 e.2).inDegree[k]? =
        (m.inDegree[k]?).map (· + if e.1 = k then 1 else 0) := by
      intro k
      obtain ⟨d, hd⟩ := Option.isSome_iff_exists.mp he
      rw [countEdge, Std.TreeMap.getElem?_insert, Std.TreeMap.getD_eq_getD_getElem?, hd]
      simp only [Std.LawfulEqOrd.compare_eq_iff_eq]
      split
      · next h => simp [← h, hd]
      · simp
    rw [List.foldl_cons, ih _ fun x hx => by rw [hstep, Option.isSome_map]; exact hes x hx, hstep,
      Option.map_map, List.countP_cons]
    congr 1
    funext d
    simp only [Function.comp_apply, decide_eq_true_eq]
    omega

/-- The dependants of a node are the sources of the edges to it. -/
theorem foldl_countEdge_adjList (es : List (String × String)) (m : DegreeMaps) (n : String) :
    (es.foldl (fun m e => countEdge m e.1 e.2) m).adjList.getD n [] =
      m.adjList.getD n [] ++ (es.filter fun e => e.2 = n).map Prod.fst := by
  induction es generalizing m with
  | nil => simp
  | cons e es ih =>
    rw [List.foldl_cons, ih, countEdge, Std.TreeMap.getD_insert]
    simp only [Std.LawfulEqOrd.compare_eq_iff_eq, List.filter_cons]
    by_cases h : e.2 = n <;> simp [h]

theorem countEdges_inDegree (graph : DepGraph) (n : String) :
    (countEdges graph).inDegree[n]? =
      if n ∈ graph.keys then some ((edges graph).countP fun e => e.1 = n) else none := by
  rw [countEdges_eq, foldl_countEdge_inDegree, initNodes_inDegree]
  · split <;> simp
  · rintro ⟨a, b⟩ hab
    rw [initNodes_inDegree, if_pos (DependsOn.mem_keys hab)]
    rfl

theorem countEdges_adjList (graph : DepGraph) (n : String) :
    (countEdges graph).adjList.getD n [] = dependants graph n := by
  rw [countEdges_eq, foldl_countEdge_adjList, initNodes_adjList, List.nil_append, dependants]

/-! ### The inner loop -/

section LowerDegree

variable (ns : List String) (s : KahnState)

theorem foldl_lowerDegree_ordered : (ns.foldl lowerDegree s).ordered = s.ordered := by
  induction ns generalizing s with
  | nil => rfl
  | cons n ns ih =>
    rw [List.foldl_cons, ih, lowerDegree]
    split
    · rfl
    · split <;> rfl

theorem lowerDegree_inDegree (n k : String) :
    (lowerDegree s n).inDegree[k]? = (s.inDegree[k]?).map (· - if n = k then 1 else 0) := by
  rw [lowerDegree]
  split
  · next h =>
    by_cases hnk : n = k
    · simp [← hnk, h]
    · simp [hnk]
  · next d h =>
    have hinsert : (s.inDegree.insert n (d - 1))[k]? =
        (s.inDegree[k]?).map (· - if n = k then 1 else 0) := by
      rw [Std.TreeMap.getElem?_insert]
      simp only [Std.LawfulEqOrd.compare_eq_iff_eq]
      by_cases hnk : n = k
      · simp [← hnk, h]
      · simp [hnk]
    split <;> exact hinsert

/-- The counter of a node is lowered once for each time the node is a dependant. -/
theorem foldl_lowerDegree_inDegree (k : String) :
    (ns.foldl lowerDegree s).inDegree[k]? = (s.inDegree[k]?).map (· - ns.count k) := by
  induction ns generalizing s with
  | nil => simp
  | cons n ns ih =>
    rw [List.foldl_cons, ih, lowerDegree_inDegree, Option.map_map, List.count_cons]
    congr 1
    funext d
    simp only [Function.comp_apply, beq_iff_eq]
    omega

/-- A dependant with its last dependency listed joins the queue. -/
theorem lowerDegree_queue (n : String) : (lowerDegree s n).queue =
    if ∃ d ≤ 1, s.inDegree[n]? = some d then s.queue ++ [n] else s.queue := by
  rw [lowerDegree]
  split
  · next h => simp [h]
  · next d h =>
    have hiff : (∃ d' ≤ 1, s.inDegree[n]? = some d') ↔ d - 1 = 0 := by
      simp only [h, Option.some.injEq, exists_eq_right']
      omega
    by_cases hd : d - 1 = 0
    · rw [if_pos hd, if_pos (hiff.mpr hd)]
    · rw [if_neg hd, if_neg fun hx => hd (hiff.mp hx)]

/-- The dependants whose counter runs out join the queue, once each, if no counter is too low. -/
theorem foldl_lowerDegree_queue (hcount : ∀ k d, s.inDegree[k]? = some d → ns.count k ≤ d)
    (hqueue : ∀ k ∈ s.queue, k ∉ ns) (hnodup : s.queue.Nodup) :
    (ns.foldl lowerDegree s).queue.Nodup ∧ ∀ k, k ∈ (ns.foldl lowerDegree s).queue ↔
      k ∈ s.queue ∨ k ∈ ns ∧ s.inDegree[k]? = some (ns.count k) := by
  induction ns generalizing s with
  | nil => simp [hnodup]
  | cons n ns ih =>
    have hcount' : ∀ k d, (lowerDegree s n).inDegree[k]? = some d → ns.count k ≤ d := by
      intro k d hd
      rw [lowerDegree_inDegree, Option.map_eq_some_iff] at hd
      obtain ⟨d', hd', rfl⟩ := hd
      have h := hcount k d' hd'
      rw [List.count_cons] at h
      simp only [beq_iff_eq] at h
      omega
    have hn : n ∉ s.queue := fun hmem => hqueue n hmem List.mem_cons_self
    have hlast : (∃ d ≤ 1, s.inDegree[n]? = some d) → s.inDegree[n]? = some 1 ∧ n ∉ ns := by
      rintro ⟨d, hd, hdeg⟩
      have h := hcount n d hdeg
      rw [List.count_cons_self] at h
      have hd1 : d = 1 := by omega
      refine ⟨hd1 ▸ hdeg, fun hmem => ?_⟩
      have := List.count_pos_iff.mpr hmem
      omega
    have hqueue' : ∀ k ∈ (lowerDegree s n).queue, k ∉ ns := by
      intro k hk hkns
      rw [lowerDegree_queue] at hk
      split at hk
      · next h =>
        rcases List.mem_append.mp hk with hk | hk
        · exact hqueue k hk (List.mem_cons_of_mem n hkns)
        · exact (hlast h).2 (List.mem_singleton.mp hk ▸ hkns)
      · exact hqueue k hk (List.mem_cons_of_mem n hkns)
    have hnodup' : (lowerDegree s n).queue.Nodup := by
      rw [lowerDegree_queue]
      split
      · exact List.nodup_append_comm.mp (List.nodup_cons.mpr ⟨hn, hnodup⟩)
      · exact hnodup
    obtain ⟨hres, hmem⟩ := ih _ hcount' hqueue' hnodup'
    refine ⟨hres, fun k => ?_⟩
    rw [List.foldl_cons, hmem, lowerDegree_queue, lowerDegree_inDegree]
    by_cases hkn : n = k
    · subst hkn
      rw [if_pos rfl, List.count_cons_self, Option.map_eq_some_iff]
      simp only [hn, false_or, List.mem_cons, true_or, true_and]
      constructor
      · rintro (h | ⟨-, d, hd, hdcount⟩)
        · split at h
          · next h' =>
            rw [(hlast h').1, List.count_eq_zero.mpr (hlast h').2]
          · exact absurd h hn
        · have h := hcount n d hd
          rw [List.count_cons_self] at h
          rw [hd, Option.some.injEq]
          omega
      · intro hd
        by_cases hns : n ∈ ns
        · exact .inr ⟨hns, _, hd, rfl⟩
        · rw [List.count_eq_zero.mpr hns] at hd
          exact .inl (by simp [hd])
    · have hk : (k ∈ if ∃ d ≤ 1, s.inDegree[n]? = some d then s.queue ++ [n] else s.queue) ↔
          k ∈ s.queue := by
        split <;> simp [Ne.symm hkn]
      simp [hk, hkn, Ne.symm hkn]

end LowerDegree

/-! ### Rounds -/

/-- The edges of `n` to nodes that are not listed. -/
def unlisted (graph : DepGraph) (ordered : List String) (n : String) : ℕ :=
  (edges graph).countP fun e => e.1 = n ∧ e.2 ∉ ordered

theorem unlisted_eq_zero {graph : DepGraph} {ordered : List String} {n : String} :
    unlisted graph ordered n = 0 ↔ ∀ b, DependsOn graph n b → b ∈ ordered := by
  rw [unlisted, List.countP_eq_zero]
  constructor
  · intro h b hb
    by_contra hmem
    exact h (n, b) hb (by simp [hmem])
  · rintro h ⟨a, b⟩ hab
    simp only [decide_eq_true_eq]
    rintro ⟨rfl, hb⟩
    exact hb (h b hab)

/-- Listing one more node settles the edges to it. -/
theorem unlisted_append (graph : DepGraph) {ordered : List String} {c : String} (hc : c ∉ ordered)
    (n : String) : unlisted graph ordered n =
      unlisted graph (ordered ++ [c]) n + (dependants graph c).count n := by
  rw [unlisted, unlisted, dependants, List.count, List.countP_map, List.countP_filter]
  induction edges graph with
  | nil => rfl
  | cons e es ih =>
    simp only [List.countP_cons, ih]
    by_cases h₁ : e.1 = n <;> by_cases h₂ : e.2 = c <;> by_cases h₃ : e.2 ∈ ordered <;>
      simp_all <;> omega

/-- What holds before every round: the run so far is greedy, the counters count the edges to nodes
that are not listed, and the queue holds the ready nodes in order. -/
structure KahnInvariant (graph : DepGraph) (s : KahnState) : Prop where
  run : GreedyRun graph.keys (DependsOn graph) s.ordered
  degrees : ∀ n, s.inDegree[n]? =
    if n ∈ graph.keys then some (unlisted graph s.ordered n) else none
  queue_nodup : s.queue.Nodup
  queue_sorted : s.queue.Pairwise (· ≤ ·)
  mem_queue : ∀ n, n ∈ s.queue ↔ Ready graph.keys (DependsOn graph) s.ordered n

theorem ready_iff {graph : DepGraph} {ordered : List String} {n : String} :
    Ready graph.keys (DependsOn graph) ordered n ↔
      n ∈ graph.keys ∧ n ∉ ordered ∧ unlisted graph ordered n = 0 := by
  rw [unlisted_eq_zero]
  exact ⟨fun h => ⟨h.mem, h.notMem, h.deps⟩, fun ⟨h, h', h''⟩ => ⟨h, h', h''⟩⟩

theorem mem_sortStrings {l : List String} {a : String} : a ∈ sortStrings l ↔ a ∈ l :=
  (List.perm_insertionSort (· ≤ ·) l).mem_iff

theorem sortStrings_nodup {l : List String} (h : l.Nodup) : (sortStrings l).Nodup :=
  (List.perm_insertionSort (· ≤ ·) l).nodup_iff.mpr h

theorem sortStrings_sorted (l : List String) : (sortStrings l).Pairwise (· ≤ ·) :=
  List.pairwise_insertionSort (· ≤ ·) l

theorem kahnInit_invariant (scan : Rearrangement String) (graph : DepGraph) :
    KahnInvariant graph (kahnInit scan (countEdges graph)) := by
  have hkeys : ∀ n, n ∈ scan.order (countEdges graph).inDegree.keys ↔ n ∈ graph.keys := by
    intro n
    rw [(scan.perm _).mem_iff, Std.TreeMap.mem_keys, Std.TreeMap.mem_iff_isSome_getElem?,
      countEdges_inDegree]
    split <;> simp_all
  have hunlisted : ∀ n, unlisted graph [] n = (edges graph).countP fun e => e.1 = n := by
    simp [unlisted]
  refine ⟨.nil, fun n => ?_, ?_, sortStrings_sorted _, fun n => ?_⟩
  · rw [kahnInit, countEdges_inDegree, hunlisted]
  · exact sortStrings_nodup (((scan.perm _).nodup_iff.mpr
      (Std.TreeMap.ordered_keys.imp fun h heq => by simp [heq] at h)).filter _)
  · rw [kahnInit, mem_sortStrings, List.mem_filter, hkeys, ready_iff, hunlisted,
      Std.TreeMap.getD_eq_getD_getElem?, countEdges_inDegree]
    refine and_congr_right fun hn => ?_
    simp [hn]

theorem kahnStep_eq (adjList : Std.TreeMap String (List String)) (s : KahnState)
    (current : String) (rest : List String) : kahnStep adjList s current rest =
      { (adjList.getD current []).foldl lowerDegree
          { s with queue := rest, ordered := s.ordered ++ [current] } with
        queue := sortStrings ((adjList.getD current []).foldl lowerDegree
          { s with queue := rest, ordered := s.ordered ++ [current] }).queue } := by
  rw [kahnStep, Std.TreeMap.getD_eq_getD_getElem?]
  cases adjList[current]? <;> rfl

/-- What becomes ready by listing `c`: what was ready, and what depended on nothing else. -/
theorem ready_append_iff {graph : DepGraph} {ordered : List String} {c : String}
    (hrun : GreedyRun graph.keys (DependsOn graph) ordered)
    (hc : Ready graph.keys (DependsOn graph) ordered c) (k : String) :
    Ready graph.keys (DependsOn graph) (ordered ++ [c]) k ↔
      k ≠ c ∧ Ready graph.keys (DependsOn graph) ordered k ∨
        k ∈ dependants graph c ∧ unlisted graph ordered k = (dependants graph c).count k := by
  have hsplit := unlisted_append graph hc.notMem k
  rw [ready_iff, ready_iff, List.mem_append, List.mem_singleton, not_or]
  constructor
  · rintro ⟨hk, ⟨hordered, hkc⟩, hzero⟩
    by_cases hmem : k ∈ dependants graph c
    · exact .inr ⟨hmem, by omega⟩
    · rw [List.count_eq_zero.mpr hmem] at hsplit
      exact .inl ⟨hkc, hk, hordered, by omega⟩
  · rintro (⟨hkc, hk, hordered, hzero⟩ | ⟨hmem, heq⟩)
    · exact ⟨hk, ⟨hordered, hkc⟩, by omega⟩
    · have hdep := mem_dependants.mp hmem
      refine ⟨hdep.mem_keys, ⟨fun hordered => ?_, ?_⟩, by omega⟩
      · exact hc.notMem ((hrun.before hordered hdep).subset List.mem_cons_self)
      · rintro rfl
        exact hc.notMem (hc.deps k hdep)

/-- **A round keeps the invariant.** -/
theorem kahnStep_invariant {graph : DepGraph} {s : KahnState} (h : KahnInvariant graph s)
    {current : String} {rest : List String} (hqueue : s.queue = current :: rest) :
    KahnInvariant graph (kahnStep (countEdges graph).adjList s current rest) := by
  obtain ⟨hrun, hdegrees, hnodup, hsorted, hmem⟩ := h
  rw [hqueue] at hnodup hsorted hmem
  obtain ⟨hcrest, hrest⟩ := List.nodup_cons.mp hnodup
  have hcurrent := (hmem current).mp List.mem_cons_self
  have hmin : ∀ b, Ready graph.keys (DependsOn graph) s.ordered b → current ≤ b := by
    intro b hb
    rcases List.mem_cons.mp ((hmem b).mpr hb) with rfl | hb
    · exact le_rfl
    · exact (List.pairwise_cons.mp hsorted).1 b hb
  have hmemRest : ∀ k, k ∈ rest ↔
      k ≠ current ∧ Ready graph.keys (DependsOn graph) s.ordered k := by
    intro k
    rw [← hmem k, List.mem_cons]
    constructor
    · exact fun hk => ⟨fun hkc => hcrest (hkc ▸ hk), .inr hk⟩
    · exact fun ⟨hkc, hk⟩ => hk.resolve_left hkc
  have hsplit := unlisted_append graph hcurrent.notMem
  -- a counter bounds what it is lowered by, and is zero in the queue
  have hcount : ∀ k d, s.inDegree[k]? = some d → (dependants graph current).count k ≤ d := by
    intro k d hd
    rw [hdegrees] at hd
    split at hd
    · rw [← Option.some.inj hd, hsplit k]
      exact Nat.le_add_left _ _
    · cases hd
  have hqueue' : ∀ k ∈ rest, k ∉ dependants graph current := by
    intro k hk
    have hzero := (ready_iff.mp ((hmemRest k).mp hk).2).2.2
    rw [hsplit k] at hzero
    exact List.count_eq_zero.mp (Nat.eq_zero_of_add_eq_zero hzero).2
  have hloop := foldl_lowerDegree_queue (dependants graph current)
    { s with queue := rest, ordered := s.ordered ++ [current] } hcount hqueue' hrest
  rw [kahnStep_eq, countEdges_adjList]
  refine ⟨?_, fun n => ?_, sortStrings_nodup hloop.1, sortStrings_sorted _, fun k => ?_⟩
  · simp only [foldl_lowerDegree_ordered]
    exact hrun.snoc hcurrent hmin
  · simp only [foldl_lowerDegree_ordered, foldl_lowerDegree_inDegree, hdegrees, hsplit n]
    split <;> simp
  · simp only [foldl_lowerDegree_ordered, mem_sortStrings, hloop.2, hdegrees,
      ready_append_iff hrun hcurrent, hmemRest]
    refine or_congr_right (and_congr_right fun hk => ?_)
    rw [if_pos (mem_dependants.mp hk).mem_keys, Option.some.injEq]

/-- Every round lists one more node. -/
theorem kahnStep_ordered (graph : DepGraph) (s : KahnState) (current : String)
    (rest : List String) :
    (kahnStep (countEdges graph).adjList s current rest).ordered = s.ordered ++ [current] := by
  rw [kahnStep_eq]
  exact foldl_lowerDegree_ordered _ _

/-- **All rounds keep the invariant, and with enough of them the queue runs empty.** -/
theorem kahnLoop_invariant {graph : DepGraph} (fuel : ℕ) {s : KahnState}
    (h : KahnInvariant graph s) (hfuel : graph.keys.length ≤ s.ordered.length + fuel) :
    KahnInvariant graph (kahnLoop (countEdges graph).adjList fuel s) ∧
      (kahnLoop (countEdges graph).adjList fuel s).queue = [] := by
  induction fuel generalizing s with
  | zero =>
    refine ⟨h, List.eq_nil_iff_forall_not_mem.mpr fun n hn => ?_⟩
    have hready := (h.mem_queue n).mp hn
    have hle := (h.run.nodup.subperm h.run.subset).perm_of_length_le hfuel
    exact hready.notMem (hle.mem_iff.mpr hready.mem)
  | succ fuel ih =>
    rw [kahnLoop]
    cases hqueue : s.queue with
    | nil => exact ⟨h, hqueue⟩
    | cons current rest =>
      refine ih (kahnStep_invariant h hqueue) ?_
      rw [kahnStep_ordered, List.length_append, List.length_singleton]
      omega

/-! ### The result -/

theorem kahn_invariant (scan : Rearrangement String) (graph : DepGraph) :
    KahnInvariant graph (kahn scan graph) ∧ (kahn scan graph).queue = [] :=
  kahnLoop_invariant graph.keys.length (kahnInit_invariant scan graph) (Nat.le_add_left _ _)

/-- The main loop stops when no node is ready. -/
theorem kahn_stalled (scan : Rearrangement String) (graph : DepGraph) (n : String) :
    ¬ Ready graph.keys (DependsOn graph) (kahn scan graph).ordered n := by
  obtain ⟨hinv, hempty⟩ := kahn_invariant scan graph
  intro hn
  have hmem := (hinv.mem_queue n).mpr hn
  rw [hempty] at hmem
  cases hmem

/-- The sort succeeds when the main loop has listed every node. -/
theorem topoSort_eq_ok_iff_kahn (scan : Rearrangement String) (graph : DepGraph)
    (order : List String) : topoSort scan graph = .ok order ↔
      order = (kahn scan graph).ordered ∧ ∀ n ∈ graph.keys, n ∈ (kahn scan graph).ordered := by
  have hrun := (kahn_invariant scan graph).1.run
  have hall : (kahn scan graph).ordered.length = graph.keys.length ↔
      ∀ n ∈ graph.keys, n ∈ (kahn scan graph).ordered := by
    constructor
    · intro hlen n hn
      exact ((hrun.nodup.subperm hrun.subset).perm_of_length_le hlen.ge).mem_iff.mpr hn
    · exact fun hall => (hrun.isTopological graph.nodup hall).perm.length_eq
  rw [topoSort, ← hall]
  by_cases hlen : (kahn scan graph).ordered.length = graph.keys.length
  · simp [hlen, eq_comm]
  · simp [hlen]

/-- **The result is the smallest topological order.** -/
theorem topoSort_isLeast {scan : Rearrangement String} {graph : DepGraph} {order : List String}
    (h : topoSort scan graph = .ok order) :
    IsTopological graph.keys (DependsOn graph) order ∧
      ∀ order', IsTopological graph.keys (DependsOn graph) order' → order ≤ order' := by
  obtain ⟨rfl, hall⟩ := (topoSort_eq_ok_iff_kahn scan graph order).mp h
  have hrun := (kahn_invariant scan graph).1.run
  exact ⟨hrun.isTopological graph.nodup hall, fun _ => hrun.le graph.nodup hall⟩

/-- **The sort succeeds exactly when all dependencies are nodes and none is on a cycle.** -/
theorem exists_topoSort_eq_ok_iff (scan : Rearrangement String) (graph : DepGraph) :
    (∃ order, topoSort scan graph = .ok order) ↔
      (∀ a b, DependsOn graph a b → b ∈ graph.keys) ∧
        AcyclicOn graph.keys (DependsOn graph) := by
  constructor
  · rintro ⟨order, h⟩
    have htop := (topoSort_isLeast h).1
    exact ⟨fun a b hab => htop.mem_of_dep hab.mem_keys hab, htop.acyclicOn graph.nodup⟩
  · rintro ⟨hclosed, hacyclic⟩
    exact ⟨_, (topoSort_eq_ok_iff_kahn scan graph _).mpr ⟨rfl,
      GreedyRun.mem_of_stalled (fun a _ b hab => hclosed a b hab) hacyclic
        (kahn_stalled scan graph)⟩⟩

/-! ### The node of an error -/

/-- A node reaches itself through one or more dependencies. -/
def OnCycle (graph : DepGraph) (n : String) : Prop := Relation.TransGen (DependsOn graph) n n

/-- A counter is positive when the node is not listed. -/
theorem kahn_degree_pos_iff (scan : Rearrangement String) (graph : DepGraph) (n : String) :
    0 < (kahn scan graph).inDegree.getD n 0 ↔ n ∈ graph.keys ∧ n ∉ (kahn scan graph).ordered := by
  obtain ⟨hrun, hdegrees, -⟩ := (kahn_invariant scan graph).1
  rw [Std.TreeMap.getD_eq_getD_getElem?, hdegrees]
  by_cases hn : n ∈ graph.keys
  · rw [if_pos hn, Option.getD_some, Nat.pos_iff_ne_zero, Ne, unlisted_eq_zero, and_iff_right hn]
    refine not_congr ⟨fun hdeps => ?_, fun hlisted b hb => ?_⟩
    · by_contra hlisted
      exact kahn_stalled scan graph n ⟨hn, hlisted, hdeps⟩
    · exact (hrun.before hlisted hb).subset List.mem_cons_self
  · simp [hn]

/-- The node of an error is the first one in the iteration order that is not listed. -/
theorem topoSort_eq_error_iff {scan : Rearrangement String} {graph : DepGraph} {n : String} :
    topoSort scan graph = .error n ↔
      ((scan.order (kahn scan graph).inDegree.keys).find? fun n =>
        0 < (kahn scan graph).inDegree.getD n 0) = some n := by
  have hpos := kahn_degree_pos_iff scan graph
  have hkey : ∀ m, m ∈ scan.order (kahn scan graph).inDegree.keys ↔ m ∈ graph.keys := by
    intro m
    rw [(scan.perm _).mem_iff, Std.TreeMap.mem_keys, Std.TreeMap.mem_iff_isSome_getElem?,
      (kahn_invariant scan graph).1.degrees]
    split <;> simp_all
  have hok : (∃ order, topoSort scan graph = .ok order) ↔
      ∀ m ∈ graph.keys, m ∈ (kahn scan graph).ordered :=
    ⟨fun ⟨order, h⟩ => ((topoSort_eq_ok_iff_kahn scan graph order).mp h).2,
      fun h => ⟨_, (topoSort_eq_ok_iff_kahn scan graph _).mpr ⟨rfl, h⟩⟩⟩
  cases hfind : (scan.order (kahn scan graph).inDegree.keys).find? fun n =>
      0 < (kahn scan graph).inDegree.getD n 0 with
  | none =>
    have hall : ∀ m ∈ graph.keys, m ∈ (kahn scan graph).ordered := by
      intro m hm
      by_contra hlisted
      have hnot := List.find?_eq_none.mp hfind m ((hkey m).mpr hm)
      exact hnot (by simpa using (hpos m).mpr ⟨hm, hlisted⟩)
    obtain ⟨order, horder⟩ := hok.mpr hall
    simp [horder]
  | some m =>
    have hm : 0 < (kahn scan graph).inDegree.getD m 0 := by simpa using List.find?_some hfind
    obtain ⟨hkeys, hlisted⟩ := (hpos m).mp hm
    have hlength : (kahn scan graph).ordered.length ≠ graph.keys.length := by
      intro hlength
      obtain ⟨order, horder⟩ : ∃ order, topoSort scan graph = .ok order :=
        ⟨_, by rw [topoSort, if_neg (not_not.mpr hlength)]⟩
      exact hlisted (hok.mp ⟨order, horder⟩ m hkeys)
    rw [topoSort, if_pos hlength, hfind, Option.getD_some, Except.error.injEq, Option.some.injEq]

/-- A node that depends on a node on a cycle is the node of the error in some iteration order. -/
theorem exists_error_of_dependsOn {graph : DepGraph} {a b : String} (hab : DependsOn graph a b)
    (hb : OnCycle graph b) : topoSort (Rearrangement.toFront a) graph = .error a := by
  have hrun := (kahn_invariant (Rearrangement.toFront a) graph).1.run
  have hlisted : a ∉ (kahn (Rearrangement.toFront a) graph).ordered := fun ha =>
    hrun.notMem_of_cycle hb (hrun.idxOf_lt (.single hab) ha).1
  have hpos := (kahn_degree_pos_iff (Rearrangement.toFront a) graph a).mpr ⟨hab.mem_keys, hlisted⟩
  have hmem : a ∈ (kahn (Rearrangement.toFront a) graph).inDegree.keys := by
    rw [Std.TreeMap.mem_keys]
    by_contra hnot
    rw [Std.TreeMap.getD_eq_fallback hnot] at hpos
    exact hpos.false
  exact topoSort_eq_error_iff.mpr (Rearrangement.find?_toFront hmem (decide_eq_true hpos))

/-- **The node of an error is on a cycle, whatever the iteration order is**, exactly if every node
that depends on a node on a cycle is on one itself. -/
theorem error_on_cycle_iff (graph : DepGraph)
    (hclosed : ∀ a b, DependsOn graph a b → b ∈ graph.keys) :
    (∀ scan n, topoSort scan graph = .error n → OnCycle graph n) ↔
      ∀ a b, DependsOn graph a b → OnCycle graph b → OnCycle graph a := by
  constructor
  · exact fun h a b hab hb => h _ a (exists_error_of_dependsOn hab hb)
  · intro h scan n hn
    have hfind := topoSort_eq_error_iff.mp hn
    obtain ⟨hkeys, hlisted⟩ :=
      (kahn_degree_pos_iff scan graph n).mp (by simpa using List.find?_some hfind)
    obtain ⟨c, hreach, hcycle⟩ := exists_cycle_of_stalled (fun a _ b hab => hclosed a b hab)
      (kahn_stalled scan graph) hkeys hlisted
    -- the cycle is carried back along the dependencies
    exact hreach.head_induction_on hcycle fun hab _ hb => h _ _ hab hb

/-- Two packages that depend on each other. -/
def mutualGraph : DepGraph := ⟨[("token", ["vault"]), ("vault", ["token"])], by decide⟩

/-- Each of the two packages is on the cycle that is reported. -/
theorem error_on_cycle_mutual :
    (∀ scan n, topoSort scan mutualGraph = .error n → OnCycle mutualGraph n) ↔
      ∀ a b, DependsOn mutualGraph a b → OnCycle mutualGraph b → OnCycle mutualGraph a := by
  refine error_on_cycle_iff mutualGraph fun a b hab => ?_
  have hall : ∀ e ∈ edges mutualGraph, e.2 ∈ mutualGraph.keys := by decide
  exact hall (a, b) hab

/-- Two packages that depend on each other, and an application that uses one of them. -/
def tailGraph : DepGraph :=
  ⟨[("token", ["vault"]), ("vault", ["token"]), ("app", ["token"])], by decide⟩

/-- The application is reported, which is on no cycle. -/
theorem tail_is_reported : (∀ a b, DependsOn tailGraph a b → b ∈ tailGraph.keys) ∧
    topoSort (Rearrangement.toFront "app") tailGraph = .error "app" ∧
      ¬ OnCycle tailGraph "app" := by
  have hall : ∀ e ∈ edges tailGraph, e.2 ∈ tailGraph.keys := by decide
  have htoken : DependsOn tailGraph "token" "vault" := by
    rw [DependsOn]
    decide
  have hvault : DependsOn tailGraph "vault" "token" := by
    rw [DependsOn]
    decide
  have happ : DependsOn tailGraph "app" "token" := by
    rw [DependsOn]
    decide
  refine ⟨fun a b hab => hall (a, b) hab,
    exists_error_of_dependsOn happ (.tail (.single htoken) hvault), fun hcycle => ?_⟩
  -- nothing depends on the application
  have hnone : ∀ e ∈ edges tailGraph, e.2 ≠ "app" := by decide
  obtain ⟨b, -, hb⟩ := Relation.TransGen.tail'_iff.mp hcycle
  exact hnone (b, "app") hb rfl

end SorobanDevkit.Core
