import SorobanDevkit.Core.Config
import SorobanDevkit.Core.TopoSort

/-!
# The deploy order of a project

`resolve_deploy_order` of `sdkt-core/src/project.rs` merges the two spellings of a contract's
dependencies, rejects a dependency that is declared twice, that is the contract itself or that is
not defined, and sorts the contracts topologically. The checks run in the iteration order of the
contracts, and stop at the first dependency that fails one.
-/

namespace SorobanDevkit.Core

open TopologicalOrder

/-- `ProjectError`, as far as resolving the deploy order raises it. -/
inductive ProjectError
  | missingConfig
  | circularDependency (path : String)
  | unknownDependency (dep : String)
  | selfDependency (contract : String)
  | duplicateDependency (contract : String)
  deriving DecidableEq

/-- The dependencies of a contract in the order in which they are checked. -/
def ContractConfig.allDeps (cfg : ContractConfig) : List String := cfg.deployAfter ++ cfg.dependsOn

/-- The inner loop of `resolve_deploy_order`: a dependency is checked and then merged. -/
def mergeDeps (contracts : UnorderedMap String ContractConfig) (contract : String)
    (merged : List String) : List String → Except ProjectError (List String)
  | [] => .ok merged
  | dep :: deps =>
    if dep ∈ merged then .error (.duplicateDependency contract)
    else if dep = contract then .error (.selfDependency contract)
    else if dep ∉ contracts.keys then .error (.unknownDependency dep)
    else mergeDeps contracts contract (merged ++ [dep]) deps

/-- The loops of `resolve_deploy_order`: the graph of the merged dependencies, or the first failed
check in the iteration order of the contracts. -/
def buildGraph (contracts : UnorderedMap String ContractConfig) : Except ProjectError DepGraph :=
  contracts.traverse fun contract cfg => mergeDeps contracts contract [] cfg.allDeps

/-- `resolve_deploy_order`. The graph is a hash map with an iteration order of its own. -/
def resolveDeployOrder (graphOrder : Rearrangement (String × List String))
    (scan : Rearrangement String) (config : DevKitConfig) : Except ProjectError (List String) :=
  if config.contracts.entries.isEmpty then .error .missingConfig
  else
    match buildGraph config.contracts with
    | .error e => .error e
    | .ok graph =>
      match topoSort scan (graph.rearrange graphOrder) with
      | .error node => .error (.circularDependency node)
      | .ok order => .ok order

/-! ### Checked dependencies -/

/-- The dependencies of a contract are defined, different from each other and from the contract. -/
structure WellDeclared (contracts : UnorderedMap String ContractConfig) (contract : String)
    (deps : List String) : Prop where
  nodup : deps.Nodup
  notSelf : contract ∉ deps
  defined : ∀ dep ∈ deps, dep ∈ contracts.keys

/-- **A contract passes the checks when its dependencies are well declared.** -/
theorem mergeDeps_eq_ok_iff (contracts : UnorderedMap String ContractConfig) (contract : String)
    (merged deps : List String) (hmerged : merged.Nodup) (result : List String) :
    mergeDeps contracts contract merged deps = .ok result ↔
      result = merged ++ deps ∧ (merged ++ deps).Nodup ∧ contract ∉ deps ∧
        ∀ dep ∈ deps, dep ∈ contracts.keys := by
  induction deps generalizing merged with
  | nil => simp [mergeDeps, hmerged, eq_comm]
  | cons dep deps ih =>
    rw [mergeDeps]
    by_cases hmem : dep ∈ merged
    · have hdup : ¬ (merged ++ dep :: deps).Nodup := fun h =>
        (List.disjoint_of_nodup_append h) hmem List.mem_cons_self
      simp [hmem, hdup]
    · by_cases hself : dep = contract
      · subst hself
        simp [hmem]
      · by_cases hdef : dep ∈ contracts.keys
        · have hmerged' : (merged ++ [dep]).Nodup :=
            List.nodup_append_comm.mp (List.nodup_cons.mpr ⟨hmem, hmerged⟩)
          rw [if_neg hmem, if_neg hself, if_neg (not_not.mpr hdef), ih _ hmerged']
          simp [hdef, Ne.symm hself]
        · simp [hmem, hself, hdef]

/-- The contract `a` is deployed after the contract `b`. -/
def DeployAfter (config : DevKitConfig) (a b : String) : Prop :=
  ∃ cfg, (a, cfg) ∈ config.contracts.entries ∧ b ∈ cfg.allDeps

/-- Every contract is well declared. -/
def AllWellDeclared (config : DevKitConfig) : Prop :=
  ∀ e ∈ config.contracts.entries, WellDeclared config.contracts e.1 e.2.allDeps

theorem exists_mergeDeps_iff (contracts : UnorderedMap String ContractConfig) (contract : String)
    (deps : List String) : (∃ merged, mergeDeps contracts contract [] deps = .ok merged) ↔
      WellDeclared contracts contract deps := by
  simp only [mergeDeps_eq_ok_iff contracts contract [] deps List.nodup_nil, List.nil_append]
  exact ⟨fun ⟨_, _, h₁, h₂, h₃⟩ => ⟨h₁, h₂, h₃⟩, fun ⟨h₁, h₂, h₃⟩ => ⟨deps, rfl, h₁, h₂, h₃⟩⟩

theorem exists_buildGraph_iff (config : DevKitConfig) :
    (∃ graph, buildGraph config.contracts = .ok graph) ↔ AllWellDeclared config := by
  rw [buildGraph, UnorderedMap.exists_traverse_iff]
  simp only [exists_mergeDeps_iff, AllWellDeclared]

/-- The edges of the graph are the declared dependencies. -/
theorem dependsOn_buildGraph {config : DevKitConfig} {graph : DepGraph}
    (h : buildGraph config.contracts = .ok graph) (a b : String) :
    DependsOn graph a b ↔ DeployAfter config a b := by
  have hwell := (exists_buildGraph_iff config).mp ⟨graph, h⟩
  rw [dependsOn_iff]
  simp only [UnorderedMap.mem_traverse h,
    mergeDeps_eq_ok_iff config.contracts _ [] _ List.nodup_nil, List.nil_append]
  constructor
  · rintro ⟨_, ⟨cfg, hmem, rfl, -⟩, hb⟩
    exact ⟨cfg, hmem, hb⟩
  · rintro ⟨cfg, hmem, hb⟩
    obtain ⟨h₁, h₂, h₃⟩ := hwell _ hmem
    exact ⟨_, ⟨cfg, hmem, rfl, h₁, h₂, h₃⟩, hb⟩

section Resolve

variable (graphOrder : Rearrangement (String × List String)) (scan : Rearrangement String)

/-- The project is not well declared, or its graph is sorted. -/
theorem resolveDeployOrder_cases {config : DevKitConfig} (hne : config.contracts.entries ≠ []) :
    (¬ AllWellDeclared config ∧ ∀ order, resolveDeployOrder graphOrder scan config ≠ .ok order) ∨
    (AllWellDeclared config ∧ ∃ graph : DepGraph, graph.keys.Perm config.contracts.keys ∧
      DependsOn graph = DeployAfter config ∧
      ∀ order, resolveDeployOrder graphOrder scan config = .ok order ↔
        topoSort scan graph = .ok order) := by
  have hempty : config.contracts.entries.isEmpty = false := by simpa using hne
  cases hgraph : buildGraph config.contracts with
  | error e =>
    refine .inl ⟨fun hwell => ?_, fun order => ?_⟩
    · obtain ⟨graph, h⟩ := (exists_buildGraph_iff config).mpr hwell
      rw [hgraph] at h
      cases h
    · simp [resolveDeployOrder, hempty, hgraph]
  | ok graph =>
    refine .inr ⟨(exists_buildGraph_iff config).mp ⟨graph, hgraph⟩, graph.rearrange graphOrder,
      ?_, ?_, fun order => ?_⟩
    · rw [← UnorderedMap.keys_traverse hgraph]
      exact (graph.rearrange_sameEntries graphOrder).keys_perm
    · funext a b
      rw [← propext (dependsOn_buildGraph hgraph a b), dependsOn_iff, dependsOn_iff]
      simp only [(graph.rearrange_sameEntries graphOrder).mem_iff]
    · simp only [resolveDeployOrder, hempty, hgraph]
      cases topoSort scan (graph.rearrange graphOrder) <;> simp

/-- There is a deploy order exactly when the project is well declared and has no cycle. -/
theorem exists_resolveDeployOrder_iff {config : DevKitConfig}
    (hne : config.contracts.entries ≠ []) :
    (∃ order, resolveDeployOrder graphOrder scan config = .ok order) ↔
      AllWellDeclared config ∧ AcyclicOn config.contracts.keys (DeployAfter config) := by
  rcases resolveDeployOrder_cases graphOrder scan hne with
    ⟨hbad, herror⟩ | ⟨hwell, graph, hkeys, hdep, hiff⟩
  · exact ⟨fun ⟨order, h⟩ => absurd h (herror order), fun ⟨hwell, _⟩ => absurd hwell hbad⟩
  · have hclosed : ∀ a b, DependsOn graph a b → b ∈ graph.keys := by
      intro a b hab
      rw [hdep] at hab
      obtain ⟨cfg, hmem, hb⟩ := hab
      exact hkeys.mem_iff.mpr ((hwell _ hmem).defined b hb)
    have hacyclic : AcyclicOn graph.keys (DependsOn graph) ↔
        AcyclicOn config.contracts.keys (DeployAfter config) := by
      simp only [AcyclicOn, hkeys.mem_iff, hdep]
    simp only [hiff, exists_topoSort_eq_ok_iff, hacyclic]
    exact ⟨fun h => ⟨hwell, h.2⟩, fun h => ⟨hclosed, h.2⟩⟩

/-- A deploy order is the smallest topological order of the contracts. -/
theorem resolveDeployOrder_isLeast {config : DevKitConfig}
    (hne : config.contracts.entries ≠ []) {order : List String}
    (h : resolveDeployOrder graphOrder scan config = .ok order) :
    IsTopological config.contracts.keys (DeployAfter config) order ∧
      ∀ order', IsTopological config.contracts.keys (DeployAfter config) order' →
        order ≤ order' := by
  rcases resolveDeployOrder_cases graphOrder scan hne with
    ⟨-, herror⟩ | ⟨-, graph, hkeys, hdep, hiff⟩
  · exact absurd h (herror order)
  · obtain ⟨htop, hleast⟩ := topoSort_isLeast ((hiff order).mp h)
    rw [hdep] at htop hleast
    exact ⟨htop.of_perm hkeys, fun order' h' => hleast order' (h'.of_perm hkeys.symm)⟩

end Resolve

/-- **The deploy order is correct, complete and canonical.** There is one exactly when no contract
lists itself, an undefined contract or a dependency twice, and no contract is on a cycle; and it is
the smallest order of the contracts in which each is after its dependencies, whatever the iteration
orders of the hash maps are. -/
theorem deploy_order_spec (graphOrder : Rearrangement (String × List String))
    (scan : Rearrangement String) (config : DevKitConfig)
    (hne : config.contracts.entries ≠ []) :
    ((∃ order, resolveDeployOrder graphOrder scan config = .ok order) ↔
      AllWellDeclared config ∧ AcyclicOn config.contracts.keys (DeployAfter config)) ∧
    ∀ order, resolveDeployOrder graphOrder scan config = .ok order →
      IsTopological config.contracts.keys (DeployAfter config) order ∧
      (∀ order', IsTopological config.contracts.keys (DeployAfter config) order' →
        order ≤ order') ∧
      ∀ graphOrder' scan' (config' : DevKitConfig),
        config.contracts.SameEntries config'.contracts →
          resolveDeployOrder graphOrder' scan' config' = .ok order := by
  refine ⟨exists_resolveDeployOrder_iff graphOrder scan hne, fun order h => ?_⟩
  obtain ⟨htop, hleast⟩ := resolveDeployOrder_isLeast graphOrder scan hne h
  refine ⟨htop, hleast, fun graphOrder' scan' config' hsame => ?_⟩
  -- the other iteration orders are those of a project with the same declarations
  have hne' : config'.contracts.entries ≠ [] := by
    intro hnil
    rw [UnorderedMap.SameEntries, hnil] at hsame
    exact hne hsame.eq_nil
  have hkeys := hsame.keys_perm
  have hdep : DeployAfter config = DeployAfter config' := by
    funext a b
    simp only [DeployAfter, hsame.mem_iff]
  obtain ⟨hwell, hacyclic⟩ := (exists_resolveDeployOrder_iff graphOrder scan hne).mp ⟨order, h⟩
  have hwell' : AllWellDeclared config' := by
    intro e he
    obtain ⟨h₁, h₂, h₃⟩ := hwell e (hsame.mem_iff.mpr he)
    exact ⟨h₁, h₂, fun dep hdep => hkeys.mem_iff.mp (h₃ dep hdep)⟩
  have hacyclic' : AcyclicOn config'.contracts.keys (DeployAfter config') := by
    intro a ha
    exact hdep ▸ hacyclic a (hkeys.mem_iff.mpr ha)
  obtain ⟨order', h'⟩ := (exists_resolveDeployOrder_iff graphOrder' scan' hne').mpr
    ⟨hwell', hacyclic'⟩
  obtain ⟨htop', hleast'⟩ := resolveDeployOrder_isLeast graphOrder' scan' hne' h'
  rw [← hdep] at htop' hleast'
  rw [h', le_antisymm (hleast' order (htop.of_perm hkeys))
    (hleast order' (htop'.of_perm hkeys.symm))]

/-- A token is deployed before the market that trades it and the vault that holds it. -/
def threeContracts : DevKitConfig where
  contracts := ⟨[("vault", ⟨"vault", ["token"], [], []⟩), ("token", ⟨"token", [], [], []⟩),
    ("market", ⟨"market", [], ["token"], []⟩)], by decide⟩
  package := none
  dependencies := ⟨[], List.nodup_nil⟩

/-- The three contracts have the same order in another iteration order. -/
theorem deploy_order_spec_threeContracts :
    resolveDeployOrder .reverse .reverse threeContracts = .ok ["token", "market", "vault"] :=
  ((deploy_order_spec .id .id threeContracts (by decide)).2 _ (by decide)).2.2 _ _ _
    (List.Perm.refl _)

end SorobanDevkit.Core
