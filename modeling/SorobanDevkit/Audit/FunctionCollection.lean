import SorobanDevkit.Audit.FnScans

/-!
# The functions that are scanned

`scan_all_functions` of `sdkt-audit/src/audit.rs` scans the function items of a file and the methods
of its `impl` blocks. It does not go into modules, and the visitor of a body goes into the functions
that are nested in it.
-/

namespace SorobanDevkit.Audit

/-! ### Scans of a file -/

/-- `has_contractimpl_attr`. -/
def hasContractimplAttr (attrs : List (List String)) : Bool :=
  attrs.any fun path => path.getLast?.any (· == "contractimpl")

/-- The last name of the type of an `impl` block. -/
def implTypeName (selfTy : Option (List String)) : String := (selfTy.bind (·.getLast?)).getD ""

/-- The name of a method. -/
def qualifiedName (typeName ident : String) : String :=
  if typeName = "" then ident else typeName ++ "::" ++ ident

/-- The scan of a method, for an item of an `impl` block that is one. -/
def scanOfMethod (attrs : List (List String)) (selfTy : Option (List String)) :
    Node → Option FnScan
  | .function sig _ block =>
    some { fnScan sig block with
      fnName := qualifiedName (implTypeName selfTy) sig.ident
      isEntrypoint := hasContractimplAttr attrs }
  | _ => none

/-- The scans of an item. -/
def scansOf : Node → List FnScan
  | .function sig _ block => [fnScan sig block]
  | .implBlock attrs selfTy _ items => items.filterMap (scanOfMethod attrs selfTy)
  | _ => []

/-- `scan_all_functions`. -/
def scanAllFunctions (items : List Node) : List FnScan := items.flatMap scansOf

/-! ### The functions of a file -/

/-- A function item or a method, under the name that its scan has. -/
structure Auditable where
  name : String
  sig : Signature
  block : Node

/-- Where a node is: among the items of a file, of a module or of a body, in an `impl` block, or in
a trait. -/
inductive Position
  | item
  | method (selfTy : Option (List String))
  | provided
  deriving DecidableEq

/-- A node in its position. -/
structure Place where
  position : Position
  node : Node

/-- The function that a node is. What a trait provides is neither a function item nor a method. -/
def Place.function (place : Place) : List Auditable :=
  match place.position, place.node with
  | .item, .function sig _ block => [⟨sig.ident, sig, block⟩]
  | .method selfTy, .function sig _ block =>
    [⟨qualifiedName (implTypeName selfTy) sig.ident, sig, block⟩]
  | _, _ => []

/-- Nodes that are looked for functions only if the functions in bodies are asked for. -/
def inBody (inBodies : Bool) (parts : List Node) : List (Place × Bool) :=
  if inBodies then parts.map fun c => (⟨.item, c⟩, false) else []

/-- Where there may be functions, with a mark on what is scanned: the items of an `impl` block that
is an item of the file. -/
def Place.parts (inBodies : Bool) (place : Place) : List (Place × Bool) :=
  match place.node with
  | .implBlock _ selfTy parts items =>
    inBody inBodies parts ++
      items.map fun c => (⟨.method selfTy, c⟩, decide (place.position = .item))
  | .inlineModule parts items => inBody inBodies parts ++ items.map fun c => (⟨.item, c⟩, false)
  | .traitBlock parts items =>
    inBody inBodies parts ++ if inBodies then items.map fun c => (⟨.provided, c⟩, false) else []
  | n => inBody inBodies n.children

theorem mem_of_mem_inBody {inBodies : Bool} {l : List Node} {p : Place × Bool}
    (h : p ∈ inBody inBodies l) : p.1.node ∈ l ∧ p.2 = false := by
  rw [inBody] at h
  split at h
  · obtain ⟨c, hc, rfl⟩ := List.mem_map.mp h
    exact ⟨hc, rfl⟩
  · cases h

/-- What is looked at is a part, and is scanned only among the items of an `impl` block. -/
theorem Place.mem_children {inBodies : Bool} {place : Place} {p : Place × Bool}
    (h : p ∈ place.parts inBodies) : p.1.node ∈ place.node.children := by
  obtain ⟨position, node⟩ := place
  cases node with
  | implBlock attrs selfTy parts items =>
    have hchildren : (Node.implBlock attrs selfTy parts items).children = parts ++ items := by
      rw [Node.children, Node.parts, map_marked]
    obtain hp | hp := List.mem_append.mp h
    · exact hchildren ▸ List.mem_append_left _ (mem_of_mem_inBody hp).1
    · obtain ⟨c, hc, rfl⟩ := List.mem_map.mp hp
      exact hchildren ▸ List.mem_append_right _ hc
  | inlineModule parts items =>
    have hchildren : (Node.inlineModule parts items).children = parts ++ items := by
      rw [Node.children, Node.parts, map_marked]
    obtain hp | hp := List.mem_append.mp h
    · exact hchildren ▸ List.mem_append_left _ (mem_of_mem_inBody hp).1
    · obtain ⟨c, hc, rfl⟩ := List.mem_map.mp hp
      exact hchildren ▸ List.mem_append_right _ hc
  | traitBlock parts items =>
    have hchildren : (Node.traitBlock parts items).children = parts ++ items := by
      rw [Node.children, Node.parts, map_marked]
    obtain hp | hp := List.mem_append.mp h
    · exact hchildren ▸ List.mem_append_left _ (mem_of_mem_inBody hp).1
    · cases inBodies with
      | true =>
        obtain ⟨c, hc, rfl⟩ := List.mem_map.mp hp
        exact hchildren ▸ List.mem_append_right _ hc
      | false => cases hp
  | _ => exact (mem_of_mem_inBody h).1

/-- The traversal of the items of a file. -/
def itemTraversal (inBodies : Bool) : Branching Place where
  parts := Place.parts inBodies
  size place := place.node.size
  size_lt hp := Node.size_lt_of_mem (Place.mem_children hp)

/-- The function items and the methods of a file, at any depth of modules, and those in bodies if
they are asked for. -/
def functions (inBodies : Bool) (items : List Node) : List Auditable :=
  items.flatMap fun n => (itemTraversal inBodies).all Place.function ⟨.item, n⟩

/-- The functions in modules, and those in bodies if they are asked for. -/
def unscanned (inBodies : Bool) (items : List Node) : List Auditable :=
  items.flatMap fun n => (itemTraversal inBodies).missed Place.function ⟨.item, n⟩

/-- The functions that are scanned. -/
def scanned (inBodies : Bool) (items : List Node) : List Auditable :=
  items.flatMap fun n => (itemTraversal inBodies).visited Place.function ⟨.item, n⟩

/-! ### The calls of a function's own body -/

/-- A function item, a method or a function of a trait. -/
def Node.isFunction : Node → Bool
  | .function .. => true
  | _ => false

/-- The traversal of the visitor without the functions that are nested in a body. -/
def ownTraversal : Branching Node := bodyTraversal.narrow fun n => !n.isFunction

/-- The calls that the visitor comes by outside the functions that are nested in a body. -/
def ownCalls (block : Node) : List CallSite := ownTraversal.visited Node.ownCall block

/-- The calls that the visitor comes by in the functions that are nested in a body. -/
def nestedCalls (block : Node) : List CallSite := ownTraversal.missed Node.ownCall block

/-- The scan of a function has its name and counts the calls of its own body. -/
structure ScanOf (fn : Auditable) (scan : FnScan) : Prop where
  name : scan.fnName = fn.name
  requireAuth : scan.requireAuth = (ownCalls fn.block).countP CallSite.isAuth
  invokeContract : scan.invokeContract = (ownCalls fn.block).countP CallSite.isInvoke
  stateWrites : scan.stateWrites = (ownCalls fn.block).countP (CallSite.isWrite false)

/-- Each function has one scan. -/
def AuditedOnce (inBodies : Bool) (items : List Node) : Prop :=
  List.Forall₂ ScanOf (functions inBodies items) (scanAllFunctions items)

/-! ### What is scanned -/

section

variable {inBodies : Bool}

/-- Only the items of an `impl` block that is an item of the file are scanned. -/
theorem mark_of_position {place : Place} (h : place.position ≠ .item ∨ ∀ attrs selfTy parts items,
    place.node ≠ .implBlock attrs selfTy parts items) :
    ∀ p ∈ place.parts inBodies, p.2 = false := by
  intro p hp
  obtain ⟨position, node⟩ := place
  cases node with
  | implBlock attrs selfTy parts items =>
    obtain hp | hp := List.mem_append.mp hp
    · exact (mem_of_mem_inBody hp).2
    · obtain ⟨c, -, rfl⟩ := List.mem_map.mp hp
      obtain hposition | hnode := h
      · exact decide_eq_false hposition
      · exact absurd rfl (hnode attrs selfTy parts items)
  | inlineModule parts items =>
    obtain hp | hp := List.mem_append.mp hp
    · exact (mem_of_mem_inBody hp).2
    · obtain ⟨c, -, rfl⟩ := List.mem_map.mp hp
      rfl
  | traitBlock parts items =>
    obtain hp | hp := List.mem_append.mp hp
    · exact (mem_of_mem_inBody hp).2
    · cases inBodies with
      | true =>
        obtain ⟨c, -, rfl⟩ := List.mem_map.mp hp
        rfl
      | false => cases hp
  | _ => exact (mem_of_mem_inBody hp).2

theorem flatMap_of_marks {l : List (Place × Bool)} (h : ∀ p ∈ l, p.2 = false)
    (f : Place → List Auditable) : (l.flatMap fun p => if p.2 then f p.1 else []) = [] := by
  refine List.flatMap_eq_nil_iff.mpr fun p hp => ?_
  rw [h p hp]
  rfl

theorem visited_of_position {place : Place} (h : place.position ≠ .item ∨
    ∀ attrs selfTy parts items, place.node ≠ .implBlock attrs selfTy parts items) :
    (itemTraversal inBodies).visited Place.function place = place.function := by
  rw [Branching.visited_eq]
  exact congrArg (· ++ place.function) (flatMap_of_marks (mark_of_position h) _)

/-- The scan of a function, under its name. -/
def Scans (fn : Auditable) (scan : FnScan) : Prop :=
  ∃ entrypoint, scan = { fnScan fn.sig fn.block with fnName := fn.name, isEntrypoint := entrypoint }

theorem scans_methods (attrs : List (List String)) (selfTy : Option (List String))
    (items : List Node) : List.Forall₂ Scans
      (items.flatMap fun c => Place.function ⟨.method selfTy, c⟩)
      (items.filterMap (scanOfMethod attrs selfTy)) := by
  induction items with
  | nil => exact .nil
  | cons c items ih =>
    cases c with
    | function sig parts block => exact .cons ⟨_, rfl⟩ ih
    | _ => exact ih

/-- The functions of an item that are scanned. -/
theorem scans_scansOf (n : Node) : List.Forall₂ Scans
    ((itemTraversal inBodies).visited Place.function ⟨.item, n⟩) (scansOf n) := by
  cases n with
  | function sig parts block =>
    rw [visited_of_position (.inr fun _ _ _ _ h => by cases h)]
    refine .cons ⟨(fnScan sig block).isEntrypoint, ?_⟩ .nil
    rw [← fnName_fnScan sig block]
  | implBlock attrs selfTy parts items =>
    have hparts : (itemTraversal inBodies).parts ⟨.item, .implBlock attrs selfTy parts items⟩ =
        inBody inBodies parts ++ (items.map fun c => ⟨.method selfTy, c⟩).map (·, true) := by
      rw [List.map_map]
      rfl
    have hmethods : (items.flatMap fun c => (itemTraversal inBodies).visited Place.function
        ⟨.method selfTy, c⟩) = items.flatMap fun c => Place.function ⟨.method selfTy, c⟩ :=
      List.flatMap_congr fun c _ => visited_of_position (.inl (by simp))
    have hvisited : (itemTraversal inBodies).visited Place.function
        ⟨.item, .implBlock attrs selfTy parts items⟩ =
          items.flatMap fun c => Place.function ⟨.method selfTy, c⟩ := by
      rw [Branching.visited_eq, hparts, List.flatMap_append,
        flatMap_of_marks fun p hp => (mem_of_mem_inBody hp).2, Branching.flatMap_through,
        List.flatMap_map, ← hmethods]
      exact List.append_nil _
    rw [hvisited]
    exact scans_methods attrs selfTy items
  | _ =>
    rw [visited_of_position (.inr fun _ _ _ _ h => by cases h)]
    exact .nil

theorem scans_scanAllFunctions (items : List Node) :
    List.Forall₂ Scans (scanned inBodies items) (scanAllFunctions items) := by
  induction items with
  | nil => exact .nil
  | cons n items ih => exact List.rel_append (scans_scansOf n) ih

theorem length_functions (items : List Node) : (functions inBodies items).length =
    (scanned inBodies items).length + (unscanned inBodies items).length := by
  induction items with
  | nil => rfl
  | cons n items ih =>
    have hcount := (itemTraversal inBodies).length_all Place.function ⟨.item, n⟩
    rw [functions, scanned, unscanned] at ih ⊢
    rw [List.flatMap_cons, List.flatMap_cons, List.flatMap_cons, List.length_append,
      List.length_append, List.length_append, ih, hcount]
    omega

/-- Everything is scanned when nothing is left out. -/
theorem scanned_eq {items : List Node} (h : unscanned inBodies items = []) :
    scanned inBodies items = functions inBodies items :=
  List.flatMap_congr fun n hn =>
    (Branching.visited_eq_all_iff _).mpr (List.flatMap_eq_nil_iff.mp h n hn)

/-- What is recorded of a body is in its own calls or in those of nested functions. -/
theorem countP_visitedCalls (q : CallSite → Bool) (block : Node) :
    (visitedCalls block).countP q = (ownCalls block).countP q + (nestedCalls block).countP q := by
  rw [visitedCalls, ← Branching.all_narrow fun n => !n.isFunction]
  exact Branching.countP_all q block

/-- A scan counts the calls of the function's own body when nothing that is recorded is in a nested
function. -/
theorem scanOf_iff {fn : Auditable} {scan : FnScan} (h : Scans fn scan) :
    ScanOf fn scan ↔ ∀ c ∈ nestedCalls fn.block,
      c.isAuth = false ∧ c.isInvoke = false ∧ c.isWrite false = false := by
  obtain ⟨entrypoint, rfl⟩ := h
  have hzero (q : CallSite → Bool) : (visitedCalls fn.block).countP q =
      (ownCalls fn.block).countP q ↔ ∀ c ∈ nestedCalls fn.block, q c = false := by
    rw [countP_visitedCalls, Nat.add_eq_left, List.countP_eq_zero]
    simp only [Bool.not_eq_true]
  constructor
  · rintro ⟨-, hauth, hinvoke, hwrite⟩ c hc
    exact ⟨(hzero _).mp ((requireAuth_fnScan fn.sig fn.block).symm.trans hauth) c hc,
      (hzero _).mp ((invokeContract_fnScan fn.sig fn.block).symm.trans hinvoke) c hc,
      (hzero _).mp ((stateWrites_fnScan fn.sig fn.block).symm.trans hwrite) c hc⟩
  · intro hnested
    exact ⟨rfl,
      (requireAuth_fnScan fn.sig fn.block).trans ((hzero _).mpr fun c hc => (hnested c hc).1),
      (invokeContract_fnScan fn.sig fn.block).trans ((hzero _).mpr fun c hc => (hnested c hc).2.1),
      (stateWrites_fnScan fn.sig fn.block).trans ((hzero _).mpr fun c hc => (hnested c hc).2.2)⟩

theorem forall₂_scanOf_iff {fns : List Auditable} {scans : List FnScan}
    (h : List.Forall₂ Scans fns scans) :
    List.Forall₂ ScanOf fns scans ↔ ∀ fn ∈ fns, ∀ c ∈ nestedCalls fn.block,
      c.isAuth = false ∧ c.isInvoke = false ∧ c.isWrite false = false := by
  induction h with
  | nil => exact iff_of_true .nil (List.forall_mem_nil _)
  | cons hscan _ ih => rw [List.forall₂_cons, List.forall_mem_cons, scanOf_iff hscan, ih]

end

/-- **When each function is audited once**: there are no functions in modules, or in bodies if they
are asked for, and what is recorded of a body is not in a function that is nested in it. -/
theorem auditedOnce_iff (inBodies : Bool) (items : List Node) :
    AuditedOnce inBodies items ↔ unscanned inBodies items = [] ∧
      ∀ fn ∈ functions inBodies items, ∀ c ∈ nestedCalls fn.block,
        c.isAuth = false ∧ c.isInvoke = false ∧ c.isWrite false = false := by
  have hscans : List.Forall₂ Scans (scanned inBodies items) (scanAllFunctions items) :=
    scans_scanAllFunctions items
  rw [AuditedOnce]
  constructor
  · intro h
    have hlength := @length_functions inBodies items
    have hunscanned : unscanned inBodies items = [] := by
      rw [h.length_eq, ← hscans.length_eq] at hlength
      exact List.eq_nil_of_length_eq_zero (by omega)
    rw [scanned_eq hunscanned] at hscans
    exact ⟨hunscanned, (forall₂_scanOf_iff hscans).mp h⟩
  · rintro ⟨hunscanned, hnested⟩
    rw [scanned_eq hunscanned] at hscans
    exact (forall₂_scanOf_iff hscans).mpr hnested

/-- The file `mod m { fn mint() {} }`. -/
def moduleFile : List Node :=
  [.inlineModule [] [.function ⟨"mint", [], .default⟩ [] (.other [])]]

/-- The function in the module has no scan. -/
theorem not_auditedOnce_module : ¬ ∀ inBodies items, AuditedOnce inBodies items := by
  intro h
  have hlength := (h false moduleFile).length_eq
  exact absurd hlength (by decide +kernel)

end SorobanDevkit.Audit
