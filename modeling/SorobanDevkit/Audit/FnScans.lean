import SorobanDevkit.Audit.Rules
import SorobanDevkit.Library.Branching
import SorobanDevkit.Library.CollectedMap

/-!
# Scans of function bodies

`sdkt-audit/src/audit.rs`: the visitor that goes through the body of a function and records the
calls that the rules ask about, in the order in which they are evaluated. The visitor takes the two
forms of a call apart by itself, and goes through everything else part by part.

A syntax tree has the forms that the visitors tell apart; any other form has its parts, in the order
in which they are written. The tokens of a macro are no parts.
-/

namespace SorobanDevkit.Audit

open Strings (eqIgnoreAsciiCase)

/-! ### Syntax trees -/

/-- The binary operators that the visitors tell apart. -/
inductive BinOp
  | mul
  | div
  | other
  deriving DecidableEq

/-- `PathSegment`. -/
structure PathSegment where
  ident : String
  /-- There is nothing in angle brackets or parentheses behind it. -/
  bare : Bool
  deriving DecidableEq

/-- `Path`, without what is in its generic arguments. -/
structure Path where
  leadingColon : Bool
  segments : List PathSegment
  deriving DecidableEq

/-- `get_ident`: the path is a single name. -/
def Path.getIdent (path : Path) : Option String :=
  match path.segments with
  | [seg] => if !path.leadingColon && seg.bare then some seg.ident else none
  | _ => none

/-- `ReturnType`, as far as it is looked at. -/
inductive ReturnType
  | default
  | tuple (elems : ℕ)
  | other
  deriving DecidableEq

/-- `Signature`: the name, the names of the arguments that are bound to one, and the result. -/
structure Signature where
  ident : String
  inputs : List (Option String)
  output : ReturnType
  deriving DecidableEq

/-- The nodes of a syntax tree. The parts that come first are attributes, patterns, types and the
like. -/
inductive Node
  /-- A literal, and whether it is an integer. -/
  | lit (parts : List Node) (int : Bool)
  | path (parts : List Node) (path : Path)
  /-- An expression in parentheses, in a group of its own or behind a unary operator. -/
  | wrapped (parts : List Node) (expr : Node)
  | binary (parts : List Node) (op : BinOp) (left right : Node)
  | call (attrs : List Node) (func : Node) (args : List Node)
  | methodCall (attrs : List Node) (receiver : Node) (method : String) (turbofish args : List Node)
  /-- A `let` statement: the name, when the pattern is one, and the initial value, which may be
  followed by what diverges. -/
  | binding (parts : List Node) (ident : Option String) (init : List Node)
  /-- A macro with its tokens. -/
  | macroCall
  /-- A function item, a method, or a function that a trait provides. -/
  | function (sig : Signature) (parts : List Node) (block : Node)
  /-- An `impl` block: the paths of its attributes, and the path of its type, when it has one. -/
  | implBlock (attrs : List (List String)) (selfTy : Option (List String)) (parts items : List Node)
  /-- A module, with its items when they are written in place. -/
  | inlineModule (parts items : List Node)
  | traitBlock (parts items : List Node)
  /-- Any other form. -/
  | other (parts : List Node)

/-- The parts in the order in which they are written, with a mark on those that the visitor goes
through. -/
def Node.parts : Node → List (Node × Bool)
  | .lit parts _ | .path parts _ | .other parts => parts.map (·, true)
  | .wrapped parts expr => (parts ++ [expr]).map (·, true)
  | .binary parts _ left right => (parts ++ [left, right]).map (·, true)
  | .call attrs func args => attrs.map (·, false) ++ (func, false) :: args.map (·, true)
  | .methodCall attrs receiver _ turbofish args =>
    attrs.map (·, false) ++ (receiver, true) :: (turbofish.map (·, false) ++ args.map (·, true))
  | .binding parts _ init => (parts ++ init).map (·, true)
  | .macroCall => []
  | .function _ parts block => (parts ++ [block]).map (·, true)
  | .implBlock _ _ parts items | .inlineModule parts items | .traitBlock parts items =>
    (parts ++ items).map (·, true)

/-- All parts. -/
def Node.children (n : Node) : List Node := n.parts.map Prod.fst

theorem map_marked {l : List Node} (mark : Bool) : (l.map (·, mark)).map Prod.fst = l := by
  rw [List.map_map, Function.comp_def, List.map_id']

mutual

/-- The number of nodes in a tree. -/
def Node.size : Node → ℕ
  | .lit parts _ | .path parts _ | .other parts => Node.sizes parts + 1
  | .wrapped parts expr => Node.sizes parts + expr.size + 1
  | .binary parts _ left right => Node.sizes parts + left.size + right.size + 1
  | .call attrs func args => Node.sizes attrs + func.size + Node.sizes args + 1
  | .methodCall attrs receiver _ turbofish args =>
    Node.sizes attrs + receiver.size + Node.sizes turbofish + Node.sizes args + 1
  | .binding parts _ init => Node.sizes parts + Node.sizes init + 1
  | .macroCall => 1
  | .function _ parts block => Node.sizes parts + block.size + 1
  | .implBlock _ _ parts items | .inlineModule parts items | .traitBlock parts items =>
    Node.sizes parts + Node.sizes items + 1

/-- The number of nodes in trees. -/
def Node.sizes : List Node → ℕ
  | [] => 0
  | n :: ns => n.size + Node.sizes ns

end

theorem Node.size_le_sizes {c : Node} {l : List Node} (h : c ∈ l) : c.size ≤ Node.sizes l := by
  induction l with
  | nil => cases h
  | cons n l ih =>
    rw [sizes]
    obtain rfl | h := List.mem_cons.mp h
    · omega
    · have hle := ih h
      omega

/-- A part is smaller. -/
theorem Node.size_lt_of_mem {n c : Node} (h : c ∈ n.children) : c.size < n.size := by
  have hlist {l : List Node} (hc : c ∈ l) : c.size ≤ Node.sizes l := Node.size_le_sizes hc
  rw [children] at h
  cases n <;> simp only [parts, List.map_append, List.map_cons, List.map_nil, map_marked,
    List.mem_append, List.mem_cons, List.not_mem_nil, or_false] at h
  all_goals grind [Node.size]

/-! ### Divisions -/

/-- `is_constant_expr`. -/
def isConstantExpr : Node → Bool
  | .lit _ int => int
  | .wrapped _ expr => isConstantExpr expr
  | .binary _ _ left right => isConstantExpr left && isConstantExpr right
  | _ => false

/-- A division of other than constants. -/
def Node.dividesHere : Node → Bool
  | .binary _ .div left right => !(isConstantExpr left && isConstantExpr right)
  | _ => false

/-- `expr_contains_division`. -/
def exprContainsDivision (n : Node) : Bool :=
  n.dividesHere || n.children.attach.any fun c => exprContainsDivision c.1
termination_by n.size
decreasing_by exact Node.size_lt_of_mem c.2

/-- The name that an expression is. -/
def Node.ident? : Node → Option String
  | .path _ p => p.getIdent
  | _ => none

/-- `expr_uses_any`. -/
def exprUsesAny (names : List String) (n : Node) : Bool :=
  n.ident?.any names.contains || n.children.attach.any fun c => exprUsesAny names c.1
termination_by n.size
decreasing_by exact Node.size_lt_of_mem c.2

/-! ### Calls -/

/-- The form and the name of a call: the method, or the last name of a path that is called. -/
structure CallSite where
  method : Bool
  name : Option String
  deriving DecidableEq

/-- The last name of a callee that is a path. -/
def Node.calleeName : Node → Option String
  | .path _ p => p.segments.getLast?.map (·.ident)
  | _ => none

/-- `is_auth_fn`. -/
def isAuthFn (name : String) : Bool :=
  ["require_auth", "require_auth_for_args", "require_auth_for_caller"].contains name

/-- The names of external calls. -/
def isInvokeFn (name : String) : Bool := ["invoke_contract", "invoke_contract_light"].contains name

/-- The names of the methods that write state, in any letter case. -/
def isWriteFn (name : String) : Bool :=
  ["set", "write", "put", "remove", "delete", "extend"].any fun p => eqIgnoreAsciiCase name p

/-! ### The visitor -/

/-- `OrderEvent`. -/
inductive OrderEvent
  | externalCall
  | stateWrite
  deriving DecidableEq

/-- `FnVisitor`. -/
structure FnVisitor where
  scan : FnScan
  dividedBindings : List String
  orderEvents : List OrderEvent

/-- The set with a name in it. -/
def insertName (name : String) (names : List String) : List String :=
  if name ∈ names then names else names ++ [name]

namespace FnVisitor

/-- The bindings of a `let` statement, and whether its value is a quotient. -/
def bind (ident : Option String) (init : List Node) (v : FnVisitor) : FnVisitor :=
  match ident with
  | none => v
  | some name =>
    let v := { v with scan := { v.scan with bound := insertName name v.scan.bound } }
    match init.head? with
    | none => v
    | some expr =>
      if exprContainsDivision expr || exprUsesAny v.dividedBindings expr then
        { v with dividedBindings := insertName name v.dividedBindings }
      else { v with dividedBindings := v.dividedBindings.filter (· ≠ name) }

/-- Whether a product has a quotient in it. -/
def multiply (op : BinOp) (left right : Node) (v : FnVisitor) : FnVisitor :=
  if op = .mul ∧ (exprContainsDivision left || exprContainsDivision right ||
      exprUsesAny v.dividedBindings left || exprUsesAny v.dividedBindings right) = true then
    { v with scan := { v.scan with divisionBeforeMultiplication := true } }
  else v

/-- `count_ident`. -/
def countIdent (expr : Node) (v : FnVisitor) : FnVisitor :=
  match expr.ident? with
  | none => v
  | some s =>
    if s ∈ v.scan.bound then
      { v with scan :=
        { v.scan with usage := v.scan.usage.insert s ((v.scan.usage.get? s).getD 0 + 1) } }
    else v

/-- Counts an authorization. -/
def countAuth (name : Option String) (v : FnVisitor) : FnVisitor :=
  if name.any isAuthFn then { v with scan := { v.scan with requireAuth := v.scan.requireAuth + 1 } }
  else v

/-- Records an external call. -/
def recordInvoke (name : Option String) (v : FnVisitor) : FnVisitor :=
  if name.any isInvokeFn then
    { v with
      scan := { v.scan with invokeContract := v.scan.invokeContract + 1 }
      orderEvents := v.orderEvents ++ [.externalCall] }
  else v

/-- `detect_state_write`. -/
def detectStateWrite (methodName : String) (v : FnVisitor) : FnVisitor :=
  if isWriteFn methodName then
    { v with
      scan := { v.scan with stateWrites := v.scan.stateWrites + 1 }
      orderEvents := v.orderEvents ++ [.stateWrite] }
  else v

/-- What `visit_local` and `visit_expr_binary` do before they go through the parts. -/
def enter (n : Node) (v : FnVisitor) : FnVisitor :=
  match n with
  | .binding _ ident init => v.bind ident init
  | .binary _ op left right => v.multiply op left right
  | _ => v

/-- Goes through a node. -/
def visit (n : Node) (v : FnVisitor) : FnVisitor :=
  match n with
  | .call _ func args =>
    let v := v.countAuth func.calleeName
    let v := args.foldl (fun v arg => visit arg (v.countIdent arg)) v
    v.recordInvoke func.calleeName
  | .methodCall _ receiver method _ args =>
    let v := v.countAuth (some method)
    let v := visit receiver v
    let v := args.foldl (fun v arg => visit arg (v.countIdent arg)) v
    (v.recordInvoke (some method)).detectStateWrite method
  | n => n.children.attach.foldl (fun v c => visit c.1 v) (v.enter n)
termination_by n.size
decreasing_by
  · have harg := Node.size_le_sizes ‹arg ∈ args›
    rw [Node.size]
    omega
  · rw [Node.size]
    omega
  · have harg := Node.size_le_sizes ‹arg ∈ args›
    rw [Node.size]
    omega
  · exact Node.size_lt_of_mem c.2

end FnVisitor

/-! ### The scan of a function -/

/-- `signature_returns_value`. -/
def signatureReturnsValue (sig : Signature) : Bool :=
  match sig.output with
  | .default => false
  | .tuple elems => elems != 0
  | .other => true

/-- `FnScan::new`. -/
def FnScan.new (fnName : String) : FnScan where
  fnName := fnName
  requireAuth := 0
  invokeContract := 0
  bound := []
  usage := .empty
  divisionBeforeMultiplication := false
  externalCallBeforeStateWrite := false
  stateWrites := 0
  isEntrypoint := false
  returnsValue := false

/-- Whether an external call comes before a state write, after an external call or not. -/
def callBeforeWrite : Bool → List OrderEvent → Bool
  | _, [] => false
  | _, .externalCall :: events => callBeforeWrite true events
  | found, .stateWrite :: events => found || callBeforeWrite found events

/-- The scan of a function before its body is visited. -/
def scanStart (sig : Signature) : FnScan :=
  { FnScan.new sig.ident with
    returnsValue := signatureReturnsValue sig
    bound := (sig.inputs.filterMap id).foldl (fun bound name => insertName name bound) [] }

/-- `fn_scan`. -/
def fnScan (sig : Signature) (block : Node) : FnScan :=
  let v := FnVisitor.visit block ⟨scanStart sig, [], []⟩
  { v.scan with externalCallBeforeStateWrite := callBeforeWrite false v.orderEvents }

/-! ### The calls of a body -/

/-- The call that a node is. -/
def Node.ownCall : Node → List CallSite
  | .call _ func _ => [⟨false, func.calleeName⟩]
  | .methodCall _ _ method _ _ => [⟨true, some method⟩]
  | _ => []

/-- The traversal of the visitor. -/
def bodyTraversal : Branching Node where
  parts := Node.parts
  size := Node.size
  size_lt hp := Node.size_lt_of_mem (List.mem_map_of_mem hp)

/-- The calls in a body, each after what it is made of. -/
def calls (block : Node) : List CallSite := bodyTraversal.all Node.ownCall block

/-- The calls that the visitor comes by: `FnVisitor.visit` adds these, in this order, to what it
records, and nothing else, which is `FnVisitor.tally_visit`. -/
def visitedCalls (block : Node) : List CallSite := bodyTraversal.visited Node.ownCall block

/-- The calls in the attributes and the callees of calls, and in the generic arguments of method
calls. -/
def missedCalls (block : Node) : List CallSite := bodyTraversal.missed Node.ownCall block

namespace CallSite

/-- A call that asks for an authorization. -/
def isAuth (c : CallSite) : Bool := c.name.any isAuthFn

/-- A call of another contract. -/
def isInvoke (c : CallSite) : Bool := c.name.any isInvokeFn

/-- A call that writes state. Calls of functions with the names of the methods count too, if
`functions` says so. -/
def isWrite (functions : Bool) (c : CallSite) : Bool :=
    (functions || c.method) && c.name.any isWriteFn

/-- The events of a call. -/
def events (c : CallSite) : List OrderEvent :=
  (if c.isInvoke then [.externalCall] else []) ++ if c.isWrite false then [.stateWrite] else []

end CallSite

/-- An external call before a write. -/
def Hazard (functions : Bool) (cs : List CallSite) : Prop :=
  ∃ x y, [x, y].Sublist cs ∧ x.isInvoke = true ∧ y.isWrite functions = true

/-- The scan of a function has the calls of its body: the visitor comes by each of them once, in the
order of their evaluation, the counts are theirs, and the hazard is an external call before a
write. That `visitedCalls` are those that `FnVisitor.visit` comes by is `FnVisitor.tally_visit`. -/
structure Complete (functions : Bool) (sig : Signature) (block : Node) : Prop where
  visited : visitedCalls block = calls block
  requireAuth : (fnScan sig block).requireAuth = (calls block).countP CallSite.isAuth
  invokeContract : (fnScan sig block).invokeContract = (calls block).countP CallSite.isInvoke
  stateWrites : (fnScan sig block).stateWrites = (calls block).countP (CallSite.isWrite functions)
  order : (fnScan sig block).externalCallBeforeStateWrite = true ↔ Hazard functions (calls block)

/-! ### What the visitor records -/

/-- What is recorded of the calls of a function. -/
structure Tally where
  fnName : String
  requireAuth : ℕ
  invokeContract : ℕ
  stateWrites : ℕ
  orderEvents : List OrderEvent
  deriving DecidableEq

namespace Tally

variable (t : Tally)

/-- What is recorded after some more calls. -/
def add (cs : List CallSite) : Tally where
  fnName := t.fnName
  requireAuth := t.requireAuth + cs.countP CallSite.isAuth
  invokeContract := t.invokeContract + cs.countP CallSite.isInvoke
  stateWrites := t.stateWrites + cs.countP (CallSite.isWrite false)
  orderEvents := t.orderEvents ++ cs.flatMap CallSite.events

@[simp] theorem add_nil : t.add [] = t := by simp [add]

theorem add_append (cs ds : List CallSite) : t.add (cs ++ ds) = (t.add cs).add ds := by
  simp [add, Nat.add_assoc]

end Tally

namespace FnVisitor

/-- What a visitor has recorded. -/
def tally (v : FnVisitor) : Tally :=
  ⟨v.scan.fnName, v.scan.requireAuth, v.scan.invokeContract, v.scan.stateWrites, v.orderEvents⟩

theorem tally_bind (ident : Option String) (init : List Node) (v : FnVisitor) :
    (v.bind ident init).tally = v.tally := by
  cases ident with
  | none => rfl
  | some name =>
    cases init with
    | nil => rfl
    | cons expr init =>
      rw [bind, List.head?_cons]
      show FnVisitor.tally (if _ then _ else _) = _
      split <;> rfl

theorem tally_multiply (op : BinOp) (left right : Node) (v : FnVisitor) :
    (v.multiply op left right).tally = v.tally := by
  rw [multiply]
  split <;> rfl

theorem tally_enter (n : Node) (v : FnVisitor) : (v.enter n).tally = v.tally := by
  cases n with
  | binding parts ident init => exact tally_bind ident init v
  | binary parts op left right => exact tally_multiply op left right v
  | _ => rfl

theorem tally_countIdent (expr : Node) (v : FnVisitor) :
    (v.countIdent expr).tally = v.tally := by
  rw [countIdent]
  split
  · rfl
  · split <;> rfl

theorem tally_countAuth (name : Option String) (v : FnVisitor) : (v.countAuth name).tally =
    { v.tally with
      requireAuth := v.tally.requireAuth + if name.any isAuthFn then 1 else 0 } := by
  rw [countAuth]
  split <;> rfl

theorem tally_recordInvoke (name : Option String) (v : FnVisitor) : (v.recordInvoke name).tally =
    { v.tally with
      invokeContract := v.tally.invokeContract + if name.any isInvokeFn then 1 else 0
      orderEvents := v.tally.orderEvents ++
        if name.any isInvokeFn then [.externalCall] else [] } := by
  rw [recordInvoke]
  split
  · rfl
  · rw [List.append_nil]
    rfl

theorem tally_detectStateWrite (methodName : String) (v : FnVisitor) :
    (v.detectStateWrite methodName).tally =
      { v.tally with
        stateWrites := v.tally.stateWrites + if isWriteFn methodName then 1 else 0
        orderEvents := v.tally.orderEvents ++
          if isWriteFn methodName then [.stateWrite] else [] } := by
  rw [detectStateWrite]
  split
  · rfl
  · rw [List.append_nil]
    rfl

theorem visit_call (attrs : List Node) (func : Node) (args : List Node) (v : FnVisitor) :
    visit (.call attrs func args) v =
      (args.foldl (fun v arg => visit arg (v.countIdent arg))
        (v.countAuth func.calleeName)).recordInvoke func.calleeName := by
  rw [visit]

theorem visit_methodCall (attrs : List Node) (receiver : Node) (method : String)
    (turbofish args : List Node) (v : FnVisitor) :
    visit (.methodCall attrs receiver method turbofish args) v =
      ((args.foldl (fun v arg => visit arg (v.countIdent arg))
        (visit receiver (v.countAuth (some method)))).recordInvoke (some method)).detectStateWrite
          method := by
  rw [visit]

/-- Other forms are gone through part by part. -/
theorem visit_eq {n : Node} (h : n.ownCall = []) (v : FnVisitor) :
    visit n v = n.children.foldl (fun v c => visit c v) (v.enter n) := by
  have hattach (w : FnVisitor) : n.children.attach.foldl (fun v c => visit c.1 v) w =
      n.children.foldl (fun v c => visit c v) w :=
    List.foldl_attach (f := fun v c => visit c v)
  rw [visit.eq_def, ← hattach]
  cases n <;> first | rfl | cases h

theorem parts_eq {n : Node} (h : n.ownCall = []) : n.parts = n.children.map (·, true) := by
  rw [Node.children]
  cases n <;> first | rw [Node.parts, map_marked] | cases h
  rfl

theorem visitedCalls_eq {n : Node} (h : n.ownCall = []) :
    visitedCalls n = n.children.flatMap visitedCalls := by
  have hparts : bodyTraversal.parts n = n.children.map (·, true) := parts_eq h
  rw [visitedCalls, Branching.visited_eq, h, List.append_nil, hparts, Branching.flatMap_through]
  rfl

theorem visitedCalls_call (attrs : List Node) (func : Node) (args : List Node) :
    visitedCalls (.call attrs func args) =
      args.flatMap visitedCalls ++ [⟨false, func.calleeName⟩] := by
  have hparts : bodyTraversal.parts (.call attrs func args) =
      attrs.map (·, false) ++ (func, false) :: args.map (·, true) := rfl
  rw [visitedCalls, Branching.visited_eq, hparts, List.flatMap_append, List.flatMap_cons,
    Branching.flatMap_over, Branching.flatMap_through]
  rfl

theorem visitedCalls_methodCall (attrs : List Node) (receiver : Node) (method : String)
    (turbofish args : List Node) :
    visitedCalls (.methodCall attrs receiver method turbofish args) =
      visitedCalls receiver ++ args.flatMap visitedCalls ++ [⟨true, some method⟩] := by
  have hparts : bodyTraversal.parts (.methodCall attrs receiver method turbofish args) =
      attrs.map (·, false) ++ (receiver, true) :: (turbofish.map (·, false) ++
        args.map (·, true)) := rfl
  rw [visitedCalls, Branching.visited_eq, hparts, List.flatMap_append, List.flatMap_cons,
    List.flatMap_append, Branching.flatMap_over, Branching.flatMap_over,
    Branching.flatMap_through]
  rfl

/-- What the visitor records of the parts, one after the other. -/
theorem tally_foldl {cs : List Node} {f : FnVisitor → Node → FnVisitor}
    (h : ∀ c ∈ cs, ∀ v, (f v c).tally = v.tally.add (visitedCalls c)) (v : FnVisitor) :
    (cs.foldl f v).tally = v.tally.add (cs.flatMap visitedCalls) := by
  induction cs generalizing v with
  | nil => exact (v.tally.add_nil).symm
  | cons c cs ih =>
    obtain ⟨hc, hcs⟩ := List.forall_mem_cons.mp h
    rw [List.foldl_cons, ih hcs, hc, List.flatMap_cons, Tally.add_append]

theorem tally_args {args : List Node}
    (h : ∀ c ∈ args, ∀ v, (visit c v).tally = v.tally.add (visitedCalls c)) (v : FnVisitor) :
    (args.foldl (fun v arg => visit arg (v.countIdent arg)) v).tally =
      v.tally.add (args.flatMap visitedCalls) :=
  tally_foldl (fun c hc v => by rw [h c hc, tally_countIdent]) v

/-- **What the visitor records** is what it comes by, which are the calls of `visitedCalls`. -/
theorem tally_visit (n : Node) (v : FnVisitor) :
    (visit n v).tally = v.tally.add (visitedCalls n) := by
  induction n using bodyTraversal.induction generalizing v with
  | _ n ih =>
    have hparts : ∀ c ∈ n.children, ∀ v, (visit c v).tally = v.tally.add (visitedCalls c) := by
      intro c hc v
      obtain ⟨p, hp, rfl⟩ := List.mem_map.mp hc
      exact ih p hp v
    by_cases hcall : n.ownCall = []
    · rw [visit_eq hcall, tally_foldl hparts, tally_enter, visitedCalls_eq hcall]
    · cases n with
      | call attrs func args =>
        have hargs : ∀ c ∈ args, ∀ v, (visit c v).tally = v.tally.add (visitedCalls c) :=
          fun c hc => hparts c (by simp [Node.children, Node.parts, hc])
        rw [visit_call, tally_recordInvoke, tally_args hargs, tally_countAuth, visitedCalls_call,
          Tally.add_append]
        simp only [Tally.add, Tally.mk.injEq, List.countP_singleton, List.flatMap_singleton,
          CallSite.isAuth, CallSite.isInvoke, CallSite.isWrite, CallSite.events]
        exact ⟨trivial, Nat.add_right_comm _ _ _, rfl, rfl, congrArg _ (List.append_nil _).symm⟩
      | methodCall attrs receiver method turbofish args =>
        have hargs : ∀ c ∈ args, ∀ v, (visit c v).tally = v.tally.add (visitedCalls c) :=
          fun c hc => hparts c (by simp [Node.children, Node.parts, hc])
        have hreceiver := hparts receiver (by simp [Node.children, Node.parts])
        rw [visit_methodCall, tally_detectStateWrite, tally_recordInvoke, tally_args hargs,
          hreceiver, tally_countAuth, visitedCalls_methodCall, Tally.add_append, Tally.add_append]
        simp only [Tally.add, Tally.mk.injEq, List.countP_singleton, List.flatMap_singleton,
          CallSite.isAuth, CallSite.isInvoke, CallSite.isWrite, CallSite.events]
        have hauth (a b c d : ℕ) : a + d + b + c = a + b + c + d := by omega
        exact ⟨trivial, hauth _ _ _ _, rfl, rfl, List.append_assoc _ _ _⟩
      | _ => exact absurd rfl hcall

end FnVisitor

/-! ### Complete scans -/

section

variable (sig : Signature) (block : Node)

theorem fnName_fnScan : (fnScan sig block).fnName = sig.ident :=
  congrArg Tally.fnName (FnVisitor.tally_visit block ⟨scanStart sig, [], []⟩)

theorem requireAuth_fnScan :
    (fnScan sig block).requireAuth = (visitedCalls block).countP CallSite.isAuth := by
  have h := congrArg Tally.requireAuth (FnVisitor.tally_visit block ⟨scanStart sig, [], []⟩)
  exact h.trans (Nat.zero_add _)

theorem invokeContract_fnScan :
    (fnScan sig block).invokeContract = (visitedCalls block).countP CallSite.isInvoke := by
  have h := congrArg Tally.invokeContract (FnVisitor.tally_visit block ⟨scanStart sig, [], []⟩)
  exact h.trans (Nat.zero_add _)

theorem stateWrites_fnScan :
    (fnScan sig block).stateWrites = (visitedCalls block).countP (CallSite.isWrite false) := by
  have h := congrArg Tally.stateWrites (FnVisitor.tally_visit block ⟨scanStart sig, [], []⟩)
  exact h.trans (Nat.zero_add _)

theorem externalCallBeforeStateWrite_fnScan :
    (fnScan sig block).externalCallBeforeStateWrite =
      callBeforeWrite false ((visitedCalls block).flatMap CallSite.events) := by
  have h := congrArg Tally.orderEvents (FnVisitor.tally_visit block ⟨scanStart sig, [], []⟩)
  exact congrArg (callBeforeWrite false) h

end

/-- No name is both that of an external call and that of a write. -/
theorem CallSite.isWrite_of_isInvoke {c : CallSite} (h : c.isInvoke = true) (functions : Bool) :
    c.isWrite functions = false := by
  obtain ⟨method, name⟩ := c
  cases name with
  | none => cases h
  | some name =>
    have hmem : name ∈ ["invoke_contract", "invoke_contract_light"] := List.contains_iff_mem.mp h
    have hnot : isWriteFn name = false := by
      obtain rfl | rfl : name = "invoke_contract" ∨ name = "invoke_contract_light" := by
        simpa using hmem
      · decide
      · decide
    rw [isWrite, Option.any_some, hnot, Bool.and_false]

theorem hazard_cons (functions : Bool) (c : CallSite) (cs : List CallSite) :
    Hazard functions (c :: cs) ↔
    (c.isInvoke = true ∧ ∃ y ∈ cs, y.isWrite functions = true) ∨ Hazard functions cs := by
  constructor
  · rintro ⟨x, y, hsub, hx, hy⟩
    obtain hsub | ⟨rest, heq, hrest⟩ := List.sublist_cons_iff.mp hsub
    · exact .inr ⟨x, y, hsub, hx, hy⟩
    · obtain ⟨rfl, rfl⟩ := List.cons.inj heq
      exact .inl ⟨hx, y, List.singleton_sublist.mp hrest, hy⟩
  · rintro (⟨hc, y, hmem, hy⟩ | ⟨x, y, hsub, hx, hy⟩)
    · exact ⟨c, y, (List.singleton_sublist.mpr hmem).cons_cons c, hc, hy⟩
    · exact ⟨x, y, hsub.cons c, hx, hy⟩

/-- What the events tell is an external call before a write. -/
theorem callBeforeWrite_iff (found : Bool) (cs : List CallSite) :
    callBeforeWrite found (cs.flatMap CallSite.events) = true ↔
      (found = true ∧ ∃ y ∈ cs, y.isWrite false = true) ∨ Hazard false cs := by
  induction cs generalizing found with
  | nil =>
    refine iff_of_false Bool.false_ne_true ?_
    rintro (⟨-, y, hy, -⟩ | ⟨x, y, hsub, -⟩)
    · cases hy
    · cases hsub
  | cons c cs ih =>
    have hexists : (∃ y ∈ c :: cs, y.isWrite false = true) ↔
        c.isWrite false = true ∨ ∃ y ∈ cs, y.isWrite false = true := by simp
    rw [List.flatMap_cons, hazard_cons, hexists]
    cases hinvoke : c.isInvoke with
    | true =>
      have hwrite := CallSite.isWrite_of_isInvoke hinvoke false
      have hevents : c.events = [.externalCall] := by rw [CallSite.events, hinvoke, hwrite]; rfl
      rw [hevents, hwrite, List.singleton_append, callBeforeWrite, ih]
      simp only [Bool.false_eq_true, false_or, true_and]
      exact (or_iff_right_of_imp fun h => .inl h.2).symm
    | false =>
      cases hwrite : c.isWrite false with
      | true =>
        have hevents : c.events = [.stateWrite] := by rw [CallSite.events, hinvoke, hwrite]; rfl
        rw [hevents, List.singleton_append, callBeforeWrite, Bool.or_eq_true, ih]
        simp only [Bool.false_eq_true, true_or, and_true, false_and, false_or]
        tauto
      | false =>
        have hevents : c.events = [] := by rw [CallSite.events, hinvoke, hwrite]; rfl
        rw [hevents, List.nil_append, ih]
        simp only [Bool.false_eq_true, false_or, false_and]

/-- The calls of functions that have the name of a method that writes. -/
theorem countP_isWrite (cs : List CallSite) : cs.countP (CallSite.isWrite true) =
    cs.countP (CallSite.isWrite false) + cs.countP fun c => c.isWrite true && !c.method := by
  have hmethod : (fun c : CallSite => c.isWrite true && c.method) = CallSite.isWrite false := by
    funext c
    rw [CallSite.isWrite, CallSite.isWrite, Bool.true_or, Bool.true_and, Bool.false_or,
      Bool.and_comm]
  rw [List.countP_eq_countP_filter_add cs (CallSite.isWrite true) (·.method), List.countP_filter,
    List.countP_filter, hmethod]

/-- **When a scan is complete**: no call is where the visitor does not go. If calls of functions
count as writes too, then no function has the name of a method that writes. -/
theorem fnScan_complete_iff (sig : Signature) (block : Node) :
    (Complete false sig block ↔ missedCalls block = []) ∧
      (Complete true sig block ↔ missedCalls block = [] ∧
        ∀ c ∈ calls block, c.isWrite true = true → c.method = true) := by
  have hvisited : visitedCalls block = calls block ↔ missedCalls block = [] :=
    Branching.visited_eq_all_iff block
  have hcomplete (functions : Bool) (heq : visitedCalls block = calls block)
      (hsame : ∀ c ∈ calls block, c.isWrite false = c.isWrite functions) :
      Complete functions sig block := by
    have hhazard : Hazard false (calls block) ↔ Hazard functions (calls block) := by
      refine exists_congr fun x => exists_congr fun y => and_congr_right fun hsub => ?_
      rw [hsame y (hsub.subset (by simp))]
    refine ⟨heq, ?_, ?_, ?_, ?_⟩
    · rw [requireAuth_fnScan, heq]
    · rw [invokeContract_fnScan, heq]
    · rw [stateWrites_fnScan, heq]
      exact List.countP_congr fun c hc => by rw [hsame c hc]
    · rw [externalCallBeforeStateWrite_fnScan, callBeforeWrite_iff, heq, hhazard]
      simp
  refine ⟨⟨fun h => hvisited.mp h.visited, fun h => hcomplete false (hvisited.mpr h) ?_⟩, ?_, ?_⟩
  · exact fun _ _ => rfl
  · intro h
    have hcount := h.stateWrites
    rw [stateWrites_fnScan, h.visited, countP_isWrite] at hcount
    refine ⟨hvisited.mp h.visited, fun c hc hwrite => ?_⟩
    have hnone := List.countP_eq_zero.mp (show (calls block).countP
      (fun c => c.isWrite true && !c.method) = 0 by omega) c hc
    simpa [hwrite] using hnone
  · rintro ⟨hmissed, hmethod⟩
    refine hcomplete true (hvisited.mpr hmissed) fun c hc => ?_
    cases hwrite : c.isWrite true with
    | true =>
      rw [CallSite.isWrite, hmethod c hc hwrite, Bool.or_true]
      exact hwrite
    | false =>
      rw [CallSite.isWrite, Bool.true_or, Bool.true_and] at hwrite
      rw [CallSite.isWrite, hwrite, Bool.and_false]

/-! ### A call in a callee -/

/-- The name of a function or of a local. -/
def nameNode (name : String) : Node := .path [] ⟨false, [⟨name, true⟩]⟩

/-- The block `{ pick(env.invoke_contract(a))(x); env.set(k); }`. -/
def calleeBlock : Node :=
  .other [
    .call [] (.call [] (nameNode "pick")
      [.methodCall [] (nameNode "env") "invoke_contract" [] [nameNode "a"]]) [nameNode "x"],
    .methodCall [] (nameNode "env") "set" [] [nameNode "k"]]

/-- The call of the other contract is in the callee, and the scan has none. -/
theorem not_complete_callee : ¬ ∀ (sig : Signature) (block : Node), Complete false sig block := by
  intro h
  have hcount := (h ⟨"f", [], .default⟩ calleeBlock).invokeContract
  exact absurd hcount (by decide +kernel)

end SorobanDevkit.Audit
