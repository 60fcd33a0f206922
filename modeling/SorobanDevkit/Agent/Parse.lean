import SorobanDevkit.Agent.Intent
import SorobanDevkit.Library.Fallible

/-!
# Parsing a request

`parse` of `sdkt-agent/src/intent.rs`: a request selects the capabilities all of whose keywords it
has, apart from those whose keywords are fewer than, and among, those of another one. It is refused
unless one of the selected ones is left over that it may be about.

A comment of the code says that a request that names a capability that changes the ledger beside
another one is ambiguous. If there is one capability that does not, the code takes it all the same.
-/

namespace SorobanDevkit.Agent

open Strings (asciiLower splitAt trim)

/-- `ParseError`. -/
inductive ParseError
  | unrecognised (request : String)
  | ambiguous (candidates : List String)
  | mutationRequested (capabilityId : String)
  | missingArgument (capabilityId argument : String)
  | ambiguousArtifactRoles (capabilityId : String)
  | unsupportedArgument (capabilityId arguments : String)
  deriving DecidableEq

/-- `Intent`. -/
structure Intent where
  capabilityId : String
  args : IntentArgs
  matchedKeywords : List String
  deriving DecidableEq

/-- A capability with keywords that select it. -/
abbrev Rule := String × List String

/-- `INTENT_KEYWORDS`. -/
def INTENT_KEYWORDS : List (String × List (List String)) := [
  ("deploy", [["deploy"]]),
  ("invoke", [["invoke"], ["call", "and", "send"]]),
  ("tx.submit", [["submit", "transaction"], ["submit", "tx"]]),
  ("tx.sign", [["sign", "transaction"], ["sign", "envelope"]]),
  ("storage.extend", [["extend", "ttl"], ["extend", "storage"]]),
  ("storage.restore", [["restore", "storage"], ["restore", "archived"]]),
  ("project.deploy", [["deploy", "project"]]),
  ("identity.fund", [["fund", "account"], ["friendbot"]]),
  ("release_assurance", [["release", "assurance"], ["release", "check"]]),
  ("diff.upgrade_safety", [["upgrade", "safety"], ["safe", "to", "upgrade"],
    ["breaking", "change"]]),
  ("verify", [["verify"]]),
  ("health", [["health"]]),
  ("storage.analyze", [["storage", "analyze"], ["storage", "layout"]]),
  ("events", [["events"]]),
  ("audit", [["audit"], ["security", "scan"]]),
  ("network.check", [["network", "check"], ["network", "status"]]),
  ("network.list", [["networks"], ["network", "list"]]),
  ("plugin.doctor", [["plugin", "doctor"], ["plugin", "self-check"]]),
  ("doctor", [["doctor"], ["environment", "check"]]),
  ("wasm.metadata", [["metadata"]]),
  ("wasm.inspect", [["inspect", "wasm"], ["wasm", "inspect"]]),
  ("inspect", [["inspect", "contract"], ["inspect"]]),
  ("call", [["call", "function"], ["read", "function"], ["invoke", "read"],
    ["call", "on", "contract"]]),
  ("diff", [["diff"]]),
  ("project.status", [["project", "status"], ["project", "deployment"]]),
  ("fee.estimate", [["fee", "estimate"], ["estimate", "fee"], ["fee", "stats"]]),
  ("tx.simulate", [["simulate", "transaction"], ["simulate", "tx"], ["simulate", "envelope"],
    ["simulate"]])]

/-- The words of a request in lower case, as `parse` takes them. -/
def requestWords (request : String) : List String :=
  (splitAt (fun c => !c.isAlphanum && c != '.' && c != '/' && c != '-') (asciiLower request)).filter
    (· ≠ "")

/-- The body of the loop over the keywords. -/
def matchRule (words : List String) (matched : List Rule) (entry : String × List (List String)) :
    List Rule :=
  match entry.2.find? fun set => set.all (words.contains ·) with
  | some set => if matched.any (·.1 = entry.1) then matched else matched ++ [(entry.1, set)]
  | none => matched

/-- The capabilities whose keywords are all among the words. -/
def matchedRules (words : List String) : List Rule := INTENT_KEYWORDS.foldl (matchRule words) []

/-- The rules without those whose keywords are fewer than, and among, those of another one. -/
def dropBroader (matched : List Rule) : List Rule :=
  matched.filter fun (id, kws) => !matched.any fun (otherId, otherKws) =>
    otherId ≠ id && kws.length < otherKws.length && kws.all (otherKws.contains ·)

/-- `is_mutating`. -/
def isMutating (id : String) : Bool := (find id).any (·.safety = .mutating)

/-- The arguments of a comparison of two artifacts, in `validate_args`. -/
def validateDiff (id : String) (args : IntentArgs) : Except ParseError Unit :=
  match args.previousWasm, args.wasm with
  | some _, some _ => .ok ()
  | none, _ =>
    if args.artifactPaths.length = 2 ∧ !args.rolesClaimed then .error (.ambiguousArtifactRoles id)
    else .error (.missingArgument id "baseline wasm (the 'from' artifact)")
  | some _, none => .error (.missingArgument id "candidate wasm (the 'to' artifact)")

/-- What `validate_args` checks of the arguments after the contract id. -/
def validateRest (id : String) (args : IntentArgs) : Except ParseError Unit :=
  let missing (argument : String) : Except ParseError Unit := .error (.missingArgument id argument)
  if id = "verify" ∧ args.wasm = none then missing "local wasm path"
  else if id = "diff.upgrade_safety" ∨ id = "diff" then validateDiff id args
  else if id = "audit" ∧ args.sourcePath = none then missing "a .rs source path"
  else if id = "release_assurance" ∧ args.wasm = none then
    if 1 < args.artifactPaths.length ∧ !args.rolesClaimed then .error (.ambiguousArtifactRoles id)
    else missing "candidate wasm path"
  else if id = "call" ∧ args.function = none then missing "function name"
  else if id = "fee.estimate" ∧ args.baseFees = none ∧ !args.useRpc ∧ args.rpcUrl = none then
    missing "--base-fees <f1,f2,f3> or an RPC endpoint (--rpc-url) to query"
  else if id = "tx.simulate" ∧ args.envelope = none then
    missing "transaction envelope (base64 XDR or a .xdr file path)"
  else if id = "network.check" ∧ args.profile = none then missing "a saved profile name"
  else .ok ()

/-- The capabilities that are about a contract on the network. -/
def needsContract (id : String) : Bool :=
  ["inspect", "health", "verify", "wasm.metadata", "storage.analyze", "events", "call"].contains id

/-- `validate_args`. -/
def validateArgs (id : String) (args : IntentArgs) : Except ParseError Unit :=
  if needsContract id && args.contract.isNone then
    .error (.missingArgument id "contract id (C...)")
  else validateRest id args

/-- The capabilities that a request selects and that are not broader than another one. -/
def selected (request : String) : List Rule := dropBroader (matchedRules (requestWords request))

/-- The selected capabilities that change the ledger. -/
def mutatingSelected (request : String) : List String :=
  ((selected request).map (·.1)).filter fun id => isMutating id

/-- The other selected capabilities. -/
def readonlySelected (request : String) : List String :=
  ((selected request).map (·.1)).filter fun id => !isMutating id

/-- `parse`. -/
def parse (request : String) : Except ParseError Intent :=
  if matchedRules (requestWords request) = [] then .error (.unrecognised (trim request))
  else match readonlySelected request with
    | [] => match mutatingSelected request with
      | [id] => .error (.mutationRequested id)
      | mutating => .error (.ambiguous mutating)
    | [id] => do
      let args := extractArgs request
      let keywords := ((selected request).find? (·.1 = id)).elim [] (·.2)
      validateArgs id args
      .ok { capabilityId := id, args, matchedKeywords := keywords }
    | readonly => .error (.ambiguous readonly)

/-! ### What a request selects -/

theorem mem_selected {request : String} {rule : Rule} (h : rule ∈ selected request) :
    rule ∈ matchedRules (requestWords request) := (List.mem_filter.mp h).1

/-- A rule is in the table, and the words have its keywords. -/
def Rule.Fires (words : List String) (rule : Rule) : Prop :=
  ∃ sets, (rule.1, sets) ∈ INTENT_KEYWORDS ∧ rule.2 ∈ sets ∧ ∀ kw ∈ rule.2, kw ∈ words

theorem fires_matchRule {words : List String} {matched : List Rule}
    {entry : String × List (List String)} (hentry : entry ∈ INTENT_KEYWORDS)
    (h : ∀ rule ∈ matched, rule.Fires words) : ∀ rule ∈ matchRule words matched entry,
      rule.Fires words := by
  rw [matchRule]
  split
  · next set hset =>
    split
    · exact h
    · intro rule hrule
      rcases List.mem_append.mp hrule with hrule | hrule
      · exact h rule hrule
      · rw [List.mem_singleton.mp hrule]
        have hall := List.find?_some hset
        refine ⟨entry.2, hentry, List.mem_of_find?_eq_some hset, fun kw hkw => ?_⟩
        exact List.contains_iff_mem.mp (List.all_eq_true.mp hall kw hkw)
  · exact h

theorem fires_foldl {words : List String} {entries : List (String × List (List String))}
    (hentries : ∀ entry ∈ entries, entry ∈ INTENT_KEYWORDS) {matched : List Rule}
    (h : ∀ rule ∈ matched, rule.Fires words) :
    ∀ rule ∈ entries.foldl (matchRule words) matched, rule.Fires words := by
  induction entries generalizing matched with
  | nil => exact h
  | cons entry entries ih =>
    obtain ⟨hentry, hentries⟩ := List.forall_mem_cons.mp hentries
    exact ih hentries (fires_matchRule hentry h)

/-- What a request selects has its keywords among the words of the request. -/
theorem fires_of_mem_selected {request : String} {rule : Rule} (h : rule ∈ selected request) :
    rule.Fires (requestWords request) :=
  fires_foldl (fun _ hentry => hentry) (fun _ hrule => by cases hrule) rule (mem_selected h)

/-- Every capability of the table is in the registry, and reads or changes the ledger. -/
theorem find_of_keywords {id : String} {sets : List (List String)}
    (h : (id, sets) ∈ INTENT_KEYWORDS) :
    ∃ cap, find id = some cap ∧ (cap.safety = .readOnly ∨ cap.safety = .mutating) := by
  have hall : INTENT_KEYWORDS.all (fun entry => (find entry.1).any fun cap =>
      cap.safety = .readOnly || cap.safety = .mutating) = true := by decide
  obtain ⟨cap, hcap, hsafety⟩ := (Option.any_eq_true _ _).mp (List.all_eq_true.mp hall _ h)
  rw [Bool.or_eq_true, decide_eq_true_eq, decide_eq_true_eq] at hsafety
  exact ⟨cap, hcap, hsafety⟩

theorem mem_mutatingSelected {request : String} {id : String} :
    id ∈ mutatingSelected request ↔ id ∈ (selected request).map (·.1) ∧ isMutating id = true :=
  List.mem_filter

theorem mem_readonlySelected {request : String} {id : String} :
    id ∈ readonlySelected request ↔ id ∈ (selected request).map (·.1) ∧ isMutating id = false := by
  rw [readonlySelected, List.mem_filter, Bool.not_eq_true']

/-- Where no selected capability is of the one kind, those of the other kind are all that are
selected. -/
theorem mutatingSelected_eq {request : String} (h : readonlySelected request = []) :
    mutatingSelected request = (selected request).map (·.1) := by
  refine List.filter_eq_self.mpr fun id hid => ?_
  by_contra hmutating
  have hmem := mem_readonlySelected.mpr ⟨hid, Bool.eq_false_of_not_eq_true hmutating⟩
  rw [h] at hmem
  cases hmem

theorem matchedRules_ne_nil {request : String} (h : readonlySelected request ≠ []) :
    matchedRules (requestWords request) ≠ [] := by
  intro hnil
  obtain ⟨id, hid⟩ := List.exists_mem_of_ne_nil _ h
  obtain ⟨rule, hrule, -⟩ := List.mem_map.mp (mem_readonlySelected.mp hid).1
  have hmem := mem_selected hrule
  rw [hnil] at hmem
  cases hmem

/-! ### What a request is parsed as -/

theorem validateDiff_ne_mutation {id : String} {args : IntentArgs} {capabilityId : String} :
    validateDiff id args ≠ .error (.mutationRequested capabilityId) := by
  rw [validateDiff]
  split
  · simp
  · split_ifs <;> simp
  · simp

/-- The arguments are refused for one that is missing, or for roles that are not settled. -/
theorem validateArgs_ne_mutation {id : String} {args : IntentArgs} {capabilityId : String} :
    validateArgs id args ≠ .error (.mutationRequested capabilityId) := by
  rw [validateArgs]
  split
  · simp
  · rw [validateRest]
    split_ifs <;> simp [validateDiff_ne_mutation]

/-- Without a selected capability that changes nothing, a request is refused. -/
theorem parse_of_nil {request : String} (h : readonlySelected request = []) :
    ∃ e, parse request = .error e ∧
      ∀ id, e = .mutationRequested id → mutatingSelected request = [id] := by
  by_cases hnone : matchedRules (requestWords request) = []
  · exact ⟨_, by rw [parse, if_pos hnone], by simp⟩
  · rw [parse, if_neg hnone, h]
    simp only
    split
    · next id hid =>
      refine ⟨_, rfl, fun id' heq => ?_⟩
      cases heq
      exact hid
    · exact ⟨_, rfl, by simp⟩

/-- With one, it is refused exactly if its arguments are. -/
theorem parse_of_singleton {request id : String} (h : readonlySelected request = [id]) :
    parse request = (validateArgs id (extractArgs request)).map fun _ =>
      { capabilityId := id
        args := extractArgs request
        matchedKeywords := ((selected request).find? (·.1 = id)).elim [] (·.2) } := by
  have hsome : matchedRules (requestWords request) ≠ [] := matchedRules_ne_nil (by simp [h])
  rw [parse, if_neg hsome, h]
  simp only
  cases validateArgs id (extractArgs request) with
  | ok u => rfl
  | error e => rfl

/-- With several, it is ambiguous. -/
theorem parse_of_several {request a b : String} {ids : List String}
    (h : readonlySelected request = a :: b :: ids) :
    parse request = .error (.ambiguous (a :: b :: ids)) := by
  have hsome : matchedRules (requestWords request) ≠ [] := matchedRules_ne_nil (by simp [h])
  rw [parse, if_neg hsome, h]

/-- **A request that is not refused selects one capability that changes nothing, with the arguments
that it needs.** -/
theorem parse_ok {request : String} {intent : Intent} (h : parse request = .ok intent) :
    readonlySelected request = [intent.capabilityId] ∧
      validateArgs intent.capabilityId (extractArgs request) = .ok () ∧
      intent.args = extractArgs request := by
  cases hreadonly : readonlySelected request with
  | nil =>
    obtain ⟨e, he, -⟩ := parse_of_nil hreadonly
    rw [h] at he
    cases he
  | cons id ids =>
    cases ids with
    | nil =>
      rw [parse_of_singleton hreadonly] at h
      obtain ⟨u, hvalidate, hintent⟩ := Except.map_eq_ok_iff.mp h
      subst hintent
      exact ⟨rfl, hvalidate, rfl⟩
    | cons id' ids =>
      rw [parse_of_several hreadonly] at h
      cases h

/-- **A request that is not refused is about a capability that only reads**, and has the words for
it. -/
theorem readOnly_of_parse_ok {request : String} {intent : Intent} (h : parse request = .ok intent) :
    ∃ cap, find intent.capabilityId = some cap ∧ cap.safety = .readOnly ∧
      cap.requiresConfirmation = false ∧
      ∃ kws, Rule.Fires (requestWords request) (intent.capabilityId, kws) := by
  obtain ⟨hreadonly, -, -⟩ := parse_ok h
  have hmem : intent.capabilityId ∈ readonlySelected request := by simp [hreadonly]
  obtain ⟨hselected, hchanges⟩ := mem_readonlySelected.mp hmem
  obtain ⟨⟨id, keywords⟩, hrule, rfl⟩ := List.mem_map.mp hselected
  obtain ⟨sets, hentry, hkeywords⟩ := fires_of_mem_selected hrule
  obtain ⟨cap, hcap, hsafety⟩ := find_of_keywords hentry
  have hreadOnly : cap.safety = .readOnly := by
    refine hsafety.resolve_right fun hmutating => ?_
    rw [isMutating, hcap, Option.any_some, decide_eq_false_iff_not] at hchanges
    exact hchanges hmutating
  exact ⟨cap, hcap, hreadOnly, (confirmed_of_mutating cap (find_eq_some hcap).1).2 hreadOnly,
    keywords, sets, hentry, hkeywords⟩

theorem readOnly_of_parse_ok_doctor : ∃ cap, find "doctor" = some cap ∧ cap.safety = .readOnly :=
  have h : parse "run doctor" = .ok ⟨"doctor", extractArgs "run doctor", ["doctor"]⟩ := by
    decide +kernel
  (readOnly_of_parse_ok h).imp fun _ hcap => ⟨hcap.1, hcap.2.1⟩

/-! ### Several capabilities -/

/-- A request that selects several capabilities is refused, and one is refused for changing the
ledger only if it selects one capability, which does. -/
structure RefusesSeveral (request : String) : Prop where
  several : ∀ a ∈ (selected request).map (·.1), ∀ b ∈ (selected request).map (·.1), a ≠ b →
    ∃ e, parse request = .error e
  mutation : ∀ id, parse request = .error (.mutationRequested id) →
    (selected request).map (·.1) = [id] ∧ isMutating id = true

theorem mutation_of_parse {request id : String}
    (h : parse request = .error (.mutationRequested id)) :
    (selected request).map (·.1) = [id] ∧ isMutating id = true := by
  cases hreadonly : readonlySelected request with
  | nil =>
    obtain ⟨e, he, hmutation⟩ := parse_of_nil hreadonly
    have hid := hmutation id (Except.error.inj (he.symm.trans h))
    have hmem : id ∈ mutatingSelected request := by simp [hid]
    exact ⟨(mutatingSelected_eq hreadonly).symm.trans hid, (mem_mutatingSelected.mp hmem).2⟩
  | cons id' ids =>
    cases ids with
    | nil =>
      rw [parse_of_singleton hreadonly] at h
      cases hvalidate : validateArgs id' (extractArgs request) with
      | ok u =>
        rw [hvalidate] at h
        cases h
      | error e =>
        rw [hvalidate] at h
        cases h
        exact absurd hvalidate validateArgs_ne_mutation
    | cons id'' ids =>
      rw [parse_of_several hreadonly] at h
      cases h

/-- **Several capabilities are refused, unless exactly one of them changes nothing.** A request is
refused if it selects several capabilities, and is refused for a change of the ledger only if it
selects nothing else; the exceptions are the requests that select one capability that changes
nothing and some that do, and have the arguments that the one needs. -/
theorem refusesSeveral_iff (request : String) :
    RefusesSeveral request ↔ ¬ ∃ id, readonlySelected request = [id] ∧
      mutatingSelected request ≠ [] ∧ validateArgs id (extractArgs request) = .ok () := by
  constructor
  · rintro ⟨hseveral, -⟩ ⟨id, hreadonly, hmutating, hvalidate⟩
    obtain ⟨id', hid'⟩ := List.exists_mem_of_ne_nil _ hmutating
    have hid : id ∈ readonlySelected request := by simp [hreadonly]
    obtain ⟨hid, hchangesNothing⟩ := mem_readonlySelected.mp hid
    obtain ⟨hid', hchanges⟩ := mem_mutatingSelected.mp hid'
    have hne : id ≠ id' := by
      rintro rfl
      rw [hchanges] at hchangesNothing
      cases hchangesNothing
    obtain ⟨e, he⟩ := hseveral id hid id' hid' hne
    rw [parse_of_singleton hreadonly, hvalidate] at he
    cases he
  · intro hnot
    refine ⟨fun a ha b hb hne => ?_, fun id => mutation_of_parse⟩
    cases hparse : parse request with
    | error e => exact ⟨e, rfl⟩
    | ok intent =>
      obtain ⟨hreadonly, hvalidate, -⟩ := parse_ok hparse
      -- one of the two is not the capability that changes nothing, so it changes the ledger
      have hother : ∃ c ∈ (selected request).map (·.1), c ≠ intent.capabilityId := by
        by_cases hac : a = intent.capabilityId
        · exact ⟨b, hb, fun hbc => hne (hac.trans hbc.symm)⟩
        · exact ⟨a, ha, hac⟩
      obtain ⟨c, hc, hcne⟩ := hother
      have hmutating : c ∈ mutatingSelected request := by
        refine mem_mutatingSelected.mpr ⟨hc, ?_⟩
        by_contra hchanges
        have hmem := mem_readonlySelected.mpr ⟨hc, Bool.eq_false_of_not_eq_true hchanges⟩
        rw [hreadonly, List.mem_singleton] at hmem
        exact hcne hmem
      exact absurd ⟨_, hreadonly, List.ne_nil_of_mem hmutating, hvalidate⟩ hnot

/-- A request for a deployment and for the diagnosis of the environment is taken for the latter. -/
theorem deploy_and_doctor_not_refused : ¬ RefusesSeveral "deploy the contract and run doctor" := by
  rintro ⟨hseveral, -⟩
  have hdeploy : "deploy" ∈ (selected "deploy the contract and run doctor").map (·.1) := by decide
  have hdoctor : "doctor" ∈ (selected "deploy the contract and run doctor").map (·.1) := by decide
  obtain ⟨e, he⟩ := hseveral _ hdeploy _ hdoctor (by decide)
  have hreadonly : readonlySelected "deploy the contract and run doctor" = ["doctor"] := by decide
  rw [parse_of_singleton hreadonly] at he
  have hvalidate : validateArgs "doctor" (extractArgs "deploy the contract and run doctor") =
      .ok () := rfl
  rw [hvalidate] at he
  cases he

end SorobanDevkit.Agent
