import SorobanDevkit.Agent.CommandLine

/-!
# The endpoint of a planned command line

A planned command line that queries a network ends in an endpoint and a passphrase, each of them
that of the request or else the one pinned for the testnet. An endpoint other than the testnet's
needs a passphrase, but a passphrase needs no endpoint.
-/

namespace SorobanDevkit.Agent

/-- The command line of a plan ends in an endpoint and a passphrase, before the output format. -/
def Plan.Targets (p : Plan) (rpc phrase : String) : Prop :=
  ∃ cap words format, find p.capabilityId = some cap ∧ cap.flagFor "--rpc-url" = true ∧
    (format = [] ∨ format = ["--format", "json"]) ∧
    p.argv = words ++ ["--rpc-url", rpc] ++ ["--network-passphrase", phrase] ++ format

/-- The endpoint and the passphrase of a plan are both the pinned ones, or both those of the
arguments of the request. -/
def Plan.PairedEndpoint (p : Plan) (args : IntentArgs) : Prop :=
  ∀ rpc phrase, p.Targets rpc phrase →
    (rpc = TESTNET_RPC ∧ phrase = TESTNET_PASSPHRASE) ∨
      (args.rpcUrl = some rpc ∧ args.networkPassphrase = some phrase)

/-- The last option of a command line is determined, whether an output format follows it or not. -/
theorem last_option_unique {words words' format format' : List String} {flag flag' v v' : String}
    (hflag : flag ≠ "--format") (hflag' : flag' ≠ "--format")
    (hformat : format = [] ∨ format = ["--format", "json"])
    (hformat' : format' = [] ∨ format' = ["--format", "json"])
    (h : words ++ [flag, v] ++ format = words' ++ [flag', v'] ++ format') :
    words = words' ∧ flag = flag' ∧ v = v' := by
  have hsame : words ++ [flag, v] = words' ++ [flag', v'] := by
    rcases hformat with rfl | rfl <;> rcases hformat' with rfl | rfl
    · simpa only [List.append_nil] using h
    · rw [List.append_nil] at h
      exact absurd (List.cons.inj (List.append_inj' h rfl).2).1 hflag
    · rw [List.append_nil] at h
      exact absurd (List.cons.inj (List.append_inj' h rfl).2).1.symm hflag'
    · exact List.append_cancel_right h
  obtain ⟨hwords, hpair⟩ := List.append_inj' hsame rfl
  obtain ⟨rfl, hv⟩ := List.cons.inj hpair
  exact ⟨hwords, rfl, (List.cons.inj hv).1⟩

section Targets

variable {cap : Capability} {args : IntentArgs}

/-- A capability that takes an endpoint targets one, apart from a fee estimate from samples. -/
theorem endpoint_of_flagFor (args : IntentArgs) (hcap : cap.WellDeclared)
    (hrpc : cap.flagFor "--rpc-url" = true) :
    endpoint cap args =
      if cap.id = "fee.estimate" ∧ args.baseFees ≠ none ∧ args.useRpc = false then none
      else some (args.rpcUrl.getD TESTNET_RPC, args.networkPassphrase.getD TESTNET_PASSPHRASE) := by
  have hoffline : (cap.id = "fee.estimate" && args.baseFees.isSome && !args.useRpc) =
      decide (cap.id = "fee.estimate" ∧ args.baseFees ≠ none ∧ args.useRpc = false) := by
    rw [Bool.eq_iff_iff]
    simp only [Bool.and_eq_true, decide_eq_true_eq, Option.isSome_iff_ne_none,
      Bool.not_eq_true', and_assoc]
  rw [endpoint, hrpc, (hcap.endpoint hrpc).2, hoffline]
  by_cases h : cap.id = "fee.estimate" ∧ args.baseFees ≠ none ∧ args.useRpc = false
  · rw [if_pos h, decide_eq_true h]
    rfl
  · rw [if_neg h, decide_eq_false h]
    rfl

/-- A capability that takes no endpoint targets none. -/
theorem endpoint_eq_none (hrpc : cap.flagFor "--rpc-url" ≠ true) : endpoint cap args = none := by
  rw [endpoint, Bool.eq_false_of_not_eq_true hrpc, Bool.and_false, Bool.false_and]
  rfl

/-- A passphrase has an endpoint to go with, and an endpoint without one is the testnet's. -/
theorem endpointChecked (h : checkEndpoint cap args = .ok ()) :
    (args.networkPassphrase = none ∨ cap.flagFor "--network-passphrase" = true) ∧
      (cap.touchesNetwork = true → cap.flagFor "--rpc-url" = true → args.networkPassphrase = none →
        args.rpcUrl = none ∨ args.rpcUrl = some TESTNET_RPC) := by
  obtain ⟨_, -, h⟩ := Except.bind_eq_ok_iff.mp h
  obtain ⟨_, hphrase, h⟩ := Except.bind_eq_ok_iff.mp h
  refine ⟨(Except.ensure_eq_ok_iff.mp hphrase).imp_right And.right, fun hnetwork hrpc hnone => ?_⟩
  have hpinned := Except.ensure_eq_ok_iff.mp h
  by_contra hforeign
  rw [not_or] at hforeign
  exact hpinned ⟨hnetwork, hrpc, hforeign.1, hforeign.2, hnone⟩

/-- A fee estimate from samples ends in the samples. -/
theorem words_of_offline {pieces : Pieces} (hpieces : pieces.Of cap args)
    (hnone : endpoint cap args = none) (hfees : args.baseFees ≠ none)
    (hrpc : args.useRpc = false) :
    ∃ before samples, pieces.words cap args = before ++ ["--base-fees", samples] := by
  obtain ⟨samples, hsamples⟩ := Option.ne_none_iff_exists'.mp hfees
  have hswitch : pieces.rpc = [] := by
    have hok := hpieces.rpc_eq
    rw [rpcWords, wantsRpc, hrpc, hsamples] at hok
    simpa using hok.symm
  have hwords : pieces.fees = ["--base-fees", samples] := by
    have hok := hpieces.fees_eq
    rw [flaggedWords, hsamples] at hok
    simp only [Option.toList_some, List.cons_ne_nil, if_false, List.flatMap_cons,
      List.flatMap_nil, List.append_nil] at hok
    split at hok
    · exact (Except.ok.inj hok).symm
    · cases hok
  have hend : endpointWords cap args = [] := by rw [endpointWords, hnone]
  rw [Pieces.words, hend, hswitch, hwords, List.append_nil, List.append_nil]
  exact ⟨_, samples, rfl⟩

end Targets

/-- **The endpoint and the passphrase in which the command line of a plan ends.** -/
theorem targets_iff {request : String} {p : Plan} {cap : Capability} {rpc phrase : String}
    (hplanned : Planned request p cap) :
    p.Targets rpc phrase ↔ endpoint cap (extractArgs request) = some (rpc, phrase) := by
  obtain ⟨pieces, hpieces, hargv⟩ := buildArgv_ok hplanned.argv_eq
  have hcap := Capability.wellDeclared_iff.mp
    (wellDeclared_of_readOnly hplanned.mem hplanned.readOnly)
  have hformat := formatWords_ok hpieces.format_eq
  -- the command line of a plan with an endpoint
  have hends : ∀ {target}, endpoint cap (extractArgs request) = some target →
      ∃ before, p.argv = before ++ ["--rpc-url", target.1] ++
        ["--network-passphrase", target.2] ++ pieces.format := by
    intro target htarget
    have hend : endpointWords cap (extractArgs request) =
        ["--rpc-url", target.1] ++ ["--network-passphrase", target.2] := by
      rw [endpointWords, htarget]
      rfl
    obtain ⟨front, hfront⟩ : ∃ front, pieces.words cap (extractArgs request) =
        front ++ endpointWords cap (extractArgs request) := ⟨_, rfl⟩
    rw [hargv, hfront, hend]
    exact ⟨cap.command ++ front, by simp only [List.append_assoc]⟩
  constructor
  · rintro ⟨cap', words, format, hfind, hrpc, hformat', hwords⟩
    obtain rfl := Option.some.inj (hplanned.find_eq.symm.trans hfind)
    have htarget := endpoint_of_flagFor (extractArgs request) hcap hrpc
    split at htarget
    · next hoffline =>
      -- the samples end the command line, where the passphrase would stand
      obtain ⟨before, samples, hsamples⟩ :=
        words_of_offline hpieces htarget hoffline.2.1 hoffline.2.2
      rw [hargv, hsamples, ← List.append_assoc, ← List.append_assoc] at hwords
      obtain ⟨-, hflag, -⟩ := last_option_unique (by decide) (by decide) hformat hformat' hwords
      exact absurd hflag (by decide)
    · obtain ⟨before, hbefore⟩ := hends htarget
      obtain ⟨hinit, -, hphrase⟩ := last_option_unique (by decide) (by decide) hformat' hformat
        (hwords.symm.trans hbefore)
      obtain ⟨-, hpair⟩ := List.append_inj' hinit rfl
      rw [htarget, hphrase, (List.cons.inj (List.cons.inj hpair).2).1]
  · intro htarget
    obtain ⟨before, hbefore⟩ := hends htarget
    refine ⟨cap, before, pieces.format, hplanned.find_eq, ?_, hformat, hbefore⟩
    by_contra hrpc
    rw [endpoint_eq_none hrpc] at htarget
    cases htarget

/-- **When the endpoint and the passphrase of a plan belong together**: the request names an
endpoint, or no passphrase but the testnet's, or it asks for a fee estimate from samples, which
queries no network. -/
theorem pairedEndpoint_iff (request : String) (p : Plan) (h : plan request = .ok p) :
    p.PairedEndpoint (extractArgs request) ↔
      (extractArgs request).rpcUrl ≠ none ∨
      (extractArgs request).networkPassphrase = none ∨
      (extractArgs request).networkPassphrase = some TESTNET_PASSPHRASE ∨
      (p.capabilityId = "fee.estimate" ∧ (extractArgs request).baseFees ≠ none ∧
        (extractArgs request).useRpc = false) := by
  obtain ⟨cap, hplanned⟩ := plan_ok h
  obtain ⟨pieces, hpieces, -⟩ := buildArgv_ok hplanned.argv_eq
  have hcap := Capability.wellDeclared_iff.mp
    (wellDeclared_of_readOnly hplanned.mem hplanned.readOnly)
  have htargets : ∀ rpc phrase, p.Targets rpc phrase ↔
      endpoint cap (extractArgs request) = some (rpc, phrase) := fun _ _ => targets_iff hplanned
  obtain ⟨hphrase, hforeign⟩ := endpointChecked hpieces.endpointChecked
  simp only [Plan.PairedEndpoint, htargets, ← hplanned.id_eq]
  generalize extractArgs request = args at hphrase hforeign ⊢
  by_cases hrpc : cap.flagFor "--rpc-url" = true
  · have hendpoint := endpoint_of_flagFor args hcap hrpc
    split at hendpoint
    · next hoffline =>
      exact ⟨fun _ => .inr (.inr (.inr hoffline)), fun _ rpc phrase htarget => by
        rw [hendpoint] at htarget
        cases htarget⟩
    · next honline =>
      constructor
      · intro hpaired
        rcases hpaired _ _ hendpoint with ⟨-, hpinned⟩ | ⟨hrpcUrl, -⟩
        · cases hgiven : args.networkPassphrase with
          | none => exact .inr (.inl rfl)
          | some phrase =>
            rw [hgiven] at hpinned
            exact .inr (.inr (.inl (congrArg some hpinned)))
        · exact .inl (by rw [hrpcUrl]; exact Option.some_ne_none _)
      · intro hcond rpc phrase htarget
        obtain ⟨rfl, rfl⟩ := Prod.mk.inj (Option.some.inj (hendpoint.symm.trans htarget))
        cases hrpcUrl : args.rpcUrl with
        | none =>
          refine .inl ⟨rfl, ?_⟩
          rcases hcond with hne | hnone | htestnet | hoffline
          · exact absurd hrpcUrl hne
          · rw [hnone, Option.getD_none]
          · rw [htestnet, Option.getD_some]
          · exact absurd hoffline honline
        | some url =>
          cases hgiven : args.networkPassphrase with
          | none =>
            -- an endpoint without a passphrase is the testnet's
            have hurl := hforeign (hcap.endpoint hrpc).2 hrpc hgiven
            rw [hrpcUrl] at hurl
            exact .inl ⟨Option.some.inj (hurl.resolve_left (Option.some_ne_none _)), rfl⟩
          | some phrase => exact .inr ⟨rfl, rfl⟩
  · -- without an endpoint there is no passphrase
    have hnone : args.networkPassphrase = none :=
      hphrase.resolve_right fun hflag => hrpc (hcap.passphrase hflag)
    exact ⟨fun _ => .inr (.inl hnone), fun _ rpc phrase htarget => by
      rw [endpoint_eq_none hrpc] at htarget
      cases htarget⟩

/-- A plan for the status of a project on a network that the request names. -/
def otherNetworkPlan : Plan where
  capabilityId := "project.status"
  argv := ["project", "status", "--rpc-url", "http://localhost:8000", "--network-passphrase",
    "Other", "--format", "json"]
  network := none
  safety := .readOnly
  wantsJson := true
  matchedKeywords := ["project", "status"]

/-- A network that the request names by endpoint and passphrase is paired. -/
theorem pairedEndpoint_otherNetwork : otherNetworkPlan.PairedEndpoint
    (extractArgs
      "project status --rpc-url=http://localhost:8000 --network-passphrase=Other") :=
  (pairedEndpoint_iff
    "project status --rpc-url=http://localhost:8000 --network-passphrase=Other"
    otherNetworkPlan (by decide +kernel)).mpr (.inl (by decide +kernel))

/-- A plan for the status of a project, with a passphrase that the request names. -/
def foreignPassphrasePlan : Plan where
  capabilityId := "project.status"
  argv := ["project", "status", "--rpc-url", TESTNET_RPC, "--network-passphrase", "Other",
    "--format", "json"]
  network := none
  safety := .readOnly
  wantsJson := true
  matchedKeywords := ["project", "status"]

/-- A passphrase of the request is paired with the endpoint of the testnet. -/
theorem foreignPassphrase_not_paired :
    plan "project status --network-passphrase=Other" = .ok foreignPassphrasePlan ∧
      ¬ foreignPassphrasePlan.PairedEndpoint
        (extractArgs "project status --network-passphrase=Other") := by
  have hplan : plan "project status --network-passphrase=Other" = .ok foreignPassphrasePlan := by
    decide +kernel
  refine ⟨hplan, fun hpaired => ?_⟩
  obtain ⟨cap, hfind⟩ : ∃ cap, find "project.status" = some cap :=
    Option.isSome_iff_exists.mp (by decide +kernel)
  have hrpc : ∀ cap ∈ find "project.status", cap.flagFor "--rpc-url" = true := by decide +kernel
  have htarget : foreignPassphrasePlan.Targets TESTNET_RPC "Other" :=
    ⟨cap, ["project", "status"], ["--format", "json"], hfind, hrpc cap hfind, .inr rfl, rfl⟩
  rcases hpaired _ _ htarget with ⟨-, hpinned⟩ | ⟨hgiven, -⟩
  · exact absurd hpinned (by decide)
  · exact absurd hgiven (by decide +kernel)

end SorobanDevkit.Agent
