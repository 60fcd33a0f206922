import SorobanDevkit.Library.Tokens

/-!
# The registry of capabilities

`sdkt-core/src/registry.rs` lists the commands that an agent may plan, with their arguments and
their safety.
-/

namespace SorobanDevkit.Agent

/-- `Safety`. -/
inductive Safety
  | readOnly
  | localWrite
  | mutating
  deriving DecidableEq

/-- `NetworkRequirement`. -/
inductive NetworkRequirement
  | none
  | testnet
  | mainnet
  | both
  deriving DecidableEq

/-- `OutputFormats`. -/
structure OutputFormats where
  pretty : Bool
  json : Bool
  deriving DecidableEq

/-- `PRETTY`. -/
def PRETTY : OutputFormats := ⟨true, false⟩

/-- `PRETTY_JSON`. -/
def PRETTY_JSON : OutputFormats := ⟨true, true⟩

/-- `Capability`, as far as the agent reads it, with the values of `Capability::BASE`. -/
structure Capability where
  id : String
  command : List String
  requiredArgs : List String := []
  optionalArgs : List String := []
  formats : OutputFormats := PRETTY
  network : NetworkRequirement := .none
  safety : Safety := .readOnly
  requiresConfirmation : Bool := false
  deriving DecidableEq

/-- `CAPABILITIES`. -/
def capabilities : List Capability := [
  { id := "wasm.inspect", command := ["wasm", "inspect"], requiredArgs := ["<file.wasm>"],
    optionalArgs := ["--format"], formats := PRETTY_JSON },
  { id := "wasm.metadata", command := ["wasm", "metadata"], requiredArgs := ["--contract <C...>"],
    optionalArgs := ["--rpc-url", "--network-passphrase", "--network", "--network-profile",
      "--refresh", "--format"], formats := PRETTY_JSON, network := .both },
  { id := "diff", command := ["diff"], requiredArgs := ["--old-wasm <f>", "--new-wasm <f>"],
    optionalArgs := ["--format", "--upgrade-safety", "--max-size-bytes", "--max-growth-pct"],
    formats := PRETTY_JSON },
  { id := "diff.upgrade_safety", command := ["diff", "--upgrade-safety"],
    requiredArgs := ["--old-wasm <f>", "--new-wasm <f>"], optionalArgs := ["--format"],
    formats := PRETTY_JSON },
  { id := "audit", command := ["audit"], requiredArgs := ["<paths..>"],
    optionalArgs := ["--format", "--disable", "--rules", "--no-plugins", "--list-rules",
      "--fail-on"], formats := PRETTY_JSON },
  { id := "audit.list_rules", command := ["audit", "--list-rules"], optionalArgs := ["--format"],
    formats := PRETTY_JSON },
  { id := "verify", command := ["verify"], requiredArgs := ["--contract <C...>"],
    optionalArgs := ["--rpc-url", "--network-passphrase", "--wasm <f>", "--network",
      "--network-profile", "--format", "--upgrade-safety"], formats := PRETTY_JSON,
    network := .both },
  { id := "deployment.verify", command := ["deployment-verify"],
    requiredArgs := ["--contract <C...>"],
    optionalArgs := ["--wasm <f>", "--network", "--rpc-url", "--network-passphrase",
      "--network-profile", "--format"], formats := PRETTY_JSON, network := .both },
  { id := "health", command := ["health"], requiredArgs := ["--contract <C...>"],
    optionalArgs := ["--rpc-url", "--network-passphrase", "--wasm <f>", "--network",
      "--network-profile", "--format"], formats := PRETTY_JSON, network := .both },
  { id := "inspect", command := ["inspect"], requiredArgs := ["<contract-id>"],
    optionalArgs := ["--rpc-url", "--network-passphrase", "--network-profile", "--format"],
    formats := PRETTY_JSON, network := .both },
  { id := "release_assurance", command := ["release-assurance"], requiredArgs := ["--wasm <f>"],
    optionalArgs := ["--rpc-url", "--network-passphrase", "--previous-wasm <f>", "--audit <path>",
      "--disable <RULE>", "--contract <C>", "--network <n>", "--max-size-bytes <N>",
      "--max-growth-pct <N>", "--format"], formats := PRETTY_JSON, network := .both },
  { id := "storage.analyze", command := ["storage", "analyze"], requiredArgs := ["<contract-id>"],
    optionalArgs := ["--rpc-url", "--network-passphrase", "--key-xdr", "--map-key", "--key-arg",
      "--durability", "--abi-contract", "--format"], formats := PRETTY_JSON, network := .both },
  { id := "events", command := ["events"], requiredArgs := ["<contract-id>"],
    optionalArgs := ["--rpc-url", "--network-passphrase", "--start-ledger", "--end-ledger",
      "--topic", "--abi", "--abi-contract", "--format"], formats := PRETTY_JSON, network := .both },
  { id := "call", command := ["call"], requiredArgs := ["<contract-id>", "<function>"],
    optionalArgs := ["--rpc-url", "--network-passphrase", "--args", "--args-json", "--abi",
      "--abi-contract", "--format"], formats := PRETTY_JSON, network := .both },
  { id := "account", command := ["account"], requiredArgs := ["<address>"],
    optionalArgs := ["--rpc-url", "--network-passphrase", "--network-profile", "--format"],
    formats := PRETTY_JSON, network := .both },
  { id := "network.list", command := ["network", "list"], optionalArgs := ["--format"],
    formats := PRETTY_JSON },
  { id := "network.show", command := ["network", "show"], requiredArgs := ["<name>"],
    optionalArgs := ["--format"], formats := PRETTY_JSON },
  { id := "network.check", command := ["network", "check"], requiredArgs := ["<name>"],
    optionalArgs := ["--format"], formats := PRETTY_JSON, network := .both },
  { id := "network.diagnose", command := ["network", "diagnose"],
    optionalArgs := ["--network", "--rpc-url", "--network-passphrase", "--network-profile",
      "--format"], formats := PRETTY_JSON, network := .both },
  { id := "network.add", command := ["network", "add"],
    requiredArgs := ["<name>", "--rpc-url <url>", "--passphrase <phrase>"],
    optionalArgs := ["--friendbot", "--description", "--format"], formats := PRETTY_JSON,
    safety := .localWrite },
  { id := "network.remove", command := ["network", "remove"], requiredArgs := ["<name>"],
    optionalArgs := ["--format"], formats := PRETTY_JSON, safety := .localWrite },
  { id := "doctor", command := ["doctor"], optionalArgs := ["--format", "--json"],
    formats := PRETTY_JSON },
  { id := "identity.list", command := ["identity", "list"], optionalArgs := ["--format"],
    formats := PRETTY_JSON },
  { id := "identity.generate", command := ["identity", "generate"], requiredArgs := ["<name>"],
    optionalArgs := ["--format"], formats := PRETTY_JSON, safety := .localWrite },
  { id := "identity.import", command := ["identity", "import"],
    requiredArgs := ["<name>", "<secret-key>"], safety := .localWrite },
  { id := "identity.delete", command := ["identity", "delete"], requiredArgs := ["<name>"],
    safety := .localWrite, requiresConfirmation := true },
  { id := "identity.default", command := ["identity", "default"], requiredArgs := ["[name]"],
    safety := .localWrite },
  { id := "build", command := ["build"], optionalArgs := ["--format"], formats := PRETTY_JSON,
    safety := .localWrite },
  { id := "init", command := ["init"], requiredArgs := ["<name>"],
    optionalArgs := ["--minimal", "--force", "--format"], formats := PRETTY_JSON,
    safety := .localWrite },
  { id := "generate.client", command := ["generate", "client"], requiredArgs := ["<file.wasm>"],
    optionalArgs := ["--output <PATH>", "--skip-unsupported"], safety := .localWrite },
  { id := "package.validate", command := ["package", "validate"], optionalArgs := ["--format"],
    formats := PRETTY_JSON },
  { id := "package.update", command := ["package", "update"],
    optionalArgs := ["--check", "--dry-run", "--format"], formats := PRETTY_JSON, network := .both,
    safety := .localWrite },
  { id := "package.publish", command := ["package", "publish"], optionalArgs := ["--dry-run"],
    safety := .localWrite, requiresConfirmation := true },
  { id := "lock.verify", command := ["lock", "verify"], optionalArgs := ["--format"],
    formats := PRETTY_JSON },
  { id := "lock.generate", command := ["lock", "generate"], optionalArgs := ["--format"],
    formats := PRETTY_JSON, safety := .localWrite },
  { id := "plugin.list", command := ["plugin", "list"], optionalArgs := ["--format"],
    formats := PRETTY_JSON },
  { id := "plugin.doctor", command := ["plugin", "doctor"], requiredArgs := ["[target]"],
    optionalArgs := ["--all", "--format"], formats := PRETTY_JSON },
  { id := "plugin.verify_bundle", command := ["plugin", "verify-bundle"],
    requiredArgs := ["<bundle>"], optionalArgs := ["--public-key <file>", "--format"],
    formats := PRETTY_JSON },
  { id := "plugin.install", command := ["plugin", "install"], requiredArgs := ["<path>"],
    optionalArgs := ["--id", "--force", "--public-key <file>", "--format"], formats := PRETTY_JSON,
    safety := .localWrite, requiresConfirmation := true },
  { id := "fee.estimate", command := ["fee", "estimate"],
    optionalArgs := ["--rpc-url", "--network-passphrase", "--network", "--base-fees", "--rpc",
      "--network-profile", "--format"], formats := PRETTY_JSON, network := .both },
  { id := "tx.decode", command := ["tx", "decode"], requiredArgs := ["<xdr|file>"],
    optionalArgs := ["--format"], formats := PRETTY_JSON },
  { id := "tx.validate", command := ["tx", "validate"], requiredArgs := ["--envelope <xdr|file>"],
    optionalArgs := ["--format"], formats := PRETTY_JSON },
  { id := "tx.simulate", command := ["tx", "simulate"], requiredArgs := ["--envelope <xdr|file>"],
    optionalArgs := ["--rpc-url", "--network-passphrase", "--abi", "--abi-contract",
      "--network-profile", "--format"], formats := PRETTY_JSON, network := .both },
  { id := "tx.build", command := ["tx", "build"],
    requiredArgs := ["--source <S>", "--contract <C>", "--function <fn>"],
    optionalArgs := ["--rpc-url", "--network-passphrase", "--arg", "--sequence", "--fee",
      "--memo-text", "--network-profile", "--format"], formats := PRETTY_JSON, network := .both },
  { id := "project.status", command := ["project", "status"],
    optionalArgs := ["--rpc-url", "--network-passphrase", "--format", "--network-profile"],
    formats := PRETTY_JSON, network := .both },
  { id := "deploy", command := ["deploy"], requiredArgs := ["--wasm <f>"],
    optionalArgs := ["--arg", "--salt", "--wasm-hash", "--identity", "--network-profile",
      "--deny-breaking", "--format"], formats := PRETTY_JSON, network := .both,
    safety := .mutating, requiresConfirmation := true },
  { id := "invoke", command := ["invoke"], requiredArgs := ["<contract-id>", "<function>"],
    optionalArgs := ["--args", "--identity", "--build-only", "--network-profile", "--format"],
    formats := PRETTY_JSON, network := .both, safety := .mutating, requiresConfirmation := true },
  { id := "tx.sign", command := ["tx", "sign"], requiredArgs := ["--input <xdr|file>"],
    optionalArgs := ["--identity", "--network", "--output", "--network-profile", "--format"],
    formats := PRETTY_JSON, safety := .mutating, requiresConfirmation := true },
  { id := "tx.submit", command := ["tx", "submit"], requiredArgs := ["--envelope <xdr|file>"],
    optionalArgs := ["--wait", "--timeout", "--interval", "--network-profile", "--format"],
    formats := PRETTY_JSON, network := .both, safety := .mutating, requiresConfirmation := true },
  { id := "storage.extend", command := ["storage", "extend"], requiredArgs := ["<contract-id>"],
    optionalArgs := ["--ledgers", "--identity", "--network-profile", "--format"],
    formats := PRETTY_JSON, network := .both, safety := .mutating, requiresConfirmation := true },
  { id := "storage.restore", command := ["storage", "restore"],
    requiredArgs := ["--envelope <xdr>"],
    optionalArgs := ["--dry-run", "--identity", "--network-profile", "--format"],
    formats := PRETTY_JSON, network := .both, safety := .mutating, requiresConfirmation := true },
  { id := "project.deploy", command := ["project", "deploy"],
    optionalArgs := ["--identity", "--network-profile", "--format"], formats := PRETTY_JSON,
    network := .both, safety := .mutating, requiresConfirmation := true },
  { id := "identity.fund", command := ["identity", "fund"], requiredArgs := ["<name>"],
    optionalArgs := ["--format"], formats := PRETTY_JSON, network := .testnet, safety := .mutating,
    requiresConfirmation := true }]

/-- `find`. -/
def find (id : String) : Option Capability := capabilities.find? (·.id = id)

theorem find_eq_some {id : String} {cap : Capability} (h : find id = some cap) :
    cap ∈ capabilities ∧ cap.id = id := by
  have hid := List.find?_some h
  exact ⟨List.mem_of_find?_eq_some h, of_decide_eq_true hid⟩

/-- Every capability that changes the ledger asks for confirmation, and none that only reads
does. -/
theorem confirmed_of_mutating (cap : Capability) (h : cap ∈ capabilities) :
    (cap.safety = .mutating → cap.requiresConfirmation = true) ∧
      (cap.safety = .readOnly → cap.requiresConfirmation = false) := by
  have hall : capabilities.all (fun cap =>
      (cap.safety ≠ .mutating || cap.requiresConfirmation) &&
        (cap.safety ≠ .readOnly || !cap.requiresConfirmation)) = true := by decide
  have hcap := List.all_eq_true.mp hall cap h
  simp only [Bool.and_eq_true, Bool.or_eq_true, decide_eq_true_eq, Bool.not_eq_true'] at hcap
  constructor
  · intro hmutating
    exact hcap.1.resolve_left fun hne => hne hmutating
  · intro hreadOnly
    exact hcap.2.resolve_left fun hne => hne hreadOnly

end SorobanDevkit.Agent
