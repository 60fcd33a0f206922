import Mathlib.Data.List.Sort
import SorobanDevkit.Agent.Registry

/-!
# Arguments of a request

What `sdkt-agent/src/intent.rs` takes from the text of a request: the words that are contract ids,
paths, envelopes, endpoints and typed arguments, the flags with their values, and which of two
artifacts is the candidate and which the baseline.

The loop over the words is a run over a list. A flag can take the words of its value with it; the
run is told how many more words to skip.
-/

namespace SorobanDevkit.Agent

open Strings (asciiLower splitWhitespace trimEndWhile trimWhile endsWith stripSuffix byteLength
  startsWith splitOnce splitAt trim eqIgnoreAsciiCase)

/-- `IntentArgs`. -/
structure IntentArgs where
  contract : Option String := none
  wasm : Option String := none
  previousWasm : Option String := none
  artifactPaths : List String := []
  candidateClaims : List String := []
  baselineClaims : List String := []
  sourcePath : Option String := none
  function : Option String := none
  profile : Option String := none
  network : Option String := none
  rpcUrl : Option String := none
  networkPassphrase : Option String := none
  envelope : Option String := none
  typedArgs : List String := []
  useRpc : Bool := false
  baseFees : Option String := none
  explicitFlags : List (String × Option String) := []
  deriving DecidableEq

namespace IntentArgs

variable (args : IntentArgs)

/-- `flag_value`. -/
def flagValue (flag : String) : Option String :=
  (args.explicitFlags.find? (·.1 = flag)).bind (·.2)

/-- `flag_values`. -/
def flagValues (flag : String) : List String :=
  (args.explicitFlags.filter (·.1 = flag)).filterMap (·.2)

/-- `has_flag`. -/
def hasFlag (flag : String) : Bool := args.explicitFlags.any (·.1 = flag)

/-- `roles_claimed`. -/
def rolesClaimed : Bool := !(args.candidateClaims.isEmpty && args.baselineClaims.isEmpty)

/-- `push_path`. -/
def pushPath (path : String) : IntentArgs :=
  if args.artifactPaths.any fun p => eqIgnoreAsciiCase p path then args
  else { args with artifactPaths := args.artifactPaths ++ [path] }

end IntentArgs

/-! ### The shapes of words -/

/-- `TYPED_ARG_PREFIXES`. -/
def TYPED_ARG_PREFIXES : List String :=
  ["u32:", "i32:", "u64:", "i64:", "u128:", "i128:", "bool:", "string:", "symbol:", "bytes:",
    "address:", "duration:", "timepoint:"]

/-- `CANDIDATE_MARKERS`. -/
def CANDIDATE_MARKERS : List String := ["candidate", "new", "current", "to"]

/-- `BASELINE_MARKERS`. -/
def BASELINE_MARKERS : List String := ["previous", "baseline", "old", "from"]

/-- `FORMAT_WORDS`. -/
def FORMAT_WORDS : List String := ["json", "pretty"]

/-- `FUNCTION_STOP`. -/
def FUNCTION_STOP : List String :=
  ["call", "read", "invoke", "function", "on", "of", "the", "a", "an", "to", "for", "in", "with",
    "and", "contract", "check", "show", "run", "please", "now", "right", "what", "list", "estimate",
    "simulate", "using", "from", "previous", "candidate", "baseline"]

/-- The quotation marks. -/
def isQuote (c : Char) : Bool := c == '\x22' || c == '\x27'

/-- `trim_punct`. -/
def trimPunct (token : String) : String :=
  trimWhile (fun c => c == ',' || c == ';' || isQuote c || c == '(' || c == ')') token

/-- `is_contract_id`. -/
def isContractId (token : String) : Bool :=
  let t := trimEndWhile (fun c => !c.isAlphanum) token
  byteLength t == 56 && startsWith "C" t &&
    (t.toList.drop 1).all fun c => c.isUpper || ('2' ≤ c && c ≤ '7')

/-- `looks_like_value`. -/
def looksLikeValue (token : String) : Bool :=
  let t := trimPunct token
  t ≠ "" && !startsWith "\x22" t && !startsWith "\x27" t &&
    (t.toList.any (fun c => c == '/' || c == '.' || c == ':' || c == ',') ||
      t.toList.head?.any Char.isDigit || isContractId t)

/-- `looks_like_url`. -/
def looksLikeUrl (lower : String) : Bool :=
    startsWith "http://" lower || startsWith "https://" lower

/-- `is_base64_blob`. -/
def isBase64Blob (token : String) : Bool :=
  64 ≤ byteLength token && !token.toList.contains '/' &&
    token.toList.all fun c => c.isAlphanum || c == '+' || c == '/' || c == '='

/-- `is_fn_name`. -/
def isFnName (t : String) : Bool :=
  t ≠ "" && byteLength t ≤ 64 && !isContractId t &&
    (t.toList.all fun c => c.isLower || c.isDigit || c == '_') && t.toList.head?.any Char.isAlpha

/-- The role of an artifact. -/
inductive ArtifactRole
  | baseline
  | candidate
  deriving DecidableEq

/-- `role_from_name`. -/
def roleFromName (lowerPath : String) : Option ArtifactRole :=
  let stem := (stripSuffix ".wasm" lowerPath).getD lowerPath
  let file := String.ofList
    (stem.toList.reverse.takeWhile fun c => !(c == '/' || c == '\\')).reverse
  let parts := (splitAt (fun c => c == '-' || c == '_' || c == ' ') file).map asciiLower
  match parts.any (BASELINE_MARKERS.contains ·), parts.any (CANDIDATE_MARKERS.contains ·) with
  | true, false => some .baseline
  | false, true => some .candidate
  | _, _ => none

/-! ### The loop -/

/-- The loop of `quoted_value`: the parts so far, and the words in which the closing mark is looked
for. -/
def closingQuote (quote : Char) : (window : ℕ) → (parts : List String) → List String →
    Option (String × ℕ)
  | window + 1, parts, t :: tokens =>
    match splitOnce t (String.singleton quote) with
    | some (before, _) => some (trim (" ".intercalate (parts ++ [before])), parts.length + 2)
    | none => closingQuote quote window (parts ++ [t]) tokens
  | _, _, _ => none

/-- `quoted_value`: the text in quotation marks, and how many words it spans. -/
def quotedValue (tokens : List String) : Option (String × ℕ) :=
  match tokens with
  | [] => none
  | first :: tokens =>
    match first.toList with
    | [] => none
    | quote :: rest =>
      if !isQuote quote then none
      else match splitOnce (String.ofList rest) (String.singleton quote) with
        | some (before, _) => some (before, 1)
        | none => (closingQuote quote 16 [] tokens).map fun (inner, used) =>
            (if inner = "" then String.ofList rest else String.ofList rest ++ " " ++ inner, used)

/-- The value of a flag in the words after it, and how many words it spans. -/
def followingValue (rest : List String) : Option String × ℕ :=
  match rest with
  | [] => (none, 0)
  | next :: _ =>
    match quotedValue rest with
    | some (quoted, used) => (some quoted, used)
    | none =>
      let n := trimPunct next
      if n ≠ "" && !startsWith "-" n &&
          (looksLikeValue n || FORMAT_WORDS.contains (asciiLower n)) then (some n, 1)
      else (none, 0)

/-- The state of the loop: the arguments, and the role that the last marker gives to the next
path. -/
structure Scan where
  args : IntentArgs := {}
  pendingRole : Option ArtifactRole := none
  deriving DecidableEq

namespace Scan

/-- A path is claimed for a role, or for none. -/
def claim (scan : Scan) (role : Option ArtifactRole) (path : String) : Scan :=
  match role with
  | some .baseline =>
    { scan with args := { scan.args with baselineClaims := scan.args.baselineClaims ++ [path] } }
  | some .candidate =>
    { scan with args := { scan.args with candidateClaims := scan.args.candidateClaims ++ [path] } }
  | none => scan

/-- A path is named, which settles the role that was pending. -/
def name (scan : Scan) (path : String) : Scan :=
  { args := scan.args.pushPath path, pendingRole := none }

end Scan

/-- The role that an artifact flag names. -/
def flagRole (flag : String) : Option ArtifactRole :=
  if flag = "--wasm" ∨ flag = "--new-wasm" then some .candidate
  else if flag = "--previous-wasm" ∨ flag = "--old-wasm" then some .baseline
  else none

/-- A flag and the value that is spelled into its word. -/
def splitFlag (cleaned : String) : String × Option String :=
  match splitOnce cleaned "=" with
  | some (f, v) => if v ≠ "" then (f, some v) else (cleaned, none)
  | none => (cleaned, none)

/-- The body of the loop for a flag. -/
def scanFlag (cleaned : String) (rest : List String) (scan : Scan) : Scan × ℕ :=
  let (flag, eqValue) := splitFlag cleaned
  let (value, used) := match eqValue with
    | some v => (some v, 0)
    | none => followingValue rest
  let scan := match flagRole flag, value with
    | some role, some v => (scan.claim (some role) v).name v
    | _, _ => scan
  ({ scan with args :=
    { scan.args with explicitFlags := scan.args.explicitFlags ++ [(flag, value)] } },
    used)

/-- The body of the loop for a word that is no flag. -/
def scanWord (cleaned : String) (scan : Scan) : Scan :=
  let lower := asciiLower cleaned
  let args := scan.args
  if isContractId cleaned then { scan with args := { args with contract := some cleaned } }
  else if endsWith ".wasm" lower then
    (scan.name cleaned).claim (scan.pendingRole <|> roleFromName lower) cleaned
  else if endsWith ".rs" lower then { scan with args := { args with sourcePath := some cleaned } }
  else if endsWith ".xdr" lower || isBase64Blob cleaned then
    { scan with args := { args with envelope := args.envelope <|> some cleaned } }
  else if looksLikeUrl lower then
    { scan with args := { args with rpcUrl := args.rpcUrl <|> some cleaned } }
  else if (splitOnce lower ":").any fun (t, v) => v ≠ "" && TYPED_ARG_PREFIXES.contains t then
    { scan with args := { args with typedArgs := args.typedArgs ++ [cleaned] } }
  else if lower = "testnet" ∨ lower = "mainnet" ∨ lower = "futurenet" then
    { scan with args := { args with network := some lower } }
  else if BASELINE_MARKERS.contains lower then { scan with pendingRole := some .baseline }
  else if CANDIDATE_MARKERS.contains lower then { scan with pendingRole := some .candidate }
  else scan

/-- The body of the loop, and how many more words it takes. -/
def scanToken (token : String) (rest : List String) (scan : Scan) : Scan × ℕ :=
  let cleaned := trimPunct token
  if startsWith "--" cleaned && 2 < byteLength cleaned then scanFlag cleaned rest scan
  else (scanWord cleaned scan, 0)

/-- The loop, with the number of words to skip. -/
def scanTokens : List String → (skip : ℕ) → Scan → Scan
  | [], _, scan => scan
  | _ :: rest, skip + 1, scan => scanTokens rest skip scan
  | token :: rest, 0, scan =>
    let (scan, skip) := scanToken token rest scan
    scanTokens rest skip scan

/-! ### After the loop -/

/-- `dedup_claims`. -/
def dedupClaims (claims : List String) : List String := (claims.insertionSort (· ≤ ·)).eraseReps

/-- `other_path`. -/
def otherPath (paths : List String) (claimed : String) : Option String :=
  paths.find? fun p => !eqIgnoreAsciiCase p claimed

/-- The candidate and the baseline that the claims settle. -/
def artifactPair (paths candidates baselines : List String) : Option (String × String) :=
  match paths with
  | [] | [_] => none
  | [_, _] => match candidates, baselines with
    | [candidate], [baseline] => if candidate ≠ baseline then some (candidate, baseline) else none
    | [candidate], [] => (otherPath paths candidate).map fun base => (candidate, base)
    | [], [baseline] => (otherPath paths baseline).map fun cand => (cand, baseline)
    | _, _ => none
  | _ => match candidates, baselines with
    | [candidate], [baseline] => if candidate ≠ baseline then some (candidate, baseline) else none
    | _, _ => none

/-- `assign_artifact_roles`. -/
def assignArtifactRoles (args : IntentArgs) : IntentArgs :=
  let args := { args with
    candidateClaims := dedupClaims args.candidateClaims
    baselineClaims := dedupClaims args.baselineClaims }
  match args.artifactPaths with
  | [path] => { args with wasm := some path }
  | paths => match artifactPair paths args.candidateClaims args.baselineClaims with
    | some (cand, base) => { args with wasm := some cand, previousWasm := some base }
    | none => args

/-- The word `fn_word` of `extract_function`. -/
def fnWord (t : String) : Option String :=
  let c := trimPunct t
  if c ≠ "" && !FUNCTION_STOP.contains (asciiLower c) && isFnName c then some c else none

/-- The words before and after the first word that is `word` up to case. -/
def around (word : String) : (before : Option String) → List String → Option
    (Option String × Option String)
  | _, [] => none
  | before, t :: tokens =>
    if eqIgnoreAsciiCase (trimPunct t) word then some (before, tokens.head?)
    else around word (some t) tokens

/-- `extract_function`. -/
def extractFunction (tokens : List String) : Option String :=
  ((around "function" none tokens).bind fun (before, after) =>
      before.bind fnWord <|> after.bind fnWord) <|>
    (around "call" none tokens).bind fun (_, after) => after.bind fnWord

/-- `extract_profile`. -/
def extractProfile : List String → Option String
  | [] => none
  | t :: tokens =>
    if eqIgnoreAsciiCase t "profile" then
      tokens.head?.bind fun next =>
        if next = "" || startsWith "-" next then none else some (trimPunct next)
    else extractProfile tokens

/-- The arguments that flags carry, filled in after the loop. -/
def fillFromFlags (rawTokens : List String) (args : IntentArgs) : IntentArgs :=
  { args with
    baseFees := args.flagValue "--base-fees"
    useRpc := args.hasFlag "--rpc" ||
      rawTokens.any fun t => eqIgnoreAsciiCase (trimPunct t) "rpc"
    rpcUrl := args.flagValue "--rpc-url" <|> args.rpcUrl
    networkPassphrase := args.flagValue "--network-passphrase"
    envelope := args.flagValue "--envelope" <|> args.envelope
    typedArgs := (args.flagValues "--args").foldl
      (fun typedArgs v => if typedArgs.contains v then typedArgs else typedArgs ++ [v])
        args.typedArgs }

/-- `extract_args`. -/
def extractArgs (request : String) : IntentArgs :=
  let rawTokens := splitWhitespace request
  let args := (scanTokens rawTokens 0 {}).args
  let args := assignArtifactRoles (fillFromFlags rawTokens args)
  let wantsFunction := rawTokens.any fun t =>
    let c := asciiLower (trimPunct t)
    c = "function" || c = "call"
  { args with
    profile := extractProfile rawTokens
    function := if wantsFunction then extractFunction rawTokens else args.function }

end SorobanDevkit.Agent
