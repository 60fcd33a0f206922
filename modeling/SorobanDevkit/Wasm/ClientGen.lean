import SorobanDevkit.Library.Fallible
import SorobanDevkit.Library.TrimMatches
import SorobanDevkit.Wasm.Spec

/-!
# Client generation

`generate_client_with_options` of `sdkt-wasm/src/client_gen.rs` writes a Rust module with a struct
for each function of a contract. It is made for functions of scalar types: the others are refused or
left out.

A function is checked with one table of types and written with two. The second one, for the tags of
arguments, has no entry for `void`, which the first one has. That an entry is missing when the text
is written is a panic.

The text is a list of lines, each ended by a line feed.

## Main results

* `checkSupported_eq_ok_iff` — the functions the check admits.
* `exists_functionLines_iff` — of these, the ones that can be written.
* `generate_total_iff` — the specifications for which the generator does not panic.
-/

namespace SorobanDevkit.Wasm

open Except (ensure)

/-- `ClientGenError`. -/
inductive ClientGenError
  | unsupportedType (function typeName location : String)
  deriving DecidableEq

/-- The text of the error. -/
def ClientGenError.message : ClientGenError → String
  | .unsupportedType function typeName location =>
    "unsupported type '" ++ typeName ++ "' (" ++ location ++ ") in function \x60" ++ function ++
      "\x60 — the generator core supports u32|i32|u64|i64|bool|address|string|symbol|void only"

/-! ### Types -/

/-- `map_scalar`. -/
def mapScalar (t : ContractType) : Option String :=
  if t.kind ≠ "primitive" then none
  else match t.name with
    | "u32" => some "u32"
    | "i32" => some "i32"
    | "u64" => some "u64"
    | "i64" => some "i64"
    | "bool" => some "bool"
    | "address" | "string" | "symbol" => some "String"
    | "void" => some "()"
    | _ => none

/-- `scalar_type_tag`. -/
def scalarTypeTag (t : ContractType) : Option String :=
  match t.name with
  | "u32" => some "u32"
  | "i32" => some "i32"
  | "u64" => some "u64"
  | "i64" => some "i64"
  | "bool" => some "bool"
  | "address" => some "address"
  | "string" => some "string"
  | "symbol" => some "symbol"
  | _ => none

/-- The text of a refused type. -/
def typeLabel (t : ContractType) : String := t.kind ++ ":" ++ t.name

/-- `check_supported`. -/
def checkSupported (f : ContractFunction) : Except ClientGenError Unit := do
  f.parameters.forM fun p => ensure ((mapScalar p.type).isSome)
    (ClientGenError.unsupportedType f.name (typeLabel p.type)
      ("parameter \x60" ++ p.name ++ "\x60"))
  f.outputs.forM fun o => ensure ((mapScalar o).isSome)
    (ClientGenError.unsupportedType f.name (typeLabel o) "return value")
  ensure (f.outputs.length ≤ 1) (ClientGenError.unsupportedType f.name
    ("multiple returns (" ++ toString f.outputs.length ++ ")") "return value")

/-! ### Names -/

/-- `rust_ident`: only ASCII letters have another case here. -/
def rustIdent (name : String) : String :=
  let out := name.toList.map fun c => if c.isAlphanum ∨ c = '_' then c.toLower else '_'
  String.ofList (if out.head?.all (·.isDigit) then '_' :: out else out)

/-- The words of a name, of which the first letter is a capital one. -/
def pascalAux : (upperNext : Bool) → List Char → List Char
  | _, [] => []
  | upperNext, c :: cs =>
    if c = '_' ∨ ¬ c.isAlphanum then pascalAux true cs
    else (if upperNext then c.toUpper else c.toLower) :: pascalAux false cs

/-- `struct_ident`. -/
def structIdent (fnName : String) : String := String.ofList (pascalAux true fnName.toList) ++ "Call"

/-- The alias of the return type. -/
def aliasIdent (fnName : String) : String :=
  Strings.trimEndMatches "Call" (structIdent fnName) ++ "Output"

/-! ### Lines -/

/-- A documentation in one line. -/
def docText (doc : String) : String :=
  (Strings.trim doc).map fun c => if c = '\n' then ' ' else c

/-- The text with these lines. -/
def textOf (lines : List String) : String := String.join (lines.map (· ++ "\n"))

/-- The lines of a field of a struct. -/
def fieldLines (p : ContractParameter) : Option (List String) :=
  (mapScalar p.type).map fun rustTy =>
    (if Strings.trim p.doc = "" then [] else ["    /// " ++ p.name ++ " — " ++ docText p.doc]) ++
      ["    pub " ++ rustIdent p.name ++ ": " ++ rustTy ++ ","]

/-- The line of an argument. -/
def argLine (p : ContractParameter) : Option String :=
  (scalarTypeTag p.type).map fun tag =>
    let expr :=
      if p.type.name = "bool" ∨ Strings.startsWith "u" p.type.name ∨
        Strings.startsWith "i" p.type.name then
        "self." ++ rustIdent p.name ++ ".to_string()"
      else "self." ++ rustIdent p.name ++ ".clone()"
    "            format!(\"" ++ tag ++ ":\x7b\x7d\", " ++ expr ++ "),"

/-- The type that the alias stands for. -/
def outTy (f : ContractFunction) : String :=
  match f.outputs with
  | o :: _ => (mapScalar o).getD "()"
  | [] => "()"

/-- The documentation of the struct. -/
def docLine (f : ContractFunction) : String :=
  if Strings.trim f.doc ≠ "" then "/// " ++ f.name ++ " — " ++ docText f.doc
  else "/// Typed call builder for \x60" ++ f.name ++ "\x60."

/-- The lines of a function. -/
def functionLines (f : ContractFunction) : Option (List String) := do
  let fields ← f.parameters.mapM fieldLines
  let args ← f.parameters.mapM argLine
  some (
    [docLine f,
     "pub struct " ++ structIdent f.name ++ " \x7b"] ++
    fields.flatten ++
    ["\x7d",
     "#[allow(dead_code)]",
     "impl " ++ structIdent f.name ++ " \x7b",
     "    /// Contract function name.",
     "    pub const NAME: &'static str = \"" ++ f.name ++ "\";",
     "    /// Encode this call as \x60TYPE:VALUE\x60 argument strings",
     "    /// for \x60sdkt call <contract-id> " ++ f.name ++ " [args...]\x60.",
     "    pub fn args(&self) -> Vec<String> \x7b",
     "        vec!["] ++
    args ++
    ["        ]",
     "    \x7d",
     "\x7d",
     "/// Expected return type of \x60" ++ f.name ++ "\x60.",
     "pub type " ++ aliasIdent f.name ++ " = " ++ outTy f ++ ";",
     ""])

/-- The lines at the beginning, with the functions that are left out. -/
def headerLines (skipped : List (ContractFunction × ClientGenError)) : List String :=
  ["// Generated by \x60sdkt generate client\x60. Do not edit by hand.",
   "//",
   "// Each \x60*Call\x60 struct encodes one contract function as \x60TYPE:VALUE\x60",
   "// argument strings accepted by \x60sdkt call\x60 and \x60sdkt invoke\x60."] ++
  (if skipped = [] then []
    else ["//", "// Skipped unsupported functions:"] ++
      skipped.map fun (f, err) => "// - " ++ f.name ++ ": " ++ err.message) ++
  [""]

/-- The lines of the names of the functions. -/
def nameLines (supported : List ContractFunction) : List String :=
  ["/// Names of all generated contract calls, in spec order.",
   "pub fn contract_functions() -> &'static [&'static str] \x7b",
   "    &[" ++ String.intercalate ", " (supported.map fun f => "\"" ++ f.name ++ "\"") ++ "]",
   "\x7d",
   ""]

/-! ### The generator -/

/-- The functions that are written and those that are left out. -/
def sortFunctions (skipUnsupported : Bool) : List ContractFunction →
    Except ClientGenError (List ContractFunction × List (ContractFunction × ClientGenError))
  | [] => .ok ([], [])
  | f :: fs =>
    match checkSupported f with
    | .ok _ => (sortFunctions skipUnsupported fs).map fun (supported, skipped) =>
      (f :: supported, skipped)
    | .error err =>
      if skipUnsupported then
        (sortFunctions skipUnsupported fs).map fun (supported, skipped) =>
          (supported, (f, err) :: skipped)
      else .error err

/-- The text for functions of which some are left out. -/
def clientText (spec : ContractSpec) (supported : List ContractFunction)
    (skipped : List (ContractFunction × ClientGenError)) : Option String :=
  if spec.functions = [] then
    some (textOf (headerLines skipped ++
      ["/// This contract exposes no callable functions.",
       "pub fn contract_functions() -> &'static [&'static str] \x7b &[] \x7d"]))
  else if supported = [] then
    some (textOf (headerLines skipped ++
      ["/// No callable functions were generated (all functions use unsupported types).",
       "pub fn contract_functions() -> &'static [&'static str] \x7b &[] \x7d"]))
  else (supported.mapM functionLines).map fun blocks =>
    textOf (headerLines skipped ++ nameLines supported ++ blocks.flatten)

/-- `generate_client_with_options`. There is no value if it panics. -/
def generateClientWithOptions (spec : ContractSpec) (skipUnsupported : Bool) :
    Option (Except ClientGenError String) :=
  match sortFunctions skipUnsupported spec.functions with
  | .error err => some (.error err)
  | .ok (supported, skipped) => (clientText spec supported skipped).map .ok

/-- `generate_client`. -/
def generateClient (spec : ContractSpec) : Option (Except ClientGenError String) :=
  generateClientWithOptions spec false

/-! ### Panics -/

section

variable {f : ContractFunction} {t : ContractType}

/-- What a function is written for. -/
theorem checkSupported_eq_ok_iff : checkSupported f = .ok () ↔
    (∀ p ∈ f.parameters, (mapScalar p.type).isSome) ∧ (∀ o ∈ f.outputs, (mapScalar o).isSome) ∧
      f.outputs.length ≤ 1 := by
  simp only [checkSupported, Except.bind_eq_ok_iff]
  constructor
  · rintro ⟨⟨⟩, hp, ⟨⟩, ho, hlength⟩
    exact ⟨fun p hmem => Except.ensure_eq_ok_iff.mp (Except.forM_eq_ok_iff.mp hp p hmem),
      fun o hmem => Except.ensure_eq_ok_iff.mp (Except.forM_eq_ok_iff.mp ho o hmem),
      Except.ensure_eq_ok_iff.mp hlength⟩
  · rintro ⟨hp, ho, hlength⟩
    exact ⟨(), Except.forM_eq_ok_iff.mpr fun p hmem => Except.ensure_eq_ok_iff.mpr (hp p hmem),
      (), Except.forM_eq_ok_iff.mpr fun o hmem => Except.ensure_eq_ok_iff.mpr (ho o hmem),
      Except.ensure_eq_ok_iff.mpr hlength⟩

/-- Of the scalar types, the one without a tag is `void`. -/
theorem scalarTypeTag_isSome_iff (ht : (mapScalar t).isSome) :
    (scalarTypeTag t).isSome ↔ t.name ≠ "void" := by
  unfold mapScalar at ht
  split_ifs at ht
  · cases ht
  · unfold scalarTypeTag
    split at ht <;> simp_all

/-- A function is written if none of its parameters is `void`. -/
theorem exists_functionLines_iff (hf : checkSupported f = .ok ()) :
    (∃ lines, functionLines f = some lines) ↔ ∀ p ∈ f.parameters, p.type.name ≠ "void" := by
  have hscalar := (checkSupported_eq_ok_iff.mp hf).1
  have hfields : ∃ fields, f.parameters.mapM fieldLines = some fields := by
    refine Option.exists_mapM_eq_some_iff.mpr fun p hp => ?_
    obtain ⟨rustTy, hrust⟩ := Option.isSome_iff_exists.mp (hscalar p hp)
    exact ⟨_, Option.map_eq_some_iff.mpr ⟨rustTy, hrust, rfl⟩⟩
  have hargs : (∃ args, f.parameters.mapM argLine = some args) ↔
      ∀ p ∈ f.parameters, p.type.name ≠ "void" := by
    rw [Option.exists_mapM_eq_some_iff]
    refine forall₂_congr fun p hp => ?_
    rw [← scalarTypeTag_isSome_iff (hscalar p hp), Option.isSome_iff_exists]
    constructor
    · rintro ⟨line, hline⟩
      obtain ⟨tag, htag, -⟩ := Option.map_eq_some_iff.mp hline
      exact ⟨tag, htag⟩
    · rintro ⟨tag, htag⟩
      exact ⟨_, Option.map_eq_some_iff.mpr ⟨tag, htag, rfl⟩⟩
  rw [← hargs]
  obtain ⟨fields, hfields⟩ := hfields
  constructor
  · rintro ⟨lines, hlines⟩
    obtain ⟨_, -, hlines⟩ := Option.bind_eq_some_iff.mp hlines
    obtain ⟨args, hargs, -⟩ := Option.bind_eq_some_iff.mp hlines
    exact ⟨args, hargs⟩
  · rintro ⟨args, hargs⟩
    exact ⟨_, Option.bind_eq_some_iff.mpr ⟨fields, hfields,
      Option.bind_eq_some_iff.mpr ⟨args, hargs, rfl⟩⟩⟩

end

/-- The functions are sorted, or one is refused. -/
theorem sortFunctions_cases (skipUnsupported : Bool) (fs : List ContractFunction) :
    (∃ err, sortFunctions skipUnsupported fs = .error err ∧ skipUnsupported = false ∧
        ∃ f ∈ fs, checkSupported f ≠ .ok ()) ∨
      ∃ supported skipped, sortFunctions skipUnsupported fs = .ok (supported, skipped) ∧
        (skipUnsupported = true ∨ ∀ f ∈ fs, checkSupported f = .ok ()) ∧
        supported = fs.filter fun f => decide (checkSupported f = .ok ()) := by
  induction fs with
  | nil => exact .inr ⟨[], [], rfl, .inr nofun, rfl⟩
  | cons f fs ih =>
    cases hf : checkSupported f with
    | ok u =>
      cases u
      obtain ⟨err, herr, hskip, g, hg, hrefused⟩ | ⟨supported, skipped, hok, hall, hfilter⟩ := ih
      · refine .inl ⟨err, ?_, hskip, g, List.mem_cons_of_mem _ hg, hrefused⟩
        rw [sortFunctions, hf]
        simp only [herr]
        rfl
      · refine .inr ⟨f :: supported, skipped, ?_, ?_, ?_⟩
        · rw [sortFunctions, hf]
          simp only [hok]
          rfl
        · exact hall.imp_right fun h => List.forall_mem_cons.mpr ⟨hf, h⟩
        · rw [List.filter_cons_of_pos (by simp [hf]), hfilter]
    | error err =>
      cases hskip : skipUnsupported with
      | false =>
        refine .inl ⟨err, ?_, rfl, f, List.mem_cons_self, ?_⟩
        · rw [sortFunctions, hf]
          rfl
        · rw [hf]
          nofun
      | true =>
        subst hskip
        obtain ⟨_, _, hfalse, _⟩ | ⟨supported, skipped, hok, -, hfilter⟩ := ih
        · cases hfalse
        · refine .inr ⟨supported, (f, err) :: skipped, ?_, .inl rfl, ?_⟩
          · rw [sortFunctions, hf]
            simp only [hok]
            rfl
          · rw [List.filter_cons_of_neg (by simp [hf]), hfilter]

/-- The text is written if each function in it is. -/
theorem exists_clientText_iff {spec : ContractSpec} {supported : List ContractFunction}
    (skipped : List (ContractFunction × ClientGenError))
    (hspec : spec.functions = [] → supported = []) :
    (∃ text, clientText spec supported skipped = some text) ↔
      ∀ f ∈ supported, ∃ lines, functionLines f = some lines := by
  rw [clientText]
  split_ifs with hfunctions hsupported
  · rw [hspec hfunctions]
    exact iff_of_true ⟨_, rfl⟩ nofun
  · rw [hsupported]
    exact iff_of_true ⟨_, rfl⟩ nofun
  · rw [← Option.exists_mapM_eq_some_iff]
    constructor
    · rintro ⟨text, htext⟩
      obtain ⟨blocks, hblocks, -⟩ := Option.map_eq_some_iff.mp htext
      exact ⟨blocks, hblocks⟩
    · rintro ⟨blocks, hblocks⟩
      exact ⟨_, Option.map_eq_some_iff.mpr ⟨blocks, hblocks, rfl⟩⟩

/-- **When the generator does not panic**: a function is refused, or no function that is written has
a parameter of type `void`. -/
theorem generate_total_iff (spec : ContractSpec) (skipUnsupported : Bool) :
    (∃ result, generateClientWithOptions spec skipUnsupported = some result) ↔
      (skipUnsupported = false ∧ ∃ f ∈ spec.functions, checkSupported f ≠ .ok ()) ∨
        ∀ f ∈ spec.functions, checkSupported f = .ok () → ∀ p ∈ f.parameters,
          p.type.name ≠ "void" := by
  rw [generateClientWithOptions]
  obtain ⟨err, herr, hskip, hrefused⟩ | ⟨supported, skipped, hok, hall, hfilter⟩ :=
    sortFunctions_cases skipUnsupported spec.functions
  · rw [herr]
    exact iff_of_true ⟨_, rfl⟩ (.inl ⟨hskip, hrefused⟩)
  · rw [hok]
    have hnone : ¬ (skipUnsupported = false ∧ ∃ f ∈ spec.functions, checkSupported f ≠ .ok ()) := by
      rintro ⟨hskip, f, hf, hrefused⟩
      obtain htrue | hsupported := hall
      · rw [hskip] at htrue
        cases htrue
      · exact hrefused (hsupported f hf)
    have hmem : ∀ f, f ∈ supported ↔ f ∈ spec.functions ∧ checkSupported f = .ok () := by
      intro f
      rw [hfilter, List.mem_filter, decide_eq_true_iff]
    have hempty : spec.functions = [] → supported = [] := fun h => by rw [hfilter, h]; rfl
    have htext := exists_clientText_iff skipped hempty
    rw [or_iff_right hnone]
    calc (∃ result, (clientText spec supported skipped).map Except.ok = some result)
        ↔ ∃ text, clientText spec supported skipped = some text := by
          simp only [Option.map_eq_some_iff]
          exact ⟨fun ⟨_, text, h, _⟩ => ⟨text, h⟩, fun ⟨text, h⟩ => ⟨_, text, h, rfl⟩⟩
      _ ↔ ∀ f ∈ supported, ∃ lines, functionLines f = some lines := htext
      _ ↔ ∀ f ∈ spec.functions, checkSupported f = .ok () →
            ∀ p ∈ f.parameters, p.type.name ≠ "void" := by
          constructor
          · intro h f hf hsupported
            exact (exists_functionLines_iff hsupported).mp (h f ((hmem f).mpr ⟨hf, hsupported⟩))
          · intro h f hf
            obtain ⟨hf, hsupported⟩ := (hmem f).mp hf
            exact (exists_functionLines_iff hsupported).mpr (h f hf hsupported)

/-- A function with a parameter of type `void`. -/
def burnFunction : ContractFunction where
  name := "burn"
  doc := ""
  parameters := [{ name := "note", doc := "", type := primitive "void" }]
  outputs := []

/-- It is admitted, and the generator panics. -/
theorem generate_burn_panics :
    checkSupported burnFunction = .ok () ∧
      generateClientWithOptions
        { envMeta := none, functions := [burnFunction], customTypes := [], events := [] }
          false = none := by
  decide

end SorobanDevkit.Wasm
