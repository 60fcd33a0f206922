import Mathlib.Data.List.Basic
import Mathlib.Logic.Basic

/-!
# The contract specification and its ABI model

The `contractspecv0` section of a compiled contract is a list of XDR entries (`ScSpecEntry`):
functions, user-defined types and events, their parameter types given by nested type definitions
(`ScSpecTypeDef`). The parser of `sdkt-wasm/src/spec.rs` flattens each entry into a record of
strings: a type becomes a `ContractType` with a display name, a kind and, for a compound type, one
member per type argument (`mapTypeDef`).

Strings of the XDR layer are byte strings (`StringM`). The conversion
`StringM::to_utf8_string_lossy` belongs to the XDR library, and stands here as the parameter
`lossy` of every mapping function; `LossyOnUtf8` says what is used of it.
-/

namespace SorobanDevkit.Wasm

/-! ### The XDR side -/

/-- The payload of an XDR string or symbol. -/
abbrev StringM := List UInt8

/-- The UTF-8 bytes of a string. -/
def utf8 (s : String) : StringM := s.toUTF8.data.toList

/-- `bytes` is the UTF-8 encoding of a string. -/
def ValidUtf8 (bytes : StringM) : Prop := ∃ s : String, utf8 s = bytes

/-- What is used of `to_utf8_string_lossy`: valid UTF-8 is decoded exactly. -/
def LossyOnUtf8 (lossy : StringM → String) : Prop := ∀ s : String, lossy (utf8 s) = s

/-- A lossy decoder loses nothing on valid UTF-8. -/
theorem LossyOnUtf8.inj {lossy : StringM → String} (h : LossyOnUtf8 lossy) {a b : StringM}
    (ha : ValidUtf8 a) (hb : ValidUtf8 b) (hab : lossy a = lossy b) : a = b := by
  obtain ⟨s, rfl⟩ := ha
  obtain ⟨t, rfl⟩ := hb
  rw [h s, h t] at hab
  rw [hab]

/-- `ScSpecTypeDef`: the type of a parameter, field or output. -/
inductive ScSpecTypeDef
  | val
  | bool
  | void
  | error
  | u32
  | i32
  | u64
  | i64
  | timepoint
  | duration
  | u128
  | i128
  | u256
  | i256
  | bytes
  | string
  | symbol
  | address
  | muxedAddress
  | option (valueType : ScSpecTypeDef)
  | result (okType errorType : ScSpecTypeDef)
  | vec (elementType : ScSpecTypeDef)
  | map (keyType valueType : ScSpecTypeDef)
  | tuple (valueTypes : List ScSpecTypeDef)
  | bytesN (n : UInt32)
  | udt (name : StringM)

/-- `ScSpecFunctionInputV0`. -/
structure ScSpecFunctionInputV0 where
  doc : StringM
  name : StringM
  type : ScSpecTypeDef

/-- `ScSpecFunctionV0`. -/
structure ScSpecFunctionV0 where
  doc : StringM
  name : StringM
  inputs : List ScSpecFunctionInputV0
  outputs : List ScSpecTypeDef

/-- `ScSpecUdtStructFieldV0`. -/
structure ScSpecUdtStructFieldV0 where
  doc : StringM
  name : StringM
  type : ScSpecTypeDef

/-- `ScSpecUdtStructV0`. -/
structure ScSpecUdtStructV0 where
  doc : StringM
  lib : StringM
  name : StringM
  fields : List ScSpecUdtStructFieldV0

/-- `ScSpecUdtUnionCaseV0`: a case without or with a tuple of values. -/
inductive ScSpecUdtUnionCaseV0
  | voidV0 (doc name : StringM)
  | tupleV0 (doc name : StringM) (type : List ScSpecTypeDef)

/-- `ScSpecUdtUnionV0`. -/
structure ScSpecUdtUnionV0 where
  doc : StringM
  lib : StringM
  name : StringM
  cases : List ScSpecUdtUnionCaseV0

/-- `ScSpecUdtEnumCaseV0`, which is also the shape of `ScSpecUdtErrorEnumCaseV0`. -/
structure ScSpecUdtEnumCaseV0 where
  doc : StringM
  name : StringM
  value : UInt32

/-- `ScSpecUdtEnumV0`, which is also the shape of `ScSpecUdtErrorEnumV0`. -/
structure ScSpecUdtEnumV0 where
  doc : StringM
  lib : StringM
  name : StringM
  cases : List ScSpecUdtEnumCaseV0

/-- `ScSpecEventParamLocationV0`. -/
inductive ScSpecEventParamLocationV0
  | data
  | topicList

/-- `ScSpecEventDataFormat`. -/
inductive ScSpecEventDataFormat
  | singleValue
  | vec
  | map

/-- `ScSpecEventParamV0`. -/
structure ScSpecEventParamV0 where
  doc : StringM
  name : StringM
  type : ScSpecTypeDef
  location : ScSpecEventParamLocationV0

/-- `ScSpecEventV0`. -/
structure ScSpecEventV0 where
  doc : StringM
  lib : StringM
  name : StringM
  prefixTopics : List StringM
  params : List ScSpecEventParamV0
  dataFormat : ScSpecEventDataFormat

/-- `ScSpecEntry`: one entry of the `contractspecv0` section. -/
inductive ScSpecEntry
  | functionV0 (f : ScSpecFunctionV0)
  | udtStructV0 (s : ScSpecUdtStructV0)
  | udtUnionV0 (u : ScSpecUdtUnionV0)
  | udtEnumV0 (e : ScSpecUdtEnumV0)
  | udtErrorEnumV0 (e : ScSpecUdtEnumV0)
  | eventV0 (e : ScSpecEventV0)

/-! ### The ABI model -/

/-- `TypeMember`, over the type `τ` of the types it carries: a field, a case, or a labelled type
argument. -/
structure TypeMemberOf (τ : Type) where
  name : String
  doc : String
  types : List τ
  value : Option UInt32

/-- `ContractType`: a user-defined type or a reference to a type. -/
structure ContractType where
  name : String
  kind : String
  doc : String
  members : List (TypeMemberOf ContractType)
  typeArgs : List ContractType
  bytesN : Option UInt32

/-- `TypeMember`. -/
abbrev TypeMember := TypeMemberOf ContractType

mutual

/-- The derived equality of `ContractType` compares every field, doc strings included. -/
def ContractType.decEq : (a b : ContractType) → Decidable (a = b)
  | ⟨n, k, d, ms, ts, bn⟩, ⟨n', k', d', ms', ts', bn'⟩ =>
    match TypeMember.decEqList ms ms', ContractType.decEqList ts ts' with
    | isTrue hms, isTrue hts =>
      decidable_of_iff (n = n' ∧ k = k' ∧ d = d' ∧ bn = bn') (by simp [hms, hts])
    | isFalse hms, _ => isFalse (by simp [hms])
    | _, isFalse hts => isFalse (by simp [hts])

/-- Equality of lists of types. -/
def ContractType.decEqList : (a b : List ContractType) → Decidable (a = b)
  | [], [] => isTrue rfl
  | [], _ :: _ => isFalse (by simp)
  | _ :: _, [] => isFalse (by simp)
  | x :: xs, y :: ys =>
    match ContractType.decEq x y, ContractType.decEqList xs ys with
    | isTrue hx, isTrue hxs => isTrue (by rw [hx, hxs])
    | isFalse hx, _ => isFalse (by simp [hx])
    | _, isFalse hxs => isFalse (by simp [hxs])

/-- Equality of lists of members. -/
def TypeMember.decEqList : (a b : List TypeMember) → Decidable (a = b)
  | [], [] => isTrue rfl
  | [], _ :: _ => isFalse (by simp)
  | _ :: _, [] => isFalse (by simp)
  | ⟨n, d, ts, v⟩ :: xs, ⟨n', d', ts', v'⟩ :: ys =>
    match ContractType.decEqList ts ts', TypeMember.decEqList xs ys with
    | isTrue hts, isTrue hxs =>
      decidable_of_iff (n = n' ∧ d = d' ∧ v = v') (by simp [hts, hxs])
    | isFalse hts, _ => isFalse (by simp [hts])
    | _, isFalse hxs => isFalse (by simp [hxs])

end

instance : DecidableEq ContractType := ContractType.decEq

/-- `ContractParameter`. -/
structure ContractParameter where
  name : String
  doc : String
  type : ContractType
  deriving DecidableEq

/-- `ContractFunction`. -/
structure ContractFunction where
  name : String
  doc : String
  parameters : List ContractParameter
  outputs : List ContractType
  deriving DecidableEq

/-- `EventParam`. -/
structure EventParam where
  name : String
  doc : String
  type : ContractType
  location : String
  deriving DecidableEq

/-- `ContractEvent`. -/
structure ContractEvent where
  name : String
  doc : String
  prefixTopics : List String
  params : List EventParam
  dataFormat : String
  deriving DecidableEq

/-- `EnvMetaSpec`. -/
structure EnvMetaSpec where
  protocol : UInt32
  preRelease : UInt32
  deriving DecidableEq

/-- `ContractSpec`: the full contract ABI. -/
structure ContractSpec where
  envMeta : Option EnvMetaSpec
  functions : List ContractFunction
  customTypes : List ContractType
  events : List ContractEvent
  deriving DecidableEq

/-! ### Mapping the entries -/

/-- `primitive`: a type reference without arguments. -/
def primitive (name : String) : ContractType :=
  { name, kind := "primitive", doc := "", members := [], typeArgs := [], bytesN := none }

/-- The members a compound type builds from its arguments and their labels. -/
def labelledMembers (typeArgs : List ContractType) (labels : List String) : List TypeMember :=
  (typeArgs.zip labels).map fun (ty, label) =>
    { name := label, doc := "", types := [ty], value := none }

/-- `compound`: a type reference whose arguments are also its members. -/
def compound (name : String) (typeArgs : List ContractType) (labels : List String) :
    ContractType :=
  { name, kind := "compound", doc := "", members := labelledMembers typeArgs labels, typeArgs,
    bytesN := none }

section Mapping

variable (lossy : StringM → String)

mutual

/-- `map_type_def`: the reference to a type, its display name encoding the nested types. -/
def mapTypeDef : ScSpecTypeDef → ContractType
  | .val => primitive "val"
  | .bool => primitive "bool"
  | .void => primitive "void"
  | .error => primitive "error"
  | .u32 => primitive "u32"
  | .i32 => primitive "i32"
  | .u64 => primitive "u64"
  | .i64 => primitive "i64"
  | .timepoint => primitive "timepoint"
  | .duration => primitive "duration"
  | .u128 => primitive "u128"
  | .i128 => primitive "i128"
  | .u256 => primitive "u256"
  | .i256 => primitive "i256"
  | .bytes => primitive "bytes"
  | .string => primitive "string"
  | .symbol => primitive "symbol"
  | .address => primitive "address"
  | .muxedAddress => primitive "muxed_address"
  | .option valueType =>
    let arg := mapTypeDef valueType
    compound ("option<" ++ arg.name ++ ">") [arg] ["value_type"]
  | .result okType errorType =>
    let ok := mapTypeDef okType
    let err := mapTypeDef errorType
    compound ("result<" ++ ok.name ++ ", " ++ err.name ++ ">") [ok, err] ["ok_type", "error_type"]
  | .vec elementType =>
    let arg := mapTypeDef elementType
    compound ("vec<" ++ arg.name ++ ">") [arg] ["element_type"]
  | .map keyType valueType =>
    let key := mapTypeDef keyType
    let value := mapTypeDef valueType
    compound ("map<" ++ key.name ++ ", " ++ value.name ++ ">") [key, value]
      ["key_type", "value_type"]
  | .tuple valueTypes =>
    let args := mapTypeDefs valueTypes
    compound ("tuple<" ++ ", ".intercalate (args.map ContractType.name) ++ ">") args
      ((List.range args.length).map fun i => toString i)
  | .bytesN n =>
    { name := "bytesn<" ++ toString n.toNat ++ ">", kind := "compound", doc := "", members := [],
      typeArgs := [], bytesN := some n }
  | .udt name =>
    { name := lossy name, kind := "udt", doc := "", members := [], typeArgs := [], bytesN := none }

/-- `map_type_def` over the elements of a tuple. -/
def mapTypeDefs : List ScSpecTypeDef → List ContractType
  | [] => []
  | t :: ts => mapTypeDef t :: mapTypeDefs ts

end

theorem mapTypeDefs_eq_map (ts : List ScSpecTypeDef) :
    mapTypeDefs lossy ts = ts.map (mapTypeDef lossy) := by
  induction ts with
  | nil => rfl
  | cons t ts ih => rw [mapTypeDefs, ih, List.map_cons]

/-- The `FunctionV0` branch of `decode_spec_section`. -/
def mapFunction (f : ScSpecFunctionV0) : ContractFunction where
  name := lossy f.name
  doc := lossy f.doc
  parameters := f.inputs.map fun i =>
    { name := lossy i.name, doc := lossy i.doc, type := mapTypeDef lossy i.type }
  outputs := f.outputs.map (mapTypeDef lossy)

/-- `map_udt_struct`. -/
def mapUdtStruct (s : ScSpecUdtStructV0) : ContractType where
  name := lossy s.name
  kind := "struct"
  doc := lossy s.doc
  members := s.fields.map fun f =>
    { name := lossy f.name, doc := lossy f.doc, types := [mapTypeDef lossy f.type], value := none }
  typeArgs := []
  bytesN := none

/-- The member `map_udt_union` makes of a case. -/
def mapUnionCase : ScSpecUdtUnionCaseV0 → TypeMember
  | .voidV0 doc name => { name := lossy name, doc := lossy doc, types := [], value := none }
  | .tupleV0 doc name type =>
    { name := lossy name, doc := lossy doc, types := type.map (mapTypeDef lossy), value := none }

/-- `map_udt_union`. -/
def mapUdtUnion (u : ScSpecUdtUnionV0) : ContractType where
  name := lossy u.name
  kind := "union"
  doc := lossy u.doc
  members := u.cases.map (mapUnionCase lossy)
  typeArgs := []
  bytesN := none

/-- The body shared by `map_udt_enum` and `map_udt_error_enum`. -/
def mapCases (kind : String) (e : ScSpecUdtEnumV0) : ContractType where
  name := lossy e.name
  kind := kind
  doc := lossy e.doc
  members := e.cases.map fun c =>
    { name := lossy c.name, doc := lossy c.doc, types := [], value := some c.value }
  typeArgs := []
  bytesN := none

/-- `map_udt_enum`. -/
def mapUdtEnum (e : ScSpecUdtEnumV0) : ContractType := mapCases lossy "enum" e

/-- `map_udt_error_enum`. -/
def mapUdtErrorEnum (e : ScSpecUdtEnumV0) : ContractType := mapCases lossy "error_enum" e

/-- The text of an event parameter's location. -/
def ScSpecEventParamLocationV0.text : ScSpecEventParamLocationV0 → String
  | .data => "data"
  | .topicList => "topic_list"

/-- The text of an event's data format. -/
def ScSpecEventDataFormat.text : ScSpecEventDataFormat → String
  | .singleValue => "single_value"
  | .vec => "vec"
  | .map => "map"

/-- `map_event`. -/
def mapEvent (e : ScSpecEventV0) : ContractEvent where
  name := lossy e.name
  doc := lossy e.doc
  prefixTopics := e.prefixTopics.map lossy
  params := e.params.map fun p =>
    { name := lossy p.name, doc := lossy p.doc, type := mapTypeDef lossy p.type,
      location := p.location.text }
  dataFormat := e.dataFormat.text

/-- The body of the loop of `decode_spec_section`: the decoded entry is pushed onto the list of its
category. -/
def pushEntry (spec : ContractSpec) : ScSpecEntry → ContractSpec
  | .functionV0 f => { spec with functions := spec.functions ++ [mapFunction lossy f] }
  | .udtStructV0 s => { spec with customTypes := spec.customTypes ++ [mapUdtStruct lossy s] }
  | .udtUnionV0 u => { spec with customTypes := spec.customTypes ++ [mapUdtUnion lossy u] }
  | .udtEnumV0 e => { spec with customTypes := spec.customTypes ++ [mapUdtEnum lossy e] }
  | .udtErrorEnumV0 e => { spec with customTypes := spec.customTypes ++ [mapUdtErrorEnum lossy e] }
  | .eventV0 e => { spec with events := spec.events ++ [mapEvent lossy e] }

/-- The specification mapped from a list of decoded entries. -/
def mapEntries (envMeta : Option EnvMetaSpec) (entries : List ScSpecEntry) : ContractSpec :=
  entries.foldl (pushEntry lossy) { envMeta, functions := [], customTypes := [], events := [] }

/-! ### The entries of a mapped specification -/

/-- The function an entry declares, mapped. -/
def entryFunction : ScSpecEntry → Option ContractFunction
  | .functionV0 f => some (mapFunction lossy f)
  | _ => none

/-- The user-defined type an entry declares, mapped. -/
def entryType : ScSpecEntry → Option ContractType
  | .udtStructV0 s => some (mapUdtStruct lossy s)
  | .udtUnionV0 u => some (mapUdtUnion lossy u)
  | .udtEnumV0 e => some (mapUdtEnum lossy e)
  | .udtErrorEnumV0 e => some (mapUdtErrorEnum lossy e)
  | _ => none

/-- The event an entry declares, mapped. -/
def entryEvent : ScSpecEntry → Option ContractEvent
  | .eventV0 e => some (mapEvent lossy e)
  | _ => none

/-- Each entry goes, in order, to the end of the list of its category. -/
theorem foldl_pushEntry (entries : List ScSpecEntry) (spec : ContractSpec) :
    entries.foldl (pushEntry lossy) spec =
      { envMeta := spec.envMeta
        functions := spec.functions ++ entries.filterMap (entryFunction lossy)
        customTypes := spec.customTypes ++ entries.filterMap (entryType lossy)
        events := spec.events ++ entries.filterMap (entryEvent lossy) } := by
  induction entries generalizing spec with
  | nil => simp
  | cons e entries ih =>
    rw [List.foldl_cons, ih]
    cases e <;> simp [pushEntry, List.filterMap_cons, entryFunction, entryType, entryEvent]

@[simp] theorem mapEntries_functions (envMeta : Option EnvMetaSpec) (entries : List ScSpecEntry) :
    (mapEntries lossy envMeta entries).functions = entries.filterMap (entryFunction lossy) := by
  simp [mapEntries, foldl_pushEntry]

@[simp] theorem mapEntries_customTypes (envMeta : Option EnvMetaSpec)
    (entries : List ScSpecEntry) :
    (mapEntries lossy envMeta entries).customTypes = entries.filterMap (entryType lossy) := by
  simp [mapEntries, foldl_pushEntry]

@[simp] theorem mapEntries_events (envMeta : Option EnvMetaSpec) (entries : List ScSpecEntry) :
    (mapEntries lossy envMeta entries).events = entries.filterMap (entryEvent lossy) := by
  simp [mapEntries, foldl_pushEntry]

end Mapping

end SorobanDevkit.Wasm
