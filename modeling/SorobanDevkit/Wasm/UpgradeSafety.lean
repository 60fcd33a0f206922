import SorobanDevkit.Wasm.TypeDef

/-!
# No missed break

What callers of a contract rely on is the interface its specification entries declare: everything in
an entry but its doc and lib strings, a union case with an empty tuple counting as a case without
value. If the verdict on the mapped specifications calls an upgrade compatible, then every interface
the old entries declare is declared by the new entries too. The old entries name their functions,
events and types apart, since of two entries of one name the comparison sees the last only.
-/

namespace SorobanDevkit.Wasm

open NameIndex

/-! ### Interfaces -/

/-- What a specification entry declares, up to doc and lib strings. -/
inductive Interface
  | function (name : StringM) (inputs : List (StringM × ScSpecTypeDef))
      (outputs : List ScSpecTypeDef)
  | event (name : StringM) (prefixTopics : List StringM)
      (params : List (StringM × ScSpecTypeDef × ScSpecEventParamLocationV0))
      (dataFormat : ScSpecEventDataFormat)
  | struct (name : StringM) (fields : List (StringM × ScSpecTypeDef))
  | union (name : StringM) (cases : List (StringM × List ScSpecTypeDef))
  | enum (name : StringM) (cases : List (StringM × UInt32))
  | errorEnum (name : StringM) (cases : List (StringM × UInt32))

/-- The name and the values of a union case. -/
def ScSpecUdtUnionCaseV0.signature : ScSpecUdtUnionCaseV0 → StringM × List ScSpecTypeDef
  | .voidV0 _ name => (name, [])
  | .tupleV0 _ name type => (name, type)

/-- The interface an entry declares. -/
def ScSpecEntry.interface : ScSpecEntry → Interface
  | .functionV0 f => .function f.name (f.inputs.map fun i => (i.name, i.type)) f.outputs
  | .udtStructV0 s => .struct s.name (s.fields.map fun f => (f.name, f.type))
  | .udtUnionV0 u => .union u.name (u.cases.map ScSpecUdtUnionCaseV0.signature)
  | .udtEnumV0 e => .enum e.name (e.cases.map fun c => (c.name, c.value))
  | .udtErrorEnumV0 e => .errorEnum e.name (e.cases.map fun c => (c.name, c.value))
  | .eventV0 e =>
    .event e.name e.prefixTopics (e.params.map fun p => (p.name, p.type, p.location)) e.dataFormat

/-- Every name in an entry is UTF-8. -/
def ScSpecEntry.NamesValid : ScSpecEntry → Prop
  | .functionV0 f => ValidUtf8 f.name ∧ (∀ i ∈ f.inputs, ValidUtf8 i.name ∧ i.type.NamesValid) ∧
      ∀ t ∈ f.outputs, t.NamesValid
  | .udtStructV0 s => ValidUtf8 s.name ∧ ∀ f ∈ s.fields, ValidUtf8 f.name ∧ f.type.NamesValid
  | .udtUnionV0 u => ValidUtf8 u.name ∧
      ∀ c ∈ u.cases, ValidUtf8 c.signature.1 ∧ ∀ t ∈ c.signature.2, t.NamesValid
  | .udtEnumV0 e => ValidUtf8 e.name ∧ ∀ c ∈ e.cases, ValidUtf8 c.name
  | .udtErrorEnumV0 e => ValidUtf8 e.name ∧ ∀ c ∈ e.cases, ValidUtf8 c.name
  | .eventV0 e => ValidUtf8 e.name ∧ (∀ t ∈ e.prefixTopics, ValidUtf8 t) ∧
      ∀ p ∈ e.params, ValidUtf8 p.name ∧ p.type.NamesValid

/-- The name of the function an entry declares. -/
def ScSpecEntry.functionName : ScSpecEntry → Option StringM
  | .functionV0 f => some f.name
  | _ => none

/-- The name of the user-defined type an entry declares. -/
def ScSpecEntry.typeName : ScSpecEntry → Option StringM
  | .udtStructV0 s => some s.name
  | .udtUnionV0 u => some u.name
  | .udtEnumV0 e => some e.name
  | .udtErrorEnumV0 e => some e.name
  | _ => none

/-- The name of the event an entry declares. -/
def ScSpecEntry.eventName : ScSpecEntry → Option StringM
  | .eventV0 e => some e.name
  | _ => none

/-- Entries with UTF-8 names, whose functions, types and events have different names. -/
structure WellNamed (entries : List ScSpecEntry) : Prop where
  valid : ∀ e ∈ entries, e.NamesValid
  functions : (entries.filterMap ScSpecEntry.functionName).Nodup
  types : (entries.filterMap ScSpecEntry.typeName).Nodup
  events : (entries.filterMap ScSpecEntry.eventName).Nodup

/-! ### Comparators on mapped records -/

/-- Projections agree along lists whose images are related. -/
theorem map_eq_map_of_forall₂ {α β γ : Type} {r : β → β → Prop} {f : α → β} {g : α → γ}
    {l l' : List α} (h : List.Forall₂ r (l.map f) (l'.map f))
    (hg : ∀ x ∈ l, ∀ y ∈ l', r (f x) (f y) → g x = g y) : l.map g = l'.map g := by
  induction l generalizing l' with
  | nil =>
    rw [List.map_nil, List.forall₂_nil_left_iff, List.map_eq_nil_iff] at h
    rw [h]
  | cons x xs ih =>
    cases l' with
    | nil => simp at h
    | cons y ys =>
      rw [List.map_cons, List.map_cons, List.forall₂_cons] at h
      rw [List.map_cons, List.map_cons, hg x List.mem_cons_self y List.mem_cons_self h.1,
        ih h.2 fun u hu v hv => hg u (List.mem_cons_of_mem x hu) v (List.mem_cons_of_mem y hv)]

theorem ScSpecEventParamLocationV0.text_injective :
    Function.Injective ScSpecEventParamLocationV0.text := by
  intro l l' h
  cases l <;> cases l' <;> simp_all [ScSpecEventParamLocationV0.text]

theorem ScSpecEventDataFormat.text_injective : Function.Injective ScSpecEventDataFormat.text := by
  intro d d' h
  cases d <;> cases d' <;> simp_all [ScSpecEventDataFormat.text]

section Comparators

variable {lossy : StringM → String} (hlossy : LossyOnUtf8 lossy)

include hlossy

theorem function_interface_eq {f g : ScSpecFunctionV0}
    (hf : (ScSpecEntry.functionV0 f).NamesValid) (hg : (ScSpecEntry.functionV0 g).NamesValid)
    (hname : (mapFunction lossy f).name = (mapFunction lossy g).name)
    (h : functionSignatureEq (mapFunction lossy f) (mapFunction lossy g) = true) :
    (ScSpecEntry.functionV0 f).interface = (ScSpecEntry.functionV0 g).interface := by
  obtain ⟨hfn, hfi, hfo⟩ := hf
  obtain ⟨hgn, hgi, hgo⟩ := hg
  obtain ⟨hinputs, houtputs⟩ := (functionSignatureEq_iff _ _).mp h
  have htype : ∀ {s t : ScSpecTypeDef}, s.NamesValid → t.NamesValid →
      mapTypeDef lossy s = mapTypeDef lossy t → s = t := fun hs ht hst =>
    eq_of_typeRefEq hlossy hs ht (hst ▸ typeRefEq_refl _)
  have hi : f.inputs.map (fun i => (i.name, i.type)) = g.inputs.map fun i => (i.name, i.type) := by
    refine map_eq_map_of_forall₂ (List.forall₂_eq_eq_eq ▸ hinputs) fun x hx y hy hxy => ?_
    obtain ⟨hn, -, ht⟩ := ContractParameter.mk.inj hxy
    rw [hlossy.inj (hfi x hx).1 (hgi y hy).1 hn, htype (hfi x hx).2 (hgi y hy).2 ht]
  have ho : f.outputs = g.outputs := by
    refine eq_of_memberTypesEq hlossy hfo hgo ?_
    rw [show f.outputs.map (mapTypeDef lossy) = g.outputs.map (mapTypeDef lossy) from houtputs]
    exact memberTypesEq_refl _
  simp only [ScSpecEntry.interface, hlossy.inj hfn hgn hname, hi, ho]

theorem event_interface_eq {e e' : ScSpecEventV0} (he : (ScSpecEntry.eventV0 e).NamesValid)
    (he' : (ScSpecEntry.eventV0 e').NamesValid)
    (hname : (mapEvent lossy e).name = (mapEvent lossy e').name)
    (h : eventSignatureEq (mapEvent lossy e) (mapEvent lossy e') = true) :
    (ScSpecEntry.eventV0 e).interface = (ScSpecEntry.eventV0 e').interface := by
  obtain ⟨hn, htv, hpv⟩ := he
  obtain ⟨hn', htv', hpv'⟩ := he'
  obtain ⟨htopics, hformat, hparams⟩ := (eventSignatureEq_iff _ _).mp h
  have ht : e.prefixTopics = e'.prefixTopics := by
    rw [← List.map_id e.prefixTopics, ← List.map_id e'.prefixTopics]
    exact map_eq_map_of_forall₂ (List.forall₂_eq_eq_eq ▸ htopics) fun x hx y hy hxy =>
      hlossy.inj (htv x hx) (htv' y hy) hxy
  have hp : e.params.map (fun p => (p.name, p.type, p.location)) =
      e'.params.map fun p => (p.name, p.type, p.location) := by
    refine map_eq_map_of_forall₂ hparams fun x hx y hy hxy => ?_
    obtain ⟨hpn, hpl, hpt⟩ := hxy
    rw [hlossy.inj (hpv x hx).1 (hpv' y hy).1 hpn,
      eq_of_typeRefEq hlossy (hpv x hx).2 (hpv' y hy).2 hpt,
      ScSpecEventParamLocationV0.text_injective hpl]
  simp only [ScSpecEntry.interface, hlossy.inj hn hn' hname, ht, hp,
    ScSpecEventDataFormat.text_injective hformat]

/-- The members of two enumerations, compared. -/
theorem cases_eq_of_memberDefEq {kind : String} {e e' : ScSpecUdtEnumV0}
    (he : ∀ c ∈ e.cases, ValidUtf8 c.name) (he' : ∀ c ∈ e'.cases, ValidUtf8 c.name)
    (h : List.Forall₂ memberDefEq (mapCases lossy kind e).members
      (mapCases lossy kind e').members) :
    e.cases.map (fun c => (c.name, c.value)) = e'.cases.map fun c => (c.name, c.value) := by
  refine map_eq_map_of_forall₂ h fun x hx y hy hxy => ?_
  obtain ⟨hn, hv, -⟩ := hxy
  rw [hlossy.inj (he x hx) (he' y hy) hn, Option.some.inj hv]

/-- Two union cases, compared. -/
theorem unionCase_signature_eq {x y : ScSpecUdtUnionCaseV0}
    (hx : ValidUtf8 x.signature.1 ∧ ∀ t ∈ x.signature.2, t.NamesValid)
    (hy : ValidUtf8 y.signature.1 ∧ ∀ t ∈ y.signature.2, t.NamesValid)
    (h : memberDefEq (mapUnionCase lossy x) (mapUnionCase lossy y)) :
    x.signature = y.signature := by
  have hcase : ∀ c : ScSpecUdtUnionCaseV0, (mapUnionCase lossy c).name = lossy c.signature.1 ∧
      (mapUnionCase lossy c).types = c.signature.2.map (mapTypeDef lossy) := by
    intro c
    cases c <;> exact ⟨rfl, rfl⟩
  obtain ⟨hn, -, ht⟩ := h
  rw [(hcase x).1, (hcase y).1] at hn
  rw [(hcase x).2, (hcase y).2] at ht
  exact Prod.ext (hlossy.inj hx.1 hy.1 hn) (eq_of_memberTypesEq hlossy hx.2 hy.2 ht)

theorem type_interface_eq {e e' : ScSpecEntry} {a b : ContractType} (he : e.NamesValid)
    (he' : e'.NamesValid) (ha : entryType lossy e = some a) (hb : entryType lossy e' = some b)
    (hname : a.name = b.name) (h : typeDefinitionEq a b = true) :
    e.interface = e'.interface := by
  obtain ⟨hkind, hmembers⟩ := (typeDefinitionEq_iff a b).mp h
  cases e <;> cases ha <;> cases e' <;> cases hb <;>
    simp only [mapUdtStruct, mapUdtUnion, mapUdtEnum, mapUdtErrorEnum, mapCases, String.reduceEq]
      at hkind
  case udtStructV0.refl.udtStructV0.refl s s' =>
    have hfields : s.fields.map (fun f => (f.name, f.type)) =
        s'.fields.map fun f => (f.name, f.type) := by
      refine map_eq_map_of_forall₂ hmembers fun x hx y hy hxy => ?_
      obtain ⟨hn, -, ht⟩ := hxy
      obtain ⟨hxn, hxt⟩ := he.2 x hx
      obtain ⟨hyn, hyt⟩ := he'.2 y hy
      have htypes : [x.type] = [y.type] := eq_of_memberTypesEq hlossy
        (List.forall_mem_singleton.mpr hxt) (List.forall_mem_singleton.mpr hyt) ht
      rw [hlossy.inj hxn hyn hn, List.singleton_inj.mp htypes]
    simp only [ScSpecEntry.interface, hlossy.inj he.1 he'.1 hname, hfields]
  case udtUnionV0.refl.udtUnionV0.refl u u' =>
    have hcases : u.cases.map ScSpecUdtUnionCaseV0.signature =
        u'.cases.map ScSpecUdtUnionCaseV0.signature :=
      map_eq_map_of_forall₂ hmembers fun x hx y hy hxy =>
        unionCase_signature_eq hlossy (he.2 x hx) (he'.2 y hy) hxy
    simp only [ScSpecEntry.interface, hlossy.inj he.1 he'.1 hname, hcases]
  case udtEnumV0.refl.udtEnumV0.refl d d' =>
    simp only [ScSpecEntry.interface, hlossy.inj he.1 he'.1 hname,
      cases_eq_of_memberDefEq hlossy he.2 he'.2 hmembers]
  case udtErrorEnumV0.refl.udtErrorEnumV0.refl d d' =>
    simp only [ScSpecEntry.interface, hlossy.inj he.1 he'.1 hname,
      cases_eq_of_memberDefEq hlossy he.2 he'.2 hmembers]

end Comparators

/-! ### Compatible upgrades of mapped specifications -/

section Category

variable {lossy : StringM → String} (hlossy : LossyOnUtf8 lossy) {α : Type} (key : α → String)
  {entry : ScSpecEntry → Option α} {name : ScSpecEntry → Option StringM}
  (hname : ∀ e, (entry e).map key = (name e).map lossy)

include hname

/-- The mapped names of a category. -/
theorem map_key_filterMap (entries : List ScSpecEntry) :
    (entries.filterMap entry).map key = (entries.filterMap name).map lossy := by
  rw [List.map_filterMap, List.map_filterMap]
  exact List.filterMap_congr fun e _ => hname e

include hlossy

/-- Of one category, a preserved index finds for every old entry a new entry with the same name and
a related definition. -/
theorem exists_entry_of_preserved {rel : α → α → Prop} {old new : List ScSpecEntry}
    (hnodup : (old.filterMap name).Nodup) (hvalid : ∀ n ∈ old.filterMap name, ValidUtf8 n)
    (h : Preserved rel (indexBy key (old.filterMap entry)) (indexBy key (new.filterMap entry)))
    {e : ScSpecEntry} (he : e ∈ old) {a : α} (ha : entry e = some a) :
    ∃ e' ∈ new, ∃ b, entry e' = some b ∧ key a = key b ∧ rel a b := by
  have hkeys : ((old.filterMap entry).map key).Nodup := by
    rw [map_key_filterMap key hname]
    exact hnodup.map_on fun n hn m hm hnm => hlossy.inj (hvalid n hn) (hvalid m hm) hnm
  have hlast := lastAt_of_mem hkeys (List.mem_filterMap.mpr ⟨e, he, ha⟩)
  rw [← indexBy_getElem?] at hlast
  obtain ⟨b, hb, hab⟩ := h (key a) a hlast
  rw [indexBy_getElem?] at hb
  obtain ⟨hmem, hkey⟩ := mem_of_lastAt hb
  obtain ⟨e', he', hb'⟩ := List.mem_filterMap.mp hmem
  exact ⟨e', he', b, hb', hkey.symm, hab⟩

end Category

/-- The declared names of well-named entries are UTF-8. -/
theorem WellNamed.validUtf8 {entries : List ScSpecEntry} (h : WellNamed entries) {n : StringM} :
    (n ∈ entries.filterMap ScSpecEntry.functionName → ValidUtf8 n) ∧
      (n ∈ entries.filterMap ScSpecEntry.typeName → ValidUtf8 n) ∧
      (n ∈ entries.filterMap ScSpecEntry.eventName → ValidUtf8 n) := by
  refine ⟨?_, ?_, ?_⟩ <;>
    · intro hn
      obtain ⟨e, he, hen⟩ := List.mem_filterMap.mp hn
      have hvalid := h.valid e he
      cases e <;> cases hen <;> exact hvalid.1

/-- **No missed break.** References lose nothing of a type definition, and a compatible upgrade
declares every interface of the old entries. -/
theorem no_missed_break {lossy : StringM → String} (hlossy : LossyOnUtf8 lossy) :
    (∀ s t : ScSpecTypeDef, s.NamesValid → t.NamesValid →
      (typeRefEq (mapTypeDef lossy s) (mapTypeDef lossy t) = true ↔ s = t)) ∧
    ∀ (old new : List ScSpecEntry) (oldMeta newMeta : Option EnvMetaSpec), WellNamed old →
      WellNamed new →
      (upgradeSafety (mapEntries lossy oldMeta old) (mapEntries lossy newMeta new)).compatible =
        true →
      ∀ e ∈ old, ∃ e' ∈ new, e'.interface = e.interface := by
  refine ⟨fun s t hs ht => ⟨eq_of_typeRefEq hlossy hs ht, ?_⟩, ?_⟩
  · rintro rfl
    exact typeRefEq_refl _
  intro old new oldMeta newMeta hold hnew hcompatible e he
  obtain ⟨hfunctions, hevents, htypes⟩ := (compatible_iff _ _).mp hcompatible
  rw [ContractSpec.functionIndex, ContractSpec.functionIndex, mapEntries_functions,
    mapEntries_functions] at hfunctions
  rw [ContractSpec.eventIndex, ContractSpec.eventIndex, mapEntries_events,
    mapEntries_events] at hevents
  rw [ContractSpec.typeIndex, ContractSpec.typeIndex, mapEntries_customTypes,
    mapEntries_customTypes] at htypes
  have hvalid := hold.valid e he
  have htypeCase : ∀ a, entryType lossy e = some a → ∃ e' ∈ new, e'.interface = e.interface := by
    intro a ha
    obtain ⟨e', he', b, hb, hname, hab⟩ := exists_entry_of_preserved hlossy ContractType.name
      (fun e => by cases e <;> rfl) hold.types (fun n hn => hold.validUtf8.2.1 hn) htypes he ha
    exact ⟨e', he', (type_interface_eq hlossy hvalid (hnew.valid e' he') ha hb hname hab).symm⟩
  cases e with
  | functionV0 f =>
    obtain ⟨e', he', b, hb, hname, hab⟩ := exists_entry_of_preserved hlossy ContractFunction.name
      (fun e => by cases e <;> rfl) hold.functions (fun n hn => hold.validUtf8.1 hn) hfunctions he
      rfl
    cases e' <;> cases hb
    exact ⟨_, he', (function_interface_eq hlossy hvalid (hnew.valid _ he') hname hab).symm⟩
  | udtStructV0 s => exact htypeCase _ rfl
  | udtUnionV0 u => exact htypeCase _ rfl
  | udtEnumV0 d => exact htypeCase _ rfl
  | udtErrorEnumV0 d => exact htypeCase _ rfl
  | eventV0 v =>
    obtain ⟨e', he', b, hb, hname, hab⟩ := exists_entry_of_preserved hlossy ContractEvent.name
      (fun e => by cases e <;> rfl) hold.events (fun n hn => hold.validUtf8.2.2 hn) hevents he rfl
    cases e' <;> cases hb
    exact ⟨_, he', (event_interface_eq hlossy hvalid (hnew.valid _ he') hname hab).symm⟩

/-- A decoder that keeps valid UTF-8. -/
def decodeUtf8 (bytes : StringM) : String :=
  (String.fromUTF8? ⟨bytes.toArray⟩).getD "invalid"

theorem decodeUtf8_lossyOnUtf8 : LossyOnUtf8 decodeUtf8 := by
  intro s
  have hbytes : (⟨(utf8 s).toArray⟩ : ByteArray) = s.toUTF8 := by
    rw [utf8, Array.toArray_toList]
  rw [decodeUtf8, hbytes, String.fromUTF8?, dif_pos (show s.toUTF8.IsValidUTF8 from s.isValidUTF8)]
  rfl

/-- A vault that is opened by a plan, to which `more` is added. -/
def vault (more : List ScSpecEntry) : List ScSpecEntry :=
  .functionV0 ⟨[], utf8 "open", [⟨[], utf8 "plan", .option (.udt (utf8 "Plan"))⟩], [.u32]⟩ ::
    .udtStructV0 ⟨[], [], utf8 "Plan", [⟨[], utf8 "rate", .vec .i128⟩]⟩ :: more

/-- A vault that is closed, too, opens as before. -/
theorem no_missed_break_vault :
    (upgradeSafety (mapEntries decodeUtf8 none (vault []))
      (mapEntries decodeUtf8 none (vault [.functionV0 ⟨[], utf8 "close", [], []⟩]))).compatible =
        true ∧
    ∀ e ∈ vault [], ∃ e' ∈ vault [.functionV0 ⟨[], utf8 "close", [], []⟩],
      e'.interface = e.interface := by
  have hutf8 : ∀ s, ValidUtf8 (utf8 s) := fun s => ⟨s, rfl⟩
  have hold : WellNamed (vault []) :=
    ⟨by simp [vault, ScSpecEntry.NamesValid, ScSpecTypeDef.NamesValid, hutf8], by decide,
      by decide, by decide⟩
  have hnew : WellNamed (vault [.functionV0 ⟨[], utf8 "close", [], []⟩]) :=
    ⟨by simp [vault, ScSpecEntry.NamesValid, ScSpecTypeDef.NamesValid, hutf8], by decide,
      by decide, by decide⟩
  have hcompatible : (upgradeSafety (mapEntries decodeUtf8 none (vault []))
      (mapEntries decodeUtf8 none (vault [.functionV0 ⟨[], utf8 "close", [], []⟩]))).compatible =
        true := by
    decide
  exact ⟨hcompatible,
    (no_missed_break decodeUtf8_lossyOnUtf8).2 _ _ none none hold hnew hcompatible⟩

end SorobanDevkit.Wasm
