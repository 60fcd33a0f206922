import SorobanDevkit.Wasm.SpecDiff

/-!
# Comparing references to types

`type_ref_eq` follows the members of compound types to any depth. It is read here as a relation on
nested types (`typeRefEq_iff`), shown to be reflexive and transitive, and shown to see no doc
string: it has the same value on two references and on the references with their doc strings erased.
A type is determined by its erasure and the list of its doc strings.

## Main results

* `typeRefEq_iff` — the comparison by name, kind and, for compound types, members.
* `typeRefEq_refl`, `typeRefEq_trans` — and the same for `memberTypesEq`, `typeDefinitionEq` and
  `eventSignatureEq`.
* `upgrade_compatibility_composes` — compatible upgrades compose.
* `typeRefEq_eraseDocs` — doc strings are not compared.
* `ContractType.eq_of_eraseDocs_of_docs` — erasure and doc strings determine the type.
-/

namespace SorobanDevkit.Wasm

open NameIndex

/-! ### Induction on types -/

/-- Induction on a type through the types of its members and its type arguments. -/
theorem ContractType.induction {motive : ContractType → Prop}
    (step : ∀ t : ContractType, (∀ m ∈ t.members, ∀ u ∈ m.types, motive u) →
      (∀ u ∈ t.typeArgs, motive u) → motive t) (t : ContractType) : motive t := by
  refine @ContractType.rec motive (fun ms => ∀ m ∈ ms, ∀ u ∈ m.types, motive u)
    (fun ts => ∀ u ∈ ts, motive u) (fun m => ∀ u ∈ m.types, motive u) ?_ ?_ ?_ ?_ ?_ ?_ t
  · intro name kind doc members typeArgs bytesN hms hts
    exact step ⟨name, kind, doc, members, typeArgs, bytesN⟩ hms hts
  · simp
  · intro m ms hm hms
    exact List.forall_mem_cons.mpr ⟨hm, hms⟩
  · simp
  · intro u us hu hus
    exact List.forall_mem_cons.mpr ⟨hu, hus⟩
  · intro name doc types value hts
    exact hts

/-! ### The comparison as a relation -/

/-- Two lists of types agree when they are compared equal position by position. -/
theorem memberTypesEq_iff (a b : List ContractType) :
    memberTypesEq a b = true ↔ List.Forall₂ (fun x y => typeRefEq x y = true) a b := by
  simp only [memberTypesEq, Bool.and_eq_true, beq_iff_eq]
  induction a generalizing b with
  | nil => cases b <;> simp [typesRefEq]
  | cons x xs ih =>
    cases b with
    | nil => simp
    | cons y ys =>
      rw [List.forall₂_cons, ← ih, typesRefEq, Bool.and_eq_true, List.length_cons,
        List.length_cons]
      grind

/-- Two members agree when their names and the types they carry do. -/
def memberRefEq (x y : TypeMember) : Prop := x.name = y.name ∧ memberTypesEq x.types y.types = true

theorem membersRefEq_iff (a b : List TypeMember) :
    (a.length == b.length && membersRefEq a b) = true ↔ List.Forall₂ memberRefEq a b := by
  simp only [Bool.and_eq_true, beq_iff_eq]
  induction a generalizing b with
  | nil => cases b <;> simp [membersRefEq]
  | cons x xs ih =>
    cases b with
    | nil => simp
    | cons y ys =>
      obtain ⟨n, d, ts, v⟩ := x
      rw [List.forall₂_cons, ← ih, membersRefEq, List.length_cons, List.length_cons]
      simp only [memberRefEq, memberTypesEq, Bool.and_eq_true, beq_iff_eq]
      grind

/-- `type_ref_eq` compares names and kinds, and the members of compound types. -/
theorem typeRefEq_iff (a b : ContractType) :
    typeRefEq a b = true ↔ a.name = b.name ∧ a.kind = b.kind ∧
      (a.kind = "compound" → List.Forall₂ memberRefEq a.members b.members) := by
  obtain ⟨n, k, d, ms, ts, bn⟩ := a
  rw [typeRefEq, ← membersRefEq_iff]
  by_cases hn : n = b.name
  · by_cases hk : k = b.kind
    · by_cases hc : k = "compound"
      · simp [← hn, ← hk, hc]
      · simp [← hn, ← hk, hc]
    · simp [hk]
  · simp [hn]

/-! ### Reflexivity and transitivity -/

theorem typeRefEq_refl (a : ContractType) : typeRefEq a a = true := by
  induction a using ContractType.induction with
  | step t hms _ =>
    refine (typeRefEq_iff t t).mpr ⟨rfl, rfl, fun _ => List.forall₂_same.mpr fun m hm => ?_⟩
    exact ⟨rfl, (memberTypesEq_iff _ _).mpr (List.forall₂_same.mpr (hms m hm))⟩

/-- A relation transitive at the elements of the first list is transitive on lists. -/
theorem forall₂_trans_of_mem {α : Type} {r : α → α → Prop} {l₁ l₂ l₃ : List α}
    (htrans : ∀ x ∈ l₁, ∀ y z, r x y → r y z → r x z) (h₁₂ : List.Forall₂ r l₁ l₂)
    (h₂₃ : List.Forall₂ r l₂ l₃) : List.Forall₂ r l₁ l₃ := by
  induction h₁₂ generalizing l₃ with
  | nil => exact h₂₃
  | @cons x y xs ys hxy _ ih =>
    cases h₂₃ with
    | @cons _ z _ zs hyz hrest =>
      obtain ⟨hx, hxs⟩ := List.forall_mem_cons.mp htrans
      exact .cons (hx y z hxy hyz) (ih hxs hrest)

theorem typeRefEq_trans {a b c : ContractType} (hab : typeRefEq a b = true)
    (hbc : typeRefEq b c = true) : typeRefEq a c = true := by
  induction a using ContractType.induction generalizing b c with
  | step t hms _ =>
    obtain ⟨hn, hk, hm⟩ := (typeRefEq_iff t b).mp hab
    obtain ⟨hn', hk', hm'⟩ := (typeRefEq_iff b c).mp hbc
    refine (typeRefEq_iff t c).mpr ⟨hn.trans hn', hk.trans hk', fun hc => ?_⟩
    refine forall₂_trans_of_mem (fun x hx y z hxy hyz => ?_) (hm hc) (hm' (hk ▸ hc))
    refine ⟨hxy.1.trans hyz.1, (memberTypesEq_iff _ _).mpr ?_⟩
    exact forall₂_trans_of_mem (fun u hu v w huv hvw => hms x hx u hu huv hvw)
      ((memberTypesEq_iff _ _).mp hxy.2) ((memberTypesEq_iff _ _).mp hyz.2)

theorem memberTypesEq_refl (a : List ContractType) : memberTypesEq a a = true :=
  (memberTypesEq_iff a a).mpr (List.forall₂_same.mpr fun x _ => typeRefEq_refl x)

theorem memberTypesEq_trans {a b c : List ContractType} (hab : memberTypesEq a b = true)
    (hbc : memberTypesEq b c = true) : memberTypesEq a c = true :=
  (memberTypesEq_iff a c).mpr (forall₂_trans_of_mem (fun _ _ _ _ => typeRefEq_trans)
    ((memberTypesEq_iff a b).mp hab) ((memberTypesEq_iff b c).mp hbc))

/-- Comparing the zipped elements of two lists of the same length. -/
theorem length_and_all_zip_iff {α : Type} (p : α × α → Bool) (a b : List α) :
    a.length = b.length ∧ (a.zip b).all p = true ↔
      List.Forall₂ (fun x y => p (x, y) = true) a b := by
  rw [List.forall₂_iff_zip, List.all_eq_true]
  simp only [Prod.forall]

/-- The comparison of two members of a user-defined type. -/
def memberDefEq (x y : TypeMember) : Prop :=
  x.name = y.name ∧ x.value = y.value ∧ memberTypesEq x.types y.types = true

theorem typeDefinitionEq_iff (a b : ContractType) :
    typeDefinitionEq a b = true ↔ a.kind = b.kind ∧
      List.Forall₂ memberDefEq a.members b.members := by
  simp only [typeDefinitionEq, Bool.and_eq_true, beq_iff_eq, and_assoc]
  rw [length_and_all_zip_iff]
  simp only [Bool.and_eq_true, beq_iff_eq, and_assoc]
  rfl

/-- The comparison of two parameters of an event. -/
def eventParamEq (x y : EventParam) : Prop :=
  x.name = y.name ∧ x.location = y.location ∧ typeRefEq x.type y.type = true

theorem eventSignatureEq_iff (a b : ContractEvent) :
    eventSignatureEq a b = true ↔ a.prefixTopics = b.prefixTopics ∧ a.dataFormat = b.dataFormat ∧
      List.Forall₂ eventParamEq a.params b.params := by
  simp only [eventSignatureEq, Bool.and_eq_true, beq_iff_eq, and_assoc]
  rw [length_and_all_zip_iff]
  simp only [Bool.and_eq_true, beq_iff_eq, and_assoc]
  rfl

theorem functionSignatureEq_iff (a b : ContractFunction) :
    functionSignatureEq a b = true ↔ a.parameters = b.parameters ∧ a.outputs = b.outputs := by
  simp [functionSignatureEq]

theorem typeDefinitionEq_refl (a : ContractType) : typeDefinitionEq a a = true :=
  (typeDefinitionEq_iff a a).mpr
    ⟨rfl, List.forall₂_same.mpr fun m _ => ⟨rfl, rfl, memberTypesEq_refl m.types⟩⟩

theorem typeDefinitionEq_trans (a b c : ContractType) (hab : typeDefinitionEq a b = true)
    (hbc : typeDefinitionEq b c = true) : typeDefinitionEq a c = true := by
  obtain ⟨hk, hm⟩ := (typeDefinitionEq_iff a b).mp hab
  obtain ⟨hk', hm'⟩ := (typeDefinitionEq_iff b c).mp hbc
  refine (typeDefinitionEq_iff a c).mpr ⟨hk.trans hk', forall₂_trans_of_mem ?_ hm hm'⟩
  rintro x - y z ⟨hn, hv, ht⟩ ⟨hn', hv', ht'⟩
  exact ⟨hn.trans hn', hv.trans hv', memberTypesEq_trans ht ht'⟩

theorem eventSignatureEq_refl (a : ContractEvent) : eventSignatureEq a a = true :=
  (eventSignatureEq_iff a a).mpr
    ⟨rfl, rfl, List.forall₂_same.mpr fun p _ => ⟨rfl, rfl, typeRefEq_refl p.type⟩⟩

theorem eventSignatureEq_trans (a b c : ContractEvent) (hab : eventSignatureEq a b = true)
    (hbc : eventSignatureEq b c = true) : eventSignatureEq a c = true := by
  obtain ⟨ht, hf, hp⟩ := (eventSignatureEq_iff a b).mp hab
  obtain ⟨ht', hf', hp'⟩ := (eventSignatureEq_iff b c).mp hbc
  refine (eventSignatureEq_iff a c).mpr ⟨ht.trans ht', hf.trans hf',
    forall₂_trans_of_mem ?_ hp hp'⟩
  rintro x - y z ⟨hn, hl, hr⟩ ⟨hn', hl', hr'⟩
  exact ⟨hn.trans hn', hl.trans hl', typeRefEq_trans hr hr'⟩

theorem functionSignatureEq_refl (a : ContractFunction) : functionSignatureEq a a = true :=
  (functionSignatureEq_iff a a).mpr ⟨rfl, rfl⟩

theorem functionSignatureEq_trans (a b c : ContractFunction)
    (hab : functionSignatureEq a b = true) (hbc : functionSignatureEq b c = true) :
    functionSignatureEq a c = true := by
  obtain ⟨hp, ho⟩ := (functionSignatureEq_iff a b).mp hab
  obtain ⟨hp', ho'⟩ := (functionSignatureEq_iff b c).mp hbc
  exact (functionSignatureEq_iff a c).mpr ⟨hp.trans hp', ho.trans ho'⟩

/-! ### Upgrades compose -/

theorem AbiPreserved.refl (a : ContractSpec) : AbiPreserved a a where
  functions := .refl functionSignatureEq_refl _
  events := .refl eventSignatureEq_refl _
  types := .refl typeDefinitionEq_refl _

theorem AbiPreserved.trans {a b c : ContractSpec} (hab : AbiPreserved a b)
    (hbc : AbiPreserved b c) : AbiPreserved a c where
  functions := .trans functionSignatureEq_trans hab.functions hbc.functions
  events := .trans eventSignatureEq_trans hab.events hbc.events
  types := .trans typeDefinitionEq_trans hab.types hbc.types

/-- The verdict on a specification and itself lists no change. -/
theorem entries_self (a : ContractSpec) :
    (upgradeSafety a a).breakingChanges = [] ∧ (upgradeSafety a a).nonBreakingChanges = [] := by
  have hbreaking := (compatible_iff_breakingEntries a a).mp
    ((compatible_iff a a).mpr (AbiPreserved.refl a))
  have hnonBreaking := nonBreakingEntries_eq a a
  simp only [addedKeys_self, List.map_nil, List.append_nil] at hnonBreaking
  exact ⟨List.map_eq_nil_iff.mp hbreaking, List.map_eq_nil_iff.mp hnonBreaking⟩

/-- **Upgrade compatibility composes.** Two compatible upgrades in a row are a compatible upgrade,
and keeping the specification is one, without any change listed. -/
theorem upgrade_compatibility_composes :
    (∀ a b c : ContractSpec, (upgradeSafety a b).compatible = true →
      (upgradeSafety b c).compatible = true → (upgradeSafety a c).compatible = true) ∧
    ∀ a : ContractSpec, (upgradeSafety a a).compatible = true ∧
      (upgradeSafety a a).breakingChanges = [] ∧ (upgradeSafety a a).nonBreakingChanges = [] := by
  refine ⟨fun a b c hab hbc => ?_, fun a => ⟨?_, entries_self a⟩⟩
  · rw [compatible_iff] at hab hbc ⊢
    exact hab.trans hbc
  · rw [compatible_iff]
    exact AbiPreserved.refl a

/-- A vault that is opened with a plan and counts its deposits, to which functions are added. -/
def vaultSpec (more : List ContractFunction) : ContractSpec where
  envMeta := none
  functions :=
    ⟨"open", "", [⟨"owner", "", primitive "address"⟩], [primitive "u32"]⟩ :: more
  customTypes :=
    [⟨"Plan", "struct", "", [⟨"rate", "", [primitive "i128"], none⟩], [], none⟩]
  events := []

/-- Two functions are added to a vault one after the other. -/
theorem upgrade_compatibility_composes_adding :
    (upgradeSafety (vaultSpec [])
      (vaultSpec [⟨"close", "", [], []⟩, ⟨"pause", "", [], [primitive "bool"]⟩])).compatible =
        true :=
  upgrade_compatibility_composes.1 (vaultSpec []) (vaultSpec [⟨"close", "", [], []⟩]) _
    (by decide) (by decide)

/-! ### Doc strings of types -/

mutual

/-- A type with every doc string in it emptied. -/
def ContractType.eraseDocs : ContractType → ContractType
  | ⟨n, k, _, ms, ts, bn⟩ =>
    ⟨n, k, "", TypeMember.eraseDocsList ms, ContractType.eraseDocsList ts, bn⟩

/-- `ContractType.eraseDocs` on a list of types. -/
def ContractType.eraseDocsList : List ContractType → List ContractType
  | [] => []
  | t :: ts => ContractType.eraseDocs t :: ContractType.eraseDocsList ts

/-- A list of members with every doc string in it emptied. -/
def TypeMember.eraseDocsList : List TypeMember → List TypeMember
  | [] => []
  | ⟨n, _, ts, v⟩ :: ms => ⟨n, "", ContractType.eraseDocsList ts, v⟩ :: TypeMember.eraseDocsList ms

end

mutual

/-- The doc strings of a type, outermost first. -/
def ContractType.docs : ContractType → List String
  | ⟨_, _, d, ms, ts, _⟩ => d :: (TypeMember.docsList ms ++ ContractType.docsList ts)

/-- The doc strings of a list of types. -/
def ContractType.docsList : List ContractType → List String
  | [] => []
  | t :: ts => ContractType.docs t ++ ContractType.docsList ts

/-- The doc strings of a list of members. -/
def TypeMember.docsList : List TypeMember → List String
  | [] => []
  | ⟨_, d, ts, _⟩ :: ms => d :: (ContractType.docsList ts ++ TypeMember.docsList ms)

end

/-- A member with every doc string in it emptied. -/
def TypeMember.eraseDocs (m : TypeMember) : TypeMember :=
  { m with doc := "", types := ContractType.eraseDocsList m.types }

theorem ContractType.eraseDocsList_eq_map (ts : List ContractType) :
    ContractType.eraseDocsList ts = ts.map ContractType.eraseDocs := by
  induction ts with
  | nil => rfl
  | cons t ts ih => rw [ContractType.eraseDocsList, ih, List.map_cons]

theorem TypeMember.eraseDocsList_eq_map (ms : List TypeMember) :
    TypeMember.eraseDocsList ms = ms.map TypeMember.eraseDocs := by
  induction ms with
  | nil => rfl
  | cons m ms ih => rw [TypeMember.eraseDocsList, ih, List.map_cons]; rfl

@[simp] theorem ContractType.eraseDocs_name (t : ContractType) : t.eraseDocs.name = t.name := by
  cases t; rfl

@[simp] theorem ContractType.eraseDocs_kind (t : ContractType) : t.eraseDocs.kind = t.kind := by
  cases t; rfl

@[simp] theorem ContractType.eraseDocs_members (t : ContractType) :
    t.eraseDocs.members = t.members.map TypeMember.eraseDocs := by
  cases t; rw [← TypeMember.eraseDocsList_eq_map]; rfl

@[simp] theorem TypeMember.eraseDocs_types (m : TypeMember) :
    m.eraseDocs.types = m.types.map ContractType.eraseDocs :=
  ContractType.eraseDocsList_eq_map m.types

/-- Two relations that agree at the elements of the first list agree on lists. -/
theorem forall₂_congr_of_mem {α : Type} {r r' : α → α → Prop} {l₁ l₂ : List α}
    (h : ∀ x ∈ l₁, ∀ y, r x y ↔ r' x y) : List.Forall₂ r l₁ l₂ ↔ List.Forall₂ r' l₁ l₂ := by
  induction l₁ generalizing l₂ with
  | nil => simp
  | cons x xs ih =>
    obtain ⟨hx, hxs⟩ := List.forall_mem_cons.mp h
    cases l₂ with
    | nil => simp
    | cons y ys => rw [List.forall₂_cons, List.forall₂_cons, hx, ih hxs]

/-- **References are compared without their doc strings.** -/
theorem typeRefEq_eraseDocs (a b : ContractType) :
    typeRefEq a.eraseDocs b.eraseDocs = true ↔ typeRefEq a b = true := by
  induction a using ContractType.induction generalizing b with
  | step t hms _ =>
    rw [typeRefEq_iff, typeRefEq_iff]
    simp only [ContractType.eraseDocs_name, ContractType.eraseDocs_kind,
      ContractType.eraseDocs_members, List.forall₂_map_left_iff, List.forall₂_map_right_iff]
    refine and_congr_right fun _ => and_congr_right fun _ => imp_congr_right fun _ => ?_
    refine forall₂_congr_of_mem fun x hx y => and_congr_right fun _ => ?_
    rw [memberTypesEq_iff, memberTypesEq_iff, TypeMember.eraseDocs_types,
      TypeMember.eraseDocs_types, List.forall₂_map_left_iff, List.forall₂_map_right_iff]
    exact forall₂_congr_of_mem fun u hu v => hms x hx u hu v

theorem memberTypesEq_eraseDocs (a b : List ContractType) :
    memberTypesEq (a.map ContractType.eraseDocs) (b.map ContractType.eraseDocs) = true ↔
      memberTypesEq a b = true := by
  rw [memberTypesEq_iff, memberTypesEq_iff, List.forall₂_map_left_iff,
    List.forall₂_map_right_iff]
  exact forall₂_congr_of_mem fun x _ y => typeRefEq_eraseDocs x y

/-- **Type definitions are compared without their doc strings.** -/
theorem typeDefinitionEq_eraseDocs (a b : ContractType) :
    typeDefinitionEq a.eraseDocs b.eraseDocs = true ↔ typeDefinitionEq a b = true := by
  rw [typeDefinitionEq_iff, typeDefinitionEq_iff]
  simp only [ContractType.eraseDocs_kind, ContractType.eraseDocs_members,
    List.forall₂_map_left_iff, List.forall₂_map_right_iff]
  refine and_congr_right fun _ => forall₂_congr_of_mem fun x _ y => ?_
  simp only [memberDefEq, TypeMember.eraseDocs_types, memberTypesEq_eraseDocs]
  rfl

/-! ### Erasure and doc strings determine the type -/

mutual

theorem ContractType.length_docs_eraseDocs :
    (t : ContractType) → t.eraseDocs.docs.length = t.docs.length
  | ⟨_, _, _, ms, ts, _⟩ => by
    rw [ContractType.eraseDocs, ContractType.docs, ContractType.docs]
    simp only [List.length_cons, List.length_append, TypeMember.length_docsList_eraseDocs ms,
      ContractType.length_docsList_eraseDocs ts]

theorem ContractType.length_docsList_eraseDocs : (ts : List ContractType) →
    (ContractType.docsList (ContractType.eraseDocsList ts)).length =
      (ContractType.docsList ts).length
  | [] => rfl
  | t :: ts => by
    rw [ContractType.eraseDocsList, ContractType.docsList, ContractType.docsList]
    simp only [List.length_append, ContractType.length_docs_eraseDocs t,
      ContractType.length_docsList_eraseDocs ts]

theorem TypeMember.length_docsList_eraseDocs : (ms : List TypeMember) →
    (TypeMember.docsList (TypeMember.eraseDocsList ms)).length = (TypeMember.docsList ms).length
  | [] => rfl
  | ⟨_, _, ts, _⟩ :: ms => by
    rw [TypeMember.eraseDocsList, TypeMember.docsList, TypeMember.docsList]
    simp only [List.length_cons, List.length_append, ContractType.length_docsList_eraseDocs ts,
      TypeMember.length_docsList_eraseDocs ms]

end

theorem ContractType.length_docs_of_eraseDocs {t u : ContractType}
    (h : t.eraseDocs = u.eraseDocs) : t.docs.length = u.docs.length := by
  rw [← t.length_docs_eraseDocs, h, u.length_docs_eraseDocs]

theorem ContractType.length_docsList_of_eraseDocs {ts us : List ContractType}
    (h : ContractType.eraseDocsList ts = ContractType.eraseDocsList us) :
    (ContractType.docsList ts).length = (ContractType.docsList us).length := by
  rw [← ContractType.length_docsList_eraseDocs ts, h, ContractType.length_docsList_eraseDocs us]

theorem TypeMember.length_docsList_of_eraseDocs {ms ns : List TypeMember}
    (h : TypeMember.eraseDocsList ms = TypeMember.eraseDocsList ns) :
    (TypeMember.docsList ms).length = (TypeMember.docsList ns).length := by
  rw [← TypeMember.length_docsList_eraseDocs ms, h, TypeMember.length_docsList_eraseDocs ns]

mutual

/-- **A type is its erasure with its doc strings put back.** -/
theorem ContractType.eq_of_eraseDocs_of_docs : (t u : ContractType) →
    t.eraseDocs = u.eraseDocs → t.docs = u.docs → t = u
  | ⟨n, k, d, ms, ts, bn⟩, ⟨n', k', d', ms', ts', bn'⟩ => by
    intro he hd
    simp only [ContractType.eraseDocs, ContractType.mk.injEq, true_and] at he
    obtain ⟨rfl, rfl, hms, hts, rfl⟩ := he
    simp only [ContractType.docs, List.cons.injEq] at hd
    obtain ⟨rfl, hd⟩ := hd
    obtain ⟨hdm, hdt⟩ := List.append_inj hd (TypeMember.length_docsList_of_eraseDocs hms)
    rw [TypeMember.list_eq_of_eraseDocs_of_docs ms ms' hms hdm,
      ContractType.list_eq_of_eraseDocs_of_docs ts ts' hts hdt]

theorem ContractType.list_eq_of_eraseDocs_of_docs : (ts us : List ContractType) →
    ContractType.eraseDocsList ts = ContractType.eraseDocsList us →
      ContractType.docsList ts = ContractType.docsList us → ts = us
  | [], [] => fun _ _ => rfl
  | [], _ :: _ => fun he => by simp [ContractType.eraseDocsList] at he
  | _ :: _, [] => fun he => by simp [ContractType.eraseDocsList] at he
  | t :: ts, u :: us => by
    intro he hd
    simp only [ContractType.eraseDocsList, List.cons.injEq] at he
    obtain ⟨hdt, hdts⟩ := List.append_inj hd (ContractType.length_docs_of_eraseDocs he.1)
    rw [ContractType.eq_of_eraseDocs_of_docs t u he.1 hdt,
      ContractType.list_eq_of_eraseDocs_of_docs ts us he.2 hdts]

theorem TypeMember.list_eq_of_eraseDocs_of_docs : (ms ns : List TypeMember) →
    TypeMember.eraseDocsList ms = TypeMember.eraseDocsList ns →
      TypeMember.docsList ms = TypeMember.docsList ns → ms = ns
  | [], [] => fun _ _ => rfl
  | [], _ :: _ => fun he => by simp [TypeMember.eraseDocsList] at he
  | _ :: _, [] => fun he => by simp [TypeMember.eraseDocsList] at he
  | ⟨n, d, ts, v⟩ :: ms, ⟨n', d', ts', v'⟩ :: ns => by
    intro he hd
    simp only [TypeMember.eraseDocsList, List.cons.injEq, TypeMemberOf.mk.injEq, true_and] at he
    obtain ⟨⟨rfl, hts, rfl⟩, hms⟩ := he
    simp only [TypeMember.docsList, List.cons.injEq] at hd
    obtain ⟨rfl, hd⟩ := hd
    obtain ⟨hdt, hdm⟩ := List.append_inj hd (ContractType.length_docsList_of_eraseDocs hts)
    rw [ContractType.list_eq_of_eraseDocs_of_docs ts ts' hts hdt,
      TypeMember.list_eq_of_eraseDocs_of_docs ms ns hms hdm]

end

end SorobanDevkit.Wasm
