import SorobanDevkit.Wasm.TypeRef

/-!
# Doc strings and the upgrade verdict

Two specifications are the same up to doc strings when their erasures agree. Events and user-defined
types are compared without doc strings, so exchanging doc strings never changes what the verdict
says about them. Functions are compared by the derived equality of their parameters and outputs,
which includes the doc strings of the parameters: the verdict sees a doc string exactly there.
-/

namespace SorobanDevkit.Wasm

open NameIndex

/-! ### Erasing the doc strings of a specification -/

/-- A parameter with every doc string in it emptied. -/
def ContractParameter.eraseDocs (p : ContractParameter) : ContractParameter :=
  { p with doc := "", type := p.type.eraseDocs }

/-- A function with every doc string in it emptied. -/
def ContractFunction.eraseDocs (f : ContractFunction) : ContractFunction :=
  { f with doc := "", parameters := f.parameters.map ContractParameter.eraseDocs,
           outputs := f.outputs.map ContractType.eraseDocs }

/-- An event parameter with every doc string in it emptied. -/
def EventParam.eraseDocs (p : EventParam) : EventParam :=
  { p with doc := "", type := p.type.eraseDocs }

/-- An event with every doc string in it emptied. -/
def ContractEvent.eraseDocs (e : ContractEvent) : ContractEvent :=
  { e with doc := "", params := e.params.map EventParam.eraseDocs }

/-- A specification with every doc string in it emptied. -/
def ContractSpec.eraseDocs (s : ContractSpec) : ContractSpec :=
  { s with functions := s.functions.map ContractFunction.eraseDocs,
           customTypes := s.customTypes.map ContractType.eraseDocs,
           events := s.events.map ContractEvent.eraseDocs }

/-- The two specifications differ in doc strings only. -/
def ContractSpec.SameUpToDocs (s s' : ContractSpec) : Prop := s.eraseDocs = s'.eraseDocs

theorem eventSignatureEq_eraseDocs (a b : ContractEvent) :
    eventSignatureEq a.eraseDocs b.eraseDocs = eventSignatureEq a b := by
  rw [Bool.eq_iff_iff, eventSignatureEq_iff, eventSignatureEq_iff]
  simp only [ContractEvent.eraseDocs, List.forall₂_map_left_iff, List.forall₂_map_right_iff]
  refine and_congr_right fun _ => and_congr_right fun _ => forall₂_congr_of_mem fun x _ y => ?_
  simp only [eventParamEq, EventParam.eraseDocs, typeRefEq_eraseDocs]

namespace ContractSpec.SameUpToDocs

variable {s s' : ContractSpec} (h : s.SameUpToDocs s') (n : String)

include h

theorem functionIndex :
    (s.functionIndex[n]?).map ContractFunction.eraseDocs =
      (s'.functionIndex[n]?).map ContractFunction.eraseDocs := by
  simp only [ContractSpec.functionIndex, indexBy_getElem?]
  exact map_lastAt_congr _ ContractFunction.eraseDocs (fun _ => rfl)
    (congrArg ContractSpec.functions h) n

theorem eventIndex :
    (s.eventIndex[n]?).map ContractEvent.eraseDocs =
      (s'.eventIndex[n]?).map ContractEvent.eraseDocs := by
  simp only [ContractSpec.eventIndex, indexBy_getElem?]
  exact map_lastAt_congr _ ContractEvent.eraseDocs (fun _ => rfl)
    (congrArg ContractSpec.events h) n

theorem typeIndex :
    (s.typeIndex[n]?).map ContractType.eraseDocs =
      (s'.typeIndex[n]?).map ContractType.eraseDocs := by
  simp only [ContractSpec.typeIndex, indexBy_getElem?]
  exact map_lastAt_congr _ _ ContractType.eraseDocs_name (congrArg ContractSpec.customTypes h) n

end ContractSpec.SameUpToDocs

/-! ### Doc strings within signatures -/

/-- The doc strings within the parameters and the outputs of a function. -/
def ContractFunction.signatureDocs (f : ContractFunction) : List String :=
  f.parameters.flatMap (fun p => p.doc :: p.type.docs) ++ ContractType.docsList f.outputs

/-- The parameters and outputs of a function without doc strings. -/
def ContractFunction.bareSignature (f : ContractFunction) :
    List ContractParameter × List ContractType :=
  (f.eraseDocs.parameters, f.eraseDocs.outputs)

theorem length_parameterDocs_of_eraseDocs {ps qs : List ContractParameter}
    (h : ps.map ContractParameter.eraseDocs = qs.map ContractParameter.eraseDocs) :
    (ps.flatMap fun p => p.doc :: p.type.docs).length =
      (qs.flatMap fun p => p.doc :: p.type.docs).length := by
  induction ps generalizing qs with
  | nil =>
    rw [List.map_nil, eq_comm, List.map_eq_nil_iff] at h
    rw [h]
  | cons p ps ih =>
    cases qs with
    | nil => simp at h
    | cons q qs =>
      rw [List.map_cons, List.map_cons, List.cons.injEq] at h
      have hpq := ContractType.length_docs_of_eraseDocs (congrArg ContractParameter.type h.1)
      simp only [List.flatMap_cons, List.length_append, List.length_cons, ih h.2, hpq]

/-- Parameters are their erasure with the doc strings put back. -/
theorem parameters_eq_of_eraseDocs_of_docs {ps qs : List ContractParameter}
    (h : ps.map ContractParameter.eraseDocs = qs.map ContractParameter.eraseDocs)
    (hd : (ps.flatMap fun p => p.doc :: p.type.docs) = qs.flatMap fun p => p.doc :: p.type.docs) :
    ps = qs := by
  induction ps generalizing qs with
  | nil =>
    rw [List.map_nil, eq_comm, List.map_eq_nil_iff] at h
    exact h.symm
  | cons p ps ih =>
    cases qs with
    | nil => simp at h
    | cons q qs =>
      rw [List.map_cons, List.map_cons, List.cons.injEq] at h
      rw [List.flatMap_cons, List.flatMap_cons] at hd
      have htype := congrArg ContractParameter.type h.1
      have hlen := ContractType.length_docs_of_eraseDocs htype
      obtain ⟨hp, hps⟩ := List.append_inj hd (by simpa using hlen)
      obtain ⟨hdoc, hdocs⟩ := List.cons.inj hp
      have hname : p.eraseDocs.name = q.eraseDocs.name := congrArg ContractParameter.name h.1
      have hpq : p = q := by
        cases p
        cases q
        simp only [ContractParameter.mk.injEq]
        exact ⟨hname, hdoc, ContractType.eq_of_eraseDocs_of_docs _ _ htype hdocs⟩
      rw [hpq, ih h.2 hps]

/-- Two functions are compared equal exactly when their bare signatures and the doc strings within
their signatures agree. -/
theorem functionSignatureEq_iff_docs (f g : ContractFunction) :
    functionSignatureEq f g = true ↔
      f.bareSignature = g.bareSignature ∧ f.signatureDocs = g.signatureDocs := by
  rw [functionSignatureEq_iff]
  constructor
  · rintro ⟨hp, ho⟩
    simp only [ContractFunction.bareSignature, ContractFunction.eraseDocs,
      ContractFunction.signatureDocs, hp, ho, and_self]
  · rintro ⟨hbare, hdocs⟩
    obtain ⟨hp, ho⟩ := Prod.mk.inj hbare
    obtain ⟨hdp, hdo⟩ := List.append_inj hdocs (length_parameterDocs_of_eraseDocs hp)
    refine ⟨parameters_eq_of_eraseDocs_of_docs hp hdp,
      ContractType.list_eq_of_eraseDocs_of_docs _ _ ?_ hdo⟩
    rw [ContractType.eraseDocsList_eq_map, ContractType.eraseDocsList_eq_map]
    exact ho

/-- The function `n` has the same doc strings within its signature in both specifications, if both
declare it with the same bare signature. -/
def SignatureDocsAgree (a b : ContractSpec) (n : String) : Prop :=
  ∀ f g, lastAt ContractFunction.name a.functions n = some f →
    lastAt ContractFunction.name b.functions n = some g →
      f.bareSignature = g.bareSignature → f.signatureDocs = g.signatureDocs

/-- A function is reported as changed when both specifications declare it, and its bare signature
or the doc strings within its signature differ. -/
theorem changedAt_function_iff (a b : ContractSpec) (n : String) :
    changedAt functionSignatureEq a.functionIndex b.functionIndex n = true ↔
      ∃ f g, lastAt ContractFunction.name a.functions n = some f ∧
        lastAt ContractFunction.name b.functions n = some g ∧
        (f.bareSignature = g.bareSignature → f.signatureDocs ≠ g.signatureDocs) := by
  simp only [changedAt, ContractSpec.functionIndex, indexBy_getElem?]
  cases hf : lastAt ContractFunction.name a.functions n with
  | none => simp
  | some f =>
    cases hg : lastAt ContractFunction.name b.functions n with
    | none => simp
    | some g =>
      simp only [Bool.not_eq_true', Bool.eq_false_iff, ne_eq, functionSignatureEq_iff_docs, not_and]
      constructor
      · exact fun h => ⟨f, g, rfl, rfl, h⟩
      · rintro ⟨f', g', ⟨⟩, ⟨⟩, h⟩
        exact h

/-! ### The verdict -/

section Verdict

variable {a a' b b' : ContractSpec} (ha : a.SameUpToDocs a') (hb : b.SameUpToDocs b')

include ha hb

/-- Exchanging doc strings keeps the changed functions exactly when it keeps, function by function,
whether the doc strings within the signatures agree. -/
theorem changedKeys_function_iff (n : String) :
    (n ∈ changedKeys functionSignatureEq a.functionIndex b.functionIndex ↔
      n ∈ changedKeys functionSignatureEq a'.functionIndex b'.functionIndex) ↔
      (SignatureDocsAgree a b n ↔ SignatureDocsAgree a' b' n) := by
  rw [mem_changedKeys, mem_changedKeys, changedAt_function_iff, changedAt_function_iff]
  have hfs := ha.functionIndex n
  have hgs := hb.functionIndex n
  simp only [ContractSpec.functionIndex, indexBy_getElem?] at hfs hgs
  simp only [SignatureDocsAgree]
  cases hf : lastAt ContractFunction.name a.functions n with
  | none =>
    rw [hf, Option.map_none, eq_comm, Option.map_eq_none_iff] at hfs
    simp [hfs]
  | some f =>
    cases hg : lastAt ContractFunction.name b.functions n with
    | none =>
      rw [hg, Option.map_none, eq_comm, Option.map_eq_none_iff] at hgs
      simp [hgs]
    | some g =>
      rw [hf, Option.map_some, eq_comm, Option.map_eq_some_iff] at hfs
      rw [hg, Option.map_some, eq_comm, Option.map_eq_some_iff] at hgs
      obtain ⟨f', hf', hff⟩ := hfs
      obtain ⟨g', hg', hgg⟩ := hgs
      -- the bare signatures are those of the erased functions, which are the same
      have hbf : f'.bareSignature = f.bareSignature := by
        simp only [ContractFunction.bareSignature, hff]
      have hbg : g'.bareSignature = g.bareSignature := by
        simp only [ContractFunction.bareSignature, hgg]
      have hread : ∀ P : ContractFunction → ContractFunction → Prop, ∀ x y : ContractFunction,
          (∃ u v, some x = some u ∧ some y = some v ∧ P u v) ↔ P x y := by simp
      have hread' : ∀ P : ContractFunction → ContractFunction → Prop, ∀ x y : ContractFunction,
          (∀ u v, some x = some u → some y = some v → P u v) ↔ P x y := by simp
      rw [hf', hg', hread, hread, hread', hread', hbf, hbg]
      tauto

theorem nonBreakingEntries_congr :
    (upgradeSafety a b).nonBreakingChanges.map VerdictChange.entry =
      (upgradeSafety a' b').nonBreakingChanges.map VerdictChange.entry := by
  rw [nonBreakingEntries_eq, nonBreakingEntries_eq,
    addedKeys_congr ha.functionIndex hb.functionIndex,
    addedKeys_congr ha.eventIndex hb.eventIndex, addedKeys_congr ha.typeIndex hb.typeIndex]

/-- Up to the changed functions, exchanging doc strings keeps the breaking entries. -/
theorem breakingEntries_congr_iff :
    (∀ e, e ∈ (upgradeSafety a b).breakingChanges.map VerdictChange.entry ↔
      e ∈ (upgradeSafety a' b').breakingChanges.map VerdictChange.entry) ↔
      ∀ n, n ∈ changedKeys functionSignatureEq a.functionIndex b.functionIndex ↔
        n ∈ changedKeys functionSignatureEq a'.functionIndex b'.functionIndex := by
  have hevent : ∀ x y : ContractEvent,
      eventSignatureEq x.eraseDocs y.eraseDocs = eventSignatureEq x y := eventSignatureEq_eraseDocs
  have htype : ∀ x y : ContractType,
      typeDefinitionEq x.eraseDocs y.eraseDocs = typeDefinitionEq x y := fun x y =>
    Bool.eq_iff_iff.mpr (typeDefinitionEq_eraseDocs x y)
  rw [breakingEntries_eq, breakingEntries_eq, removedKeys_congr ha.functionIndex hb.functionIndex,
    removedKeys_congr ha.eventIndex hb.eventIndex, removedKeys_congr ha.typeIndex hb.typeIndex,
    changedKeys_congr ha.eventIndex hb.eventIndex hevent,
    changedKeys_congr ha.typeIndex hb.typeIndex htype]
  constructor
  · intro h n
    simpa using h (ChangeKind.changedSignature, n)
  · rintro h ⟨kind, n⟩
    cases kind <;> simp [h]

end Verdict

/-- A specification never gains a declaration over itself with other doc strings. -/
theorem nonBreakingChanges_eq_nil {a a' : ContractSpec} (ha : a.SameUpToDocs a') :
    (upgradeSafety a a').nonBreakingChanges = [] := by
  have h := nonBreakingEntries_congr (a := a) (b := a) rfl ha
  rw [(entries_self a).2, List.map_nil, eq_comm] at h
  exact List.map_eq_nil_iff.mp h

/-- A specification with other doc strings breaks nothing exactly when the doc strings within the
function signatures agree. -/
theorem breakingChanges_eq_nil_iff {a a' : ContractSpec} (ha : a.SameUpToDocs a') :
    (upgradeSafety a a').breakingChanges = [] ↔ ∀ n, SignatureDocsAgree a a' n := by
  have hself : ∀ n, SignatureDocsAgree a a n := by
    intro n f g hf hg _
    rw [Option.some.inj (hf.symm.trans hg)]
  have hcongr := breakingEntries_congr_iff (a := a) (b := a) rfl ha
  simp only [changedKeys_function_iff (a := a) (b := a) rfl ha, hself, true_iff, (entries_self a).1,
    List.map_nil, List.not_mem_nil, false_iff, ← List.eq_nil_iff_forall_not_mem,
    List.map_eq_nil_iff] at hcongr
  exact hcongr

/-- **Doc strings in the verdict.** A specification is reported identical to itself with other doc
strings exactly when the doc strings within the function signatures agree; and exchanging doc
strings on both sides of a comparison keeps the entries of both lists exactly when it keeps,
function by function, whether these doc strings agree. -/
theorem docs_in_verdict_iff {a a' b b' : ContractSpec} (ha : a.SameUpToDocs a')
    (hb : b.SameUpToDocs b') :
    (((∀ oldSummary newSummary, (specDiff a a' oldSummary newSummary).isIdentical = true) ∧
      (upgradeSafety a a').compatible = true ∧ (upgradeSafety a a').breakingChanges = [] ∧
      (upgradeSafety a a').nonBreakingChanges = []) ↔ ∀ n, SignatureDocsAgree a a' n) ∧
    (((∀ e, e ∈ (upgradeSafety a b).breakingChanges.map VerdictChange.entry ↔
        e ∈ (upgradeSafety a' b').breakingChanges.map VerdictChange.entry) ∧
      (∀ e, e ∈ (upgradeSafety a b).nonBreakingChanges.map VerdictChange.entry ↔
        e ∈ (upgradeSafety a' b').nonBreakingChanges.map VerdictChange.entry)) ↔
      ∀ n, (SignatureDocsAgree a b n ↔ SignatureDocsAgree a' b' n)) := by
  constructor
  · rw [← breakingChanges_eq_nil_iff ha]
    simp only [isIdentical_iff, nonBreakingChanges_eq_nil ha, and_true]
    constructor
    · exact fun h => h.2.2
    · intro h
      refine ⟨fun _ _ => h, ?_, h⟩
      rw [compatible_iff_breakingEntries, h, List.map_nil]
  · rw [nonBreakingEntries_congr ha hb, breakingEntries_congr_iff ha hb]
    simp only [implies_true, and_true, changedKeys_function_iff ha hb]

/-- A function with one parameter, both documented. -/
def documented (functionDoc parameterDoc : String) : ContractSpec :=
  ⟨none, [⟨"deposit", functionDoc, [⟨"amount", parameterDoc, primitive "i128"⟩], []⟩], [], []⟩

/-- The verdict blocks an upgrade that only documents a parameter. -/
theorem documented_parameter_is_breaking :
    (documented "" "").SameUpToDocs (documented "" "sum") ∧
      (upgradeSafety (documented "" "") (documented "" "sum")).compatible = false :=
  ⟨rfl, by decide⟩

/-- Documenting the function itself keeps the verdict. -/
theorem docs_in_verdict_iff_function_doc :
    (upgradeSafety (documented "" "") (documented "adds" "")).compatible = true := by
  have hdocs : ∀ n, SignatureDocsAgree (documented "" "") (documented "adds" "") n := by
    intro n f g hf hg _
    obtain ⟨hf, -⟩ := mem_of_lastAt hf
    obtain ⟨hg, -⟩ := mem_of_lastAt hg
    rw [List.mem_singleton.mp hf, List.mem_singleton.mp hg]
    rfl
  have hsame : (documented "" "").SameUpToDocs (documented "adds" "") := rfl
  exact ((docs_in_verdict_iff hsame hsame).1.mpr hdocs).2.1

end SorobanDevkit.Wasm
