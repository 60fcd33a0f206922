import SorobanDevkit.Fuzz.GenerationLimits
import SorobanDevkit.Library.Runs

/-!
# Sizes of mutated vectors and maps

Mutations are meant to keep a vector or map within twice the cap of the generator, and to admit one
part where the cap is zero. Appending and inserting refuse what is too long. Duplicating does not:
it cuts the vector off at its own length if that is greater.

The mutations of an argument are within the caps as long as no full vector is duplicated. A campaign
never does so, since it walks through the operators in a circle, and a vector is emptied before it
is duplicated again.

## Main results

* `vecSteps`, `mapSteps` — what an operator makes of the size of a vector or map.
* `mutations_within_caps_iff` — the runs of attempts that keep sizes within the caps.
* `mutateArgs_eq_run` — what a campaign does is a run of attempts.
-/

namespace SorobanDevkit.Fuzz

open Wasm (ContractType)
open Xdr (Bytes32 ScVal u32Max)

/-! ### Sizes -/

/-- The number of items of a vector. -/
def vecLength : ScVal → ℕ
  | .vec (some items) => items.length
  | _ => 0

/-- The number of entries of a map. -/
def mapLength : ScVal → ℕ
  | .map (some entries) => entries.length
  | _ => 0

theorem vecLength_of_ne {v : ScVal} (h : ∀ items, v = .vec (some items) → False) :
    vecLength v = 0 := by
  unfold vecLength
  split
  · exact absurd rfl (h _)
  · rfl

theorem mapLength_of_ne {v : ScVal} (h : ∀ entries, v = .map (some entries) → False) :
    mapLength v = 0 := by
  unfold mapLength
  split
  · exact absurd rfl (h _)
  · rfl

/-- Twice a cap, and at least one. -/
def sizeBound (cap : UInt64) : ℕ := max 1 (2 * cap.toNat)

/-- A vector or map is not greater than the caps allow. -/
structure WithinCaps (caps : GenerationCaps) (t : ContractType) (v : ScVal) : Prop where
  vec : shape t = .vec → vecLength v ≤ sizeBound caps.maxVecLen
  map : shape t = .map → mapLength v ≤ sizeBound caps.maxMapEntries

/-- All arguments are within the caps. -/
def ArgsWithinCaps (caps : GenerationCaps) (types : List ContractType) (args : List ScVal) : Prop :=
  ∀ (i : ℕ) (t : ContractType) (v : ScVal), types[i]? = some t → args[i]? = some v →
    WithinCaps caps t v

/-- The cap that the code compares with is no greater. -/
theorem max_saturatingDouble_le (cap : UInt64) : max (saturatingDouble cap) 1 ≤ sizeBound cap := by
  rw [saturatingDouble, sizeBound]
  omega

theorem le_sizeBound (cap : UInt64) : cap.toNat ≤ sizeBound cap := by
  rw [sizeBound]
  omega

theorem sizeBound_pos (cap : UInt64) : 0 < sizeBound cap := by
  rw [sizeBound]
  omega

/-! ### Generated values -/

section

variable {sha256 : List UInt8 → Bytes32} {caps : GenerationCaps} {t : ContractType}

theorem generateLength_le (rng : SplitMix64) (cap : UInt64) :
    generateLength rng cap ≤ cap.toNat := by
  rw [generateLength]
  split
  · exact Nat.zero_le _
  · have hle := below_succ_le rng cap
    split at hle
    · exact hle.trans (Nat.zero_le _)
    · exact hle

/-- A generated vector has at most as many items as the cap tells. -/
theorem vecLength_generated {key : List UInt8} {depth : ℕ} {v : ScVal} (ht : shape t = .vec)
    (h : generateValue sha256 caps t key depth = .ok v) : vecLength v ≤ caps.maxVecLen.toNat := by
  rw [generateValue] at h
  cases hlevels : caps.maxDepth.toNat + 1 - depth with
  | zero =>
    rw [hlevels] at h
    obtain ⟨-, -, rfl⟩ | ⟨-, rfl⟩ | ⟨-, rfl⟩ | ⟨-, rfl⟩ := cappedValue_eq_ok h <;>
      exact Nat.zero_le _
  | succ levels =>
    rw [hlevels] at h
    obtain ⟨hshape, -⟩ | ⟨-, elem, -, helem, -⟩ | ⟨hshape, -⟩ | ⟨hshape, -⟩ :=
      generateValueAbove_cases h
    · rw [ht] at hshape
      cases hshape
    · rw [generateValueAbove_vec ht helem] at h
      obtain ⟨items, hitems, hlimit⟩ := Except.bind_eq_ok_iff.mp h
      rw [withinLimit_eq_ok hlimit, vecLength, Except.length_of_mapM_eq_ok hitems,
        List.length_range]
      exact generateLength_le _ _
    · rw [ht] at hshape
      cases hshape
    · rw [ht] at hshape
      cases hshape

/-- A generated map has at most as many entries as the cap tells. -/
theorem mapLength_generated {key : List UInt8} {depth : ℕ} {v : ScVal} (ht : shape t = .map)
    (h : generateValue sha256 caps t key depth = .ok v) :
    mapLength v ≤ caps.maxMapEntries.toNat := by
  rw [generateValue] at h
  cases hlevels : caps.maxDepth.toNat + 1 - depth with
  | zero =>
    rw [hlevels] at h
    obtain ⟨-, -, rfl⟩ | ⟨-, rfl⟩ | ⟨-, rfl⟩ | ⟨-, rfl⟩ := cappedValue_eq_ok h <;>
      exact Nat.zero_le _
  | succ levels =>
    rw [hlevels] at h
    obtain ⟨hshape, -⟩ | ⟨hshape, -⟩ | ⟨hshape, -⟩ | ⟨-, kt, vt, rest, -, hargs, -⟩ :=
      generateValueAbove_cases h
    · rw [ht] at hshape
      cases hshape
    · rw [ht] at hshape
      cases hshape
    · rw [ht] at hshape
      cases hshape
    · rw [generateValueAbove_map ht hargs] at h
      obtain ⟨entries, hentries, hlimit⟩ := Except.bind_eq_ok_iff.mp h
      rw [withinLimit_eq_ok hlimit, mapLength]
      refine (length_dedupByKey_le entries).trans ?_
      rw [Except.length_of_mapM_eq_ok hentries, List.length_range]
      exact generateLength_le _ _

theorem withinCaps_generated {key : List UInt8} {depth : ℕ} {v : ScVal}
    (h : generateValue sha256 caps t key depth = .ok v) : WithinCaps caps t v where
  vec ht := (vecLength_generated ht h).trans (le_sizeBound _)
  map ht := (mapLength_generated ht h).trans (le_sizeBound _)

end

/-! ### What an operator makes of a size -/

/-- What the operators of vectors make of a number of items. -/
def VecStep (bound : ℕ) : Operator → (before after : ℕ) → Prop
  | .vecEmpty, _, after => after = 0
  | .vecRemoveOne, before, after => after + 1 = before
  | .vecDuplicate, before, after => 0 < before ∧ before < u32Max ∧ after = before + 1
  | .vecAppend, before, after => before < bound ∧ after = before + 1
  | .vecMutateOne, before, after => after = before
  | _, _, _ => False

/-- What the operators of maps make of a number of entries. -/
def MapStep (bound : ℕ) : Operator → (before after : ℕ) → Prop
  | .mapEmpty, _, after => after = 0
  | .mapRemoveOne, before, after => after + 1 = before
  | .mapInsertKey, before, after => after = before + 1 ∧ after ≤ bound
  | _, _, _ => False

section

variable {sha256 : List UInt8 → Bytes32} {caps : GenerationCaps} {t : ContractType}
  {applyTo : ContractType → ScVal → Operator → SplitMix64 → Except MutationError ScVal}
  {current v : ScVal} {operator : Operator} {rng : SplitMix64}

variable (sha256 caps) in
theorem applyOperator_eq (t : ContractType) (current : ScVal) (operator : Operator)
    (rng : SplitMix64) : ∃ applyTo, applyOperator sha256 caps t current operator rng =
      applyOperatorWith sha256 caps applyTo t current operator rng := by
  rw [applyOperator]
  cases typeLevels t with
  | zero => exact ⟨_, rfl⟩
  | succ levels => exact ⟨_, rfl⟩

theorem length_le_of_listWithinLimit {α : Type} {mk : Option (List α) → ScVal} {items : List α}
    (h : listWithinLimit mk items = .ok v) : items.length ≤ u32Max := by
  unfold listWithinLimit withinLimit at h
  split_ifs at h with hlimit
  exact hlimit

/-- The place of the duplicate is in the vector. -/
theorem below_length_le (rng : SplitMix64) {α : Type} (items : List α) :
    (rng.below (UInt64.ofNat items.length)).1.toNat ≤ items.length := by
  rw [below_toNat, UInt64.toNat_ofNat']
  have hlt := Nat.mod_lt rng.nextU64.1.toNat
    (Nat.lt_of_lt_of_le Nat.zero_lt_one (le_max_right (items.length % 2 ^ 64) 1))
  have hle := Nat.mod_le items.length (2 ^ 64)
  omega

theorem vecSteps (hshape : shape t = .vec) (hoperator : operator ∈ operatorsFor t)
    (h : applyOperatorWith sha256 caps applyTo t current operator rng = .ok v) :
    VecStep (max (saturatingDouble caps.maxVecLen) 1) operator (vecLength current)
      (vecLength v) := by
  rw [operatorsFor_eq, hshape] at hoperator
  simp only [List.mem_cons, List.not_mem_nil, or_false] at hoperator
  rcases hoperator with rfl | rfl | rfl | rfl | rfl
  case inl =>
    cases h
    rfl
  all_goals unfold applyOperatorWith at h
  all_goals dsimp only at h
  -- remove the last item
  · split at h
    · next item items =>
      rw [listWithinLimit_eq_ok h]
      simp [VecStep, vecLength]
    · cases h
  -- duplicate the last item
  · split at h
    · next item items =>
      have hidx := below_length_le rng (item :: items)
      have hlimit := length_le_of_listWithinLimit h
      rw [List.take_of_length_le (le_max_right _ _),
        List.length_insertIdx_of_le_length hidx] at hlimit
      rw [listWithinLimit_eq_ok h]
      refine ⟨Nat.succ_pos _, hlimit, ?_⟩
      rw [vecLength, vecLength, List.take_of_length_le (le_max_right _ _),
        List.length_insertIdx_of_le_length hidx]
    · cases h
  -- append a generated item
  · obtain ⟨elem, -, h⟩ := Except.bind_eq_ok_iff.mp h
    obtain ⟨w, -, h⟩ := Except.bind_eq_ok_iff.mp h
    split_ifs at h with hfull
    rw [listWithinLimit_eq_ok h]
    split at hfull
    · exact ⟨Nat.lt_of_not_le hfull, List.length_append⟩
    · next hnone =>
      rw [vecLength_of_ne hnone]
      exact ⟨Nat.lt_of_not_le hfull, rfl⟩
  -- mutate one item
  · obtain ⟨elem, -, h⟩ := Except.bind_eq_ok_iff.mp h
    split at h
    · obtain ⟨op, -, h⟩ := Except.bind_eq_ok_iff.mp h
      obtain ⟨w, -, h⟩ := Except.bind_eq_ok_iff.mp h
      rw [listWithinLimit_eq_ok h]
      exact List.length_set
    · cases h

theorem mapSteps (hshape : shape t = .map) (hoperator : operator ∈ operatorsFor t)
    (h : applyOperatorWith sha256 caps applyTo t current operator rng = .ok v) :
    MapStep (max (saturatingDouble caps.maxMapEntries) 1) operator (mapLength current)
      (mapLength v) := by
  rw [operatorsFor_eq, hshape] at hoperator
  simp only [List.mem_cons, List.not_mem_nil, or_false] at hoperator
  rcases hoperator with rfl | rfl | rfl
  · cases h
    rfl
  · unfold applyOperatorWith at h
    dsimp only at h
    split at h
    · next e entries =>
      rw [listWithinLimit_eq_ok h]
      simp [MapStep, mapLength]
    · cases h
  · obtain ⟨kt, -, h⟩ := Except.bind_eq_ok_iff.mp h
    obtain ⟨vt, -, h⟩ := Except.bind_eq_ok_iff.mp h
    obtain ⟨e, -, h⟩ := Except.bind_eq_ok_iff.mp h
    dsimp only at h
    split_ifs at h with hfull
    rw [listWithinLimit_eq_ok h]
    refine ⟨?_, Nat.le_of_not_lt hfull⟩
    rw [mapLength, (sortByKey_perm _).length_eq, List.length_append]
    split
    · rfl
    · next hnone => rw [mapLength_of_ne hnone]; rfl

end

/-! ### Attempts -/

section

variable (sha256 : List UInt8 → Bytes32) (caps : GenerationCaps) (types : List ContractType)
  (seed : Bytes32) (caseId : String)

/-- The arguments after an attempt to mutate one of them. An attempt that fails leaves them. -/
def attemptMutation (args : List ScVal) (attempt : ℕ × Operator) : List ScVal :=
  match types[attempt.1]? with
  | none => args
  | some t =>
    match mutateArg sha256 caps t args attempt.1 attempt.2 seed caseId with
    | .ok mutation => mutation.args
    | .error _ => args

/-- An attempt to duplicate an item of a vector that is as long as allowed, where XDR admits one
more. -/
def DuplicatesFull (args : List ScVal) (attempt : ℕ × Operator) : Prop :=
  attempt.2 = .vecDuplicate ∧ ∃ t v, types[attempt.1]? = some t ∧ args[attempt.1]? = some v ∧
    shape t = .vec ∧ vecLength v = sizeBound caps.maxVecLen ∧ vecLength v < u32Max

end

section

variable {sha256 : List UInt8 → Bytes32} {caps : GenerationCaps} {types : List ContractType}
  {seed : Bytes32} {caseId : String} {args : List ScVal} {attempt : ℕ × Operator}

/-- There is no argument to mutate. -/
theorem attemptMutation_of_length_le (h : args.length ≤ attempt.1) :
    attemptMutation sha256 caps types seed caseId args attempt = args := by
  unfold attemptMutation
  split
  · rfl
  · rw [mutateArg, List.getElem?_eq_none h]

variable (sha256 caps types seed caseId args attempt) in
/-- An attempt does nothing, or an operator of the type replaces the argument. -/
theorem attemptMutation_cases :
    attemptMutation sha256 caps types seed caseId args attempt = args ∨
      ∃ t current v applyTo rng, types[attempt.1]? = some t ∧ args[attempt.1]? = some current ∧
        attempt.2 ∈ operatorsFor t ∧
        applyOperatorWith sha256 caps applyTo t current attempt.2 rng = .ok v ∧
        attemptMutation sha256 caps types seed caseId args attempt = args.set attempt.1 v := by
  unfold attemptMutation
  split
  · exact .inl rfl
  · next t ht =>
    split
    · next mutation hmutation =>
      unfold mutateArg at hmutation
      split at hmutation
      · cases hmutation
      · next current hcurrent =>
        split_ifs at hmutation with hoperator hnone
        obtain ⟨v, hv, hmutation⟩ := Except.bind_eq_ok_iff.mp hmutation
        obtain ⟨applyTo, happly⟩ := applyOperator_eq sha256 caps t current attempt.2 _
        rw [happly] at hv
        cases hmutation
        exact .inr ⟨t, current, v, applyTo, _, ht, hcurrent, hoperator, hv, rfl⟩
    · exact .inl rfl

/-- After an attempt, an argument is what it was, or what an operator of its type made of it. -/
theorem getElem?_attemptMutation {i : ℕ} {t : ContractType} {v : ScVal} (ht : types[i]? = some t)
    (hv : (attemptMutation sha256 caps types seed caseId args attempt)[i]? = some v) :
    ∃ current, args[i]? = some current ∧ (v = current ∨ attempt.1 = i ∧ attempt.2 ∈ operatorsFor t ∧
      ∃ applyTo rng, applyOperatorWith sha256 caps applyTo t current attempt.2 rng = .ok v) := by
  obtain heq | ⟨t', current, w, applyTo, rng, ht', hcurrent, hoperator, happly, heq⟩ :=
    attemptMutation_cases sha256 caps types seed caseId args attempt
  · rw [heq] at hv
    exact ⟨v, hv, .inl rfl⟩
  · rw [heq] at hv
    by_cases hi : attempt.1 = i
    · subst hi
      rw [ht] at ht'
      cases ht'
      rw [List.getElem?_set_self (List.getElem?_eq_some_iff.mp hcurrent).1] at hv
      cases hv
      exact ⟨current, hcurrent, .inr ⟨rfl, hoperator, applyTo, rng, happly⟩⟩
    · rw [List.getElem?_set_ne hi] at hv
      exact ⟨v, hv, .inl rfl⟩

variable (sha256 caps seed caseId attempt) in
/-- An operator that applies replaces the argument. -/
theorem attemptMutation_eq_set {t : ContractType} {current : ScVal}
    (ht : types[attempt.1]? = some t)
    (hcurrent : args[attempt.1]? = some current) (hoperator : attempt.2 ∈ operatorsFor t)
    (happly : ∀ applyTo rng, ∃ v,
      applyOperatorWith sha256 caps applyTo t current attempt.2 rng = .ok v) :
    ∃ v applyTo rng, applyOperatorWith sha256 caps applyTo t current attempt.2 rng = .ok v ∧
      attemptMutation sha256 caps types seed caseId args attempt = args.set attempt.1 v := by
  unfold attemptMutation
  rw [ht]
  dsimp only
  unfold mutateArg
  rw [hcurrent]
  dsimp only
  rw [if_pos hoperator]
  obtain ⟨applyTo, heq⟩ := applyOperator_eq sha256 caps t current attempt.2
    (SplitMix64.keyed sha256 (deriveKeyChild sha256 (bytesOf seed) caseId ++
      littleEndian 8 attempt.1 ++ Wasm.utf8 attempt.2.name))
  obtain ⟨v, hv⟩ := happly applyTo (SplitMix64.keyed sha256
    (deriveKeyChild sha256 (bytesOf seed) caseId ++ littleEndian 8 attempt.1 ++
      Wasm.utf8 attempt.2.name))
  refine ⟨v, applyTo, _, hv, ?_⟩
  rw [heq, hv]
  rfl

/-- The vectors that one more item fits in are duplicated. -/
theorem duplicate_ok {t : ContractType} {v : ScVal} (hpos : 0 < vecLength v)
    (hlt : vecLength v < u32Max)
    (applyTo : ContractType → ScVal → Operator → SplitMix64 → Except MutationError ScVal)
    (rng : SplitMix64) :
    ∃ w, applyOperatorWith sha256 caps applyTo t v .vecDuplicate rng = .ok w := by
  unfold vecLength at hpos hlt
  split at hpos
  · next items =>
    cases items with
    | nil => cases hpos
    | cons item items =>
      have hidx := below_length_le rng (item :: items)
      refine ⟨_, if_pos ?_⟩
      rw [List.take_of_length_le (le_max_right _ _), List.length_insertIdx_of_le_length hidx]
      exact hlt
  · cases hpos

theorem operatorsFor_vec {t : ContractType} (ht : shape t = .vec) :
    operatorsFor t = [.vecEmpty, .vecRemoveOne, .vecDuplicate, .vecAppend, .vecMutateOne] := by
  rw [operatorsFor_eq, ht]

/-- An operator other than the duplication of a full vector keeps a value within the caps. -/
theorem withinCaps_step {t : ContractType} {current v : ScVal} {operator : Operator}
    {applyTo : ContractType → ScVal → Operator → SplitMix64 → Except MutationError ScVal}
    {rng : SplitMix64} (hcurrent : WithinCaps caps t current)
      (hoperator : operator ∈ operatorsFor t)
    (h : applyOperatorWith sha256 caps applyTo t current operator rng = .ok v)
    (hfull : operator = .vecDuplicate → shape t = .vec → vecLength current < u32Max →
      vecLength current ≠ sizeBound caps.maxVecLen) : WithinCaps caps t v where
  vec ht := by
    have hbound := hcurrent.vec ht
    have hcap := max_saturatingDouble_le caps.maxVecLen
    have hstep := vecSteps ht hoperator h
    rw [operatorsFor_vec ht] at hoperator
    simp only [List.mem_cons, List.not_mem_nil, or_false] at hoperator
    rcases hoperator with rfl | rfl | rfl | rfl | rfl <;> simp only [VecStep] at hstep
    · omega
    · omega
    · have hne := hfull rfl ht hstep.2.1
      omega
    · omega
    · omega
  map ht := by
    have hbound := hcurrent.map ht
    have hcap := max_saturatingDouble_le caps.maxMapEntries
    have hstep := mapSteps ht hoperator h
    rw [operatorsFor_eq, ht] at hoperator
    simp only [List.mem_cons, List.not_mem_nil, or_false] at hoperator
    rcases hoperator with rfl | rfl | rfl <;> simp only [MapStep] at hstep
    · omega
    · omega
    · omega

/-- The sizes of arguments are kept by every attempt but the duplication of an item of a full
vector. -/
theorem argsWithinCaps_attempt (hargs : ArgsWithinCaps caps types args)
    (hfull : ¬ DuplicatesFull caps types args attempt) :
    ArgsWithinCaps caps types (attemptMutation sha256 caps types seed caseId args attempt) := by
  intro i t v ht hv
  obtain ⟨current, hcurrent, rfl | ⟨rfl, hoperator, applyTo, rng, happly⟩⟩ :=
    getElem?_attemptMutation ht hv
  · exact hargs i t v ht hcurrent
  · refine withinCaps_step (hargs _ t current ht hcurrent) hoperator happly ?_
    exact fun hduplicate hshape hlimit hlength =>
      hfull ⟨hduplicate, t, current, ht, hcurrent, hshape, hlength, hlimit⟩

/-- The duplication of an item of a full vector exceeds the cap. -/
theorem not_argsWithinCaps_of_duplicatesFull (hfull : DuplicatesFull caps types args attempt) :
    ¬ ArgsWithinCaps caps types (attemptMutation sha256 caps types seed caseId args attempt) := by
  obtain ⟨hduplicate, t, current, ht, hcurrent, hshape, hlength, hlimit⟩ := hfull
  have hoperator : attempt.2 ∈ operatorsFor t := by
    rw [operatorsFor_vec hshape, hduplicate]
    decide
  have hpos : 0 < vecLength current := by
    rw [hlength]
    exact sizeBound_pos _
  obtain ⟨v, applyTo, rng, happly, heq⟩ := attemptMutation_eq_set sha256 caps
    seed caseId attempt ht hcurrent hoperator fun applyTo rng => by
      rw [hduplicate]
      exact duplicate_ok hpos hlimit applyTo rng
  intro hargs
  rw [heq] at hargs
  have hv := (hargs attempt.1 t v ht
    (List.getElem?_set_self (List.getElem?_eq_some_iff.mp hcurrent).1)).vec hshape
  have hstep := vecSteps hshape hoperator happly
  rw [hduplicate] at hstep
  obtain ⟨-, -, hafter⟩ := hstep
  rw [hafter, hlength] at hv
  exact Nat.not_succ_le_self _ hv

end

/-! ### The walk of a campaign -/

/-- The operators of the types, with the indices of the arguments, from an index on. -/
def candidatesFrom (types : List ContractType) (first : ℕ) : List (ℕ × Operator) :=
  (types.zipIdx first).flatMap fun (t, i) => (operatorsFor t).map fun op => (i, op)

/-- The place of the first operator of an argument. -/
def placeOf (types : List ContractType) (i : ℕ) : ℕ := (candidatesFrom (types.take i) 0).length

theorem index_of_mem_candidatesFrom {types : List ContractType} {first : ℕ} {c : ℕ × Operator}
    (h : c ∈ candidatesFrom types first) : first ≤ c.1 ∧ c.1 < first + types.length := by
  obtain ⟨⟨t, i⟩, hmem, hc⟩ := List.mem_flatMap.mp h
  obtain ⟨op, -, rfl⟩ := List.mem_map.mp hc
  have hlt := List.snd_lt_of_mem_zipIdx hmem
  exact ⟨List.le_snd_of_mem_zipIdx hmem, by rw [Nat.add_comm]; exact hlt⟩

/-- The operators of an argument are next to each other. -/
theorem candidatesFrom_eq {types : List ContractType} {i : ℕ} {t : ContractType}
    (ht : types[i]? = some t) : candidatesFrom types 0 = candidatesFrom (types.take i) 0 ++
      ((operatorsFor t).map (fun op => (i, op)) ++ candidatesFrom (types.drop (i + 1))
        (i + 1)) := by
  obtain ⟨hi, rfl⟩ := List.getElem?_eq_some_iff.mp ht
  have hsplit : types = types.take i ++ types[i] :: types.drop (i + 1) := by simp
  conv_lhs => rw [hsplit]
  rw [candidatesFrom, List.zipIdx_append, List.flatMap_append, List.length_take_of_le hi.le,
    List.zipIdx_cons, List.flatMap_cons, Nat.zero_add]
  rfl

/-- A candidate of an argument is at its place. -/
theorem candidate_at {types : List ContractType} {i : ℕ} {t : ContractType}
    (ht : types[i]? = some t) {place : ℕ} {op : Operator}
    (h : (candidatesFrom types 0)[place]? = some (i, op)) :
    ∃ k, place = placeOf types i + k ∧ (operatorsFor t)[k]? = some op := by
  have hi := (List.getElem?_eq_some_iff.mp ht).1
  rw [candidatesFrom_eq ht, List.getElem?_append] at h
  split at h
  · have hlt := (index_of_mem_candidatesFrom (List.mem_of_getElem? h)).2
    rw [List.length_take_of_le hi.le, Nat.zero_add] at hlt
    exact absurd hlt (Nat.lt_irrefl i)
  · next hplace =>
    rw [List.getElem?_append] at h
    split at h
    · rw [List.getElem?_map] at h
      obtain ⟨op', hop', heq⟩ := Option.map_eq_some_iff.mp h
      cases heq
      exact ⟨place - placeOf types i, (Nat.add_sub_cancel' (Nat.le_of_not_lt hplace)).symm, hop'⟩
    · have hle := (index_of_mem_candidatesFrom (List.mem_of_getElem? h)).1
      exact absurd hle (Nat.not_succ_le_self i)

/-- At the place of an operator of an argument there is no other candidate. -/
theorem candidate_of_place {types : List ContractType} {i : ℕ} {t : ContractType}
    (ht : types[i]? = some t) (k : ℕ) (op : Operator) (hop : (operatorsFor t)[k]? = some op) :
    (candidatesFrom types 0)[placeOf types i + k]? = some (i, op) := by
  have hk := (List.getElem?_eq_some_iff.mp hop).1
  rw [candidatesFrom_eq ht, placeOf, List.getElem?_append_right (Nat.le_add_right _ _),
    Nat.add_sub_cancel_left, List.getElem?_append_left (by rw [List.length_map]; exact hk),
    List.getElem?_map, hop]
  rfl

section

variable {sha256 : List UInt8 → Bytes32} {caps : GenerationCaps} {types : List ContractType}
  {seed : Bytes32} {caseId : String} {args : List ScVal} {attempt : ℕ × Operator}

/-- Before the candidate at a place is tried: a vector whose turn is at the second or third of its
operators has as many items as a generated one at most. -/
structure Phase (caps : GenerationCaps) (types : List ContractType) (place : ℕ)
    (args : List ScVal) :
    Prop where
  within : ArgsWithinCaps caps types args
  fresh : ∀ (i : ℕ) (t : ContractType) (v : ScVal), types[i]? = some t → args[i]? = some v →
    shape t = .vec → place = placeOf types i + 1 ∨ place = placeOf types i + 2 →
      vecLength v ≤ caps.maxVecLen.toNat

/-- No full vector is duplicated in its turn. -/
theorem not_duplicatesFull {place : ℕ} (hphase : Phase caps types place args)
    (hplace : (candidatesFrom types 0)[place]? = some attempt) :
    ¬ DuplicatesFull caps types args attempt := by
  rintro ⟨hduplicate, t, v, ht, hv, hshape, hlength, -⟩
  obtain ⟨i, operator⟩ := attempt
  dsimp only at hduplicate ht hv
  subst hduplicate
  obtain ⟨k, rfl, hk⟩ := candidate_at ht hplace
  rw [operatorsFor_vec hshape] at hk
  have hk2 : k = 2 := by
    match k with
    | 2 => rfl
    | 0 | 1 | 3 | 4 => simp at hk
    | k + 5 => simp at hk
  have hfresh := hphase.fresh i t v ht hv hshape (.inr (by rw [hk2]))
  rw [hlength, sizeBound] at hfresh
  omega

variable (sha256 seed caseId) in
/-- The walk goes from one place to the next. -/
theorem Phase.step {place : ℕ} (hphase : Phase caps types place args)
    (hplace : (candidatesFrom types 0)[place]? = some attempt) :
    Phase caps types ((place + 1) % (candidatesFrom types 0).length)
      (attemptMutation sha256 caps types seed caseId args attempt) where
  within := argsWithinCaps_attempt hphase.within (not_duplicatesFull hphase hplace)
  fresh i t v ht hv hshape hnext := by
    have hlt := (List.getElem?_eq_some_iff.mp hplace).1
    have hsucc : (place + 1) % (candidatesFrom types 0).length = place + 1 := by
      refine Nat.mod_eq_of_lt (Nat.lt_of_le_of_ne hlt fun heq => ?_)
      rw [heq, Nat.mod_self] at hnext
      omega
    rw [hsucc] at hnext
    obtain ⟨current, hcurrent, hchange⟩ := getElem?_attemptMutation ht hv
    obtain hnext | hnext := hnext
    · -- the vector is emptied
      have hcandidate := candidate_of_place ht 0 .vecEmpty
        (by rw [operatorsFor_vec hshape]; rfl)
      rw [Nat.add_zero, ← Nat.succ_inj.mp hnext, hplace] at hcandidate
      cases hcandidate
      obtain ⟨w, applyTo, rng, happly, heq⟩ := attemptMutation_eq_set sha256 caps
        seed caseId (i, .vecEmpty) ht hcurrent
        (by rw [operatorsFor_vec hshape]; exact List.mem_cons_self) fun _ _ => ⟨.vec none, rfl⟩
      rw [heq, List.getElem?_set_self (List.getElem?_eq_some_iff.mp hcurrent).1] at hv
      cases hv
      cases happly
      exact Nat.zero_le _
    · -- its last item is removed, if it has one
      have hcandidate := candidate_of_place ht 1 .vecRemoveOne
        (by rw [operatorsFor_vec hshape]; rfl)
      rw [← Nat.succ_inj.mp hnext, hplace] at hcandidate
      cases hcandidate
      have hfresh := hphase.fresh i t current ht hcurrent hshape (.inl (Nat.succ_inj.mp hnext))
      obtain rfl | ⟨-, hoperator, applyTo, rng, happly⟩ := hchange
      · exact hfresh
      · have hstep : vecLength v + 1 = vecLength current := vecSteps hshape hoperator happly
        omega

theorem phase_of_generated (hgenerated : ∀ (i : ℕ) (t : ContractType) (v : ScVal),
    types[i]? = some t → args[i]? = some v → ∃ key depth,
      generateValue sha256 caps t key depth = .ok v) (place : ℕ) : Phase caps types place args where
  within i t v ht hv := by
    obtain ⟨key, depth, hgenerate⟩ := hgenerated i t v ht hv
    exact withinCaps_generated hgenerate
  fresh i t v ht hv hshape _ := by
    obtain ⟨key, depth, hgenerate⟩ := hgenerated i t v ht hv
    exact vecLength_generated hshape hgenerate

end

/-- The attempts of the mutations of the given numbers. -/
def plannedAttempts (sha256 : List UInt8 → Bytes32) (types : List ContractType) (seed : Bytes32)
    (caseId : String) (ms : List ℕ) : List (ℕ × Operator) :=
  ms.filterMap (planMutation sha256 types seed caseId)

section

variable {sha256 : List UInt8 → Bytes32} {caps : GenerationCaps} {types : List ContractType}
  {seed : Bytes32} {caseId : String} {args : List ScVal}

/-- The walk starts somewhere and goes in a circle. -/
theorem exists_planMutation_eq (sha256 : List UInt8 → Bytes32) (types : List ContractType)
    (seed : Bytes32) (caseId : String) : ∃ start, ∀ m, planMutation sha256 types seed caseId m =
      (candidatesFrom types 0)[(start + m) % (candidatesFrom types 0).length]? :=
  ⟨_, fun _ => rfl⟩

/-- There is a plan for each mutation or for none. -/
theorem planMutation_eq_none {m : ℕ} (h : planMutation sha256 types seed caseId m = none) (m' : ℕ) :
    planMutation sha256 types seed caseId m' = none := by
  obtain ⟨start, hplan⟩ := exists_planMutation_eq sha256 types seed caseId
  rw [hplan, List.getElem?_eq_none_iff] at h ⊢
  rcases Nat.eq_zero_or_pos (candidatesFrom types 0).length with hzero | hpos
  · rw [hzero]
    exact Nat.zero_le _
  · exact absurd (Nat.mod_lt _ hpos) (Nat.not_lt_of_le h)

/-- **What a campaign does to the arguments of a case is a run of attempts.** -/
theorem mutateArgs_eq_run {crates : Crates} {input : CampaignInput} {ms : List ℕ}
    {record : Option Mutation} {out : List ScVal × Option Mutation}
    (h : mutateArgs crates input types caseId ms (args, record) = .ok out) :
    out.1 = Runs.run (attemptMutation crates.sha256 input.generation types input.seed caseId) args
      (plannedAttempts crates.sha256 types input.seed caseId ms) := by
  induction ms generalizing args record with
  | nil =>
    cases h
    rfl
  | cons m ms ih =>
    rw [mutateArgs] at h
    split at h
    · next hplan =>
      cases h
      have hnone : plannedAttempts crates.sha256 types input.seed caseId (m :: ms) = [] :=
        List.filterMap_eq_nil_iff.mpr fun m' _ => planMutation_eq_none hplan m'
      rw [hnone]
      rfl
    · next i operator hplan =>
      have hcons : plannedAttempts crates.sha256 types input.seed caseId (m :: ms) =
          (i, operator) :: plannedAttempts crates.sha256 types input.seed caseId ms :=
        List.filterMap_cons_some hplan
      have hrun : ∀ args', attemptMutation crates.sha256 input.generation types input.seed caseId
          args (i, operator) = args' → Runs.run
            (attemptMutation crates.sha256 input.generation types input.seed caseId) args
              (plannedAttempts crates.sha256 types input.seed caseId (m :: ms)) =
          Runs.run (attemptMutation crates.sha256 input.generation types input.seed caseId) args'
            (plannedAttempts crates.sha256 types input.seed caseId ms) := by
        rintro args' rfl
        rw [hcons]
        rfl
      split at h
      · next hlength =>
        rw [ih h, hrun args (attemptMutation_of_length_le hlength)]
      · split at h
        · next htypes => rw [ih h, hrun args (by rw [attemptMutation, htypes])]
        · next t ht =>
          split at h
          · next mutation hmutation =>
            rw [ih h, hrun mutation.args (by rw [attemptMutation, ht]; simp only [hmutation])]
          · next herror => rw [ih h, hrun args (by rw [attemptMutation, ht]; simp only [herror])]
          · next herror => rw [ih h, hrun args (by rw [attemptMutation, ht]; simp only [herror])]
          · cases h

/-- Every state of the walk is in its phase. -/
theorem phase_walk (start n : ℕ) (hgenerated : ∀ (i : ℕ) (t : ContractType) (v : ScVal),
      types[i]? = some t → args[i]? = some v → ∃ key depth,
        generateValue sha256 caps t key depth = .ok v)
    (hplan : ∀ m, planMutation sha256 types seed caseId m =
      (candidatesFrom types 0)[(start + m) % (candidatesFrom types 0).length]?) :
    Phase caps types ((start + n) % (candidatesFrom types 0).length)
      (Runs.run (attemptMutation sha256 caps types seed caseId) args
        (plannedAttempts sha256 types seed caseId (List.range n))) := by
  induction n with
  | zero => exact phase_of_generated hgenerated _
  | succ n ih =>
    rw [List.range_succ, plannedAttempts, List.filterMap_append, ← plannedAttempts]
    cases hm : planMutation sha256 types seed caseId n with
    | none =>
      have hnil : plannedAttempts sha256 types seed caseId (List.range n) = [] :=
        List.filterMap_eq_nil_iff.mpr fun m _ => planMutation_eq_none hm m
      rw [hnil, List.filterMap_cons_none hm]
      exact phase_of_generated hgenerated _
    | some attempt =>
      rw [List.filterMap_cons_some hm, List.filterMap_nil, Runs.run_append_singleton]
      rw [hplan] at hm
      have hstep := ih.step sha256 seed caseId hm
      rw [Nat.mod_add_mod] at hstep
      exact hstep

/-- **Which mutations keep vectors and maps within the caps.** In a run of attempts, from generated
arguments, the sizes stay within the caps throughout exactly if no item of a full vector is
duplicated. In the walk of a campaign this never happens. -/
theorem mutations_within_caps_iff (hgenerated : ∀ (i : ℕ) (t : ContractType) (v : ScVal),
    types[i]? = some t → args[i]? = some v → ∃ key depth,
      generateValue sha256 caps t key depth = .ok v) :
    (∀ attempts : List (ℕ × Operator),
      (∀ before, before <+: attempts → ArgsWithinCaps caps types
        (Runs.run (attemptMutation sha256 caps types seed caseId) args before)) ↔
      ∀ before attempt, before ++ [attempt] <+: attempts → ¬ DuplicatesFull caps types
        (Runs.run (attemptMutation sha256 caps types seed caseId) args before) attempt) ∧
    ∀ (crates : Crates) (input : CampaignInput) (ms : ℕ) (out : List ScVal × Option Mutation),
      crates.sha256 = sha256 → input.generation = caps → input.seed = seed →
      mutateArgs crates input types caseId (List.range ms) (args, none) = .ok out →
        ArgsWithinCaps caps types out.1 := by
  constructor
  · refine Runs.forall_prefix_iff ?_ (fun _ h => h)
      (fun _ _ h hfull => argsWithinCaps_attempt h hfull)
      fun _ _ _ hfull => not_argsWithinCaps_of_duplicatesFull (not_not.mp hfull)
    exact (phase_of_generated hgenerated 0).within
  · rintro crates input ms out rfl rfl rfl hout
    obtain ⟨start, hplan⟩ := exists_planMutation_eq crates.sha256 types input.seed caseId
    rw [mutateArgs_eq_run hout]
    exact (phase_walk start ms hgenerated hplan).within

end

section Flags

/-- A flag that is appended to the generated ones, and one that is duplicated then, keep them within
the cap. -/
theorem mutations_within_caps_iff_append :
    ArgsWithinCaps .default [flagsType] (Runs.run (attemptMutation Sha256.digest .default
      [flagsType] (Vector.replicate 32 0) "case0001") [flagsOf [true, true, false, false]]
        [(0, Operator.vecAppend), (0, Operator.vecDuplicate)]) := by
  have hgenerated : ∀ (i : ℕ) (t : ContractType) (v : ScVal), [flagsType][i]? = some t →
      [flagsOf [true, true, false, false]][i]? = some v → ∃ key depth,
        generateValue Sha256.digest .default t key depth = .ok v := by
    intro i t v ht hv
    cases i with
    | zero =>
      cases ht
      cases hv
      exact ⟨_, 0, generateValue_flags⟩
    | succ i => cases ht
  refine ((mutations_within_caps_iff hgenerated).1
    [(0, .vecAppend), (0, .vecDuplicate)]).mpr ?_ _ (List.prefix_refl _)
  have happended : Runs.run (attemptMutation Sha256.digest .default [flagsType]
      (Vector.replicate 32 0) "case0001") [flagsOf [true, true, false, false]]
        [(0, Operator.vecAppend)] = [flagsOf [true, true, false, false, false]] := by
    decide +kernel
  rintro before attempt ⟨after, hafter⟩ ⟨hduplicate, t, v, -, hv, -, hfull, -⟩
  rcases before with _ | ⟨first, _ | ⟨second, before⟩⟩
  · obtain ⟨rfl, -⟩ := List.cons.inj hafter
    cases hduplicate
  · obtain ⟨rfl, -⟩ := List.cons.inj hafter
    obtain ⟨rfl, -⟩ := List.cons.inj (List.cons.inj hafter).2
    -- there are five flags then
    rw [happended] at hv
    cases hv
    exact absurd hfull (by decide)
  · simp at hafter

/-- Four generated flags, with the last of them duplicated five times, are nine; eight are
allowed. -/
theorem nine_flags_exceed_caps :
    (generateCall Sha256.digest flagsSpec "set_flags"
      (Vector.replicate 32 0) "case0001" .default).map
        (·.args) = .ok [flagsOf [true, true, false, false]] ∧
      Runs.run (attemptMutation Sha256.digest .default [flagsType]
        (Vector.replicate 32 0) "case0001")
          [flagsOf [true, true, false, false]] (List.replicate 5 (0, .vecDuplicate)) =
        [flagsOf [false, false, false, false, false, true, true, false, false]] ∧
      ¬ ArgsWithinCaps .default [flagsType]
        [flagsOf [false, false, false, false, false, true, true, false, false]] := by
  refine ⟨generateCall_flags, by decide +kernel, fun h => ?_⟩
  have hlength := (h 0 flagsType _ rfl rfl).vec (by decide)
  exact absurd hlength (by decide)

end Flags

end SorobanDevkit.Fuzz
