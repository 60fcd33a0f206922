import Mathlib.Data.List.Dedup
import Mathlib.Data.List.Perm.Subperm
import SorobanDevkit.Fuzz.Chaining
import SorobanDevkit.Library.FirstIndex

/-!
# State comparison

The state that a local execution observed is compared with the changes that a simulation reports,
key by key (`sdkt-fuzz/src/state_compare.rs`). Keys that belong to the executor are not compared,
and a key that one side does not report says nothing.

Reading a ledger key belongs to the XDR library and is a parameter here.

## Main results

* `compareState_cases` — the outcome is decided by the shared keys.
* `compareState_exact` — the outcome in terms of the two lists of rows.
* `comparable_eq_iff` — when the counted keys are the compared ones.
-/

namespace SorobanDevkit.Fuzz

open FirstIndex (index)
open Xdr

/-! ### Sides and verdicts -/

/-- `Side`: what one side has for a key. -/
inductive Side
  | present (value : List UInt8)
  | removed
  | absent
  deriving DecidableEq

/-- `CannotVerifyReason`. -/
inductive CannotVerifyReason
  | keyOnOneSideOnly (onLocal onRpc : Bool)
  | executorOwnedKey
  | noComparableValue
  deriving DecidableEq

/-- `KeyVerdict`. -/
inductive KeyVerdict
  | matched
  | matchRemoved
  | mismatch (onLocal onRpc : Side)
  | cannotVerify (reason : CannotVerifyReason)
  deriving DecidableEq

/-- The verdict is a mismatch. -/
def KeyVerdict.isMismatch : KeyVerdict → Bool
  | .mismatch .. => true
  | _ => false

/-- The verdict says that nothing was compared. -/
def KeyVerdict.isCannotVerify : KeyVerdict → Bool
  | .cannotVerify _ => true
  | _ => false

/-- `Outcome`. -/
inductive Outcome
  | matched
  | mismatch (verdicts : List KeyVerdict)
  | cannotVerify (verdicts : List KeyVerdict)
  deriving DecidableEq

/-- `RpcStateChange`: a row that the simulation reports. -/
structure RpcStateChange where
  keyXdr : List UInt8
  kind : StateChangeKind
  after : Option (List UInt8)
  deriving DecidableEq

/-- `RpcStateChange::side`. -/
def RpcStateChange.side (row : RpcStateChange) : Side := row.after.elim .removed .present

/-- `local_side`. -/
def localSide (e : StateEntry) : Side := e.valueXdr.elim .removed .present

section

variable (readKey : List UInt8 → Option LedgerKey)

/-- `is_executor_owned`. -/
def isExecutorOwned (keyXdr : List UInt8) : Bool := (readKey keyXdr).any isExecutorOwnedKey

/-- `local_sides_filtered`. -/
def localSidesFiltered (obs : Execution) : Std.ExtTreeMap (List UInt8) Side :=
  index StateEntry.keyXdr localSide (obs.state.filter fun e => !isExecutorOwned readKey e.keyXdr)

/-- The reported rows by their keys. -/
def rpcRows (rows : List RpcStateChange) : Std.ExtTreeMap (List UInt8) RpcStateChange :=
  index RpcStateChange.keyXdr id rows

/-- The verdict for a key that both sides have. -/
def compareSides : Side → Side → KeyVerdict
  | .present a, .present b => if a = b then .matched else .mismatch (.present a) (.present b)
  | .removed, .removed => .matchRemoved
  | l, r => .mismatch l r

/-- The verdict for a key of the observation. -/
def localVerdict (rpc : Std.ExtTreeMap (List UInt8) RpcStateChange) (key : List UInt8) (l : Side) :
    KeyVerdict :=
  match rpc[key]? with
  | none => .cannotVerify (.keyOnOneSideOnly true false)
  | some r => compareSides l r.side

/-- The verdict for a reported key, unless the observation has it. -/
def rpcVerdict (sides : Std.ExtTreeMap (List UInt8) Side) (key : List UInt8)
    (row : RpcStateChange) :
    Option KeyVerdict :=
  if sides.contains key then none
  else some (.cannotVerify (
    if isExecutorOwned readKey key || isExecutorOwned readKey row.keyXdr then .executorOwnedKey
    else .keyOnOneSideOnly false true))

/-- `compare_state`. -/
def compareState (obs : Execution) (rows : List RpcStateChange) : Outcome :=
  let sides := localSidesFiltered readKey obs
  let rpc := rpcRows rows
  let localVerdicts := sides.toList.map fun (key, l) => localVerdict rpc key l
  let mismatches := localVerdicts.filter KeyVerdict.isMismatch
  let verdicts := localVerdicts ++ rpc.toList.filterMap fun (key, row) =>
    rpcVerdict readKey sides key row
  if mismatches ≠ [] then .mismatch mismatches
  else if verdicts.all KeyVerdict.isCannotVerify then .cannotVerify verdicts
  else .matched

/-- `compare_state_counting`. -/
def compareStateCounting (obs : Execution) (rows : List RpcStateChange) : Outcome × ℕ :=
  let outcome := compareState readKey obs rows
  let comparable := match outcome with
    | .matched =>
      let sides := localSidesFiltered readKey obs
      (rows.filter fun row => sides.contains row.keyXdr).length
    | .mismatch verdicts => verdicts.length
    | .cannotVerify _ => 0
  if comparable = 0 ∧ outcome = .matched then (.cannotVerify [], 0) else (outcome, comparable)

/-! ### The keys of both sides -/

/-- A key that both sides report and that does not belong to the executor. -/
def Shared (obs : Execution) (rows : List RpcStateChange) (key : List UInt8) : Prop :=
  isExecutorOwned readKey key = false ∧ key ∈ obs.state.map StateEntry.keyXdr ∧
    key ∈ rows.map RpcStateChange.keyXdr

instance (obs : Execution) (rows : List RpcStateChange) : DecidablePred (Shared readKey obs rows) :=
  fun _ => inferInstanceAs (Decidable (_ ∧ _ ∧ _))

/-- The rows `e` and `r` are the first ones with the key, and have different values, or one of them
none. -/
def DisagreesBy (obs : Execution) (rows : List RpcStateChange) (key : List UInt8) (e : StateEntry)
    (r : RpcStateChange) : Prop :=
  obs.state.find? (fun e => e.keyXdr = key) = some e ∧
    rows.find? (fun r => r.keyXdr = key) = some r ∧
    e.valueXdr ≠ r.after

/-- A key that does not belong to the executor and for which the sides have different values. -/
def Disagrees (obs : Execution) (rows : List RpcStateChange) (key : List UInt8) : Prop :=
  isExecutorOwned readKey key = false ∧ ∃ e r, DisagreesBy obs rows key e r

end

/-! ### The verdicts -/

section

variable {readKey : List UInt8 → Option LedgerKey} {obs : Execution} {rows : List RpcStateChange}
  {key : List UInt8} {l : Side} {r : RpcStateChange}

/-- The observation has a side for each key of it that does not belong to the executor. -/
theorem mem_localSides : (key, l) ∈ (localSidesFiltered readKey obs).toList ↔
    isExecutorOwned readKey key = false ∧
      ∃ e, obs.state.find? (fun e => e.keyXdr = key) = some e ∧ localSide e = l := by
  rw [localSidesFiltered, FirstIndex.mem_toList_index, Option.map_eq_some_iff]
  cases howned : isExecutorOwned readKey key with
  | false =>
    rw [FirstIndex.find?_filter (p := fun key => !isExecutorOwned readKey key) (by simp [howned])]
    exact (and_iff_right rfl).symm
  | true =>
    refine iff_of_false ?_ nofun
    rintro ⟨e, hfound, -⟩
    have hmem := List.mem_filter.mp (List.mem_of_find?_eq_some hfound)
    have hkey : e.keyXdr = key := by simpa using List.find?_some hfound
    simp [hkey, howned] at hmem

theorem contains_localSides : (localSidesFiltered readKey obs).contains key = true ↔
    isExecutorOwned readKey key = false ∧ key ∈ obs.state.map StateEntry.keyXdr := by
  rw [Std.ExtTreeMap.contains_eq_isSome_getElem?, Option.isSome_iff_exists,
    ← FirstIndex.exists_find?_iff]
  simp only [← Std.ExtTreeMap.mem_toList_iff_getElem?_eq_some, mem_localSides]
  exact ⟨fun ⟨_, howned, e, he, _⟩ => ⟨howned, e, he⟩, fun ⟨howned, e, he⟩ =>
    ⟨_, howned, e, he, rfl⟩⟩

theorem getElem?_rpcRows : (rpcRows rows)[key]? = rows.find? fun r => r.keyXdr = key := by
  rw [rpcRows, FirstIndex.getElem?_index]
  exact congrFun Option.map_id _

/-- Two sides that have something are compared by what they have. -/
theorem compareSides_eq (e : StateEntry) (r : RpcStateChange) :
    compareSides (localSide e) r.side =
      if e.valueXdr = r.after then (if e.valueXdr.isSome then .matched else .matchRemoved)
      else .mismatch (localSide e) r.side := by
  obtain ⟨_, value, _⟩ := e
  obtain ⟨_, _, after⟩ := r
  cases value <;> cases after <;> simp [localSide, RpcStateChange.side, compareSides]

/-- The verdict for a key is a mismatch exactly if the sides disagree. -/
theorem isMismatch_localVerdict (e : StateEntry) :
    (localVerdict (rpcRows rows) key (localSide e)).isMismatch = true ↔
      ∃ r, rows.find? (fun r => r.keyXdr = key) = some r ∧ e.valueXdr ≠ r.after := by
  rw [localVerdict, getElem?_rpcRows]
  cases hr : rows.find? fun r => r.keyXdr = key with
  | none => exact iff_of_false nofun nofun
  | some r =>
    dsimp only
    rw [compareSides_eq]
    by_cases hvalue : e.valueXdr = r.after
    · rw [if_pos hvalue]
      split_ifs
      · exact iff_of_false nofun fun ⟨_, hr', hne⟩ =>
          hne (hvalue.trans (congrArg _ (Option.some_inj.mp hr')))
      · exact iff_of_false nofun fun ⟨_, hr', hne⟩ =>
          hne (hvalue.trans (congrArg _ (Option.some_inj.mp hr')))
    · rw [if_neg hvalue]
      exact iff_of_true rfl ⟨r, rfl, hvalue⟩

/-- The verdict for a key says that nothing was compared exactly if it is not reported. -/
theorem isCannotVerify_localVerdict (e : StateEntry) :
    (localVerdict (rpcRows rows) key (localSide e)).isCannotVerify = true ↔
      key ∉ rows.map RpcStateChange.keyXdr := by
  rw [localVerdict, getElem?_rpcRows, ← FirstIndex.exists_find?_iff]
  cases hr : rows.find? fun r => r.keyXdr = key with
  | none => exact iff_of_true rfl nofun
  | some r =>
    dsimp only
    rw [compareSides_eq]
    refine iff_of_false ?_ (not_not.mpr ⟨r, rfl⟩)
    split_ifs <;> nofun

/-- The mismatch of a key: what its first rows have. -/
def mismatchOf (obs : Execution) (rows : List RpcStateChange) (key : List UInt8) : KeyVerdict :=
  .mismatch ((obs.state.find? fun e => e.keyXdr = key).elim .absent localSide)
    ((rows.find? fun r => r.keyXdr = key).elim .absent RpcStateChange.side)

variable (readKey obs rows)

/-- The verdicts for the keys of the observation. -/
def localVerdicts : List KeyVerdict :=
  (localSidesFiltered readKey obs).toList.map fun (key, l) => localVerdict (rpcRows rows) key l

/-- The keys that disagree, in their order. -/
def disagreeingKeys : List (List UInt8) :=
  ((localSidesFiltered readKey obs).toList.filter fun (key, l) =>
    (localVerdict (rpcRows rows) key l).isMismatch).map Prod.fst

theorem nodup_disagreeingKeys : (disagreeingKeys readKey obs rows).Nodup :=
  (List.filter_sublist.map Prod.fst).nodup (FirstIndex.nodup_keys _)

theorem mem_disagreeingKeys : key ∈ disagreeingKeys readKey obs rows ↔
    Disagrees readKey obs rows key := by
  rw [disagreeingKeys, List.mem_map]
  constructor
  · rintro ⟨⟨key, l⟩, hmem, rfl⟩
    obtain ⟨hentry, hmismatch⟩ := List.mem_filter.mp hmem
    obtain ⟨howned, e, he, rfl⟩ := mem_localSides.mp hentry
    obtain ⟨r, hr, hne⟩ := (isMismatch_localVerdict e).mp hmismatch
    exact ⟨howned, e, r, he, hr, hne⟩
  · rintro ⟨howned, e, r, he, hr, hne⟩
    exact ⟨(key, localSide e), List.mem_filter.mpr ⟨mem_localSides.mpr ⟨howned, e, he, rfl⟩,
      (isMismatch_localVerdict e).mpr ⟨r, hr, hne⟩⟩, rfl⟩

/-- The mismatches are those of the keys that disagree. -/
theorem filter_localVerdicts : (localVerdicts readKey obs rows).filter KeyVerdict.isMismatch =
    (disagreeingKeys readKey obs rows).map (mismatchOf obs rows) := by
  rw [localVerdicts, List.filter_map, disagreeingKeys, List.map_map]
  refine List.map_congr_left fun ⟨key, l⟩ hmem => ?_
  obtain ⟨hentry, hmismatch⟩ := List.mem_filter.mp hmem
  obtain ⟨-, e, he, rfl⟩ := mem_localSides.mp hentry
  obtain ⟨r, hr, hne⟩ := (isMismatch_localVerdict e).mp hmismatch
  change localVerdict (rpcRows rows) key (localSide e) = mismatchOf obs rows key
  rw [localVerdict, getElem?_rpcRows, mismatchOf, hr, he]
  exact (compareSides_eq e r).trans (if_neg hne)

/-- Nothing was compared exactly if no key is shared. -/
theorem all_isCannotVerify_iff :
    (localVerdicts readKey obs rows ++ (rpcRows rows).toList.filterMap fun (key, row) =>
      rpcVerdict readKey (localSidesFiltered readKey obs) key row).all
        KeyVerdict.isCannotVerify = true ↔
        ¬ ∃ key, Shared readKey obs rows key := by
  have hrpc : ((rpcRows rows).toList.filterMap fun (key, row) =>
      rpcVerdict readKey (localSidesFiltered readKey obs) key row).all
        KeyVerdict.isCannotVerify = true := by
    refine List.all_eq_true.mpr fun v hv => ?_
    obtain ⟨⟨key, row⟩, -, hv⟩ := List.mem_filterMap.mp hv
    dsimp only at hv
    rw [rpcVerdict] at hv
    split_ifs at hv
    all_goals
      cases hv
      rfl
  rw [List.all_append, hrpc, Bool.and_true, List.all_eq_true]
  constructor
  · rintro hall ⟨key, howned, hlocal, hreported⟩
    obtain ⟨e, he⟩ := FirstIndex.exists_find?_iff.mpr hlocal
    have hmem : localVerdict (rpcRows rows) key (localSide e) ∈ localVerdicts readKey obs rows :=
      List.mem_map.mpr ⟨(key, localSide e), mem_localSides.mpr ⟨howned, e, he, rfl⟩, rfl⟩
    exact (isCannotVerify_localVerdict e).mp (hall _ hmem) hreported
  · intro hnone v hv
    obtain ⟨⟨key, l⟩, hentry, rfl⟩ := List.mem_map.mp hv
    obtain ⟨howned, e, he, rfl⟩ := mem_localSides.mp hentry
    exact (isCannotVerify_localVerdict e).mpr fun hreported =>
      hnone ⟨key, howned, FirstIndex.exists_find?_iff.mp ⟨e, he⟩, hreported⟩

/-- A key that disagrees is shared. -/
theorem Disagrees.shared (h : Disagrees readKey obs rows key) : Shared readKey obs rows key := by
  obtain ⟨howned, e, r, he, hr, -⟩ := h
  exact ⟨howned, FirstIndex.exists_find?_iff.mp ⟨e, he⟩, FirstIndex.exists_find?_iff.mp ⟨r, hr⟩⟩

/-- **The outcome is decided by the shared keys.** -/
theorem compareState_cases :
    ((∃ key, Disagrees readKey obs rows key) ∧ compareState readKey obs rows =
        .mismatch ((disagreeingKeys readKey obs rows).map (mismatchOf obs rows))) ∨
      ((¬ ∃ key, Shared readKey obs rows key) ∧ ∃ verdicts,
        compareState readKey obs rows = .cannotVerify verdicts) ∨
      ((∃ key, Shared readKey obs rows key) ∧ (¬ ∃ key, Disagrees readKey obs rows key) ∧
        compareState readKey obs rows = .matched) := by
  have hmismatches : (localVerdicts readKey obs rows).filter KeyVerdict.isMismatch ≠ [] ↔
      ∃ key, Disagrees readKey obs rows key := by
    rw [filter_localVerdicts, Ne, List.map_eq_nil_iff]
    constructor
    · intro hne
      obtain ⟨key, hkey⟩ := List.exists_mem_of_ne_nil _ hne
      exact ⟨key, (mem_disagreeingKeys readKey obs rows).mp hkey⟩
    · rintro ⟨key, hkey⟩
      exact List.ne_nil_of_mem ((mem_disagreeingKeys readKey obs rows).mpr hkey)
  have hcompare : compareState readKey obs rows =
      if (localVerdicts readKey obs rows).filter KeyVerdict.isMismatch ≠ [] then
        .mismatch ((localVerdicts readKey obs rows).filter KeyVerdict.isMismatch)
      else if (localVerdicts readKey obs rows ++ (rpcRows rows).toList.filterMap fun (key, row) =>
          rpcVerdict readKey (localSidesFiltered readKey obs) key row).all
            KeyVerdict.isCannotVerify then
        .cannotVerify
          (localVerdicts readKey obs rows ++ (rpcRows rows).toList.filterMap fun (key, row) =>
          rpcVerdict readKey (localSidesFiltered readKey obs) key row)
      else .matched := rfl
  rw [hcompare]
  by_cases hdisagrees : ∃ key, Disagrees readKey obs rows key
  · exact .inl ⟨hdisagrees, by rw [if_pos (hmismatches.mpr hdisagrees), filter_localVerdicts]⟩
  · rw [if_neg (hmismatches.not.mpr hdisagrees)]
    by_cases hshared : ∃ key, Shared readKey obs rows key
    · rw [if_neg fun hall => (all_isCannotVerify_iff readKey obs rows).mp hall hshared]
      exact .inr (.inr ⟨hshared, hdisagrees, rfl⟩)
    · rw [if_pos ((all_isCannotVerify_iff readKey obs rows).mpr hshared)]
      exact .inr (.inl ⟨hshared, _, rfl⟩)

end

/-! ### Exactness -/

/-- The kind of an outcome, without its verdicts. -/
inductive OutcomeKind
  | matched
  | mismatch
  | cannotVerify
  deriving DecidableEq

/-- The kind of an outcome. -/
def Outcome.kind : Outcome → OutcomeKind
  | .matched => .matched
  | .mismatch _ => .mismatch
  | .cannotVerify _ => .cannotVerify

section

variable {readKey : List UInt8 → Option LedgerKey} {obs obs' : Execution}
  {rows rows' : List RpcStateChange}
  {key : List UInt8}

variable (readKey obs rows) in
/-- What the kind of the outcome says about the keys. -/
theorem kind_compareState :
    ((compareState readKey obs rows).kind = .mismatch ↔ ∃ key, Disagrees readKey obs rows key) ∧
      ((compareState readKey obs rows).kind = .cannotVerify ↔
        ¬ ∃ key, Shared readKey obs rows key) := by
  obtain ⟨hd, h⟩ | ⟨hs, _, h⟩ | ⟨hs, hd, h⟩ := compareState_cases readKey obs rows
  · obtain ⟨key, hkey⟩ := hd
    have hs : ∃ key, Shared readKey obs rows key := ⟨key, Disagrees.shared readKey obs rows hkey⟩
    simp [h, Outcome.kind, Exists.intro key hkey, hs]
  · have hd : ¬ ∃ key, Disagrees readKey obs rows key := by
      rintro ⟨key, hkey⟩
      exact hs ⟨key, Disagrees.shared readKey obs rows hkey⟩
    simp [h, Outcome.kind, hs, hd]
  · simp [h, Outcome.kind, hs, hd]

theorem OutcomeKind.eq_iff {k k' : OutcomeKind} : k = k' ↔
    (k = .mismatch ↔ k' = .mismatch) ∧ (k = .cannotVerify ↔ k' = .cannotVerify) := by
  cases k <;> cases k' <;> decide

/-- The kind of the outcome depends on which keys are shared and which disagree. -/
theorem kind_compareState_congr
    (hshared : ∀ key, Shared readKey obs rows key ↔ Shared readKey obs' rows' key)
    (hdisagrees : ∀ key, Disagrees readKey obs rows key ↔ Disagrees readKey obs' rows' key) :
    (compareState readKey obs rows).kind = (compareState readKey obs' rows').kind := by
  obtain ⟨hmismatch, hcannot⟩ := kind_compareState readKey obs rows
  obtain ⟨hmismatch', hcannot'⟩ := kind_compareState readKey obs' rows'
  rw [OutcomeKind.eq_iff, hmismatch, hmismatch', hcannot, hcannot', exists_congr hshared,
    exists_congr hdisagrees]
  exact ⟨Iff.rfl, Iff.rfl⟩

/-- Which keys are shared and which disagree is a matter of the first rows of keys that do not
belong to the executor. -/
theorem kind_compareState_of_find?
    (hobs : ∀ key, isExecutorOwned readKey key = false →
      (obs.state.find? fun e => e.keyXdr = key) = obs'.state.find? fun e => e.keyXdr = key)
    (hrows : ∀ key, isExecutorOwned readKey key = false →
      (rows.find? fun r => r.keyXdr = key) = rows'.find? fun r => r.keyXdr = key) :
    (compareState readKey obs rows).kind = (compareState readKey obs' rows').kind := by
  refine kind_compareState_congr (fun key => ?_) (fun key => ?_)
  · refine and_congr_right fun howned => ?_
    rw [← FirstIndex.exists_find?_iff, ← FirstIndex.exists_find?_iff, ← FirstIndex.exists_find?_iff,
      ← FirstIndex.exists_find?_iff, hobs key howned, hrows key howned]
  · refine and_congr_right fun howned => ?_
    simp only [DisagreesBy, hobs key howned, hrows key howned]

end

/-- **State comparison is exact**: a mismatch is reported exactly if a shared key disagrees, with
each such key once, and nothing is verified exactly if no key is shared. The kind of the outcome
depends neither on rows of the executor nor, where keys are unique, on the order of the rows. -/
theorem compareState_exact (readKey : List UInt8 → Option LedgerKey) (obs : Execution)
    (rows : List RpcStateChange) :
    ((∃ verdicts, compareState readKey obs rows = .mismatch verdicts) ↔
        ∃ key, Disagrees readKey obs rows key) ∧
      (∀ verdicts, compareState readKey obs rows = .mismatch verdicts → ∃ keys : List (List UInt8),
        keys.Nodup ∧ (∀ key, key ∈ keys ↔ Disagrees readKey obs rows key) ∧
          verdicts = keys.map (mismatchOf obs rows)) ∧
      ((∃ verdicts, compareState readKey obs rows = .cannotVerify verdicts) ↔
        ¬ ∃ key, Shared readKey obs rows key) ∧
      (compareState readKey obs rows = .matched ↔
        (∃ key, Shared readKey obs rows key) ∧ ¬ ∃ key, Disagrees readKey obs rows key) ∧
      (∀ (obs' : Execution) (rows' : List RpcStateChange),
        obs.state.filter (fun e => !isExecutorOwned readKey e.keyXdr) =
          obs'.state.filter (fun e => !isExecutorOwned readKey e.keyXdr) →
        rows.filter (fun r => !isExecutorOwned readKey r.keyXdr) =
          rows'.filter (fun r => !isExecutorOwned readKey r.keyXdr) →
        (compareState readKey obs rows).kind = (compareState readKey obs' rows').kind) ∧
      ∀ (obs' : Execution) (rows' : List RpcStateChange),
        (obs.state.map StateEntry.keyXdr).Nodup → (rows.map RpcStateChange.keyXdr).Nodup →
        obs.state.Perm obs'.state → rows.Perm rows' →
        (compareState readKey obs rows).kind = (compareState readKey obs' rows').kind := by
  have hsub : (∃ key, Disagrees readKey obs rows key) → ∃ key, Shared readKey obs rows key :=
    fun ⟨key, h⟩ => ⟨key, Disagrees.shared readKey obs rows h⟩
  refine ⟨?_, ?_, ?_, ?_, ?_, ?_⟩
  · obtain ⟨hd, h⟩ | ⟨hs, _, h⟩ | ⟨-, hd, h⟩ := compareState_cases readKey obs rows
    · exact iff_of_true ⟨_, h⟩ hd
    · exact iff_of_false (by simp [h]) fun hd => hs (hsub hd)
    · exact iff_of_false (by simp [h]) hd
  · intro verdicts hverdicts
    refine ⟨disagreeingKeys readKey obs rows, nodup_disagreeingKeys readKey obs rows,
      fun key => mem_disagreeingKeys readKey obs rows, ?_⟩
    obtain ⟨-, h⟩ | ⟨-, _, h⟩ | ⟨-, -, h⟩ := compareState_cases readKey obs rows
    · exact Outcome.mismatch.inj (hverdicts.symm.trans h)
    · cases hverdicts.symm.trans h
    · cases hverdicts.symm.trans h
  · obtain ⟨hd, h⟩ | ⟨hs, verdicts, h⟩ | ⟨hs, -, h⟩ := compareState_cases readKey obs rows
    · exact iff_of_false (by simp [h]) (not_not.mpr (hsub hd))
    · exact iff_of_true ⟨verdicts, h⟩ hs
    · exact iff_of_false (by simp [h]) (not_not.mpr hs)
  · obtain ⟨hd, h⟩ | ⟨hs, _, h⟩ | ⟨hs, hd, h⟩ := compareState_cases readKey obs rows
    · exact iff_of_false (by simp [h]) fun hboth => hboth.2 hd
    · exact iff_of_false (by simp [h]) fun hboth => hs hboth.1
    · exact iff_of_true h ⟨hs, hd⟩
  · intro obs' rows' hobs hrows
    refine kind_compareState_of_find? (fun key howned => ?_) (fun key howned => ?_)
    · have hkey : (!isExecutorOwned readKey key) = true := by rw [howned, Bool.not_false]
      rw [← FirstIndex.find?_filter (p := fun key => !isExecutorOwned readKey key) hkey, hobs,
        FirstIndex.find?_filter (p := fun key => !isExecutorOwned readKey key) hkey]
    · have hkey : (!isExecutorOwned readKey key) = true := by rw [howned, Bool.not_false]
      rw [← FirstIndex.find?_filter (p := fun key => !isExecutorOwned readKey key) hkey, hrows,
        FirstIndex.find?_filter (p := fun key => !isExecutorOwned readKey key) hkey]
  · intro obs' rows' hobs hrows hpermObs hpermRows
    exact kind_compareState_of_find? (fun _ _ => FirstIndex.find?_perm hobs hpermObs)
      fun _ _ => FirstIndex.find?_perm hrows hpermRows

/-! ### The number of compared keys -/

section

variable (readKey : List UInt8 → Option LedgerKey) (obs : Execution) (rows : List RpcStateChange)

/-- The compared keys, each once. -/
def comparedKeys : List (List UInt8) :=
  ((obs.state.map StateEntry.keyXdr).filter fun key => Shared readKey obs rows key).dedup

theorem mem_comparedKeys {key : List UInt8} :
    key ∈ comparedKeys readKey obs rows ↔ Shared readKey obs rows key := by
  rw [comparedKeys, List.mem_dedup, List.mem_filter, decide_eq_true_iff, and_iff_right_iff_imp]
  exact fun h => h.2.1

theorem nodup_comparedKeys : (comparedKeys readKey obs rows).Nodup := List.nodup_dedup _

/-- All compared keys disagree, or none does and no two reported rows have one compared key. -/
def CountsCompared : Prop :=
  ((∃ key, Disagrees readKey obs rows key) → ∀ key, Shared readKey obs rows key →
      Disagrees readKey obs rows key) ∧
    ((¬ ∃ key, Disagrees readKey obs rows key) →
      ((rows.filter fun r => Shared readKey obs rows r.keyXdr).map RpcStateChange.keyXdr).Nodup)

/-- The keys that disagree are as many as the compared ones exactly if these all disagree. -/
theorem length_disagreeingKeys_eq_iff :
    (disagreeingKeys readKey obs rows).length = (comparedKeys readKey obs rows).length ↔
      ∀ key, Shared readKey obs rows key → Disagrees readKey obs rows key := by
  have hsub : disagreeingKeys readKey obs rows ⊆ comparedKeys readKey obs rows := fun key hkey =>
    (mem_comparedKeys readKey obs rows).mpr
      (Disagrees.shared readKey obs rows ((mem_disagreeingKeys readKey obs rows).mp hkey))
  have hsubperm := (nodup_disagreeingKeys readKey obs rows).subperm hsub
  constructor
  · intro hlength key hkey
    have hperm := hsubperm.perm_of_length_le hlength.ge
    exact (mem_disagreeingKeys readKey obs rows).mp
      (hperm.mem_iff.mpr ((mem_comparedKeys readKey obs rows).mpr hkey))
  · intro hall
    refine Nat.le_antisymm hsubperm.length_le (List.Subperm.length_le ?_)
    exact (nodup_comparedKeys readKey obs rows).subperm fun key hkey =>
      (mem_disagreeingKeys readKey obs rows).mpr
        (hall key ((mem_comparedKeys readKey obs rows).mp hkey))

/-- The reported rows of compared keys are as many as these exactly if no two have one key. -/
theorem length_filter_rows_eq_iff :
    (rows.filter fun r => Shared readKey obs rows r.keyXdr).length =
        (comparedKeys readKey obs rows).length ↔
      ((rows.filter fun r => Shared readKey obs rows r.keyXdr).map
        RpcStateChange.keyXdr).Nodup := by
  have hperm : ((rows.filter fun r => Shared readKey obs rows r.keyXdr).map
      RpcStateChange.keyXdr).dedup.Perm (comparedKeys readKey obs rows) := by
    refine (List.perm_ext_iff_of_nodup (List.nodup_dedup _)
      (nodup_comparedKeys readKey obs rows)).mpr
      fun key => ?_
    rw [List.mem_dedup, List.mem_map, mem_comparedKeys]
    constructor
    · rintro ⟨r, hr, rfl⟩
      exact of_decide_eq_true (List.mem_filter.mp hr).2
    · intro hkey
      obtain ⟨r, hr, rfl⟩ := List.mem_map.mp hkey.2.2
      exact ⟨r, List.mem_filter.mpr ⟨hr, decide_eq_true hkey⟩, rfl⟩
  rw [← hperm.length_eq, ← List.length_map RpcStateChange.keyXdr]
  constructor
  · intro hlength
    exact List.dedup_eq_self.mp ((List.dedup_sublist _).eq_of_length hlength.symm)
  · intro hnodup
    rw [hnodup.dedup]

/-- What is counted for each outcome. -/
theorem compareStateCounting_snd : (compareStateCounting readKey obs rows).2 =
    match compareState readKey obs rows with
    | .matched => (rows.filter fun r => (localSidesFiltered readKey obs).contains r.keyXdr).length
    | .mismatch verdicts => verdicts.length
    | .cannotVerify _ => 0 := by
  rw [compareStateCounting]
  split_ifs with h
  · exact h.1.symm
  · rfl

/-- **When the comparable count is the number of compared keys.** -/
theorem comparable_eq_iff : (compareStateCounting readKey obs rows).2 =
    (comparedKeys readKey obs rows).length ↔ CountsCompared readKey obs rows := by
  have hrows : (rows.filter fun row => (localSidesFiltered readKey obs).contains row.keyXdr) =
      rows.filter fun r => Shared readKey obs rows r.keyXdr := by
    refine List.filter_congr fun r hr => ?_
    rw [Bool.eq_iff_iff, contains_localSides, decide_eq_true_iff]
    exact ⟨fun ⟨howned, hlocal⟩ => ⟨howned, hlocal, List.mem_map_of_mem hr⟩,
      fun ⟨howned, hlocal, _⟩ => ⟨howned, hlocal⟩⟩
  rw [compareStateCounting_snd]
  obtain ⟨hd, h⟩ | ⟨hs, verdicts, h⟩ | ⟨-, hd, h⟩ := compareState_cases readKey obs rows
  · rw [h]
    dsimp only
    rw [List.length_map, length_disagreeingKeys_eq_iff]
    exact ⟨fun hall => ⟨fun _ => hall, fun hnone => absurd hd hnone⟩, fun hcounts => hcounts.1 hd⟩
  · rw [h]
    dsimp only
    have hnone : comparedKeys readKey obs rows = [] :=
      List.eq_nil_iff_forall_not_mem.mpr fun key hkey =>
      hs ⟨key, (mem_comparedKeys readKey obs rows).mp hkey⟩
    have hfilter : (rows.filter fun r => Shared readKey obs rows r.keyXdr) = [] :=
      List.filter_eq_nil_iff.mpr fun r _ hr => hs ⟨r.keyXdr, of_decide_eq_true hr⟩
    rw [hnone]
    refine iff_of_true rfl ⟨fun ⟨key, hkey⟩ => absurd ⟨key, hkey.shared⟩ hs, fun _ => ?_⟩
    rw [hfilter]
    exact List.nodup_nil
  · rw [h]
    dsimp only
    rw [hrows, length_filter_rows_eq_iff]
    exact ⟨fun hnodup => ⟨fun hany => absurd hany hd, fun _ => hnodup⟩, fun hcounts => hcounts.2 hd⟩

end

/-- The key of contract data that both sides report, and a key that they agree on. -/
def changedState : Execution where
  status := .void
  state := [⟨[1], some [10], .updated⟩, ⟨[2], some [20], .updated⟩]
  events := []
  budget := ⟨0, 0, 0, 0⟩

/-- Of two keys that were compared, the one that disagrees is counted. -/
theorem comparable_changedState :
    (compareStateCounting (fun _ => none) changedState
        [⟨[1], .updated, some [11]⟩, ⟨[2], .updated, some [20]⟩]).2 = 1 ∧
      (comparedKeys (fun _ => none) changedState
        [⟨[1], .updated, some [11]⟩, ⟨[2], .updated, some [20]⟩]).length = 2 := by
  decide

end SorobanDevkit.Fuzz
