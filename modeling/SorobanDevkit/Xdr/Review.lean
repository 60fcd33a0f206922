import SorobanDevkit.Xdr.Encoding
import SorobanDevkit.Xdr.Rendering

/-!
# Reviewing envelopes

What is shown of an envelope before it is signed determines the call it makes, where its values are
not shown with replaced characters or by the name of their variant only.

## Main results

* `same_of_viewEnvelope_eq` — a call that is revealed is determined by the view of its envelope.
* `exists_not_same` — one that is not revealed shares the view of its envelope with another.
* `review_shows_what_is_signed_iff` — what is shown for review determines a value and a call.
-/

namespace SorobanDevkit.Xdr

section Envelopes

variable {displays : Displays}

/-- The transaction has one operation, which calls a contract. -/
def Invokes {Auth : Type} (tx : Transaction ScVal Auth SorobanTransactionData)
    (call : InvokeContractArgs) : Prop :=
  ∃ source auth, tx.operations.items =
    [⟨source, .invokeHostFunction
      ⟨.invokeContract call.contractAddress call.functionName call.args, auth⟩⟩]

/-- Nothing of a memo is replaced where it is shown. -/
def Memo.Revealed : Memo → Prop
  | .text t => Utf8Lossy.replacement ∉ Utf8Lossy.decode t.items
  | _ => True

namespace InvokeContractArgs

/-- The arguments of a call are displayable. -/
def Displayable (call : InvokeContractArgs) : Prop := ∀ arg ∈ call.args.items, arg.Displayable

/-- Nothing of a call is replaced or left out where it is shown. -/
def Revealed (call : InvokeContractArgs) : Prop :=
  Utf8Lossy.replacement ∉ Utf8Lossy.decode call.functionName.items ∧
    ∀ arg ∈ call.args.items, arg.Revealed

/-- The same contract, function and arguments, absent vectors and maps counting as empty ones. -/
def Same (call call' : InvokeContractArgs) : Prop :=
  call.contractAddress = call'.contractAddress ∧ call.functionName = call'.functionName ∧
    call.args.items.map ScVal.normalize = call'.args.items.map ScVal.normalize

end InvokeContractArgs

theorem toUtf8StringLossy_inj {s s' : List UInt8}
    (hs : Utf8Lossy.replacement ∉ Utf8Lossy.decode s)
    (h : toUtf8StringLossy s = toUtf8StringLossy s') : s = s' := by
  have hdecode : Utf8Lossy.decode s = Utf8Lossy.decode s' := by
    simpa only [toUtf8StringLossy, String.toList_ofList] using congrArg String.toList h
  rw [← Utf8Lossy.encode_decode hs, hdecode, Utf8Lossy.encode_decode (hdecode ▸ hs)]

theorem debug_inj {s s' : List UInt8} (hs : Utf8Lossy.replacement ∉ Utf8Lossy.decode s)
    (h : debug displays s = debug displays s') : s = s' := by
  have hquote := congrArg String.toList h
  rw [debug, debug, String.toList_ofList, String.toList_ofList] at hquote
  have happend : Quoting.quote displays.escapes (Utf8Lossy.decode s) ++ [] =
      Quoting.quote displays.escapes (Utf8Lossy.decode s') ++ [] := by rw [hquote]
  have hdecode := (Quoting.quote_append_inj happend).1
  rw [← Utf8Lossy.encode_decode hs, hdecode, Utf8Lossy.encode_decode (hdecode ▸ hs)]

/-- A memo that is revealed is determined by its text. -/
theorem renderMemo_inj {memo memo' : Memo} (hmemo : memo.Revealed)
    (h : renderMemo displays memo = renderMemo displays memo') : memo = memo' := by
  have hbytes {hash hash' : Bytes32} (h : Hex.encode hash.toList = Hex.encode hash'.toList) :
      hash = hash' := by
    have hdecode := congrArg Hex.decode h
    rw [Hex.decode_encode, Hex.decode_encode, Option.some.injEq] at hdecode
    exact Vector.toList_inj.mp hdecode
  cases memo <;> cases memo' <;> simp only [renderMemo, Option.some.injEq, reduceCtorEq] at h
  case none.none => rfl
  case text.text text text' =>
    have hitems := debug_inj hmemo ((String.append_right_inj _).mp h)
    cases text
    cases text'
    cases hitems
    rfl
  case id.id id id' =>
    rw [UInt64.toNat_inj.mp (Decimal.toString_nat_inj ((String.append_right_inj _).mp h))]
  case hash.hash hash hash' => rw [hbytes ((String.append_right_inj _).mp h)]
  case return.return hash hash' => rw [hbytes ((String.append_right_inj _).mp h)]
  all_goals
    -- the kinds of memos start with different letters
    have hhead := congrArg (fun s => s.toList.head?) h
    simp at hhead

variable {Auth : Type} {tx tx' : Transaction ScVal Auth SorobanTransactionData}
  {signatures signatures' : VecM 20 DecoratedSignature} {call call' : InvokeContractArgs}

/-- Items whose texts are equal are equal up to absent vectors and maps. -/
theorem map_normalize_eq (hdisplays : displays.Documented) {us vs : List ScVal}
    (hus : ∀ u ∈ us, u.Displayable) (hvs : ∀ v ∈ vs, v.Displayable)
    (hrevealed : ∀ u ∈ us, u.Revealed)
    (h : us.map (renderScval displays) = vs.map (renderScval displays)) :
    us.map ScVal.normalize = vs.map ScVal.normalize := by
  induction us generalizing vs with
  | nil =>
    rw [List.map_nil] at h
    rw [List.map_eq_nil_iff.mp h.symm]
  | cons u us ih =>
    cases vs with
    | nil => cases h
    | cons v vs =>
      rw [List.map_cons, List.map_cons, List.cons.injEq] at h
      rw [List.forall_mem_cons] at hus hvs hrevealed
      rw [List.map_cons, List.map_cons, ih hus.2 hvs.2 hrevealed.2 h.2,
        normalize_eq_of_renderScval_eq hdisplays hus.1 hvs.1 hrevealed.1 h.1]

/-- **A call that is revealed is determined by the view of its envelope among the displayable
ones.** -/
theorem same_of_viewEnvelope_eq (hdisplays : displays.Documented) (htx : Invokes tx call)
    (htx' : Invokes tx' call') (hcall : call.Displayable) (hcall' : call'.Displayable)
    (hrevealed : call.Revealed) (hmemo : tx.memo.Revealed)
    (h : viewEnvelope displays (.tx tx signatures) = viewEnvelope displays (.tx tx' signatures')) :
    call.Same call' ∧ tx.memo = tx'.memo := by
  obtain ⟨source, auth, hoperations⟩ := htx
  obtain ⟨source', auth', hoperations'⟩ := htx'
  have hops := congrArg EnvelopeView.operations h
  have hmemos := congrArg EnvelopeView.memo h
  simp only [viewEnvelope, viewV1, hoperations, hoperations', viewOperation, List.map_cons,
    List.map_nil, List.cons.injEq, and_true, OperationView.mk.injEq, Option.some.injEq] at hops
  obtain ⟨-, -, hcontract, hfunction, hargs, -⟩ := hops
  have hname := toUtf8StringLossy_inj hrevealed.1 hfunction
  refine ⟨⟨hdisplays.scAddress_injective hcontract, ?_,
    map_normalize_eq hdisplays hcall hcall' hrevealed.2 hargs⟩, renderMemo_inj hmemo hmemos⟩
  cases hfunctionName : call.functionName
  cases hfunctionName' : call'.functionName
  rw [hfunctionName, hfunctionName'] at hname
  cases hname
  rfl

variable (displays) (signatures)

/-- An envelope has the same view with another call and another memo that have the same texts. -/
theorem exists_viewEnvelope_eq (call' : InvokeContractArgs) (memo : Memo) (htx : Invokes tx call)
    (hcontract : call'.contractAddress = call.contractAddress)
    (hfunction : toUtf8StringLossy call'.functionName.items =
      toUtf8StringLossy call.functionName.items)
    (hargs : call'.args.items.map (renderScval displays) =
      call.args.items.map (renderScval displays))
    (hmemo : renderMemo displays memo = renderMemo displays tx.memo) :
    ∃ tx' : Transaction ScVal Auth SorobanTransactionData, Invokes tx' call' ∧ tx'.memo = memo ∧
      viewEnvelope displays (.tx tx signatures) = viewEnvelope displays (.tx tx' signatures) := by
  obtain ⟨source, auth, hoperations⟩ := htx
  refine ⟨{ tx with
    memo
    operations := ⟨[⟨source, .invokeHostFunction
      ⟨.invokeContract call'.contractAddress call'.functionName call'.args, auth⟩⟩],
      Nat.le_of_ble_eq_true rfl⟩ }, ⟨source, auth, rfl⟩, rfl, ?_⟩
  simp only [viewEnvelope, viewV1, hoperations, viewOperation, signerKeys, List.map_cons,
    List.map_nil, List.filterMap_cons, List.filterMap_nil, hcontract, hfunction, hargs, hmemo,
    HostFunction.name]

/-- Arguments that are not all revealed share their texts with others. -/
theorem exists_map_renderScval_eq {us : List ScVal} (hus : ∀ u ∈ us, u.Displayable)
    (h : ¬ ∀ u ∈ us, u.Revealed) :
    ∃ vs : List ScVal, (∀ v ∈ vs, v.Displayable) ∧ vs.length = us.length ∧
      vs.map (renderScval displays) = us.map (renderScval displays) ∧
      vs.map ScVal.normalize ≠ us.map ScVal.normalize := by
  obtain ⟨u, hu, hrevealed⟩ : ∃ u ∈ us, ¬ u.Revealed := by simpa using h
  obtain ⟨before, after, rfl⟩ := List.append_of_mem hu
  obtain ⟨v, hv, hrender, hne⟩ := (hus u hu).exists_sharesText displays hrevealed
  refine ⟨before ++ v :: after, ?_, by simp, by simp [hrender], by simpa using hne⟩
  intro w hw
  rcases List.mem_append.mp hw with hw | hw
  · exact hus w (List.mem_append_left _ hw)
  · rcases List.mem_cons.mp hw with rfl | hw
    · exact hv
    · exact hus w (List.mem_append_right _ (List.mem_cons_of_mem _ hw))

/-- **A call that is not revealed shares the view of its envelope with another displayable
call.** -/
theorem exists_not_same (htx : Invokes tx call) (hcall : call.Displayable)
    (h : ¬ (call.Revealed ∧ tx.memo.Revealed)) :
    ∃ (tx' : Transaction ScVal Auth SorobanTransactionData) (call' : InvokeContractArgs),
      Invokes tx' call' ∧ call'.Displayable ∧
      viewEnvelope displays (.tx tx signatures) = viewEnvelope displays (.tx tx' signatures) ∧
      ¬ (call.Same call' ∧ tx.memo = tx'.memo) := by
  by_cases hmemo : tx.memo.Revealed
  · by_cases hname : Utf8Lossy.replacement ∉ Utf8Lossy.decode call.functionName.items
    · -- an argument is not revealed
      have hargs : ¬ ∀ arg ∈ call.args.items, arg.Revealed := fun hargs => h ⟨⟨hname, hargs⟩, hmemo⟩
      obtain ⟨args, hdisplayable, hlength, hrender, hne⟩ :=
        exists_map_renderScval_eq displays hcall hargs
      let call' : InvokeContractArgs := ⟨call.contractAddress, call.functionName,
        ⟨args, hlength.trans_le call.args.bounded⟩⟩
      obtain ⟨tx', htx', -, hview⟩ := exists_viewEnvelope_eq displays signatures call' tx.memo htx
        rfl rfl hrender rfl
      exact ⟨tx', call', htx', hdisplayable, hview, fun hsame => hne hsame.1.2.2.symm⟩
    · obtain ⟨name, hne, hdecode, hlength⟩ := Utf8Lossy.exists_decode_eq (not_not.mp hname)
      let call' : InvokeContractArgs := ⟨call.contractAddress,
        ⟨name, hlength.trans call.functionName.bounded⟩, call.args⟩
      obtain ⟨tx', htx', -, hview⟩ := exists_viewEnvelope_eq displays signatures call' tx.memo htx
        rfl (by rw [toUtf8StringLossy, hdecode, toUtf8StringLossy])
        rfl rfl
      exact ⟨tx', call', htx', hcall, hview,
        fun hsame => hne (congrArg VecM.items hsame.1.2.1).symm⟩
  · cases hmemo' : tx.memo with
    | text text =>
      rw [hmemo'] at hmemo
      obtain ⟨text', hne, hdecode, hlength⟩ := Utf8Lossy.exists_decode_eq (not_not.mp hmemo)
      obtain ⟨tx', htx', hmemo'', hview⟩ := exists_viewEnvelope_eq displays signatures call
        (.text ⟨text', hlength.trans text.bounded⟩) htx rfl rfl
        rfl (by rw [hmemo', renderMemo, renderMemo, debug, debug, hdecode])
      refine ⟨tx', call, htx', hcall, hview, fun hsame => hne ?_⟩
      have htext := hsame.2
      rw [hmemo''] at htext
      injection htext with htext
      exact (congrArg VecM.items htext).symm
    | _ =>
      rw [hmemo'] at hmemo
      exact absurd trivial hmemo

end Envelopes

/-- **What is shown for review determines a value and a call.** Symbols in vectors and maps being
shown without commas, spaces and closing brackets, this is so exactly where no string, symbol,
function name or memo is shown with a replaced character, and no value is shown by the name of its
variant only. -/
theorem review_shows_what_is_signed_iff {displays : Displays} (hdisplays : displays.Documented) :
    (∀ u : ScVal, u.Displayable →
      ((∀ v : ScVal, v.Displayable → renderScval displays u = renderScval displays v →
        u.normalize = v.normalize) ↔ u.Revealed)) ∧
    ∀ {Auth : Type} (tx : Transaction ScVal Auth SorobanTransactionData)
      (signatures : VecM 20 DecoratedSignature) (call : InvokeContractArgs),
      Invokes tx call → call.Displayable →
      ((∀ (tx' : Transaction ScVal Auth SorobanTransactionData)
        (signatures' : VecM 20 DecoratedSignature) (call' : InvokeContractArgs),
        Invokes tx' call' → call'.Displayable →
        viewEnvelope displays (.tx tx signatures) = viewEnvelope displays (.tx tx' signatures') →
        call.Same call' ∧ tx.memo = tx'.memo) ↔ call.Revealed ∧ tx.memo.Revealed) := by
  refine ⟨fun u hu => ⟨fun h => ?_, fun hrevealed v hv => ?_⟩,
    fun tx signatures call htx hcall => ⟨fun h => ?_, fun ⟨hrevealed, hmemo⟩ => ?_⟩⟩
  · by_contra hrevealed
    obtain ⟨v, hv, hrender, hne⟩ := hu.exists_sharesText displays hrevealed
    exact hne (h v hv hrender.symm).symm
  · exact normalize_eq_of_renderScval_eq hdisplays hu hv hrevealed
  · by_contra hrevealed
    obtain ⟨tx', call', htx', hcall', hview, hne⟩ :=
      exists_not_same displays signatures htx hcall hrevealed
    exact hne (h tx' signatures call' htx' hcall' hview)
  · intro tx' signatures' call' htx' hcall' hview
    exact same_of_viewEnvelope_eq hdisplays htx htx' hcall hcall' hrevealed hmemo hview

/-! ### A call that is shown, and one that is hidden -/

/-- The contract whose id is zero. -/
def zeroContract : ScAddress := .contract (Vector.replicate 32 0)

/-- Texts of addresses that are not shared; those of the zero contract and the zero key, and of all
wide integers, are what they are. -/
def zeroDisplays : Displays where
  scAddress a :=
    if a = zeroContract then "CAAAAAAAAAAAAAAAAAAAAAAAAAAAAAAAAAAAAAAAAAAAAAAAAAAAD2KM"
    else "x" ++ Hex.encode (addressCodec.write a)
  muxedAccount a :=
    if a = .ed25519 (Vector.replicate 32 0) then
      "GAAAAAAAAAAAAAAAAAAAAAAAAAAAAAAAAAAAAAAAAAAAAAAAAAAAAWHF"
    else "x" ++ Hex.encode (ed25519Key a).toList
  publicKey key := "x" ++ Hex.encode key.toList
  u128 hi lo := toString (hi.toNat * 2 ^ 64 + lo.toNat)
  i128 hi lo := toString (hi.toInt * 2 ^ 64 + lo.toNat)
  u256 hiHi hiLo loHi loLo :=
    toString (((hiHi.toNat * 2 ^ 64 + hiLo.toNat) * 2 ^ 64 + loHi.toNat) * 2 ^ 64 + loLo.toNat)
  i256 hiHi hiLo loHi loLo :=
    toString (((hiHi.toInt * 2 ^ 64 + hiLo.toNat) * 2 ^ 64 + loHi.toNat) * 2 ^ 64 + loLo.toNat)
  operationName _ := ""
  escapes _ := false

theorem zeroDisplays_scAddress_injective : Function.Injective zeroDisplays.scAddress := by
  have hwritten : ∀ bytes, "CAAAAAAAAAAAAAAAAAAAAAAAAAAAAAAAAAAAAAAAAAAAAAAAAAAAD2KM" ≠
      "x" ++ Hex.encode bytes := by
    intro bytes h
    have hhead := congrArg (fun s => s.toList.head?) h
    simp at hhead
  intro a b h
  simp only [zeroDisplays] at h
  split_ifs at h with ha hb hb
  · rw [ha, hb]
  · exact absurd h (hwritten _)
  · exact absurd h.symm (hwritten _)
  · have hbytes := congrArg Hex.decode ((String.append_right_inj _).mp h)
    rw [Hex.decode_encode, Hex.decode_encode, Option.some.injEq] at hbytes
    have hread := addressCodec.read_write_nil a
    rw [hbytes, addressCodec.read_write_nil b] at hread
    cases hread
    rfl

theorem zeroDisplays_documented : zeroDisplays.Documented where
  scAddress_injective := zeroDisplays_scAddress_injective
  u128_injective := by
    rintro ⟨hi, lo⟩ ⟨hi', lo'⟩ h
    have hnat := Decimal.toString_nat_inj h
    dsimp only at hnat
    have hlo := lo.toNat_lt
    have hlo' := lo'.toNat_lt
    rw [Prod.mk.injEq, ← UInt64.toNat_inj, ← UInt64.toNat_inj]
    omega
  i128_injective := by
    rintro ⟨hi, lo⟩ ⟨hi', lo'⟩ h
    have hint := Decimal.toString_int_inj h
    dsimp only at hint
    have hlo := lo.toNat_lt
    have hlo' := lo'.toNat_lt
    rw [Prod.mk.injEq, ← Int64.toInt_inj, ← UInt64.toNat_inj]
    omega
  u256_injective := by
    rintro ⟨hiHi, hiLo, loHi, loLo⟩ ⟨hiHi', hiLo', loHi', loLo'⟩ h
    have hnat := Decimal.toString_nat_inj h
    dsimp only at hnat
    have h1 := hiLo.toNat_lt
    have h1' := hiLo'.toNat_lt
    have h2 := loHi.toNat_lt
    have h2' := loHi'.toNat_lt
    have h3 := loLo.toNat_lt
    have h3' := loLo'.toNat_lt
    simp only [Prod.mk.injEq, ← UInt64.toNat_inj]
    omega
  i256_injective := by
    rintro ⟨hiHi, hiLo, loHi, loLo⟩ ⟨hiHi', hiLo', loHi', loLo'⟩ h
    have hint := Decimal.toString_int_inj h
    dsimp only at hint
    have h1 := hiLo.toNat_lt
    have h1' := hiLo'.toNat_lt
    have h2 := loHi.toNat_lt
    have h2' := loHi'.toNat_lt
    have h3 := loLo.toNat_lt
    have h3' := loLo'.toNat_lt
    simp only [Prod.mk.injEq, ← Int64.toInt_inj, ← UInt64.toNat_inj]
    omega
  scAddress_plain := by
    intro a c hc
    simp only [zeroDisplays] at hc
    split_ifs at hc
    · left
      exact List.all_eq_true.mp (by decide) c hc
    · rw [String.toList_append, List.mem_append] at hc
      rcases hc with hc | hc
      · left
        exact List.all_eq_true.mp (by decide) c hc
      · exact Or.inl (Hex.isAlphanum_encode _ c hc)
  u128_plain _ _ := Decimal.plain_toString_nat _
  i128_plain _ _ := Decimal.plain_toString_int _
  u256_plain _ _ _ _ := Decimal.plain_toString_nat _
  i256_plain _ _ _ _ := Decimal.plain_toString_int _

/-- A call of `increment`. -/
def incrementCall (args : List ScVal) (h : args.length ≤ u32Max) : InvokeContractArgs where
  contractAddress := zeroContract
  functionName := ⟨[105, 110, 99, 114, 101, 109, 101, 110, 116], by decide⟩
  args := ⟨args, h⟩

/-- A transaction that makes a call, with the memo "hi". -/
def callTx (call : InvokeContractArgs) : Transaction ScVal Unit SorobanTransactionData where
  sourceAccount := .ed25519 (Vector.replicate 32 0)
  fee := 100
  seqNum := 1
  cond := .none
  memo := .text ⟨[104, 105], by decide⟩
  operations := ⟨[⟨none, .invokeHostFunction ⟨.invokeContract call.contractAddress
    call.functionName call.args, VecM.default⟩⟩], Nat.le_of_ble_eq_true rfl⟩
  ext := .v0

/-- A vector of the string "a, b" and the symbol "c". -/
def quotedCommas : ScVal := .vec (some [.string [97, 44, 32, 98], .scalar (.symbol [99])])

theorem review_shows_what_is_signed_iff_quotedCommas :
    (∀ v : ScVal, v.Displayable →
      renderScval zeroDisplays quotedCommas = renderScval zeroDisplays v →
      quotedCommas.normalize = v.normalize) ∧
    ∀ (tx' : Transaction ScVal Unit SorobanTransactionData)
      (signatures' : VecM 20 DecoratedSignature) (call' : InvokeContractArgs),
      Invokes tx' call' → call'.Displayable →
      viewEnvelope zeroDisplays (.tx (callTx (incrementCall [quotedCommas] (by decide)))
        VecM.default) = viewEnvelope zeroDisplays (.tx tx' signatures') →
      (incrementCall [quotedCommas] (by decide)).Same call' ∧
        (callTx (incrementCall [quotedCommas] (by decide))).memo = tx'.memo := by
  have hdisplayable : quotedCommas.Displayable := by
    refine ⟨⟨trivial, trivial⟩, ⟨?_, ?_⟩, trivial⟩
    · show [99].length ≤ 32
      decide
    · show ∀ c ∈ Utf8Lossy.decode [99], delimiter c = false
      exact Strings.forall_mem_of_any (by decide)
  have hrevealed : quotedCommas.Revealed := by
    refine ⟨?_, ?_, trivial⟩
    · show Utf8Lossy.replacement ∉ Utf8Lossy.decode [97, 44, 32, 98]
      decide
    · show Utf8Lossy.replacement ∉ Utf8Lossy.decode [99]
      decide
  refine ⟨((review_shows_what_is_signed_iff zeroDisplays_documented).1 quotedCommas
    hdisplayable).mpr hrevealed, ((review_shows_what_is_signed_iff zeroDisplays_documented).2
    (callTx (incrementCall [quotedCommas] (by decide))) VecM.default
    (incrementCall [quotedCommas] (by decide)) ⟨none, VecM.default, rfl⟩ ?_).mpr ⟨⟨?_, ?_⟩, ?_⟩⟩
  · exact List.forall_mem_singleton.mpr hdisplayable
  · show Utf8Lossy.replacement ∉ Utf8Lossy.decode [105, 110, 99, 114, 101, 109, 101, 110, 116]
    decide
  · exact List.forall_mem_singleton.mpr hrevealed
  · show Utf8Lossy.replacement ∉ Utf8Lossy.decode [104, 105]
    decide

/-- A vector of the symbol "a, symbol:b". -/
def oneSymbol : ScVal :=
  .vec (some [.scalar (.symbol [97, 44, 32, 115, 121, 109, 98, 111, 108, 58, 98])])

/-- A vector of the symbols "a" and "b". -/
def twoSymbols : ScVal := .vec (some [.scalar (.symbol [97]), .scalar (.symbol [98])])

/-- One symbol with a comma is shown as two symbols, in values and in envelopes. -/
theorem one_symbol_is_shown_as_two :
    zeroDisplays.Documented ∧
    (¬ ∀ u v : ScVal, renderScval zeroDisplays u = renderScval zeroDisplays v →
      u.normalize = v.normalize) ∧
    ¬ ∀ (tx tx' : Transaction ScVal Unit SorobanTransactionData)
      (signatures signatures' : VecM 20 DecoratedSignature) (call call' : InvokeContractArgs),
      Invokes tx call → Invokes tx' call' →
      viewEnvelope zeroDisplays (.tx tx signatures) = viewEnvelope zeroDisplays
        (.tx tx' signatures') →
      call.Same call' ∧ tx.memo = tx'.memo := by
  have hrender : renderScval zeroDisplays oneSymbol = renderScval zeroDisplays twoSymbols := by
    decide
  have hne : oneSymbol.normalize ≠ twoSymbols.normalize := by decide
  refine ⟨zeroDisplays_documented, fun h => hne (h _ _ hrender), fun h => ?_⟩
  have hview : viewEnvelope zeroDisplays
      (.tx (callTx (incrementCall [oneSymbol] (by decide))) VecM.default) =
      viewEnvelope zeroDisplays
        (.tx (callTx (incrementCall [twoSymbols] (by decide))) VecM.default) := by
    simp only [viewEnvelope, viewV1, callTx, incrementCall, viewOperation, signerKeys,
      List.map_cons, List.map_nil, List.filterMap_cons, List.filterMap_nil, hrender,
      HostFunction.name]
  have hsame := h _ _ _ _ _ _ ⟨none, VecM.default, rfl⟩ ⟨none, VecM.default, rfl⟩ hview
  exact hne (List.cons.inj hsame.1.2.2).1

end SorobanDevkit.Xdr
