import SorobanDevkit.Library.Tokens

/-!
# Networks

A network is named on the command line, or by its passphrase. `Network::parse` of
`sdkt-xdr/src/sign.rs` looks for the names up to case and surrounding white space, and takes a
passphrase that follows `custom:` from the text that it has put in lower case and trimmed for that.
The command that signs has put it in lower case before.

The hash of a passphrase is a parameter.
-/

namespace SorobanDevkit.Xdr

open Strings

/-- `Network`. -/
inductive Network
  | testnet
  | mainnet
  | futurenet
  | custom (passphrase : String)
  deriving DecidableEq

namespace Network

/-- `Network::passphrase`. -/
def passphrase : Network → String
  | testnet => "Test SDF Network ; September 2015"
  | mainnet => "Public Global Stellar Network ; September 2015"
  | futurenet => "Test SDF Future Network ; October 2022"
  | custom p => p

/-- The text by which `Network::parse` and the command that signs go. -/
def normalized (s : String) : String := asciiLower (trim s)

/-- `Network::parse`. -/
def parse (s : String) : Network :=
  if normalized s = "testnet" then testnet
  else if normalized s = "mainnet" then mainnet
  else if normalized s = "futurenet" then futurenet
  else match stripPrefix "custom:" (normalized s) with
    | some p => custom p
    | none => custom s

/-- `Network::network_id`. -/
def networkId {Hash : Type} (sha256 : List UInt8 → Hash) (network : Network) : Hash :=
  sha256 network.passphrase.toUTF8.data.toList

end Network

open Network

/-- The network of `TxAction::Sign`, which rejects other labels. -/
def signNetwork (network : String) : Option Network :=
  if normalized network = "testnet" then some .testnet
  else if normalized network = "mainnet" then some .mainnet
  else if normalized network = "futurenet" then some .futurenet
  else if startsWith "custom:" (normalized network) then some (parse (normalized network))
  else none

/-- The network of `StorageAction::Extend` and its like, for the passphrase that is configured. -/
def configuredNetwork (passphrase : String) : Network :=
  if passphrase = "Test SDF Network ; September 2015" then .testnet
  else if passphrase = "Public Global Stellar Network ; September 2015" then .mainnet
  else if passphrase = "Test SDF Future Network ; October 2022" then .futurenet
  else .custom passphrase

/-- The names of networks. -/
def networkNames : List String := ["testnet", "mainnet", "futurenet"]

/-! ### Passphrases -/

section

variable {Hash : Type} (sha256 : List UInt8 → Hash)

/-- The network of a passphrase has it, also for the command that signs, which takes the network
that is used when the passphrase is configured. -/
structure KeepsCustom (p : String) : Prop where
  parsed : (parse ("custom:" ++ p)).passphrase = p
  signed : ∃ network, signNetwork ("custom:" ++ p) = some network ∧ network.passphrase = p ∧
    network.networkId sha256 = (configuredNetwork p).networkId sha256

/-- A label that is no name and does not begin with `custom:` is the passphrase. -/
def KeepsLabel (s : String) : Prop :=
  normalized s ∉ networkNames → startsWith "custom:" s = false → (parse s).passphrase = s

/-- Passphrases and labels are kept, and different passphrases have different networks. -/
structure KeepsPassphrases (p q s : String) : Prop where
  first : KeepsCustom sha256 p
  second : KeepsCustom sha256 q
  label : KeepsLabel s
  distinct : p ≠ q → (parse ("custom:" ++ p)).networkId sha256 ≠
    (parse ("custom:" ++ q)).networkId sha256

end

/-! ### What becomes of a passphrase -/

/-- The characters in front of one that stays are dropped as without it. -/
theorem dropWhile_append_cons {α : Type} {p : α → Bool} {a : α} (ha : p a = false)
    (before after : List α) :
    (before ++ a :: after).dropWhile p = before.dropWhile p ++ a :: after := by
  induction before with
  | nil => rw [List.nil_append, List.dropWhile_cons_of_neg (by simp [ha])]; rfl
  | cons first before ih =>
    by_cases hfirst : p first = true
    · rw [List.cons_append, List.dropWhile_cons_of_pos hfirst, ih,
        List.dropWhile_cons_of_pos hfirst]
    · rw [List.cons_append, List.dropWhile_cons_of_neg hfirst, List.dropWhile_cons_of_neg hfirst]
      rfl

/-- Only the end of a text is trimmed if its first character and one further on stay. -/
theorem trim_of_bounded {first last : Char} (hfirst : isWhitespace first = false)
    (hlast : isWhitespace last = false) (middle : List Char) (s : String) :
    trim (String.ofList (first :: (middle ++ [last])) ++ s) =
      String.ofList (first :: (middle ++ [last])) ++ trimEndWhile isWhitespace s := by
  rw [trim, String.toList_append, String.toList_ofList, List.cons_append,
    List.dropWhile_cons_of_neg (by simp [hfirst]), List.append_assoc, List.singleton_append,
    List.reverse_cons, List.reverse_append, List.reverse_cons, List.append_assoc, List.append_assoc,
    List.singleton_append, dropWhile_append_cons hlast, trimEndWhile, ← String.ofList_append]
  congr 1
  simp

/-- The end of a text that begins with `custom:` is trimmed and put in lower case. -/
theorem normalized_custom (p : String) :
    normalized ("custom:" ++ p) = "custom:" ++ asciiLower (trimEndWhile isWhitespace p) := by
  have hfirst : isWhitespace 'c' = false := by decide
  have hlast : isWhitespace ':' = false := by decide
  have htrim := trim_of_bounded hfirst hlast
    ['u', 's', 't', 'o', 'm'] p
  rw [normalized]
  show asciiLower (trim (String.ofList ('c' :: (['u', 's', 't', 'o', 'm'] ++ [':'])) ++ p)) = _
  rw [htrim, asciiLower, String.toList_append, List.map_append, String.ofList_append]
  rfl

/-- A label with `custom:` in front is no name. -/
theorem custom_notMem_networkNames (p : String) : "custom:" ++ p ∉ networkNames := by
  simp only [networkNames, List.mem_cons, List.not_mem_nil, or_false, not_or]
  refine ⟨fun h => ?_, fun h => ?_, fun h => ?_⟩ <;>
    · have hlist := congrArg String.toList h
      simp at hlist

theorem parse_of_notMem {s : String} (h : normalized s ∉ networkNames) :
    parse s = match stripPrefix "custom:" (normalized s) with
      | some p => .custom p
      | none => .custom s := by
  simp only [networkNames, List.mem_cons, List.not_mem_nil, or_false, not_or] at h
  rw [parse, if_neg h.1, if_neg h.2.1, if_neg h.2.2]

/-- **What becomes of a passphrase**: it is trimmed at the end and put in lower case. -/
theorem parse_custom (p : String) :
    parse ("custom:" ++ p) = .custom (asciiLower (trimEndWhile isWhitespace p)) := by
  have hnormal := normalized_custom p
  have hname : normalized ("custom:" ++ p) ∉ networkNames := by
    rw [hnormal]
    exact custom_notMem_networkNames _
  rw [parse_of_notMem hname, hnormal, stripPrefix_append]

theorem signNetwork_custom (p : String) : signNetwork ("custom:" ++ p) =
    some (parse ("custom:" ++ asciiLower (trimEndWhile isWhitespace p))) := by
  have hname := custom_notMem_networkNames (asciiLower (trimEndWhile isWhitespace p))
  have hpre : startsWith "custom:" ("custom:" ++ asciiLower (trimEndWhile isWhitespace p)) =
    true :=
    decide_eq_true (by rw [String.toList_append]; exact List.prefix_append _ _)
  simp only [networkNames, List.mem_cons, List.not_mem_nil, or_false, not_or] at hname
  rw [signNetwork, normalized_custom, if_neg hname.1, if_neg hname.2.1, if_neg hname.2.2,
    if_pos hpre]

theorem configuredNetwork_passphrase (p : String) : (configuredNetwork p).passphrase = p := by
  rw [configuredNetwork]
  split_ifs with htestnet hmainnet hfuturenet
  · exact htestnet.symm
  · exact hmainnet.symm
  · exact hfuturenet.symm
  · rfl

/-- A passphrase that is in lower case and has no white space at its end. -/
structure Normal (p : String) : Prop where
  lower : asciiLower p = p
  trimmed : trimEndWhile isWhitespace p = p

theorem normal_iff {p : String} : Normal p ↔ asciiLower (trimEndWhile isWhitespace p) = p := by
  constructor
  · rintro ⟨hlower, htrimmed⟩
    rw [htrimmed, hlower]
  · intro h
    -- nothing is trimmed, since the length stays
    have hpre : (trimEndWhile isWhitespace p).toList <+: p.toList := by
      rw [trimEndWhile, String.toList_ofList, ← List.reverse_suffix, List.reverse_reverse]
      exact List.dropWhile_suffix isWhitespace
    have hlength : (trimEndWhile isWhitespace p).toList.length = p.toList.length := by
      have hlower := congrArg (List.length ∘ String.toList) h
      simpa [asciiLower] using hlower
    have htrimmed := String.toList_inj.mp (hpre.eq_of_length hlength)
    rw [htrimmed] at h
    exact ⟨h, htrimmed⟩

section

variable {Hash : Type} {sha256 : List UInt8 → Hash}

theorem keepsCustom_iff {p : String} : KeepsCustom sha256 p ↔ Normal p := by
  rw [normal_iff]
  constructor
  · intro h
    have hparsed := h.parsed
    rwa [parse_custom] at hparsed
  · intro h
    have hparse : parse ("custom:" ++ p) = .custom p := by rw [parse_custom, h]
    refine ⟨by rw [hparse]; rfl, .custom p, ?_, rfl, ?_⟩
    · rw [signNetwork_custom, h, hparse]
    · rw [networkId, networkId, configuredNetwork_passphrase]
      rfl

end

theorem length_normalized_le (s : String) : (normalized s).toList.length ≤ s.toList.length := by
  rw [normalized, asciiLower, String.toList_ofList, List.length_map, trim, String.toList_ofList,
    List.length_reverse]
  refine (List.dropWhile_suffix isWhitespace).length_le.trans ?_
  rw [List.length_reverse]
  exact (List.dropWhile_suffix isWhitespace).length_le

/-- A label that is no name is kept unless `custom:` is in front of it in other letters or after
white space. -/
theorem keepsLabel_iff {s : String} : KeepsLabel s ↔
    (normalized s ∉ networkNames → startsWith "custom:" s = false →
      startsWith "custom:" (normalized s) = false) := by
  refine forall₂_congr fun hname hdefault => ?_
  rw [parse_of_notMem hname, startsWith, decide_eq_false_iff_not, stripPrefix]
  by_cases hpre : "custom:".toList <+: (normalized s).toList
  · rw [if_pos hpre]
    refine iff_of_false (fun h => ?_) (not_not.mpr hpre)
    -- the text would be longer than the label that it is made of
    have hlength := length_normalized_le s
    have hpos := hpre.length_le
    have hdrop := congrArg List.length (String.toList_ofList.symm.trans (congrArg String.toList h))
    have hseven : "custom:".toList.length = 7 := by decide
    rw [List.length_drop] at hdrop
    omega
  · rw [if_neg hpre]
    exact iff_of_true rfl hpre

/-- **When passphrases are kept**: they are in lower case and have no white space at their end, and
the label does not begin with `custom:` in other letters or after white space. -/
theorem keepsPassphrases_iff {Hash : Type} (sha256 : List UInt8 → Hash)
    (hsha256 : Function.Injective sha256) (p q s : String) :
    KeepsPassphrases sha256 p q s ↔ Normal p ∧ Normal q ∧
      (normalized s ∉ networkNames → startsWith "custom:" s = false →
        startsWith "custom:" (normalized s) = false) := by
  rw [← keepsLabel_iff]
  constructor
  · rintro ⟨hp, hq, hs, -⟩
    exact ⟨keepsCustom_iff.mp hp, keepsCustom_iff.mp hq, hs⟩
  · rintro ⟨hp, hq, hs⟩
    refine ⟨keepsCustom_iff.mpr hp, keepsCustom_iff.mpr hq, hs, fun hne heq => hne ?_⟩
    rw [parse_custom, normal_iff.mp hp, parse_custom, normal_iff.mp hq] at heq
    have hbytes := Array.toList_inj.mp (hsha256 heq)
    exact String.toByteArray_inj.mp (congrArg ByteArray.mk hbytes)

/-- Two passphrases in lower case, and a label. -/
theorem keepsPassphrases_local : KeepsPassphrases id "local net" "other net" "Standalone Network" :=
  (keepsPassphrases_iff id Function.injective_id "local net" "other net" "Standalone Network").mpr
    ⟨⟨by decide, by decide⟩, ⟨by decide, by decide⟩, fun _ _ => by decide⟩

/-- A passphrase with capital letters is not kept. -/
theorem capitals_lost : ¬ KeepsPassphrases id "Standalone Network" "standalone network"
    "testnet" := by
  intro h
  exact absurd h.first.parsed (by decide)

end SorobanDevkit.Xdr
