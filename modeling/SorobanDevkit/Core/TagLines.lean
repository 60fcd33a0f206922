import Mathlib.Data.List.MinMax
import SorobanDevkit.Core.Git
import SorobanDevkit.Library.Utf8Lossy

/-!
# The tags of a remote, line by line

`list_remote_tags` reads the output of `git ls-remote --tags`, which has a line for the object of
each tag, and for an annotated tag a second one for the commit it finally points to. The second
lines are skipped, so that an annotated tag comes with the id of its own object.
`resolve_version_constraint` selects among what is read.

## Main results

* `tagsOfOutput_output` — what is read of the lines of tags.
* `bestVersionMatch_eq_argmax` — the selected tag is the first of the highest.
* `resolves_right_iff` — when a constraint is resolved as documented.
-/

namespace SorobanDevkit.Core

open Strings

/-! ### Lines -/

/-- A character of the name of a reference. -/
def isRefChar (c : Char) : Bool :=
  32 < c.toNat && c.toNat != 127 && !"~^:?*[\\".toList.contains c

/-- A tag of a remote: the id of its object and, for an annotated tag, of the commit that it finally
points to. -/
structure RemoteTag where
  name : String
  object : ObjectId
  peeled : Option ObjectId
  name_chars : name.toList.all isRefChar = true
  object_chars : object.text.toList.all Char.isAlphanum = true
  peeled_chars : (peeled.all fun id => id.text.toList.all Char.isAlphanum) = true

/-- The commit that a tag finally points to. -/
def RemoteTag.commit (t : RemoteTag) : ObjectId := t.peeled.getD t.object

/-- The line of the object of a tag. -/
def RemoteTag.objectLine (t : RemoteTag) : String :=
  t.object.text ++ "\t" ++ ("refs/tags/" ++ t.name)

/-- The line of the commit of an annotated tag. -/
def RemoteTag.peeledLine (t : RemoteTag) (commit : ObjectId) : String :=
  commit.text ++ "\t" ++ ("refs/tags/" ++ t.name ++ "^\x7b\x7d")

/-- The lines of tags. -/
def advertised (tags : List RemoteTag) : List String :=
  tags.flatMap fun t => t.objectLine :: (t.peeled.map t.peeledLine).toList

/-- The bytes of lines. -/
def output (ls : List String) : List UInt8 :=
  Utf8Lossy.encode (String.join (ls.map (· ++ "\n")))

/-- The body of the loop of `list_remote_tags`: the tag of a line, with the id in front of it. -/
def tagOfLine (line : String) : Option (String × String) :=
  match splitOnce line "\t" with
  | none => none
  | some (sha, ref) =>
    if "^\x7b\x7d".toList <:+ ref.toList then none
    else
      match stripPrefix "refs/tags/" ref with
      | none => none
      | some tag => if trim sha = "" then none else some (tag, trim sha)

/-- `list_remote_tags`, of what git prints. -/
def tagsOfOutput (stdout : List UInt8) : List (String × String) :=
  (lines (String.ofList (Utf8Lossy.decode stdout))).filterMap tagOfLine

/-- `resolve_version_constraint`, of what git prints. -/
def resolveIn (semver : Semver) (stdout : List UInt8) (constraint : String) :
    Option (String × String) :=
  bestVersionMatch semver (tagsOfOutput stdout) constraint

/-! ### Documented selection -/

section Selection

variable (semver : Semver) (req : semver.VersionReq)

/-- The name of the tag, without a `v` in front, is a version that satisfies the constraint. -/
def Satisfies (t : RemoteTag) (ver : semver.Version) : Prop :=
  semver.parseVersion ((stripPrefix "v" t.name).getD t.name) = some ver ∧
    semver.isMatch req ver = true

/-- The tag has the highest version that satisfies the constraint. -/
def IsHighest [LE semver.Version] (tags : List RemoteTag) (t : RemoteTag) : Prop :=
  t ∈ tags ∧ ∃ ver, Satisfies semver req t ver ∧
    ∀ t' ∈ tags, ∀ ver', Satisfies semver req t' ver' → ver' ≤ ver

/-- In every order of the lines, there is nothing exactly if no tag satisfies the constraint, and
what is selected is a tag of the highest version, with its commit. It is the same in all orders. -/
structure ResolvesRight [LE semver.Version] (tags : List RemoteTag) (constraint : String) :
    Prop where
  none_iff : ∀ ls, ls.Perm (advertised tags) →
    (resolveIn semver (output ls) constraint = none ↔
      ∀ t ∈ tags, ∀ ver, ¬ Satisfies semver req t ver)
  highest : ∀ ls, ls.Perm (advertised tags) →
    ∀ tag commit, resolveIn semver (output ls) constraint = some (tag, commit) →
      ∃ t, IsHighest semver req tags t ∧ t.name = tag ∧ t.commit.text = commit
  orderFree : ∀ ls ls', ls.Perm (advertised tags) → ls'.Perm (advertised tags) →
    resolveIn semver (output ls) constraint = resolveIn semver (output ls') constraint

end Selection

/-! ### Reading lines -/

theorem stripCarriageReturn_eq_self {line : List Char} (h : ∀ c ∈ line, c ≠ '\r') :
    stripCarriageReturn line = line := by
  rw [stripCarriageReturn, if_neg]
  intro hlast
  exact h '\r' (List.mem_of_getLast? hlast) rfl

/-- Lines without line feeds and carriage returns are read back. -/
theorem lines_join {ls : List String} (h : ∀ l ∈ ls, ∀ c ∈ l.toList, c ≠ '\n' ∧ c ≠ '\r') :
    lines (String.join (ls.map (· ++ "\n"))) = ls := by
  induction ls with
  | nil => rfl
  | cons l ls ih =>
    obtain ⟨hl, h⟩ := List.forall_mem_cons.mp h
    have htext : (String.join ((l :: ls).map (· ++ "\n"))).toList =
        l.toList ++ '\n' :: (String.join (ls.map (· ++ "\n"))).toList := by
      rw [List.map_cons, String.join_cons]
      simp
    have hrest : (linesAux [] (String.join (ls.map (· ++ "\n"))).toList).map String.ofList = ls :=
      ih h
    rw [lines, htext, linesAux_append, linesAux_singleton fun c hc => (hl c hc).1,
      List.nil_append, stripCarriageReturn_eq_self fun c hc => (hl c hc).2, List.map_append, hrest,
      List.map_singleton, String.ofList_toList, List.singleton_append]

theorem isRefChar_ne {c : Char} (h : isRefChar c = true) : 32 < c.toNat ∧ c ≠ '^' := by
  simp only [isRefChar, Bool.and_eq_true, decide_eq_true_iff] at h
  refine ⟨h.1.1, ?_⟩
  rintro rfl
  exact absurd h.2 (by decide)

/-- A character of a line is a letter, a digit, a tab, or one that a name may have. -/
theorem ne_of_gt {c d : Char} (h : 32 < c.toNat) (hd : d.toNat ≤ 32) : c ≠ d := by
  rintro rfl
  omega

theorem range_of_isAlphanum {c : Char} (h : c.isAlphanum = true) :
    32 < c.toNat ∧ c.toNat < 128 := by
  unfold Char.isAlphanum Char.isAlpha Char.isUpper Char.isLower Char.isDigit at h
  simp only [Bool.or_eq_true, Bool.and_eq_true, decide_eq_true_iff, ge_iff_le,
    UInt32.le_iff_toNat_le] at h
  change 32 < c.val.toNat ∧ c.val.toNat < 128
  simp only [UInt32.reduceToNat, Char.reduceVal] at h
  omega

section Lines

variable {t : RemoteTag}

theorem RemoteTag.name_gt (t : RemoteTag) : ∀ c ∈ t.name.toList, 32 < c.toNat ∧ c ≠ '^' :=
  fun c hc => isRefChar_ne (List.all_eq_true.mp t.name_chars c hc)

theorem RemoteTag.object_gt (t : RemoteTag) : ∀ c ∈ t.object.text.toList, 32 < c.toNat :=
  fun c hc => (range_of_isAlphanum (List.all_eq_true.mp t.object_chars c hc)).1

theorem RemoteTag.peeled_gt (t : RemoteTag) {commit : ObjectId} (h : t.peeled = some commit) :
    ∀ c ∈ commit.text.toList, 32 < c.toNat := by
  have hchars := t.peeled_chars
  rw [h] at hchars
  exact fun c hc => (range_of_isAlphanum (List.all_eq_true.mp hchars c hc)).1

/-- A line is cut at its tab. -/
theorem splitOnce_tab {id : String} (h : ∀ c ∈ id.toList, 32 < c.toNat) (ref : String) :
    splitOnce (id ++ "\t" ++ ref) "\t" = some (id, ref) := by
  have hchars : (id ++ "\t" ++ ref).toList = id.toList ++ ('\t' :: [] ++ ref.toList) := by simp
  have htab : "\t".toList = ['\t'] := rfl
  have hnot : '\t' ∉ id.toList := fun hmem => absurd (h '\t' hmem) (by decide)
  rw [splitOnce, hchars, htab, splitOnceAux_append [] hnot]
  simp

theorem trim_of_isAlphanum {s : String} (h : ∀ c ∈ s.toList, c.isAlphanum = true) :
    trim s = s := by
  have hall : ∀ n : Fin 128, (Char.ofNat n).isAlphanum = true →
      isWhitespace (Char.ofNat n) = false := by decide
  refine trim_eq_self fun c hc => ?_
  have hchar := hall ⟨c.toNat, (range_of_isAlphanum (h c hc)).2⟩
  rw [Char.ofNat_toNat] at hchar
  exact hchar (h c hc)

/-- The line of an object is read. -/
theorem tagOfLine_objectLine (t : RemoteTag) :
    tagOfLine t.objectLine = some (t.name, t.object.text) := by
  have hnot : ¬ "^\x7b\x7d".toList <:+ ("refs/tags/" ++ t.name).toList := by
    intro hsuffix
    have hmem : '^' ∈ ("refs/tags/" ++ t.name).toList := hsuffix.subset (by decide)
    rw [String.toList_append, List.mem_append] at hmem
    obtain hmem | hmem := hmem
    · exact absurd hmem (by decide)
    · exact (t.name_gt '^' hmem).2 rfl
  rw [tagOfLine, RemoteTag.objectLine, splitOnce_tab t.object_gt]
  dsimp only
  rw [if_neg hnot, stripPrefix_append]
  dsimp only
  rw [trim_of_isAlphanum (List.all_eq_true.mp t.object_chars), if_neg t.object.ne]

/-- The line of the commit of an annotated tag is skipped. -/
theorem tagOfLine_peeledLine {commit : ObjectId} (h : t.peeled = some commit) :
    tagOfLine (t.peeledLine commit) = none := by
  have hsuffix : "^\x7b\x7d".toList <:+ ("refs/tags/" ++ t.name ++ "^\x7b\x7d").toList := by
    rw [String.toList_append]
    exact List.suffix_append _ _
  rw [tagOfLine, RemoteTag.peeledLine, splitOnce_tab (t.peeled_gt h)]
  dsimp only
  rw [if_pos hsuffix]

/-- The lines of tags have no line feeds and no carriage returns. -/
theorem advertised_chars {tags : List RemoteTag} :
    ∀ l ∈ advertised tags, ∀ c ∈ l.toList, c ≠ '\n' ∧ c ≠ '\r' := by
  have hline (id ref : String) (hid : ∀ c ∈ id.toList, 32 < c.toNat)
      (href : ∀ c ∈ ref.toList, 32 < c.toNat) :
      ∀ c ∈ (id ++ "\t" ++ ref).toList, c ≠ '\n' ∧ c ≠ '\r' := by
    intro c hc
    rw [String.toList_append, String.toList_append, List.mem_append, List.mem_append] at hc
    obtain (hc | hc) | hc := hc
    · exact ⟨ne_of_gt (hid c hc) (by decide), ne_of_gt (hid c hc) (by decide)⟩
    · obtain rfl := List.mem_singleton.mp hc
      decide
    · exact ⟨ne_of_gt (href c hc) (by decide), ne_of_gt (href c hc) (by decide)⟩
  have hname (t : RemoteTag) : ∀ c ∈ ("refs/tags/" ++ t.name).toList, 32 < c.toNat := by
    have hrefs : ("refs/tags/".toList.all fun c => decide (32 < c.toNat)) = true := by decide
    intro c hc
    rw [String.toList_append, List.mem_append] at hc
    obtain hc | hc := hc
    · exact of_decide_eq_true (List.all_eq_true.mp hrefs c hc)
    · exact (t.name_gt c hc).1
  intro l hl
  obtain ⟨t, -, hl⟩ := List.mem_flatMap.mp hl
  obtain rfl | hl := List.mem_cons.mp hl
  · exact hline _ _ t.object_gt (hname t)
  · rw [Option.mem_toList, Option.map_eq_some_iff] at hl
    obtain ⟨commit, hcommit, rfl⟩ := hl
    refine hline _ _ (t.peeled_gt hcommit) fun c hc => ?_
    have hmark : ("^\x7b\x7d".toList.all fun c => decide (32 < c.toNat)) = true := by decide
    rw [String.toList_append, List.mem_append] at hc
    obtain hc | hc := hc
    · exact hname t c hc
    · exact of_decide_eq_true (List.all_eq_true.mp hmark c hc)

theorem filterMap_advertised (tags : List RemoteTag) :
    (advertised tags).filterMap tagOfLine = tags.map fun t => (t.name, t.object.text) := by
  induction tags with
  | nil => rfl
  | cons t tags ih =>
    have hpeeled : (t.peeled.map t.peeledLine).toList.filterMap tagOfLine = [] := by
      rw [List.filterMap_eq_nil_iff]
      intro l hl
      rw [Option.mem_toList, Option.map_eq_some_iff] at hl
      obtain ⟨commit, hcommit, rfl⟩ := hl
      exact tagOfLine_peeledLine hcommit
    have hcons : advertised (t :: tags) =
        t.objectLine :: ((t.peeled.map t.peeledLine).toList ++ advertised tags) := List.flatMap_cons
    rw [hcons, List.filterMap_cons_some (tagOfLine_objectLine t), List.filterMap_append, hpeeled,
      List.nil_append, ih, List.map_cons]

/-- **What is read of the lines of tags**, in any order: their names, with the ids of their
objects. -/
theorem tagsOfOutput_output {tags : List RemoteTag} {ls : List String}
    (h : ls.Perm (advertised tags)) :
    tagsOfOutput (output ls) = ls.filterMap tagOfLine := by
  rw [tagsOfOutput, output, Utf8Lossy.decode_encode, String.ofList_toList,
    lines_join fun l hl => advertised_chars l (h.mem_iff.mp hl)]

end Lines

/-! ### The selected tag -/

section Best

variable {semver : Semver} {req : semver.VersionReq}

/-- The version of a tag, if it satisfies the constraint. -/
def candidate (semver : Semver) (req : semver.VersionReq) (tag : String × String) :
    Option (semver.Version × String × String) :=
  (semver.parseVersion ((stripPrefix "v" tag.1).getD tag.1)).bind fun ver =>
    if semver.isMatch req ver = true then some (ver, tag) else none

theorem candidate_eq_some_iff {tag : String × String} {b : semver.Version × String × String} :
    candidate semver req tag = some b ↔
      semver.parseVersion ((stripPrefix "v" tag.1).getD tag.1) = some b.1 ∧
        semver.isMatch req b.1 = true ∧ b.2 = tag := by
  rw [candidate, Option.bind_eq_some_iff]
  constructor
  · rintro ⟨ver, hver, h⟩
    split at h
    · next hmatch =>
      obtain rfl := Option.some.inj h
      exact ⟨hver, hmatch, rfl⟩
    · cases h
  · rintro ⟨hver, hmatch, htag⟩
    refine ⟨b.1, hver, ?_⟩
    rw [if_pos hmatch, ← htag]

variable [LinearOrder semver.Version]

/-- The body of the loop of `best_version_match`. -/
theorem betterVersion_eq (hge : ∀ a b, semver.ge a b = true ↔ b ≤ a)
    (best : Option (semver.Version × String × String)) (tag : String × String) :
    betterVersion semver req best tag =
      (candidate semver req tag).elim best (List.argAux (fun b c => c.1 < b.1) best) := by
  rw [betterVersion, candidate]
  cases hver : semver.parseVersion ((stripPrefix "v" tag.1).getD tag.1) with
  | none => rfl
  | some ver =>
    rw [Option.bind_some]
    dsimp only
    by_cases hmatch : semver.isMatch req ver = true
    · rw [if_pos hmatch, if_pos hmatch]
      cases best with
      | none => rfl
      | some b =>
        show (if semver.ge b.1 ver = true then some b else some (ver, tag)) =
          if b.1 < ver then some (ver, tag) else some b
        by_cases hlt : b.1 < ver
        · rw [if_neg (by rw [hge]; exact not_le_of_gt hlt), if_pos hlt]
        · rw [if_pos ((hge _ _).mpr (not_lt.mp hlt)), if_neg hlt]
    · rw [if_neg hmatch, if_neg hmatch]
      rfl

/-- **The selected tag is the first of the highest.** -/
theorem bestVersionMatch_eq_argmax (hge : ∀ a b, semver.ge a b = true ↔ b ≤ a)
    {constraint : String} (hreq : semver.parseReq constraint = some req)
    (tags : List (String × String)) :
    bestVersionMatch semver tags constraint =
      ((tags.filterMap (candidate semver req)).argmax Prod.fst).map Prod.snd := by
  have hfold (best : Option (semver.Version × String × String)) :
      tags.foldl (betterVersion semver req) best =
        (tags.filterMap (candidate semver req)).foldl (List.argAux fun b c => c.1 < b.1) best := by
    induction tags generalizing best with
    | nil => rfl
    | cons tag tags ih =>
      rw [List.foldl_cons, ih, betterVersion_eq hge]
      cases hcandidate : candidate semver req tag with
      | none => rw [List.filterMap_cons_none hcandidate, Option.elim_none]
      | some b => rw [List.filterMap_cons_some hcandidate, Option.elim_some, List.foldl_cons]
  rw [bestVersionMatch, hreq]
  exact congrArg (Option.map Prod.snd) (hfold none)

end Best

/-- A first element that none exceeds is the largest. -/
theorem argmax_cons_of_le {α β : Type} [LinearOrder β] {f : α → β} {a : α} {l : List α}
    (h : ∀ b ∈ l, f b ≤ f a) : (a :: l).argmax f = some a := by
  classical
  refine List.argmax_eq_some_iff.mpr ⟨List.mem_cons_self, fun b hb => ?_, fun b _ _ => ?_⟩
  · obtain rfl | hb := List.mem_cons.mp hb
    · exact le_refl _
    · exact h b hb
  · rw [List.idxOf_cons_self]
    exact Nat.zero_le _

section Resolution

variable {semver : Semver} {req : semver.VersionReq} {tags : List RemoteTag} {constraint : String}
  {ls : List String}

/-- The versions of the tags that satisfy the constraint, with what is read of the tags. -/
theorem mem_candidates_iff (hls : ls.Perm (advertised tags))
    {b : semver.Version × String × String} :
    b ∈ (tagsOfOutput (output ls)).filterMap (candidate semver req) ↔
      ∃ t ∈ tags, Satisfies semver req t b.1 ∧ b.2 = (t.name, t.object.text) := by
  have hperm : (tagsOfOutput (output ls)).Perm (tags.map fun t => (t.name, t.object.text)) := by
    rw [tagsOfOutput_output hls, ← filterMap_advertised]
    exact hls.filterMap _
  rw [List.mem_filterMap]
  constructor
  · rintro ⟨tag, htag, hb⟩
    obtain ⟨t, ht, rfl⟩ := List.mem_map.mp (hperm.mem_iff.mp htag)
    obtain ⟨hver, hmatch, hpair⟩ := candidate_eq_some_iff.mp hb
    exact ⟨t, ht, ⟨hver, hmatch⟩, hpair⟩
  · rintro ⟨t, ht, ⟨hver, hmatch⟩, hpair⟩
    exact ⟨_, hperm.mem_iff.mpr (List.mem_map_of_mem ht),
      candidate_eq_some_iff.mpr ⟨hver, hmatch, hpair⟩⟩

variable [LinearOrder semver.Version]

/-- There is nothing exactly if no tag satisfies the constraint. -/
theorem resolveIn_eq_none_iff (hge : ∀ a b, semver.ge a b = true ↔ b ≤ a)
    (hreq : semver.parseReq constraint = some req) (hls : ls.Perm (advertised tags)) :
    resolveIn semver (output ls) constraint = none ↔
      ∀ t ∈ tags, ∀ ver, ¬ Satisfies semver req t ver := by
  rw [resolveIn, bestVersionMatch_eq_argmax hge hreq, Option.map_eq_none_iff, List.argmax_eq_none,
    List.eq_nil_iff_forall_not_mem]
  constructor
  · intro h t ht ver hver
    exact h (ver, t.name, t.object.text) ((mem_candidates_iff hls).mpr ⟨t, ht, hver, rfl⟩)
  · intro h b hb
    obtain ⟨t, ht, hver, -⟩ := (mem_candidates_iff hls).mp hb
    exact h t ht b.1 hver

/-- What is selected is a tag of the highest version, with the id of its object. -/
theorem exists_isHighest_of_resolveIn (hge : ∀ a b, semver.ge a b = true ↔ b ≤ a)
    (hreq : semver.parseReq constraint = some req) (hls : ls.Perm (advertised tags))
    {pair : String × String} (h : resolveIn semver (output ls) constraint = some pair) :
    ∃ t, IsHighest semver req tags t ∧ pair = (t.name, t.object.text) := by
  rw [resolveIn, bestVersionMatch_eq_argmax hge hreq, Option.map_eq_some_iff] at h
  obtain ⟨b, hb, rfl⟩ := h
  obtain ⟨t, ht, hver, hpair⟩ := (mem_candidates_iff hls).mp (List.argmax_mem hb)
  refine ⟨t, ⟨ht, b.1, hver, fun t' ht' ver' hver' => ?_⟩, hpair⟩
  exact List.le_of_mem_argmax
    ((mem_candidates_iff hls).mpr ⟨t', ht', hver', rfl⟩ :
      (ver', t'.name, t'.object.text) ∈ _) hb

/-- A tag of the highest version is selected if its lines are the first. -/
theorem resolveIn_of_first (hge : ∀ a b, semver.ge a b = true ↔ b ≤ a)
    (hreq : semver.parseReq constraint = some req) {t : RemoteTag}
    (h : IsHighest semver req (t :: tags) t) :
    resolveIn semver (output (advertised (t :: tags))) constraint =
      some (t.name, t.object.text) := by
  obtain ⟨-, ver, hver, hmax⟩ := h
  have hfirst : candidate semver req (t.name, t.object.text) =
      some (ver, t.name, t.object.text) := candidate_eq_some_iff.mpr ⟨hver.1, hver.2, rfl⟩
  obtain ⟨rest, hcandidates⟩ : ∃ rest, (tagsOfOutput (output (advertised (t :: tags)))).filterMap
      (candidate semver req) = (ver, t.name, t.object.text) :: rest := by
    rw [tagsOfOutput_output (List.Perm.refl _), filterMap_advertised, List.map_cons,
      List.filterMap_cons_some hfirst]
    exact ⟨_, rfl⟩
  have hbest : ((ver, t.name, t.object.text) :: rest).argmax Prod.fst =
      some (ver, t.name, t.object.text) := by
    refine argmax_cons_of_le fun b hb => ?_
    have hmem := List.mem_cons_of_mem (ver, t.name, t.object.text) hb
    rw [← hcandidates] at hmem
    obtain ⟨t', ht', hver', -⟩ := (mem_candidates_iff (List.Perm.refl _)).mp hmem
    exact hmax t' ht' b.1 hver'
  rw [resolveIn, bestVersionMatch_eq_argmax hge hreq, hcandidates, hbest, Option.map_some]

theorem IsHighest.perm {tags' : List RemoteTag} (hperm : tags.Perm tags') {t : RemoteTag}
    (h : IsHighest semver req tags t) : IsHighest semver req tags' t := by
  obtain ⟨ht, ver, hver, hmax⟩ := h
  exact ⟨hperm.mem_iff.mp ht, ver, hver,
    fun t' ht' ver' hver' => hmax t' (hperm.mem_iff.mpr ht') ver' hver'⟩

theorem isHighest_singleton {t : RemoteTag} {ver : semver.Version}
    (h : Satisfies semver req t ver) : IsHighest semver req [t] t := by
  refine ⟨List.mem_singleton_self t, ver, h, fun t' ht' ver' hver' => ?_⟩
  rw [List.mem_singleton.mp ht'] at hver'
  rw [Option.some.inj (hver'.1.symm.trans h.1)]

/-- In some order of the lines a tag of the highest version is selected. -/
theorem exists_order_of_isHighest (hge : ∀ a b, semver.ge a b = true ↔ b ≤ a)
    (hreq : semver.parseReq constraint = some req) {t : RemoteTag}
    (h : IsHighest semver req tags t) :
    ∃ ls, ls.Perm (advertised tags) ∧
      resolveIn semver (output ls) constraint = some (t.name, t.object.text) := by
  obtain ⟨before, after, rfl⟩ := List.append_of_mem h.1
  have hperm : (before ++ t :: after).Perm (t :: (before ++ after)) := List.perm_middle
  exact ⟨advertised (t :: (before ++ after)), (hperm.flatMap_right _).symm,
    resolveIn_of_first hge hreq (h.perm hperm)⟩

end Resolution

/-- **When a constraint is resolved as documented**: one tag at most has the highest version, and it
is not annotated, or its object is its commit. -/
theorem resolves_right_iff (semver : Semver) [LinearOrder semver.Version]
    (hge : ∀ a b, semver.ge a b = true ↔ b ≤ a) (tags : List RemoteTag)
    (hnames : (tags.map RemoteTag.name).Nodup) (constraint : String) (req : semver.VersionReq)
    (hreq : semver.parseReq constraint = some req) :
    ResolvesRight semver req tags constraint ↔
      (∀ t t', IsHighest semver req tags t → IsHighest semver req tags t' → t = t') ∧
        ∀ t, IsHighest semver req tags t → t.commit = t.object := by
  have hname {t t' : RemoteTag} (ht : IsHighest semver req tags t)
      (ht' : IsHighest semver req tags t') (h : t.name = t'.name) : t = t' :=
    List.inj_on_of_nodup_map hnames ht.1 ht'.1 h
  constructor
  · intro h
    refine ⟨fun t t' ht ht' => ?_, fun t ht => ?_⟩
    · obtain ⟨ls, hls, hresolve⟩ := exists_order_of_isHighest hge hreq ht
      obtain ⟨ls', hls', hresolve'⟩ := exists_order_of_isHighest hge hreq ht'
      have hsame := h.orderFree ls ls' hls hls'
      rw [hresolve, hresolve'] at hsame
      exact hname ht ht' (congrArg Prod.fst (Option.some.inj hsame))
    · obtain ⟨ls, hls, hresolve⟩ := exists_order_of_isHighest hge hreq ht
      obtain ⟨t', ht', hname', hcommit⟩ := h.highest ls hls _ _ hresolve
      obtain rfl := hname ht' ht hname'
      exact ObjectId.text_injective hcommit
  · rintro ⟨hunique, hcommit⟩
    refine ⟨fun ls hls => resolveIn_eq_none_iff hge hreq hls, fun ls hls tag commit hresolve => ?_,
      fun ls ls' hls hls' => ?_⟩
    · obtain ⟨t, ht, hpair⟩ := exists_isHighest_of_resolveIn hge hreq hls hresolve
      obtain ⟨rfl, rfl⟩ := Prod.mk.inj hpair
      exact ⟨t, ht, rfl, by rw [hcommit t ht]⟩
    · cases hresolve : resolveIn semver (output ls) constraint with
      | none =>
        have hnone := (resolveIn_eq_none_iff hge hreq hls).mp hresolve
        exact ((resolveIn_eq_none_iff hge hreq hls').mpr hnone).symm
      | some pair =>
        obtain ⟨t, ht, rfl⟩ := exists_isHighest_of_resolveIn hge hreq hls hresolve
        cases hresolve' : resolveIn semver (output ls') constraint with
        | none =>
          obtain ⟨ht, ver, hver, -⟩ := ht
          exact absurd hver ((resolveIn_eq_none_iff hge hreq hls').mp hresolve' t ht ver)
        | some pair' =>
          obtain ⟨t', ht', rfl⟩ := exists_isHighest_of_resolveIn hge hreq hls' hresolve'
          rw [hunique t t' ht ht']

/-! ### An annotated tag -/

/-- Three versions, and the constraint `^1.0`. -/
def threeVersions : Semver where
  Version := ℕ
  VersionReq := Unit
  parseVersion s :=
    if s = "1.0.0" then some 0 else if s = "1.5.0" then some 1 else if s = "2.0.0" then some 2
      else none
  parseReq s := if s = "^1.0" then some () else none
  isMatch _ ver := decide (ver < (2 : ℕ))
  ge a b := decide ((b : ℕ) ≤ a)

instance : LinearOrder threeVersions.Version := inferInstanceAs (LinearOrder ℕ)

theorem threeVersions_ge (a b : threeVersions.Version) :
    threeVersions.ge a b = true ↔ b ≤ a :=
  @decide_eq_true_iff ((b : ℕ) ≤ (a : ℕ)) (Nat.decLe b a)

/-- A tag of version 1.5.0. -/
def releaseTag (peeled : Option ObjectId)
    (h : (peeled.all fun id => id.text.toList.all Char.isAlphanum) = true) : RemoteTag where
  name := "v1.5.0"
  object := ⟨"4a7c", by decide⟩
  peeled := peeled
  name_chars := by decide
  object_chars := by decide
  peeled_chars := h

/-- The annotated one. -/
def annotatedTag : RemoteTag := releaseTag (some ⟨"c0de", by decide⟩) (by decide)

/-- Three lightweight tags, whose second one has the highest version that `^1.0` allows. -/
def releaseTags : List RemoteTag := [
  ⟨"v1.0.0", ⟨"1b2d", by decide⟩, none, by decide, by decide, rfl⟩,
  releaseTag none rfl,
  ⟨"v2.0.0", ⟨"9e01", by decide⟩, none, by decide, by decide, rfl⟩]

theorem eq_of_isHighest_releaseTags {t : RemoteTag} (h : IsHighest threeVersions () releaseTags t) :
    t = releaseTag none rfl := by
  obtain ⟨ht, ver, ⟨hver, hmatch⟩, hmax⟩ := h
  have hle : (1 : ℕ) ≤ ver :=
    hmax (releaseTag none rfl) (List.mem_cons_of_mem _ List.mem_cons_self) (1 : ℕ) ⟨rfl, rfl⟩
  simp only [releaseTags, List.mem_cons, List.not_mem_nil, or_false] at ht
  obtain rfl | rfl | rfl := ht
  · obtain rfl : (0 : ℕ) = ver := Option.some.inj hver
    exact absurd hle (by decide)
  · rfl
  · obtain rfl : (2 : ℕ) = ver := Option.some.inj hver
    exact absurd hmatch (by decide)

/-- One of three lightweight tags is resolved to. -/
theorem resolves_right_lightweight :
    ResolvesRight threeVersions () releaseTags "^1.0" := by
  refine (resolves_right_iff threeVersions threeVersions_ge _ (by decide) _ _ rfl).mpr
    ⟨fun t t' ht ht' => ?_, fun t ht => ?_⟩
  · rw [eq_of_isHighest_releaseTags ht, eq_of_isHighest_releaseTags ht']
  · rw [eq_of_isHighest_releaseTags ht]
    rfl

/-- An annotated tag comes with the id of its object, and not with its commit. -/
theorem not_resolves_right_annotated :
    ¬ ∀ (semver : Semver) [LinearOrder semver.Version],
      (∀ a b, semver.ge a b = true ↔ b ≤ a) → ∀ tags : List RemoteTag,
      (tags.map RemoteTag.name).Nodup → ∀ (constraint : String) (req : semver.VersionReq),
      semver.parseReq constraint = some req → ResolvesRight semver req tags constraint := by
  intro h
  have hright := h threeVersions threeVersions_ge [annotatedTag] (by decide) "^1.0" () rfl
  have hversion : Satisfies threeVersions () annotatedTag (1 : ℕ) := ⟨rfl, rfl⟩
  obtain ⟨ls, hls, hresolve⟩ := exists_order_of_isHighest threeVersions_ge
    (show threeVersions.parseReq "^1.0" = some () from rfl) (isHighest_singleton hversion)
  obtain ⟨t, ht, -, hcommit⟩ := hright.highest ls hls _ _ hresolve
  rw [List.mem_singleton.mp ht.1] at hcommit
  exact absurd hcommit (by decide)

end SorobanDevkit.Core
