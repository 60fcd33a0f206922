import SorobanDevkit.Core.Manifest

/-!
# The grammar of versions

`validate_version_format` splits a version at the first `+` or `-` and looks at the part before
alone. Its documentation promises the common shape of semantic versions.

## Main results

* `validateVersionFormat_eq_ok_iff` — what is accepted.
* `semverShape_iff` — the shape by the two parts.
* `version_grammar_iff` — the versions that are accepted exactly if they have the shape.
-/

namespace SorobanDevkit.Core

open Strings

/-! ### The shape -/

/-- A number without leading zeros. -/
structure NumericIdentifier (cs : List Char) : Prop where
  ne_nil : cs ≠ []
  digits : ∀ c ∈ cs, c.isDigit = true
  leading : cs.head? = some '0' → cs.length ≤ 1

/-- A letter or a digit of ASCII, or a hyphen. -/
def isIdentifierChar (c : Char) : Bool := c.isAlphanum || c == '-'

/-- A list of identifiers that are not empty, which is not empty either. -/
structure Identifiers (ids : List (List Char)) : Prop where
  ne_nil : ids ≠ []
  identifier : ∀ id ∈ ids, id ≠ [] ∧ ∀ c ∈ id, isIdentifierChar c = true

/-- A list of texts, with dots between them. -/
def dotted (texts : List (List Char)) : List Char := List.intercalate ['.'] texts

/-- Identifiers after a mark, or nothing. -/
def marked (mark : Char) : Option (List (List Char)) → List Char
  | none => []
  | some ids => mark :: dotted ids

/-- Three numbers. -/
def IsCore (cs : List Char) : Prop :=
  ∃ major minor patch, NumericIdentifier major ∧ NumericIdentifier minor ∧
    NumericIdentifier patch ∧ cs = dotted [major, minor, patch]

/-- Identifiers of a pre-release, and of a build, if there are any. -/
def IsSuffix (cs : List Char) : Prop :=
  ∃ pre build, (∀ ids ∈ pre, Identifiers ids) ∧ (∀ ids ∈ build, Identifiers ids) ∧
    cs = marked '-' pre ++ marked '+' build

/-- `MAJOR.MINOR.PATCH`, with an optional pre-release and optional build metadata. -/
def SemverShape (version : String) : Prop :=
  ∃ core suffix, version.toList = core ++ suffix ∧ IsCore core ∧ IsSuffix suffix

/-! ### The two parts -/

/-- A character that ends the core. -/
def endsCore (c : Char) : Bool := c == '+' || c == '-'

/-- What is before the first `+` or `-`. -/
def coreText (version : String) : List Char := (trim version).toList.takeWhile (!endsCore ·)

/-- What is from the first `+` or `-` on. -/
def suffixText (version : String) : List Char := (trim version).toList.dropWhile (!endsCore ·)

theorem coreText_append_suffixText (version : String) :
    coreText version ++ suffixText version = (trim version).toList :=
  List.takeWhile_append_dropWhile

theorem head_splitAtAux (p : Char → Bool) (acc cs : List Char) :
    (splitAtAux p acc cs).head? = some (acc ++ cs.takeWhile (!p ·)) := by
  induction cs generalizing acc with
  | nil => simp [splitAtAux]
  | cons c cs ih =>
    rw [splitAtAux]
    by_cases hc : p c
    · simp [hc]
    · simp [hc, ih]

theorem dotted_cons {text : List Char} {texts : List (List Char)} (h : texts ≠ []) :
    dotted (text :: texts) = text ++ '.' :: dotted texts := by
  rw [dotted, List.intercalate_cons_of_ne_nil h]
  simp [dotted]

/-- The pieces, with the separator between them, are the text. -/
theorem dotted_splitAtAux (acc cs : List Char) :
    dotted (splitAtAux (· == '.') acc cs) = acc ++ cs := by
  induction cs generalizing acc with
  | nil => simp [splitAtAux, dotted]
  | cons c cs ih =>
    rw [splitAtAux]
    by_cases hc : c = '.'
    · have hne : splitAtAux (· == '.') [] cs ≠ [] := fun hnil => by
        have hhead := head_splitAtAux (· == '.') [] cs
        rw [hnil] at hhead
        cases hhead
      rw [if_pos (by simp [hc]), dotted_cons hne, ih, hc, List.nil_append]
    · rw [if_neg (by simp [hc]), ih, List.append_assoc, List.singleton_append]

theorem dotted_three (a b c : List Char) : dotted [a, b, c] = a ++ '.' :: (b ++ '.' :: c) := by
  rw [dotted_cons (List.cons_ne_nil _ _), dotted_cons (List.cons_ne_nil _ _), dotted,
    List.intercalate_singleton]

/-- The pieces of a core are its numbers. -/
theorem splitAtAux_dotted_three {a b c : List Char} (ha : ∀ x ∈ a, (x == '.') = false)
    (hb : ∀ x ∈ b, (x == '.') = false) (hc : ∀ x ∈ c, (x == '.') = false) :
    splitAtAux (· == '.') [] (dotted [a, b, c]) = [a, b, c] := by
  rw [dotted_three, splitAtAux_append_cons ha rfl, splitAtAux_append_cons hb rfl,
    splitAtAux_of_forall hc]
  rfl

theorem NumericIdentifier.ne_dot {cs : List Char} (h : NumericIdentifier cs) :
    ∀ c ∈ cs, (c == '.') = false := by
  intro c hc
  have hdigit := h.digits c hc
  by_contra hdot
  have heq : c = '.' := by simpa using hdot
  rw [heq] at hdigit
  cases hdigit

/-- The checks of a piece. -/
theorem numericIdentifier_iff {cs : List Char} : NumericIdentifier cs ↔
    (String.ofList cs == "" || !(String.ofList cs).toList.all fun c => '0' ≤ c && c ≤ '9') = false ∧
      (decide (1 < (String.ofList cs).length) && (String.ofList cs).toList.head? == some '0') =
        false := by
  have hempty : String.ofList cs = "" ↔ cs = [] := by
    rw [← String.toList_inj, String.toList_ofList, String.toList_empty]
  have hdigit : ∀ c : Char, c.isDigit = (decide ('0' ≤ c) && decide (c ≤ '9')) := fun c => rfl
  rw [String.length_ofList, String.toList_ofList]
  constructor
  · rintro ⟨hne, hdigits, hleading⟩
    refine ⟨?_, ?_⟩
    · rw [Bool.or_eq_false_iff, Bool.not_eq_false', List.all_eq_true]
      exact ⟨by simpa [hempty] using hne, fun c hc => (hdigit c).symm.trans (hdigits c hc)⟩
    · by_contra htrue
      simp only [Bool.not_eq_false, Bool.and_eq_true, decide_eq_true_eq, beq_iff_eq] at htrue
      have hle := hleading htrue.2
      omega
  · rintro ⟨hpiece, hleading⟩
    rw [Bool.or_eq_false_iff, Bool.not_eq_false', List.all_eq_true] at hpiece
    refine ⟨by simpa [hempty] using hpiece.1, fun c hc => (hdigit c).trans (hpiece.2 c hc),
      fun hhead => ?_⟩
    rw [Bool.and_eq_false_iff, decide_eq_false_iff_not, beq_eq_false_iff_ne] at hleading
    have hnot := hleading.resolve_right (not_not.mpr hhead)
    omega

/-- **What is accepted**: the core has the shape. -/
theorem validateVersionFormat_eq_ok_iff {version : String} :
    validateVersionFormat version = .ok () ↔ IsCore (coreText version) := by
  have hparts : splitAt (· == '.') ((splitAt (fun c => c == '+' || c == '-') (trim version)).headD
      (trim version)) = (splitAtAux (· == '.') [] (coreText version)).map String.ofList := by
    have hhead := head_splitAtAux endsCore [] (trim version).toList
    obtain ⟨rest, hrest⟩ := List.head?_eq_some_iff.mp hhead
    have hcore : (splitAt (fun c => c == '+' || c == '-') (trim version)).headD (trim version) =
        String.ofList (coreText version) := by
      show ((splitAtAux endsCore [] (trim version).toList).map String.ofList).headD _ = _
      rw [hrest]
      rfl
    rw [hcore, splitAt, String.toList_ofList]
  unfold validateVersionFormat
  simp only [hparts]
  constructor
  · intro h
    split at h
    · cases h
    · split at h
      · cases h
      · next hlength =>
        split at h
        · cases h
        · next hany =>
          split at h
          · cases h
          · next hany' =>
            rw [not_not, List.length_map] at hlength
            obtain ⟨a, b, c, habc⟩ := List.length_eq_three.mp hlength
            have hcore := dotted_splitAtAux [] (coreText version)
            rw [habc, List.nil_append] at hcore
            have hpiece : ∀ p ∈ [a, b, c], NumericIdentifier p := by
              intro p hp
              rw [habc, List.any_map, Bool.not_eq_true, List.any_eq_false] at hany hany'
              exact numericIdentifier_iff.mpr ⟨by simpa using hany p hp, by simpa using hany' p hp⟩
            exact ⟨a, b, c, hpiece a (by simp), hpiece b (by simp), hpiece c (by simp), hcore.symm⟩
  · rintro ⟨a, b, c, ha, hb, hc, hcore⟩
    have hne : trim version ≠ "" := by
      intro hempty
      rw [coreText, hempty, dotted_three] at hcore
      simp at hcore
    have hsplit : splitAtAux (· == '.') [] (coreText version) = [a, b, c] := by
      rw [hcore, splitAtAux_dotted_three ha.ne_dot hb.ne_dot hc.ne_dot]
    have hpiece : ∀ p ∈ [a, b, c], NumericIdentifier p := by
      intro p hp
      simp only [List.mem_cons, List.not_mem_nil, or_false] at hp
      rcases hp with rfl | rfl | rfl
      · exact ha
      · exact hb
      · exact hc
    rw [if_neg hne, hsplit, if_neg (by simp), if_neg, if_neg]
    · rw [List.any_map, Bool.not_eq_true, List.any_eq_false]
      exact fun p hp => by simpa using (numericIdentifier_iff.mp (hpiece p hp)).2
    · rw [List.any_map, Bool.not_eq_true, List.any_eq_false]
      exact fun p hp => by simpa using (numericIdentifier_iff.mp (hpiece p hp)).1

/-! ### The shape by the parts -/

theorem mem_dotted {texts : List (List Char)} {c : Char} (h : c ∈ dotted texts) :
    c = '.' ∨ ∃ text ∈ texts, c ∈ text := by
  induction texts with
  | nil => cases h
  | cons text texts ih =>
    by_cases hnil : texts = []
    · rw [hnil, dotted, List.intercalate_singleton] at h
      exact .inr ⟨text, List.mem_cons_self, h⟩
    · rw [dotted_cons hnil, List.mem_append, List.mem_cons] at h
      rcases h with h | h | h
      · exact .inr ⟨text, List.mem_cons_self, h⟩
      · exact .inl h
      · rcases ih h with hdot | ⟨text', htext', hc⟩
        · exact .inl hdot
        · exact .inr ⟨text', List.mem_cons_of_mem _ htext', hc⟩

/-- A character of a core is a digit or a dot. -/
theorem IsCore.mem {cs : List Char} (h : IsCore cs) {c : Char} (hc : c ∈ cs) :
    c.isDigit = true ∨ c = '.' := by
  obtain ⟨major, minor, patch, hmajor, hminor, hpatch, rfl⟩ := h
  rcases mem_dotted hc with hdot | ⟨text, htext, hmem⟩
  · exact .inr hdot
  · simp only [List.mem_cons, List.not_mem_nil, or_false] at htext
    rcases htext with rfl | rfl | rfl
    · exact .inl (hmajor.digits c hmem)
    · exact .inl (hminor.digits c hmem)
    · exact .inl (hpatch.digits c hmem)

theorem mem_marked {mark : Char} {ids : Option (List (List Char))}
    (hids : ∀ l ∈ ids, Identifiers l) {c : Char} (hc : c ∈ marked mark ids) :
    c = mark ∨ c = '.' ∨ isIdentifierChar c = true := by
  cases ids with
  | none => cases hc
  | some l =>
    rw [marked, List.mem_cons] at hc
    rcases hc with hc | hc
    · exact .inl hc
    · rcases mem_dotted hc with hdot | ⟨text, htext, hc⟩
      · exact .inr (.inl hdot)
      · exact .inr (.inr (((hids l rfl).identifier text htext).2 c hc))

/-- A character of a suffix is a mark, a dot or in an identifier. -/
theorem IsSuffix.mem {cs : List Char} (h : IsSuffix cs) {c : Char} (hc : c ∈ cs) :
    c = '-' ∨ c = '+' ∨ c = '.' ∨ isIdentifierChar c = true := by
  obtain ⟨pre, build, hpre, hbuild, rfl⟩ := h
  rcases List.mem_append.mp hc with hc | hc
  · rcases mem_marked hpre hc with hc | hc
    · exact .inl hc
    · exact .inr (.inr hc)
  · rcases mem_marked hbuild hc with hc | hc
    · exact .inr (.inl hc)
    · exact .inr (.inr hc)

/-- A suffix that is not empty starts with a mark. -/
theorem IsSuffix.head {c : Char} {cs : List Char} (h : IsSuffix (c :: cs)) : endsCore c = true := by
  obtain ⟨pre, build, -, -, heq⟩ := h
  cases pre with
  | some ids =>
    obtain ⟨rfl, -⟩ := List.cons.inj heq
    rfl
  | none =>
    cases build with
    | some ids =>
      obtain ⟨rfl, -⟩ := List.cons.inj heq
      rfl
    | none => cases heq

theorem toNat_of_isIdentifierChar {c : Char} (h : isIdentifierChar c = true) :
    33 ≤ c.toNat ∧ c.toNat ≤ 126 := by
  have hclasses : isIdentifierChar c = ((decide (c.val ≥ 'A'.val ∧ c.val ≤ 'Z'.val) ||
      (decide (c.val ≥ 'a'.val) && decide (c.val ≤ 'z'.val)) ||
      (decide (c.val ≥ '0'.val) && decide (c.val ≤ '9'.val))) || c == '-') := rfl
  simp only [hclasses, Bool.or_eq_true, Bool.and_eq_true, decide_eq_true_eq, beq_iff_eq,
    UInt32.le_iff_toNat_le, ge_iff_le] at h
  rcases h with h | rfl
  · have hval : c.val.toNat = c.toNat := rfl
    simp at h
    omega
  · decide

theorem isWhitespace_eq_false {c : Char} (h : 33 ≤ c.toNat ∧ c.toNat ≤ 126) :
    isWhitespace c = false := by
  simp only [isWhitespace, Bool.or_eq_false_iff, Bool.and_eq_false_iff, decide_eq_false_iff_not,
    beq_eq_false_iff_ne]
  omega

/-- **The shape by the two parts.** -/
theorem semverShape_iff {version : String} : SemverShape version ↔
    trim version = version ∧ IsCore (coreText version) ∧ IsSuffix (suffixText version) := by
  constructor
  · rintro ⟨core, suffix, heq, hcore, hsuffix⟩
    have hprintable : ∀ c ∈ version.toList, isWhitespace c = false := by
      intro c hc
      have hchar : c = '.' ∨ c = '+' ∨ isIdentifierChar c = true := by
        rw [heq, List.mem_append] at hc
        rcases hc with hc | hc
        · rcases hcore.mem hc with hdigit | hdot
          · exact .inr (.inr (by simp [isIdentifierChar, Char.isAlphanum, hdigit]))
          · exact .inl hdot
        · rcases hsuffix.mem hc with rfl | hplus | hdot | hid
          · exact .inr (.inr rfl)
          · exact .inr (.inl hplus)
          · exact .inl hdot
          · exact .inr (.inr hid)
      rcases hchar with rfl | rfl | hid
      · rfl
      · rfl
      · exact isWhitespace_eq_false (toNat_of_isIdentifierChar hid)
    have htrim := trim_eq_self hprintable
    have hkeep : ∀ c ∈ core, (!endsCore c) = true := by
      intro c hc
      rcases hcore.mem hc with hdigit | rfl
      · by_contra hends
        simp only [endsCore, Bool.not_eq_true', Bool.not_eq_false, Bool.or_eq_true,
          beq_iff_eq] at hends
        rcases hends with rfl | rfl
        · cases hdigit
        · cases hdigit
      · rfl
    refine ⟨htrim, ?_, ?_⟩
    · rw [coreText, htrim, heq, List.takeWhile_append_of_pos hkeep]
      cases suffix with
      | nil => rwa [List.takeWhile_nil, List.append_nil]
      | cons c cs => rwa [List.takeWhile_cons_of_neg (by simp [hsuffix.head]), List.append_nil]
    · rw [suffixText, htrim, heq, List.dropWhile_append_of_pos hkeep]
      cases suffix with
      | nil => exact hsuffix
      | cons c cs => rwa [List.dropWhile_cons_of_neg (by simp [hsuffix.head])]
  · rintro ⟨htrim, hcore, hsuffix⟩
    exact ⟨_, _, by rw [coreText_append_suffixText, htrim], hcore, hsuffix⟩

/-- **A version is accepted exactly if it has the shape**, exactly if a version with a proper core
has no white space around it and a proper suffix. -/
theorem version_grammar_iff (version : String) :
    (validateVersionFormat version = .ok () ↔ SemverShape version) ↔
      (IsCore (coreText version) → trim version = version ∧ IsSuffix (suffixText version)) := by
  rw [validateVersionFormat_eq_ok_iff, semverShape_iff]
  constructor
  · intro h hcore
    obtain ⟨htrim, -, hsuffix⟩ := h.mp hcore
    exact ⟨htrim, hsuffix⟩
  · intro h
    exact ⟨fun hcore => ⟨(h hcore).1, hcore, (h hcore).2⟩, fun hshape => hshape.2.1⟩

/-- A hyphen without a pre-release is accepted. -/
theorem bare_hyphen_accepted :
    validateVersionFormat "1.2.3-" = .ok () ∧ ¬ SemverShape "1.2.3-" := by
  refine ⟨by decide, fun h => ?_⟩
  have hsuffix : suffixText "1.2.3-" = ['-'] := by decide
  obtain ⟨-, -, pre, build, hpre, -, heq⟩ := semverShape_iff.mp h
  rw [hsuffix] at heq
  cases pre with
  | none =>
    cases build with
    | none => cases heq
    | some ids => cases heq
  | some ids =>
    obtain ⟨-, htail⟩ := List.cons.inj heq
    obtain ⟨hdotted, -⟩ := List.append_eq_nil_iff.mp htail.symm
    obtain ⟨hne, hids⟩ := hpre ids rfl
    cases ids with
    | nil => exact hne rfl
    | cons id ids =>
      have hid := (hids id List.mem_cons_self).1
      by_cases hnil : ids = []
      · rw [hnil, dotted, List.intercalate_singleton] at hdotted
        exact hid hdotted
      · rw [dotted_cons hnil] at hdotted
        simp at hdotted

end SorobanDevkit.Core
