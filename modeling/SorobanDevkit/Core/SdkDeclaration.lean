import Mathlib.Data.List.TakeWhile
import SorobanDevkit.Core.Build
import SorobanDevkit.Core.SdkRequirement

/-!
# Manifests that declare the contract SDK once

A manifest declares the SDK with a plain string, with an inline table in one line, or with a table
of its own. Whether the scan then goes by the declared version depends on what else is in the
manifest, and on how the line with the version is written.

## Main results

* `parseLeadingVersion_of_isRequirement` — the leading number is read.
* `Declaration.exact_iff` — in which manifests it decides.
* `ownDependency_iff` — when only the dependency on the SDK decides.
-/

namespace SorobanDevkit.Core

open Strings

/-! ### Requirements -/

/-- A version requirement, as it is written between quotation marks, and its leading number. Numbers
have 64 bits. -/
def IsRequirement (req : Line) (n : ℕ) : Prop :=
  ∃ ops digits rest, req = ops ++ (digits ++ rest) ∧
    (∀ c ∈ ops, c ∈ ['=', '^', '~', '>', '<', ' ']) ∧
    digits ≠ [] ∧ (∀ c ∈ digits, c.isDigit = true) ∧
    (∀ c ∈ rest.head?, c.isDigit = false) ∧
    (∀ c ∈ rest, c ∉ ['"', '\'', '\\', '\n']) ∧
    n = Nat.ofDigitChars 10 digits 0 ∧ n ≤ 18446744073709551615

theorem isWhitespace_of_isDigit {c : Char} (h : c.isDigit = true) : isWhitespace c = false := by
  have hrange : 48 ≤ c.toNat ∧ c.toNat ≤ 57 := by
    rw [Char.isDigit, Bool.and_eq_true, decide_eq_true_iff, decide_eq_true_iff] at h
    exact h
  simp only [isWhitespace, Bool.or_eq_false_iff, Bool.and_eq_false_iff, decide_eq_false_iff_not,
    beq_eq_false_iff_ne]
  omega

/-- Trimming stops at a character that is kept. -/
theorem dropWhile_append_of_mem {p : Char → Bool} {before : List Char} {c : Char}
    (hc : p c = false) (after : List Char) :
    (before ++ c :: after).dropWhile p = before.dropWhile p ++ c :: after := by
  induction before with
  | nil => rw [List.nil_append, List.dropWhile_cons_of_neg (by simp [hc]), List.dropWhile_nil,
      List.nil_append]
  | cons d before ih =>
    rw [List.cons_append]
    cases hd : p d with
    | true => rw [List.dropWhile_cons_of_pos hd, List.dropWhile_cons_of_pos hd, ih]
    | false =>
      have hnot : ¬ p d = true := by simp [hd]
      rw [List.dropWhile_cons_of_neg hnot, List.dropWhile_cons_of_neg hnot, List.cons_append]

/-- White space is taken away before and after the characters that are none. -/
theorem trim_append {middle : List Char} (hne : middle ≠ [])
    (hmiddle : ∀ c ∈ middle, isWhitespace c = false) (before after : List Char) :
    (trim (String.ofList (before ++ (middle ++ after)))).toList =
      before.dropWhile isWhitespace ++
        (middle ++ (after.reverse.dropWhile isWhitespace).reverse) := by
  have hstart : (before ++ (middle ++ after)).dropWhile isWhitespace =
      before.dropWhile isWhitespace ++ (middle ++ after) := by
    obtain ⟨c, cs, rfl⟩ := List.exists_cons_of_ne_nil hne
    rw [List.cons_append, dropWhile_append_of_mem (hmiddle c List.mem_cons_self)]
  have hend : (before.dropWhile isWhitespace ++ (middle ++ after)).reverse.dropWhile isWhitespace =
      after.reverse.dropWhile isWhitespace ++
        (before.dropWhile isWhitespace ++ middle).reverse := by
    obtain ⟨init, c, rfl⟩ : ∃ init c, middle = init ++ [c] :=
      ⟨middle.dropLast, middle.getLast hne, (List.dropLast_append_getLast hne).symm⟩
    have hreverse : (before.dropWhile isWhitespace ++ (init ++ [c] ++ after)).reverse =
        after.reverse ++ c :: (before.dropWhile isWhitespace ++ init).reverse := by simp
    rw [hreverse, dropWhile_append_of_mem (hmiddle c (by simp))]
    simp
  rw [trim, String.toList_ofList, String.toList_ofList, hstart, hend]
  simp

/-- The first part goes to the first separator. -/
theorem head?_splitAtAux (p : Char → Bool) (acc cs : List Char) :
    (splitAtAux p acc cs).head? = some (acc ++ cs.takeWhile fun c => !p c) := by
  induction cs generalizing acc with
  | nil => rw [splitAtAux, List.takeWhile_nil, List.append_nil]; rfl
  | cons c cs ih =>
    rw [splitAtAux]
    cases hc : p c with
    | true =>
      rw [if_pos rfl, List.takeWhile_cons_of_neg (by simp [hc]), List.append_nil]
      rfl
    | false =>
      rw [if_neg Bool.false_ne_true, ih, List.takeWhile_cons_of_pos (by simp [hc]),
        List.append_assoc, List.singleton_append]

theorem readUnsigned_of_isDigit {digits : List Char} (hne : digits ≠ [])
    (hdigits : ∀ c ∈ digits, c.isDigit = true) {max : ℕ}
    (hmax : Nat.ofDigitChars 10 digits 0 ≤ max) :
    IntegerText.readUnsigned 10 max digits = some (Nat.ofDigitChars 10 digits 0) := by
  obtain ⟨c, cs, rfl⟩ := List.exists_cons_of_ne_nil hne
  have hplus : (c :: cs).head? ≠ some '+' := by
    intro hc
    have hdigit := hdigits c List.mem_cons_self
    rw [Option.some.inj hc] at hdigit
    exact absurd hdigit (by decide)
  rw [IntegerText.readUnsigned, if_neg hplus, IntegerText.readDigits,
    IntegerText.readFrom_of_isDigit hdigits, Option.filter_some, if_pos (decide_eq_true hmax)]

/-- The digits in front, after white space and operators. -/
def leadingDigits (req : Line) : Line :=
  ((trim (String.ofList req)).toList.dropWhile
    (· ∈ ['=', '^', '~', '>', '<', 'v', ' '])).takeWhile Char.isDigit

/-- The leading number is the one of these digits. -/
theorem parseLeadingVersion_eq (req : Line) : (parseLeadingVersion req).map Prod.fst =
    IntegerText.readUnsigned 10 18446744073709551615 (leadingDigits req) := by
  have hdigits : (fun c : Char => !!c.isDigit) = Char.isDigit := by
    funext c
    rw [Bool.not_not]
  rw [parseLeadingVersion, leadingDigits]
  generalize (trim (String.ofList req)).toList.dropWhile
    (· ∈ ['=', '^', '~', '>', '<', 'v', ' ']) = number
  have hhead := head?_splitAtAux (fun c => !c.isDigit) [] number
  rw [hdigits, List.nil_append] at hhead
  dsimp only
  rw [hhead]
  generalize IntegerText.readUnsigned 10 18446744073709551615 = read
  cases hread : read (number.takeWhile Char.isDigit) with
  | none => rw [Option.bind_some, hread]; rfl
  | some major => rw [Option.bind_some, hread]; rfl

/-- What is behind a character that is neither white space nor an operator nor a digit makes no
difference. -/
theorem leadingDigits_append_cons {c : Char} (hspace : isWhitespace c = false)
    (hop : c ∉ ['=', '^', '~', '>', '<', 'v', ' ']) (hdigit : c.isDigit = false)
    (before after : Line) :
    leadingDigits (before ++ c :: after) = ((before.dropWhile isWhitespace).dropWhile
      (· ∈ ['=', '^', '~', '>', '<', 'v', ' '])).takeWhile Char.isDigit := by
  have htrim := trim_append (List.cons_ne_nil c [])
    (List.forall_mem_singleton.mpr hspace) before after
  rw [List.singleton_append, List.singleton_append] at htrim
  rw [leadingDigits, htrim, dropWhile_append_of_mem (decide_eq_false hop)]
  induction (before.dropWhile isWhitespace).dropWhile
      (· ∈ ['=', '^', '~', '>', '<', 'v', ' ']) with
  | nil => rw [List.nil_append, List.takeWhile_cons_of_neg (by simp [hdigit]), List.takeWhile_nil]
  | cons d ds ih =>
    rw [List.cons_append]
    cases hd : d.isDigit with
    | true => rw [List.takeWhile_cons_of_pos hd, List.takeWhile_cons_of_pos hd, ih]
    | false =>
      rw [List.takeWhile_cons_of_neg (by simp [hd]), List.takeWhile_cons_of_neg (by simp [hd])]

/-- **The leading number of a requirement is read.** -/
theorem parseLeadingVersion_of_isRequirement {req : Line} {n : ℕ} (h : IsRequirement req n) :
    (parseLeadingVersion req).map Prod.fst = some n := by
  obtain ⟨ops, digits, rest, rfl, hops, hne, hdigits, hhead, -, rfl, hmax⟩ := h
  have hspace : ∀ c ∈ digits, isWhitespace c = false :=
    fun c hc => isWhitespace_of_isDigit (hdigits c hc)
  rw [parseLeadingVersion_eq, leadingDigits, trim_append hne hspace]
  have hdrop : (ops.dropWhile isWhitespace ++
      (digits ++ (rest.reverse.dropWhile isWhitespace).reverse)).dropWhile
        (· ∈ ['=', '^', '~', '>', '<', 'v', ' ']) =
      digits ++ (rest.reverse.dropWhile isWhitespace).reverse := by
    obtain ⟨c, cs, rfl⟩ := List.exists_cons_of_ne_nil hne
    have hc : decide (c ∈ ['=', '^', '~', '>', '<', 'v', ' ']) = false := by
      rw [decide_eq_false_iff_not]
      intro hmem
      have hnot : ['=', '^', '~', '>', '<', 'v', ' '].all (fun c => !c.isDigit) = true := by decide
      have hdigit := List.all_eq_true.mp hnot c hmem
      rw [hdigits c List.mem_cons_self] at hdigit
      cases hdigit
    have hnil : (ops.dropWhile isWhitespace).dropWhile
        (· ∈ ['=', '^', '~', '>', '<', 'v', ' ']) = [] := by
      rw [List.dropWhile_eq_nil_iff]
      intro d hd
      have hsublist : List.Sublist ['=', '^', '~', '>', '<', ' ']
          ['=', '^', '~', '>', '<', 'v', ' '] := by decide
      exact decide_eq_true (hsublist.subset (hops d ((List.dropWhile_suffix _).subset hd)))
    rw [List.cons_append, dropWhile_append_of_mem hc, hnil, List.nil_append]
  have hhead' : ∀ c ∈ (rest.reverse.dropWhile isWhitespace).reverse.head?, c.isDigit = false := by
    obtain ⟨tail, htail⟩ : (rest.reverse.dropWhile isWhitespace).reverse <+: rest := by
      rw [← List.reverse_suffix, List.reverse_reverse]
      exact List.dropWhile_suffix _
    intro c hc
    refine hhead c ?_
    rw [← htail, List.head?_append, Option.mem_def.mp hc]
    rfl
  have htake : (digits ++ (rest.reverse.dropWhile isWhitespace).reverse).takeWhile Char.isDigit =
      digits := by
    rw [List.takeWhile_append_of_pos hdigits]
    cases htail : (rest.reverse.dropWhile isWhitespace).reverse with
    | nil => rw [List.takeWhile_nil, List.append_nil]
    | cons c cs =>
      rw [List.takeWhile_cons_of_neg (by simp [hhead' c (by rw [htail]; rfl)]), List.append_nil]
  rw [hdrop, htake, readUnsigned_of_isDigit hne hdigits hmax]

/-! ### What is between quotation marks -/

theorem splitOnceAux_quote {before : Line} (h : '"' ∉ before) (after : Line) :
    splitOnceAux ['"'] (before ++ '"' :: after) = some (before, after) :=
  splitOnceAux_append [] h after

theorem quotedVersion_def (text : Line) : quotedVersion text =
    (splitOnceAux ['"'] text).bind fun p =>
      (splitOnceAux ['"'] p.2).bind fun q => parseLeadingVersion q.1 := rfl

/-- What is between the first two quotation marks. -/
theorem quotedVersion_eq {before middle : Line} (hbefore : '"' ∉ before) (hmiddle : '"' ∉ middle)
    (after : Line) :
    quotedVersion (before ++ '"' :: (middle ++ '"' :: after)) = parseLeadingVersion middle := by
  rw [quotedVersion_def, splitOnceAux_quote hbefore, Option.bind_some,
    splitOnceAux_quote hmiddle, Option.bind_some]

theorem exists_first_quote {text : Line} (h : '"' ∈ text) :
    ∃ before after, text = before ++ '"' :: after ∧ '"' ∉ before := by
  obtain ⟨before, after, htext, hbefore⟩ := List.eq_append_cons_of_mem h
  exact ⟨before, after, htext, hbefore⟩

/-- With a quotation mark before another one, what follows that one makes no difference. -/
theorem quotedVersion_congr {before : Line} (h : '"' ∈ before) (after after' : Line) :
    quotedVersion (before ++ '"' :: after) = quotedVersion (before ++ '"' :: after') := by
  obtain ⟨first, rest, rfl, hfirst⟩ := exists_first_quote h
  by_cases hrest : '"' ∈ rest
  · obtain ⟨second, last, rfl, hsecond⟩ := exists_first_quote hrest
    rw [List.append_assoc, List.append_assoc, List.cons_append, List.cons_append, List.append_assoc,
      List.append_assoc, List.cons_append, List.cons_append, quotedVersion_eq hfirst hsecond,
      quotedVersion_eq hfirst hsecond]
  · rw [List.append_assoc, List.append_assoc, List.cons_append, List.cons_append,
      quotedVersion_eq hfirst hrest, quotedVersion_eq hfirst hrest]

theorem quotedVersion_eq_none {text : Line} (h : '"' ∉ text) : quotedVersion text = none := by
  rw [quotedVersion_def, splitOnceAux_eq_none [] h, Option.bind_none]

/-- Behind a character that no number goes across, the version makes no difference. -/
theorem parseLeadingVersion_congr {c : Char} (hspace : isWhitespace c = false)
    (hop : c ∉ ['=', '^', '~', '>', '<', 'v', ' ']) (hdigit : c.isDigit = false)
    (before after after' : Line) : (parseLeadingVersion (before ++ c :: after)).map Prod.fst =
      (parseLeadingVersion (before ++ c :: after')).map Prod.fst := by
  rw [parseLeadingVersion_eq, parseLeadingVersion_eq, leadingDigits_append_cons hspace hop hdigit,
    leadingDigits_append_cons hspace hop hdigit]

theorem parseLeadingVersion_eq_none {text : Line} (h : leadingDigits text = []) :
    parseLeadingVersion text = none := by
  have hread := parseLeadingVersion_eq text
  rw [h] at hread
  exact Option.map_eq_none_iff.mp hread

/-- A requirement in single quotation marks makes no difference to what is found. -/
theorem quotedVersion_literal (before : Line) {req req' : Line} (hreq : '"' ∉ req)
    (hreq' : '"' ∉ req') (after : Line) :
    (quotedVersion (before ++ '\'' :: (req ++ '\'' :: after))).map Prod.fst =
      (quotedVersion (before ++ '\'' :: (req' ++ '\'' :: after))).map Prod.fst := by
  have hnot : ∀ {text : Line} (r : Line), '"' ∉ r → '"' ∉ text →
      ∀ rest : Line, '"' ∉ rest → '"' ∉ text ++ '\'' :: (r ++ '\'' :: rest) := by
    intro text r hr htext rest hrest
    simp [hr, htext, hrest]
  by_cases hbefore : '"' ∈ before
  · obtain ⟨first, rest, rfl, hfirst⟩ := exists_first_quote hbefore
    by_cases hrest : '"' ∈ rest
    · obtain ⟨second, last, rfl, hsecond⟩ := exists_first_quote hrest
      rw [List.append_assoc, List.cons_append, List.append_assoc, List.cons_append,
        List.append_assoc, List.cons_append, List.append_assoc, List.cons_append,
        quotedVersion_eq hfirst hsecond, quotedVersion_eq hfirst hsecond]
    · rw [List.append_assoc, List.cons_append, List.append_assoc, List.cons_append]
      by_cases hafter : '"' ∈ after
      · obtain ⟨third, last, rfl, hthird⟩ := exists_first_quote hafter
        have hsplit : ∀ r : Line, rest ++ '\'' :: (r ++ '\'' :: (third ++ '"' :: last)) =
            (rest ++ '\'' :: (r ++ '\'' :: third)) ++ '"' :: last := fun r => by simp
        rw [hsplit, hsplit, quotedVersion_eq hfirst (hnot req hreq hrest third hthird),
          quotedVersion_eq hfirst (hnot req' hreq' hrest third hthird)]
        exact parseLeadingVersion_congr (by decide) (by decide) (by decide) _ _ _
      · have hnone : ∀ r : Line, '"' ∉ r → quotedVersion (first ++ '"' ::
            (rest ++ '\'' :: (r ++ '\'' :: after))) = none := by
          intro r hr
          rw [quotedVersion_def, splitOnceAux_quote hfirst, Option.bind_some,
            splitOnceAux_eq_none [] (hnot r hr hrest after hafter), Option.bind_none]
        rw [hnone req hreq, hnone req' hreq']
  · by_cases hafter : '"' ∈ after
    · obtain ⟨first, rest, rfl, hfirst⟩ := exists_first_quote hafter
      have hsplit : ∀ r : Line, before ++ '\'' :: (r ++ '\'' :: (first ++ '"' :: rest)) =
          (before ++ '\'' :: (r ++ '\'' :: first)) ++ '"' :: rest := fun r => by simp
      rw [hsplit, hsplit, quotedVersion_def, quotedVersion_def,
        splitOnceAux_quote (hnot req hreq hbefore first hfirst),
        splitOnceAux_quote (hnot req' hreq' hbefore first hfirst)]
      rfl
    · rw [quotedVersion_eq_none (hnot req hreq hbefore after hafter),
        quotedVersion_eq_none (hnot req' hreq' hbefore after hafter)]

/-! ### Declarations -/

/-- White space within a line. -/
def Blank (gap : Line) : Prop := ∀ c ∈ gap, c = ' ' ∨ c = '\t'

theorem dropWhile_blank {gap : Line} (h : Blank gap) : gap.dropWhile isWhitespace = [] := by
  rw [List.dropWhile_eq_nil_iff]
  intro c hc
  obtain rfl | rfl := h c hc <;> decide

/-- There is no number in an equals sign. -/
theorem leadingDigits_equals {gap gap' : Line} (h : Blank gap) (h' : Blank gap') :
    leadingDigits (gap ++ '=' :: gap') = [] := by
  have htrim := trim_append (List.cons_ne_nil '=' []) (List.forall_mem_singleton.mpr (by decide))
    gap gap'
  have hreverse : Blank gap'.reverse := fun c hc => h' c (List.mem_reverse.mp hc)
  rw [dropWhile_blank h, dropWhile_blank hreverse] at htrim
  have htrim' : (trim (String.ofList (gap ++ '=' :: gap'))).toList = ['='] := htrim
  rw [leadingDigits, htrim']
  decide

/-- The ways to write a key. -/
def Spells (word key : Line) : Prop :=
  key = word ∨ key = '"' :: (word ++ ['"']) ∨ key = '\'' :: (word ++ ['\''])

/-- What may be behind a value: white space and a comment. -/
def Ends (trailing : Line) : Prop :=
  ∃ gap, Blank gap ∧ (trailing = gap ∨ ∃ text, trailing = gap ++ '#' :: text)

/-- The ways to declare a dependency. -/
inductive Form
  | plain
  | inlineTable
  | table
  deriving DecidableEq

/-- The table that a declaration is in. -/
def Form.path : Form → List Line
  | .plain | .inlineTable => ["dependencies".toList]
  | .table => sdkPath

/-- What is before and behind the requirement in its line. -/
def Form.Encloses (form : Form) (opening trailing : Line) : Prop :=
  match form with
  | .plain => ∃ indent key gap gap', Blank indent ∧ Spells sorobanSdk key ∧ Blank gap ∧ Blank gap' ∧
      opening = indent ++ (key ++ (gap ++ '=' :: gap')) ∧ Ends trailing
  | .inlineTable => ∃ indent key gap gap' items name space space', Blank indent ∧
      Spells sorobanSdk key ∧ Blank gap ∧ Blank gap' ∧ Spells versionKey name ∧ Blank space ∧
      Blank space' ∧ (items.foldl Nesting.step .closed) = .closed ∧
      (Blank items ∨ ∃ before gap, items = before ++ ',' :: gap ∧ Blank gap) ∧
      opening = indent ++ (key ++ (gap ++ '=' :: (gap' ++ '{' ::
        (items ++ (name ++ (space ++ '=' :: space'))))))
  | .table => ∃ indent name gap gap', Blank indent ∧ Spells versionKey name ∧ Blank gap ∧
      Blank gap' ∧ opening = indent ++ (name ++ (gap ++ '=' :: gap')) ∧ Ends trailing

/-- A manifest that declares the SDK, with a place for the requirement. -/
structure Declaration where
  before : String
  opening : Line
  quote : Char
  trailing : Line
  rest : String
  form : Form
  terminated : Terminated before
  quotes : quote = '"' ∨ quote = '\''
  oneLine : '\n' ∉ opening ∧ '\n' ∉ trailing ∧ '\r' ∉ trailing
  ends : rest = "" ∨ ∃ text, rest = "\n" ++ text ∨ rest = "\r\n" ++ text
  inTable : Position.start.after (manifestLines before) = ⟨.closed, form.path⟩
  encloses : form.Encloses opening trailing

section Declaration

variable (d : Declaration)

/-- The line with a requirement. -/
def Declaration.line (req : Line) : Line :=
  d.opening ++ d.quote :: (req ++ d.quote :: d.trailing)

/-- The manifest with a requirement. -/
def Declaration.manifest (req : Line) : String :=
  d.before ++ String.ofList (d.line req) ++ d.rest

/-- The leading number of the requirement decides, whatever it is. -/
def Declaration.Exact : Prop :=
  ∀ req n, IsRequirement req n → (requiresSdk28 (d.manifest req) = true ↔ 28 ≤ n)

/-- What is after the first key of a version. -/
def afterVersion (text : Line) : Option Line := (splitOnceAux versionKey text).map Prod.snd

/-- The quotation marks of the requirement are the first ones that are looked for. -/
def Form.Readable (form : Form) (opening trailing : Line) : Prop :=
  match form with
  | .plain => (afterVersion trailing).bind quotedVersion = none
  | .inlineTable => ∀ text ∈ afterVersion opening, '"' ∉ text
  | .table => True

/-- No version is found before the declaration, the scan looks at its line, and it finds the
requirement there. -/
def Declaration.Seen : Prop :=
  ¬ Reads .start (manifestLines d.before) ∧
  (Section.start.after (manifestLines d.before)).inDeps = true ∧
  ((Section.start.after (manifestLines d.before)).tableDep = some sorobanSdk ∨
    sorobanSdk <:+: d.opening ∨ sorobanSdk <:+: d.trailing) ∧
  d.quote = '"' ∧ d.form.Readable d.opening d.trailing

end Declaration

/-! ### The line of a declaration -/

theorem afterVersion_append_cons {c : Char} (hc : c ∉ versionKey) (before after : Line) :
    afterVersion (before ++ c :: after) =
      ((afterVersion before).map (· ++ c :: after)).or (afterVersion after) := by
  rw [afterVersion, splitOnceAux_append_cons hc (List.cons_ne_nil _ _), afterVersion, afterVersion]
  cases splitOnceAux versionKey before <;> cases splitOnceAux versionKey after <;> rfl

theorem afterVersion_eq_none {text : Line} (h : 'v' ∉ text) : afterVersion text = none := by
  have hnone : splitOnceAux versionKey text = none := splitOnceAux_eq_none "ersion".toList h
  rw [afterVersion, hnone]
  rfl

theorem afterVersion_append {before : Line} (h : 'v' ∉ before) (after : Line) :
    afterVersion (before ++ (versionKey ++ after)) = some after := by
  have hsome : splitOnceAux versionKey (before ++ (versionKey ++ after)) = some (before, after) :=
    splitOnceAux_append "ersion".toList h after
  rw [afterVersion, hsome]
  rfl

theorem declaredVersion_eq (line : Line) : declaredVersion line =
    ((afterVersion line).bind quotedVersion).or
      ((splitOnceAux ['='] line).bind fun p => quotedVersion p.2) := by
  rw [declaredVersion, afterVersion]
  cases splitOnceAux versionKey line <;> rfl

theorem notMem_of_blank {c : Char} {gap : Line} (h : Blank gap) (hspace : c ≠ ' ')
    (htab : c ≠ '\t') : c ∉ gap := fun hmem =>
  (h c hmem).elim hspace htab

theorem notMem_of_spells {c : Char} {word key : Line} (h : Spells word key) (hword : c ∉ word)
    (hbasic : c ≠ '"') (hliteral : c ≠ '\'') : c ∉ key := by
  obtain rfl | rfl | rfl := h
  · exact hword
  · simp [hword, hbasic]
  · simp [hword, hliteral]

/-- The line of a declaration starts with its key. -/
theorem Form.Encloses.exists_first {form : Form} {opening trailing : Line}
    (h : form.Encloses opening trailing) : ∃ indent c rest, Blank indent ∧
      opening = indent ++ c :: rest ∧ isWhitespace c = false ∧ c ≠ '[' := by
  have hkey : ∀ {word key indent : Line} (c : Char) (tail rest : Line), word = c :: tail →
      isWhitespace c = false → c ≠ '[' → Spells word key → Blank indent →
      ∃ indent' c rest', Blank indent' ∧ indent ++ (key ++ rest) = indent' ++ c :: rest' ∧
        isWhitespace c = false ∧ c ≠ '[' := by
    rintro word key indent c tail rest rfl hspace hbracket (rfl | rfl | rfl) hindent
    · exact ⟨indent, c, tail ++ rest, hindent, rfl, hspace, hbracket⟩
    · exact ⟨indent, '"', _, hindent, rfl, by decide, by decide⟩
    · exact ⟨indent, '\'', _, hindent, rfl, by decide, by decide⟩
  cases form with
  | plain =>
    obtain ⟨indent, key, gap, gap', hindent, hspells, -, -, rfl, -⟩ := h
    exact hkey 's' "oroban-sdk".toList _ rfl (by decide) (by decide) hspells hindent
  | inlineTable =>
    obtain ⟨indent, key, gap, gap', items, name, space, space', hindent, hspells, -, -, -, -, -, -,
      -, rfl⟩ := h
    exact hkey 's' "oroban-sdk".toList _ rfl (by decide) (by decide) hspells hindent
  | table =>
    obtain ⟨indent, name, gap, gap', hindent, hspells, -, -, rfl, -⟩ := h
    exact hkey 'v' "ersion".toList _ rfl (by decide) (by decide) hspells hindent

/-- The first equals sign of the line is behind the key. -/
theorem Form.Encloses.exists_equals {form : Form} {opening trailing : Line}
    (h : form.Encloses opening trailing) : ∃ key value, opening = key ++ '=' :: value ∧ '=' ∉ key ∧
      (form ≠ .inlineTable → '"' ∉ value) ∧ (form = .inlineTable → 'v' ∉ key) := by
  have hnot : ∀ {c : Char} {word key indent gap : Line}, Spells word key → Blank indent →
      Blank gap → c ≠ ' ' → c ≠ '\t' → c ≠ '"' → c ≠ '\'' → c ∉ word →
      c ∉ indent ++ (key ++ gap) := by
    intro c word key indent gap hspells hindent hgap hspace htab hbasic hliteral hword
    rw [List.mem_append, List.mem_append]
    exact not_or_intro (notMem_of_blank hindent hspace htab)
      (not_or_intro (notMem_of_spells hspells hword hbasic hliteral)
        (notMem_of_blank hgap hspace htab))
  cases form with
  | plain =>
    obtain ⟨indent, key, gap, gap', hindent, hspells, hgap, hgap', rfl, -⟩ := h
    refine ⟨indent ++ (key ++ gap), gap', by simp, ?_, fun _ => ?_, fun h => by cases h⟩
    · exact hnot hspells hindent hgap (by decide) (by decide) (by decide) (by decide) (by decide)
    · exact notMem_of_blank hgap' (by decide) (by decide)
  | inlineTable =>
    obtain ⟨indent, key, gap, gap', items, name, space, space', hindent, hspells, hgap, -, -, -, -,
      -, -, rfl⟩ := h
    refine ⟨indent ++ (key ++ gap), gap' ++ '{' :: (items ++ (name ++ (space ++ '=' :: space'))),
      by simp, ?_, fun h => absurd rfl h, fun _ => ?_⟩
    · exact hnot hspells hindent hgap (by decide) (by decide) (by decide) (by decide) (by decide)
    · exact hnot hspells hindent hgap (by decide) (by decide) (by decide) (by decide) (by decide)
  | table =>
    obtain ⟨indent, name, gap, gap', hindent, hspells, hgap, hgap', rfl, -⟩ := h
    refine ⟨indent ++ (name ++ gap), gap', by simp, ?_, fun _ => ?_, fun h => by cases h⟩
    · exact hnot hspells hindent hgap (by decide) (by decide) (by decide) (by decide) (by decide)
    · exact notMem_of_blank hgap' (by decide) (by decide)

/-- The key of the plain form is not that of a version, and the keys of the others are. -/
theorem afterVersion_plain {opening trailing : Line} (h : Form.plain.Encloses opening trailing) :
    afterVersion opening = none := by
  obtain ⟨indent, key, gap, gap', hindent, hspells, hgap, hgap', rfl, -⟩ := h
  refine afterVersion_eq_none ?_
  have hkey := notMem_of_spells (c := 'v') hspells (by decide) (by decide) (by decide)
  have hblank : ∀ {gap : Line}, Blank gap → 'v' ∉ gap :=
    fun hgap => notMem_of_blank hgap (by decide) (by decide)
  simp [hblank hindent, hkey, hblank hgap, hblank hgap']

theorem Spells.exists_word {word key : Line} (h : Spells word key) :
    ∃ before after, key = before ++ (word ++ after) ∧
      (before = [] ∧ after = [] ∨ before = ['"'] ∧ after = ['"'] ∨
        before = ['\''] ∧ after = ['\'']) := by
  obtain rfl | rfl | rfl := h
  · exact ⟨[], [], by simp, .inl ⟨rfl, rfl⟩⟩
  · exact ⟨['"'], ['"'], rfl, .inr (.inl ⟨rfl, rfl⟩)⟩
  · exact ⟨['\''], ['\''], rfl, .inr (.inr ⟨rfl, rfl⟩)⟩

theorem exists_afterVersion_inlineTable {opening trailing : Line}
    (h : Form.inlineTable.Encloses opening trailing) :
    ∃ text, afterVersion opening = some text := by
  obtain ⟨indent, key, gap, gap', items, name, space, space', -, -, -, -, hname, -, -, -, -, rfl⟩ :=
    h
  obtain ⟨before, after, rfl, -⟩ := hname.exists_word
  rw [← Option.isSome_iff_exists, afterVersion, Option.isSome_map, ← Option.ne_none_iff_isSome]
  intro hnone
  have hne : versionKey ≠ [] := List.cons_ne_nil _ _
  refine (splitOnceAux_eq_none_iff hne).mp hnone
    ⟨indent ++ (key ++ (gap ++ '=' :: (gap' ++ '{' :: (items ++ before)))),
      after ++ (space ++ '=' :: space'), ?_⟩
  simp

/-- Behind the key in the table there is no quotation mark, or the one that closes the key. -/
theorem afterVersion_table {opening trailing : Line} (h : Form.table.Encloses opening trailing) :
    ∃ text, afterVersion opening = some text ∧
      ('"' ∉ text ∨ ∃ gap gap', Blank gap ∧ Blank gap' ∧ text = '"' :: (gap ++ '=' :: gap')) := by
  obtain ⟨indent, name, gap, gap', hindent, hspells, hgap, hgap', rfl, -⟩ := h
  obtain ⟨before, after, rfl, hquotes⟩ := hspells.exists_word
  have hv : 'v' ∉ indent ++ before := by
    have hindent := notMem_of_blank (c := 'v') hindent (by decide) (by decide)
    obtain ⟨rfl, -⟩ | ⟨rfl, -⟩ | ⟨rfl, -⟩ := hquotes <;> simp [hindent]
  have hafter := afterVersion_append hv (after ++ (gap ++ '=' :: gap'))
  refine ⟨after ++ (gap ++ '=' :: gap'), by rw [← hafter]; simp, ?_⟩
  have hblank : ∀ {gap : Line}, Blank gap → '"' ∉ gap :=
    fun hgap => notMem_of_blank hgap (by decide) (by decide)
  obtain ⟨-, rfl⟩ | ⟨-, rfl⟩ | ⟨-, rfl⟩ := hquotes
  · left
    simp [hblank hgap, hblank hgap']
  · exact .inr ⟨gap, gap', hgap, hgap', rfl⟩
  · left
    simp [hblank hgap, hblank hgap']

/-! ### What the scan sees of a declaration -/

section Line

variable (d : Declaration)

theorem Declaration.quote_notMem {word : Line} (hbasic : '"' ∉ word) (hliteral : '\'' ∉ word) :
    d.quote ∉ word := by
  obtain h | h := d.quotes <;> rw [h]
  · exact hbasic
  · exact hliteral

/-- The line is not taken for a header. -/
theorem Declaration.not_isHeader (req : Line) : ¬ IsHeader (d.line req) := by
  obtain ⟨indent, c, rest, hindent, hopening, hspace, hbracket⟩ := d.encloses.exists_first
  have htrim := trim_append (List.cons_ne_nil c []) (List.forall_mem_singleton.mpr hspace) indent
    (rest ++ d.quote :: (req ++ d.quote :: d.trailing))
  rw [dropWhile_blank hindent, List.nil_append, List.singleton_append, List.singleton_append]
    at htrim
  rw [IsHeader, trimmed, Declaration.line, hopening, List.append_assoc, List.cons_append, htrim]
  exact fun h => hbracket (Option.some.inj h)

/-- The line is looked at in a table of dependencies, if it is the one of the SDK or the line has
the name of the package. -/
theorem Declaration.looks_iff (s : Section) (req : Line) : s.Looks (d.line req) ↔
    s.inDeps = true ∧ (s.tableDep = some sorobanSdk ∨ sorobanSdk <:+: d.opening ∨
      sorobanSdk <:+: req ∨ sorobanSdk <:+: d.trailing) := by
  have hquote : d.quote ∉ sorobanSdk := d.quote_notMem (by decide) (by decide)
  have hne : sorobanSdk ≠ [] := List.cons_ne_nil _ _
  rw [Section.Looks, and_iff_right (d.not_isHeader req), Declaration.line,
    infix_append_cons_iff hquote hne, infix_append_cons_iff hquote hne, or_comm]

/-- What is behind the first key of a version, and behind the first equals sign. -/
theorem Declaration.declaredVersion_line {key value : Line}
    (hopening : d.opening = key ++ '=' :: value) (hequals : '=' ∉ key) (req : Line) :
    declaredVersion (d.line req) =
      ((((afterVersion d.opening).map (· ++ d.quote :: (req ++ d.quote :: d.trailing))).or
        (((afterVersion req).map (· ++ d.quote :: d.trailing)).or
          (afterVersion d.trailing))).bind quotedVersion).or
      (quotedVersion (value ++ d.quote :: (req ++ d.quote :: d.trailing))) := by
  have hquote : d.quote ∉ versionKey := d.quote_notMem (by decide) (by decide)
  have hsplit : splitOnceAux ['='] (d.line req) =
      some (key, value ++ d.quote :: (req ++ d.quote :: d.trailing)) := by
    rw [Declaration.line, hopening, List.append_assoc, List.cons_append]
    exact splitOnceAux_append [] hequals _
  rw [declaredVersion_eq, hsplit, Declaration.line, afterVersion_append_cons hquote,
    afterVersion_append_cons hquote]
  rfl

/-- A text without line feeds is one line, if it is not empty. -/
theorem linesAux_of_forall {line : Line} (h : ∀ c ∈ line, c ≠ '\n') (acc : Line) :
    linesAux acc line = if acc ++ line = [] then [] else [acc ++ line] := by
  induction line generalizing acc with
  | nil => rw [linesAux, List.append_nil]
  | cons c line ih =>
    obtain ⟨hc, h⟩ := List.forall_mem_cons.mp h
    rw [linesAux, if_neg hc, ih h, List.append_assoc, List.singleton_append]

/-- The manifest has the lines before the declaration, its line, and the lines behind it. -/
theorem Declaration.exists_lines : ∃ lines, ∀ req : Line, '\n' ∉ req →
    manifestLines (d.manifest req) = manifestLines d.before ++ d.line req :: lines := by
  have hnl : ∀ req : Line, '\n' ∉ req → ∀ c ∈ d.line req, c ≠ '\n' := by
    rintro req hreq c hc rfl
    rw [Declaration.line, List.mem_append, List.mem_cons, List.mem_append, List.mem_cons] at hc
    have hquote : '\n' ≠ d.quote := by
      obtain h | h := d.quotes <;> rw [h] <;> decide
    have hone := d.oneLine
    tauto
  have hlast : ∀ req : Line, (d.line req).getLast? ≠ some '\r' := by
    intro req hlast
    have hmem : '\r' ∈ d.quote :: d.trailing := by
      have hsplit : d.line req = (d.opening ++ d.quote :: req) ++ d.quote :: d.trailing := by
        simp [Declaration.line]
      rw [hsplit, List.getLast?_append_of_ne_nil _ (List.cons_ne_nil _ _)] at hlast
      exact List.mem_of_getLast? hlast
    have hquote : '\r' ≠ d.quote := by
      obtain h | h := d.quotes <;> rw [h] <;> decide
    exact (List.mem_cons.mp hmem).elim hquote d.oneLine.2.2
  have happend : ∀ req : Line, manifestLines (d.manifest req) =
      manifestLines d.before ++ linesAux [] (d.line req ++ d.rest.toList) := by
    intro req
    rw [Declaration.manifest, String.append_assoc, manifestLines_append d.terminated]
    congr 1
    rw [manifestLines, String.toList_append, String.toList_ofList]
  obtain hrest | ⟨text, hrest | hrest⟩ := d.ends
  · refine ⟨[], fun req hreq => ?_⟩
    rw [happend, hrest, String.toList_empty, List.append_nil, linesAux_of_forall (hnl req hreq),
      List.nil_append, if_neg (by simp [Declaration.line])]
  · refine ⟨linesAux [] text.toList, fun req hreq => ?_⟩
    have htext : d.rest.toList = '\n' :: text.toList := by
      rw [hrest, String.toList_append]
      rfl
    rw [happend, htext, linesAux_append, linesAux_singleton (hnl req hreq), List.nil_append,
      stripCarriageReturn, if_neg (hlast req), List.singleton_append]
  · refine ⟨linesAux [] text.toList, fun req hreq => ?_⟩
    have htext : d.line req ++ d.rest.toList = (d.line req ++ ['\r']) ++ '\n' :: text.toList := by
      rw [hrest, String.toList_append, List.append_assoc]
      rfl
    have hnl' : ∀ c ∈ d.line req ++ ['\r'], c ≠ '\n' := by
      intro c hc
      obtain hc | hc := List.mem_append.mp hc
      · exact hnl req hreq c hc
      · rw [List.mem_singleton.mp hc]
        decide
    rw [happend, htext, linesAux_append, linesAux_singleton hnl', List.nil_append,
      stripCarriageReturn, if_pos (by simp), List.dropLast_concat, List.singleton_append]

end Line

/-! ### When the declared version decides -/

/-- A line that is looked at decides with its version, if it has one. -/
theorem scan_cons_of_looks {s : Section} {line : Line} (h : s.Looks line) (lines : List Line) :
    scan s (line :: lines) =
      (((declaredVersion line).map Prod.fst).map fun n => decide (28 ≤ n)).getD (scan s lines) := by
  obtain ⟨hheader, hdeps, hlooks⟩ := h
  have hin : ¬ (!s.inDeps) = true := by simp [hdeps]
  rw [scan, if_neg hheader, if_neg hin, if_pos hlooks]
  cases declaredVersion line <;> rfl

/-- Lines that are looked at in the same tables and have the same number decide in the same way. -/
theorem scan_cons_congr {s : Section} {line line' : Line} (hheader : ¬ IsHeader line)
    (hheader' : ¬ IsHeader line') (hlooks : s.Looks line ↔ s.Looks line')
    (hversion : s.Looks line →
      (declaredVersion line).map Prod.fst = (declaredVersion line').map Prod.fst)
    (lines : List Line) : scan s (line :: lines) = scan s (line' :: lines) := by
  by_cases h : s.Looks line
  · rw [scan_cons_of_looks h, scan_cons_of_looks (hlooks.mp h), hversion h]
  · have hnot : ∀ {line : Line}, ¬ IsHeader line → ¬ s.Looks line →
        scan s (line :: lines) = scan s lines := by
      intro line hheader h
      rw [scan_cons_of_not_finds fun hfinds => h hfinds.1, Section.next, if_neg hheader]
    rw [hnot hheader h, hnot hheader' (mt hlooks.mpr h)]

/-- Two requirements, one on either side. -/
theorem isRequirement_27_28 : IsRequirement "27".toList 27 ∧ IsRequirement "28".toList 28 :=
  ⟨⟨[], ['2', '7'], [], rfl, by simp, by simp, by simp, by simp, by simp, rfl, by decide⟩,
    ⟨[], ['2', '8'], [], rfl, by simp, by simp, by simp, by simp, by simp, rfl, by decide⟩⟩

theorem IsRequirement.notMem {req : Line} {n : ℕ} (h : IsRequirement req n) {c : Char}
    (hc : c ∈ ['"', '\'', '\\', '\n']) : c ∉ req := by
  obtain ⟨ops, digits, rest, rfl, hops, -, hdigits, -, hrest, -, -⟩ := h
  rw [List.mem_append, List.mem_append]
  rintro (hmem | hmem | hmem)
  · have hall : ['=', '^', '~', '>', '<', ' '].all
        (fun c => decide (c ∉ ['"', '\'', '\\', '\n'])) = true := by decide
    exact of_decide_eq_true (List.all_eq_true.mp hall c (hops c hmem)) hc
  · have hall : ['"', '\'', '\\', '\n'].all (fun c => !c.isDigit) = true := by decide
    have hdigit := List.all_eq_true.mp hall c hc
    rw [hdigits c hmem] at hdigit
    cases hdigit
  · exact hrest c hmem hc

section Exact

variable (d : Declaration)

/-- If the declaration is not seen, the requirement makes no difference to a version of two
digits. -/
theorem Declaration.manifest_27_28 (h : ¬ d.Seen) :
    requiresSdk28 (d.manifest "27".toList) = requiresSdk28 (d.manifest "28".toList) := by
  obtain ⟨lines, hlines⟩ := d.exists_lines
  rw [requiresSdk28, requiresSdk28, hlines _ (by decide), hlines _ (by decide)]
  by_cases hbefore : Reads .start (manifestLines d.before)
  · rw [scan_append_of_reads hbefore, scan_append_of_reads hbefore]
  · rw [scan_append hbefore, scan_append hbefore]
    have h27 : ¬ sorobanSdk <:+: "27".toList := by decide
    have h28 : ¬ sorobanSdk <:+: "28".toList := by decide
    refine scan_cons_congr (d.not_isHeader _) (d.not_isHeader _) ?_ (fun hlooks => ?_) lines
    · rw [d.looks_iff, d.looks_iff]
      simp only [h27, h28, false_or]
    · rw [d.looks_iff] at hlooks
      simp only [h27, false_or] at hlooks
      obtain ⟨key, value, hopening, hequals, -, hkey⟩ := d.encloses.exists_equals
      have hv27 : afterVersion "27".toList = none := by decide
      have hv28 : afterVersion "28".toList = none := by decide
      rw [d.declaredVersion_line hopening hequals, d.declaredVersion_line hopening hequals, hv27,
        hv28, Option.map_none, Option.none_or]
      have hor : d.quote ≠ '"' ∨ ¬ d.form.Readable d.opening d.trailing := by
        by_contra hnot
        rw [not_or, not_not, not_not] at hnot
        exact h ⟨hbefore, hlooks.1, hlooks.2, hnot⟩
      obtain hliteral | hquote := d.quotes.symm
      · rw [hliteral, Option.map_or, Option.map_or,
          quotedVersion_literal value (by decide) (by decide : '"' ∉ "28".toList)]
        congr 1
        cases afterVersion d.opening with
        | none => rfl
        | some text => exact quotedVersion_literal text (by decide) (by decide) _
      · have hreadable := hor.resolve_left fun hnot => hnot hquote
        rw [hquote]
        cases hform : d.form with
        | plain =>
          have hencloses := d.encloses
          rw [hform] at hreadable hencloses
          obtain ⟨v, hv⟩ := Option.ne_none_iff_exists'.mp hreadable
          rw [afterVersion_plain hencloses, Option.map_none, Option.map_none, Option.none_or, hv]
          rfl
        | inlineTable =>
          rw [hform] at hreadable
          obtain ⟨text, htext, hmem⟩ : ∃ text ∈ afterVersion d.opening, '"' ∈ text := by
            simpa [Form.Readable] using hreadable
          have hvalue : '"' ∈ value := by
            rw [hopening, Option.mem_def, afterVersion_append_cons (by decide),
              afterVersion_eq_none (hkey hform), Option.map_none, Option.none_or] at htext
            obtain ⟨⟨before, after⟩, hsplit, rfl⟩ := Option.map_eq_some_iff.mp htext
            rw [append_of_splitOnceAux hsplit]
            exact List.mem_append_right _ (List.mem_append_right _ hmem)
          rw [Option.mem_def.mp htext, Option.map_some, Option.map_some, Option.some_or,
            Option.some_or, Option.bind_some, Option.bind_some,
            quotedVersion_congr hmem _ ("28".toList ++ '"' :: d.trailing),
            quotedVersion_congr hvalue _ ("28".toList ++ '"' :: d.trailing)]
        | table =>
          rw [hform] at hreadable
          exact absurd trivial hreadable

/-- Behind the requirement of a plain string there is no version between quotation marks. -/
theorem quotedVersion_ends {text trailing : Line} (htext : '"' ∉ text) (h : Ends trailing) :
    quotedVersion (text ++ '"' :: trailing) = none := by
  rw [quotedVersion_def, splitOnceAux_quote htext, Option.bind_some]
  obtain ⟨gap, hgap, rfl | ⟨comment, rfl⟩⟩ := h
  · rw [splitOnceAux_eq_none [] (notMem_of_blank hgap (by decide) (by decide)), Option.bind_none]
  · by_cases hmem : '"' ∈ comment
    · obtain ⟨before, after, rfl, hbefore⟩ := exists_first_quote hmem
      have hnot : '"' ∉ gap ++ '#' :: before := by
        simp [notMem_of_blank (c := '"') hgap (by decide) (by decide), hbefore]
      have hsplit : gap ++ '#' :: (before ++ '"' :: after) =
          (gap ++ '#' :: before) ++ '"' :: after := by simp
      rw [hsplit, splitOnceAux_quote hnot, Option.bind_some]
      refine parseLeadingVersion_eq_none ?_
      rw [leadingDigits_append_cons (by decide) (by decide) (by decide), dropWhile_blank hgap]
      rfl
    · have hnot : '"' ∉ gap ++ '#' :: comment := by
        simp [notMem_of_blank (c := '"') hgap (by decide) (by decide), hmem]
      rw [splitOnceAux_eq_none [] hnot, Option.bind_none]

/-- **A declaration that is seen is read.** -/
theorem Declaration.declaredVersion_of_seen (h : d.Seen) {req : Line} {n : ℕ}
    (hreq : IsRequirement req n) : (declaredVersion (d.line req)).map Prod.fst = some n := by
  obtain ⟨-, -, -, hquote, hreadable⟩ := h
  obtain ⟨key, value, hopening, hequals, hvalue, -⟩ := d.encloses.exists_equals
  have hreq' : '"' ∉ req := hreq.notMem (by decide)
  have hread := parseLeadingVersion_of_isRequirement hreq
  rw [d.declaredVersion_line hopening hequals, hquote, Option.map_or]
  cases hform : d.form with
  | plain =>
    have hencloses := d.encloses
    rw [hform] at hreadable hencloses
    obtain ⟨_, _, _, _, -, -, -, -, -, hends⟩ := id hencloses
    have hnone : (((afterVersion req).map (· ++ '"' :: d.trailing)).or
        (afterVersion d.trailing)).bind quotedVersion = none := by
      cases hafter : afterVersion req with
      | none => exact hreadable
      | some text =>
        obtain ⟨⟨before, text'⟩, hsplit, rfl⟩ := Option.map_eq_some_iff.mp hafter
        have htext : '"' ∉ text' := by
          intro hmem
          rw [append_of_splitOnceAux hsplit] at hreq'
          exact hreq' (List.mem_append_right _ (List.mem_append_right _ hmem))
        exact quotedVersion_ends htext hends
    rw [afterVersion_plain hencloses, Option.map_none, Option.none_or, hnone, Option.map_none,
      Option.none_or, quotedVersion_eq (hvalue (by rw [hform]; decide)) hreq', hread]
  | inlineTable =>
    have hencloses := d.encloses
    rw [hform] at hreadable hencloses
    obtain ⟨text, htext⟩ := exists_afterVersion_inlineTable hencloses
    rw [htext, Option.map_some, Option.some_or, Option.bind_some,
      quotedVersion_eq (hreadable text htext) hreq', hread, Option.some_or]
  | table =>
    have hencloses := d.encloses
    rw [hform] at hencloses
    obtain ⟨text, htext, hcases⟩ := afterVersion_table hencloses
    rw [htext, Option.map_some, Option.some_or, Option.bind_some]
    obtain hnot | ⟨gap, gap', hgap, hgap', rfl⟩ := hcases
    · rw [quotedVersion_eq hnot hreq', hread, Option.some_or]
    · have hmiddle : '"' ∉ gap ++ '=' :: gap' := by
        have hblank : ∀ {gap : Line}, Blank gap → '"' ∉ gap :=
          fun hgap => notMem_of_blank hgap (by decide) (by decide)
        simp [hblank hgap, hblank hgap']
      have hnone : quotedVersion
          ('"' :: (gap ++ '=' :: gap') ++ '"' :: (req ++ '"' :: d.trailing)) = none := by
        have heq := quotedVersion_eq (List.not_mem_nil) hmiddle (req ++ '"' :: d.trailing)
        rw [List.nil_append] at heq
        rw [List.cons_append, heq]
        exact parseLeadingVersion_eq_none (leadingDigits_equals hgap hgap')
      rw [hnone, Option.map_none, Option.none_or,
        quotedVersion_eq (hvalue (by rw [hform]; decide)) hreq', hread]

/-- **The declared version decides exactly if the declaration is seen.** -/
theorem Declaration.exact_iff : d.Exact ↔ d.Seen := by
  constructor
  · intro h
    by_contra hseen
    have h27 := h _ _ isRequirement_27_28.1
    have h28 := h _ _ isRequirement_27_28.2
    rw [d.manifest_27_28 hseen] at h27
    exact absurd (h27.mp (h28.mpr (le_refl 28))) (by decide)
  · intro h req n hreq
    obtain ⟨lines, hlines⟩ := d.exists_lines
    have hlooks : (Section.start.after (manifestLines d.before)).Looks (d.line req) := by
      rw [d.looks_iff]
      exact ⟨h.2.1, h.2.2.1.imp_right fun hor => hor.imp_right .inr⟩
    rw [requiresSdk28, hlines req (hreq.notMem (by decide)), scan_append h.1,
      scan_cons_of_looks hlooks, d.declaredVersion_of_seen h hreq]
    exact decide_eq_true_iff

end Exact

/-! ### The dependency on the SDK -/

/-- **Other lines make no difference exactly if they are skipped, and the declared version decides
exactly if its declaration is seen.** -/
theorem ownDependency_iff (e : Insertion) (d : Declaration) :
    (e.Harmless ↔ e.Skipped) ∧ (d.Exact ↔ d.Seen) :=
  ⟨e.harmless_iff, d.exact_iff⟩

/-- An entry for another package with a name that starts in the same way. -/
def macrosEntry : Insertion where
  before := "[dependencies]\n"
  piece := "soroban-sdk-macros = \"25\"\n"
  terminated := ⟨.inr ⟨"[dependencies]".toList, by decide⟩,
    .inr ⟨"soroban-sdk-macros = \"25\"".toList, by decide⟩⟩
  unrelated := by
    refine .inr ⟨by decide, ?_⟩
    rw [show manifestLines "soroban-sdk-macros = \"25\"\n" =
      ["soroban-sdk-macros = \"25\"".toList] by decide]
    refine ⟨fun _ => .inr (.inr (.inr ⟨by decide, .inl ⟨by decide, by decide⟩⟩)), ?_⟩
    exact (by decide : ((Position.start.after (manifestLines "[dependencies]\n")).next
      "soroban-sdk-macros = \"25\"".toList).nesting = .closed)

/-- A lower version of the other package hides the requirement. -/
theorem not_harmless_macrosEntry :
    ¬ ((∀ e : Insertion, e.Harmless) ∧ ∀ d : Declaration, d.Exact) := by
  intro h
  have heq := h.1 macrosEntry "soroban-sdk = \"28\"\n" (.inl (by
    rw [Insertion.KeepsTable]
    decide))
  exact absurd heq (by decide)

end SorobanDevkit.Core
