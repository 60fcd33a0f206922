import SorobanDevkit.Library.Quoting

/-!
# Tagged texts

Terms are printed as a word, or as a tag, a colon and a text that depends on the tag: one printed as
it is, one between quotation marks, or the printed items of a group between brackets. A text printed
as it is stays apart from what follows it only where it has none of the characters that separators
and closing brackets start with. The words and tags are the names of the elements of a type.

## Main results

* `TaggedText.Term.print_append_inj` — delimited terms are determined by their text, whatever
  follows.
* `TaggedText.Term.print_inj` — at the top a text printed as it is need not be delimited.
-/

namespace TaggedText

/-- A separator starts with a delimiter other than the closing bracket. -/
def Separates (delimiter : Char → Bool) (closing : Char) (separator : List Char) : Prop :=
  ∃ c rest, separator = c :: rest ∧ delimiter c ∧ c ≠ closing

/-- The brackets of a group, and the separators that stand after its items in turn. -/
structure Brackets (delimiter : Char → Bool) where
  opening : Char
  closing : Char
  first : List Char
  second : List Char
  closing_delimiter : delimiter closing
  first_separates : Separates delimiter closing first
  second_separates : Separates delimiter closing second

/-- What follows the name of a tag. -/
inductive Form (delimiter : Char → Bool)
  | word
  | raw
  | quoted
  | group (brackets : Brackets delimiter)

/-- The names of tags and what follows them. Names are not empty, not shared, and contain no
delimiters and no colon. -/
structure Grammar (τ : Type) where
  delimiter : Char → Bool
  escapes : Char → Bool
  name : τ → List Char
  form : τ → Form delimiter
  delimiter_colon : delimiter ':' = false
  name_injective : Function.Injective name
  name_ne_nil : ∀ tag, name tag ≠ []
  name_undelimited : ∀ tag, ∀ c ∈ name tag, (delimiter c || c == ':') = false

/-- A term. -/
inductive Term (τ : Type) (delimiter : Char → Bool)
  | word (tag : τ)
  | raw (tag : τ) (text : List Char)
  | quoted (tag : τ) (text : List Char)
  | group (tag : τ) (brackets : Brackets delimiter) (items : List (Term τ delimiter))

variable {τ : Type} {g : Grammar τ}

namespace Term

section Print

variable (g)

mutual

/-- The text of a term. -/
def print : Term τ g.delimiter → List Char
  | .word tag => g.name tag
  | .raw tag text => g.name tag ++ ':' :: text
  | .quoted tag text => g.name tag ++ ':' :: Quoting.quote g.escapes text
  | .group tag brackets items =>
    g.name tag ++ ':' :: brackets.opening ::
      (printItems brackets.first brackets.second items ++ [brackets.closing])

/-- The text of the items of a group. -/
def printItems (first second : List Char) : List (Term τ g.delimiter) → List Char
  | [] => []
  | t :: rest => print t ++ printRest first second rest

/-- The text of the items of a group that follow others. -/
def printRest (first second : List Char) : List (Term τ g.delimiter) → List Char
  | [] => []
  | t :: rest => first ++ (print t ++ printRest second first rest)

end

mutual

/-- Texts that are printed as they are contain no delimiters. -/
def Delimited : Term τ g.delimiter → Prop
  | .word tag => g.form tag = .word
  | .raw tag text => g.form tag = .raw ∧ ∀ c ∈ text, g.delimiter c = false
  | .quoted tag _ => g.form tag = .quoted
  | .group tag brackets items => g.form tag = .group brackets ∧ DelimitedItems items

/-- Delimited items of a group. -/
def DelimitedItems : List (Term τ g.delimiter) → Prop
  | [] => True
  | t :: rest => Delimited t ∧ DelimitedItems rest

end

end Print

/-- The tag of a term. -/
def tag : Term τ g.delimiter → τ
  | .word tag | .raw tag _ | .quoted tag _ | .group tag .. => tag

/-- What a text is followed by where it ends. -/
def Ended (p : Char → Bool) (rest : List Char) : Prop := ∀ c ∈ rest.head?, p c

theorem append_inj_of_ended {p : Char → Bool} {s s' rest rest' : List Char}
    (hs : ∀ c ∈ s, p c = false) (hs' : ∀ c ∈ s', p c = false) (hrest : Ended p rest)
    (hrest' : Ended p rest') (h : s ++ rest = s' ++ rest') : s = s' ∧ rest = rest' := by
  induction s generalizing s' with
  | nil =>
    cases s' with
    | nil => exact ⟨rfl, h⟩
    | cons c s' =>
      have hc : p c := hrest c (by rw [List.nil_append] at h; rw [h]; rfl)
      rw [hs' c List.mem_cons_self] at hc
      cases hc
  | cons c s ih =>
    cases s' with
    | nil =>
      have hc : p c := hrest' c (by rw [List.nil_append] at h; rw [← h]; rfl)
      rw [hs c List.mem_cons_self] at hc
      cases hc
    | cons c' s' =>
      rw [List.cons_append, List.cons_append, List.cons.injEq] at h
      obtain ⟨rfl, h⟩ := h
      obtain ⟨rfl, hr⟩ := ih (fun d hd => hs d (List.mem_cons_of_mem c hd))
        (fun d hd => hs' d (List.mem_cons_of_mem c hd)) h
      exact ⟨rfl, hr⟩

/-- What follows the name of a term. -/
def tail (g : Grammar τ) : Term τ g.delimiter → List Char
  | .word _ => []
  | .raw _ text => ':' :: text
  | .quoted _ text => ':' :: Quoting.quote g.escapes text
  | .group _ brackets items =>
    ':' :: brackets.opening ::
      (printItems g brackets.first brackets.second items ++ [brackets.closing])

theorem print_eq (t : Term τ g.delimiter) : t.print g = g.name t.tag ++ t.tail g := by
  cases t <;> simp [print, tag, tail]

/-- The tags of terms with equal texts are equal. -/
theorem tag_eq {t t' : Term τ g.delimiter} {rest rest' : List Char}
    (hrest : Ended g.delimiter rest) (hrest' : Ended g.delimiter rest')
    (h : t.print g ++ rest = t'.print g ++ rest') :
    t.tag = t'.tag ∧ t.tail g ++ rest = t'.tail g ++ rest' := by
  have hended : ∀ (t : Term τ g.delimiter) (rest : List Char), Ended g.delimiter rest →
      Ended (fun c => g.delimiter c || c == ':') (t.tail g ++ rest) := by
    rintro (_ | _ | _ | _) rest hrest c hc
    · simp [hrest c hc]
    all_goals
      cases hc
      simp
  rw [print_eq, print_eq, List.append_assoc, List.append_assoc] at h
  obtain ⟨hname, htail⟩ := append_inj_of_ended (g.name_undelimited _) (g.name_undelimited _)
    (hended t rest hrest) (hended t' rest' hrest') h
  exact ⟨g.name_injective hname, htail⟩

theorem ended_printRest {first second rest : List Char} {closing : Char}
    (hfirst : Separates g.delimiter closing first) (hclosing : g.delimiter closing)
    (ts : List (Term τ g.delimiter)) :
    Ended g.delimiter (printRest g first second ts ++ closing :: rest) := by
  intro c hc
  cases ts with
  | nil =>
    cases hc
    exact hclosing
  | cons t ts =>
    obtain ⟨d, tail, rfl, hd, -⟩ := hfirst
    cases hc
    exact hd

section Delimited

variable {t : Term τ g.delimiter} {tag : τ}

/-- A term with the tag of a word. -/
theorem Delimited.eq_word (ht : t.Delimited g) (htag : t.tag = tag) (hform : g.form tag = .word) :
    t = .word tag := by
  subst htag
  cases t with
  | word tag => rfl
  | raw tag text => cases hform.symm.trans ht.1
  | quoted tag text => cases hform.symm.trans ht
  | group tag brackets items => cases hform.symm.trans ht.1

/-- A term with a tag that a text follows which is printed as it is. -/
theorem Delimited.eq_raw (ht : t.Delimited g) (htag : t.tag = tag) (hform : g.form tag = .raw) :
    ∃ text, t = .raw tag text ∧ ∀ c ∈ text, g.delimiter c = false := by
  subst htag
  cases t with
  | word tag => cases hform.symm.trans ht
  | raw tag text => exact ⟨text, rfl, ht.2⟩
  | quoted tag text => cases hform.symm.trans ht
  | group tag brackets items => cases hform.symm.trans ht.1

/-- A term with a tag that a quoted text follows. -/
theorem Delimited.eq_quoted (ht : t.Delimited g) (htag : t.tag = tag)
    (hform : g.form tag = .quoted) : ∃ text, t = .quoted tag text := by
  subst htag
  cases t with
  | word tag => cases hform.symm.trans ht
  | raw tag text => cases hform.symm.trans ht.1
  | quoted tag text => exact ⟨text, rfl⟩
  | group tag brackets items => cases hform.symm.trans ht.1

/-- A term with the tag of a group. -/
theorem Delimited.eq_group {brackets : Brackets g.delimiter} (ht : t.Delimited g)
    (htag : t.tag = tag) (hform : g.form tag = .group brackets) :
    ∃ items, t = .group tag brackets items ∧ DelimitedItems g items := by
  subst htag
  cases t with
  | word tag => cases hform.symm.trans ht
  | raw tag text => cases hform.symm.trans ht.1
  | quoted tag text => cases hform.symm.trans ht
  | group tag brackets' items =>
    cases hform.symm.trans ht.1
    exact ⟨items, rfl, ht.2⟩

end Delimited

/-- The text of a term starts with no delimiter. -/
theorem print_ne (t : Term τ g.delimiter) {c : Char} (hc : g.delimiter c) (s s' : List Char) :
    t.print g ++ s ≠ c :: s' := by
  intro h
  rw [print_eq] at h
  cases hname : g.name t.tag with
  | nil => exact g.name_ne_nil _ hname
  | cons d name =>
    rw [hname] at h
    cases h
    have hd := g.name_undelimited t.tag c (by rw [hname]; exact List.mem_cons_self)
    rw [hc] at hd
    cases hd

mutual

/-- **Delimited terms are determined by their text, whatever follows.** -/
theorem print_append_inj : (t t' : Term τ g.delimiter) → {rest rest' : List Char} →
    t.Delimited g → t'.Delimited g → Ended g.delimiter rest → Ended g.delimiter rest' →
    t.print g ++ rest = t'.print g ++ rest' → t = t' ∧ rest = rest'
  | .word tag, t', rest, rest', ht, ht', hrest, hrest', h => by
    obtain ⟨htag, htail⟩ := tag_eq hrest hrest' h
    obtain rfl := ht'.eq_word htag.symm ht
    exact ⟨rfl, htail⟩
  | .raw tag text, t', rest, rest', ht, ht', hrest, hrest', h => by
    obtain ⟨htag, htail⟩ := tag_eq hrest hrest' h
    obtain ⟨text', rfl, htext'⟩ := ht'.eq_raw htag.symm ht.1
    obtain ⟨rfl, hr⟩ := append_inj_of_ended ht.2 htext' hrest hrest' (List.cons.inj htail).2
    exact ⟨rfl, hr⟩
  | .quoted tag text, t', rest, rest', ht, ht', hrest, hrest', h => by
    obtain ⟨htag, htail⟩ := tag_eq hrest hrest' h
    obtain ⟨text', rfl⟩ := ht'.eq_quoted htag.symm ht
    obtain ⟨rfl, hr⟩ := Quoting.quote_append_inj (List.cons.inj htail).2
    exact ⟨rfl, hr⟩
  | .group tag brackets items, t', rest, rest', ht, ht', hrest, hrest', h => by
    obtain ⟨htag, htail⟩ := tag_eq hrest hrest' h
    obtain ⟨items', rfl, hitems'⟩ := ht'.eq_group htag.symm ht.1
    simp only [tail, List.cons_append, List.append_assoc, List.nil_append, List.cons.injEq,
      true_and] at htail
    obtain ⟨rfl, hr⟩ := printItems_append_inj items items' brackets ht.2 hitems' htail
    exact ⟨rfl, hr⟩

/-- The items of a group are determined by their text and the closing bracket. -/
theorem printItems_append_inj : (ts ts' : List (Term τ g.delimiter)) →
    (brackets : Brackets g.delimiter) → {rest rest' : List Char} → DelimitedItems g ts →
    DelimitedItems g ts' →
    printItems g brackets.first brackets.second ts ++ brackets.closing :: rest =
      printItems g brackets.first brackets.second ts' ++ brackets.closing :: rest' →
    ts = ts' ∧ rest = rest'
  | [], [], _, _, _, _, _, h => ⟨rfl, (List.cons.inj h).2⟩
  | [], t' :: ts', brackets, _, _, _, ht', h => by
    rw [printItems, printItems, List.append_assoc, List.nil_append] at h
    exact absurd h.symm (t'.print_ne brackets.closing_delimiter _ _)
  | t :: ts, [], brackets, _, _, ht, _, h => by
    rw [printItems, printItems, List.append_assoc, List.nil_append] at h
    exact absurd h (t.print_ne brackets.closing_delimiter _ _)
  | t :: ts, t' :: ts', brackets, _, _, ht, ht', h => by
    rw [printItems, printItems, List.append_assoc, List.append_assoc] at h
    obtain ⟨rfl, hr⟩ := print_append_inj t t' ht.1 ht'.1
      (ended_printRest brackets.first_separates brackets.closing_delimiter ts)
      (ended_printRest brackets.first_separates brackets.closing_delimiter ts') h
    obtain ⟨rfl, hrest⟩ := printRest_append_inj ts ts' brackets.closing_delimiter
      brackets.first_separates brackets.second_separates ht.2 ht'.2 hr
    exact ⟨rfl, hrest⟩

/-- The items that follow others are determined by their text and the closing bracket. -/
theorem printRest_append_inj : (ts ts' : List (Term τ g.delimiter)) →
    {first second : List Char} → {closing : Char} → {rest rest' : List Char} →
    g.delimiter closing → Separates g.delimiter closing first →
    Separates g.delimiter closing second → DelimitedItems g ts → DelimitedItems g ts' →
    printRest g first second ts ++ closing :: rest =
      printRest g first second ts' ++ closing :: rest' →
    ts = ts' ∧ rest = rest'
  | [], [], _, _, _, _, _, _, _, _, _, _, h => ⟨rfl, (List.cons.inj h).2⟩
  | [], t' :: ts', _, _, _, _, _, _, ⟨c, _, hfirst, _, hc⟩, _, _, _, h => by
    subst hfirst
    exact absurd (List.cons.inj h).1.symm hc
  | t :: ts, [], _, _, _, _, _, _, ⟨c, _, hfirst, _, hc⟩, _, _, _, h => by
    subst hfirst
    exact absurd (List.cons.inj h).1 hc
  | t :: ts, t' :: ts', _, _, _, _, _, hclosing, hfirst, hsecond, ht, ht', h => by
    simp only [printRest, List.append_assoc, List.append_cancel_left_eq] at h
    obtain ⟨rfl, hr⟩ := print_append_inj t t' ht.1 ht'.1 (ended_printRest hsecond hclosing ts)
      (ended_printRest hsecond hclosing ts') h
    obtain ⟨rfl, hrest⟩ := printRest_append_inj ts ts' hclosing hsecond hfirst ht.2 ht'.2 hr
    exact ⟨rfl, hrest⟩

end

/-- Delimited terms, and texts that are printed as they are at the top. -/
inductive Shown (g : Grammar τ) : Term τ g.delimiter → Prop
  | delimited {t : Term τ g.delimiter} (h : t.Delimited g) : Shown g t
  | raw {tag : τ} (text : List Char) (hform : g.form tag = .raw) : Shown g (.raw tag text)

/-- A term with the tag and the tail of a text that is printed as it is. -/
theorem Shown.eq_raw {t : Term τ g.delimiter} {tag : τ} {text : List Char} (h : Shown g t)
    (htag : t.tag = tag) (hform : g.form tag = .raw) (htail : t.tail g = ':' :: text) :
    t = .raw tag text := by
  cases h with
  | delimited h =>
    obtain ⟨text', rfl, -⟩ := h.eq_raw htag hform
    cases htail
    rfl
  | raw text' hform =>
    cases htag
    cases htail
    rfl

/-- **Terms are determined by their text.** -/
theorem print_inj {t t' : Term τ g.delimiter} (ht : Shown g t) (ht' : Shown g t')
    (h : t.print g = t'.print g) : t = t' := by
  have hended : Ended g.delimiter [] := fun _ hc => by cases hc
  have happend : t.print g ++ [] = t'.print g ++ [] := by rw [h]
  obtain ⟨htag, htail⟩ := tag_eq hended hended happend
  rw [List.append_nil, List.append_nil] at htail
  cases ht with
  | raw text hform => exact (ht'.eq_raw htag.symm hform htail.symm).symm
  | delimited hd =>
    cases ht' with
    | raw text hform => exact (Shown.delimited hd).eq_raw htag hform htail
    | delimited hd' => exact (print_append_inj t t' hd hd' hended hended happend).1

end Term

end TaggedText
