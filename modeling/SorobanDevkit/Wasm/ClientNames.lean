import Mathlib.Data.List.Nodup
import SorobanDevkit.Library.NameCase
import SorobanDevkit.Wasm.ClientGen

/-!
# The names in a generated client

The struct, the type alias and the fields of a function get names that are made of the function's
name and its parameters' names. Underscores and the case of letters are lost on the way, and the
alias loses every `Call` at the end. So different functions can get one name, and different
parameters one field.

What the module declares is read off its text, line by line.

## Main results

* `structIdent_inj`, `aliasIdent_inj`, `rustIdent_inj` — these are the names of which the same is
  made.
* `typeNames_functionLines`, `structFields_functionLines` — what the text of a function declares.
* `declaresOnce_iff` — the specifications for which every declaration is made once.
-/

namespace SorobanDevkit.Wasm

open NameCase Strings

/-! ### Declarations -/

/-- The identifier at the beginning of a text. -/
def leadingIdent (s : String) : String :=
  String.ofList (s.toList.takeWhile fun c => c.isAlphanum || c == '_')

/-- The struct or the type alias that a line declares. -/
def declaredType (line : String) : Option String :=
  ((stripPrefix "pub struct " line).or (stripPrefix "pub type " line)).map leadingIdent

/-- The structs and type aliases of some lines. -/
def typeNames (lines : List String) : List String := lines.filterMap declaredType

/-- The field that a line of a struct declares. -/
def declaredField (line : String) : Option String := (stripPrefix "    pub " line).map leadingIdent

/-- The fields of each struct of some lines: a struct ends at the first closing brace. -/
def structFields : List String → List (List String)
  | [] => []
  | line :: lines =>
    if startsWith "pub struct " line then
      (lines.takeWhile (· ≠ "\x7d")).filterMap declaredField :: structFields lines
    else structFields lines

/-- The lines of a text. -/
def linesOf (text : String) : List String := splitAt (· == '\n') text

/-- Every struct, every type alias and, within a struct, every field is declared at most once. -/
def DeclaresOnce (text : String) : Prop :=
  (typeNames (linesOf text)).Nodup ∧ ∀ fields ∈ structFields (linesOf text), fields.Nodup

/-! ### Names that become one -/

/-- The names have the same outline once each is continued with some words `call`. -/
def SameUpToCalls (f g : String) : Prop :=
  ∃ m n, outline (f.toList ++ repeated ['_', 'c', 'a', 'l', 'l'] m) =
    outline (g.toList ++ repeated ['_', 'c', 'a', 'l', 'l'] n)

/-- The name is empty or starts with a digit. -/
def StartsNoIdent (name : String) : Prop := name.toList.head?.all (·.isDigit)

instance (name : String) : Decidable (StartsNoIdent name) := inferInstanceAs (Decidable (_ = true))

/-- The names differ in the case of letters only, or in an underscore before the one that starts no
identifier. -/
def SameField (a b : String) : Prop :=
  eqIgnoreAsciiCase a b ∨ (StartsNoIdent b ∧ eqIgnoreAsciiCase a ("_" ++ b)) ∨
    StartsNoIdent a ∧ eqIgnoreAsciiCase ("_" ++ a) b

instance (a b : String) : Decidable (SameField a b) := inferInstanceAs (Decidable (_ ∨ _ ∨ _))

section

variable {f g : String}

theorem pascalAux_underscore (upperNext : Bool) (cs : List Char) :
    pascalAux upperNext ('_' :: cs) = pascalAux true cs := by
  rw [pascalAux, if_pos (Or.inl rfl)]

theorem pascalAux_append_underscore (upperNext : Bool) (cs ds : List Char) :
    pascalAux upperNext (cs ++ '_' :: ds) = pascalAux upperNext cs ++ pascalAux true ds := by
  induction cs generalizing upperNext with
  | nil => exact pascalAux_underscore upperNext ds
  | cons c cs ih =>
    rw [List.cons_append, pascalAux, pascalAux]
    split_ifs
    · exact ih true
    · rw [ih, List.cons_append]
    · rw [ih, List.cons_append]

/-- Words `call` at the end of a name become as many `Call`. -/
theorem pascalAux_append_calls (cs : List Char) (n : ℕ) :
    pascalAux true (cs ++ repeated ['_', 'c', 'a', 'l', 'l'] n) =
      pascalAux true cs ++ repeated "Call".toList n := by
  induction n generalizing cs with
  | zero => simp [repeated]
  | succ n ih =>
    have hcall : pascalAux true ['c', 'a', 'l', 'l'] = "Call".toList := by decide
    rw [repeated_succ, ← List.append_assoc, ih, pascalAux_append_underscore, hcall, repeated_succ,
      List.append_assoc]

/-- The words of a name with capital letters are what its outline tells. -/
theorem pascalAux_eq_capitalized {cs : List Char} (hcs : IsName cs) (previous : Char) :
    pascalAux (previous == '_') cs = capitalized (outlineFrom previous cs) := by
  induction cs generalizing previous with
  | nil => rfl
  | cons c cs ih =>
    obtain ⟨hc, hcs⟩ := List.forall_mem_cons.mp hcs
    rw [outlineFrom]
    split_ifs with hunderscore
    · rw [hunderscore, pascalAux_underscore]
      exact ih hcs '_'
    · have hc := hc.resolve_right hunderscore
      have hnext : (c == '_') = false := beq_eq_false_iff_ne.mpr hunderscore
      rw [pascalAux, if_neg (by simp [hunderscore, hc]), ← hnext, ih hcs c,
        capitalized, capitalized,
        List.map_cons]
      refine congrArg₂ List.cons ?_ rfl
      cases hstart : previous == '_' with
      | false =>
        rw [if_neg Bool.false_ne_true, Bool.and_false]
        rfl
      | true =>
        rw [if_pos rfl, Bool.and_true]
        dsimp only
        rw [toUpper_toLower hc]
        split_ifs with halpha
        · rfl
        · rw [toUpper_of_not_isAlpha hc halpha, toLower_of_not_isAlpha hc halpha]

/-- Capital letters and the letters after them are the same exactly if the outlines are. -/
theorem pascalAux_inj {cs ds : List Char} (hcs : IsName cs) (hds : IsName ds) :
    pascalAux true cs = pascalAux true ds ↔ outline cs = outline ds := by
  rw [← capitalized_outline_inj hcs hds]
  exact Eq.congr (pascalAux_eq_capitalized hcs '_') (pascalAux_eq_capitalized hds '_')

/-- The structs of two functions have one name exactly if the names of the functions have one
outline. -/
theorem structIdent_inj (hf : IsName f.toList) (hg : IsName g.toList) :
    structIdent f = structIdent g ↔ outline f.toList = outline g.toList := by
  rw [← pascalAux_inj hf hg, structIdent, structIdent, String.append_left_inj, String.ofList_inj]

/-- **The aliases of two functions have one name exactly if the names of the functions are the same
up to words `call` at the end.** -/
theorem aliasIdent_inj (hf : IsName f.toList) (hg : IsName g.toList) :
    aliasIdent f = aliasIdent g ↔ SameUpToCalls f g := by
  have hcall : "Call".toList ≠ [] := by decide
  have hword : IsName ['_', 'c', 'a', 'l', 'l'] := by decide
  have htext : ∀ cs n, (String.ofList (pascalAux true cs)).toList ++ repeated "Call".toList n =
      pascalAux true (cs ++ repeated ['_', 'c', 'a', 'l', 'l'] n) := by
    intro cs n
    exact (congrArg (· ++ _) String.toList_ofList).trans (pascalAux_append_calls cs n).symm
  rw [aliasIdent, aliasIdent, String.append_left_inj, structIdent, structIdent,
    trimEndMatches_append hcall, trimEndMatches_append hcall, trimEndMatches_eq_iff hcall]
  refine exists₂_congr fun m n => ?_
  rw [htext, htext]
  exact pascalAux_inj (hf.append_repeated hword m) (hg.append_repeated hword n)

/-- The aliases are different only if the structs are. -/
theorem sameUpToCalls_of_outline (h : outline f.toList = outline g.toList) : SameUpToCalls f g :=
  ⟨0, 0, by simpa [repeated] using h⟩

/-- Whether a name starts no identifier is seen without the case of its letters. -/
theorem startsNoIdent_iff {a : String} (ha : IsName a.toList) :
    StartsNoIdent a ↔ (a.toList.map Char.toLower).head?.all (·.isDigit) := by
  rw [StartsNoIdent]
  cases hlist : a.toList with
  | nil => rfl
  | cons c cs =>
    rw [hlist] at ha
    have hdigit := isDigit_toLower (ha c List.mem_cons_self)
    simp [hdigit]

/-- A parameter whose name starts no identifier gets an underscore in front of its letters in lower
case. -/
theorem rustIdent_eq {a : String} (ha : IsName a.toList) :
    rustIdent a = String.ofList (if StartsNoIdent a then '_' :: a.toList.map Char.toLower
      else a.toList.map Char.toLower) := by
  have hout : (a.toList.map fun c => if c.isAlphanum ∨ c = '_' then c.toLower else '_') =
      a.toList.map Char.toLower := List.map_congr_left fun c hc => if_pos (ha c hc)
  rw [rustIdent, hout]
  simp only [startsNoIdent_iff ha]

/-- **The fields of two parameters have one name exactly if the names of the parameters differ in
case, or in an underscore before the one that starts no identifier.** -/
theorem rustIdent_inj {a b : String} (ha : IsName a.toList) (hb : IsName b.toList) :
    rustIdent a = rustIdent b ↔ SameField a b := by
  have hcase : ∀ s t : String, eqIgnoreAsciiCase s t ↔
      s.toList.map Char.toLower = t.toList.map Char.toLower := fun s t => beq_iff_eq
  have hunderscore : ∀ s : String, ("_" ++ s).toList.map Char.toLower =
      '_' :: s.toList.map Char.toLower := fun s => by
    rw [String.toList_append, List.map_append]
    rfl
  have hstart : ∀ {s : String} {cs}, IsName s.toList → StartsNoIdent s →
      s.toList.map Char.toLower ≠ '_' :: cs := by
    intro s cs hs hno heq
    rw [startsNoIdent_iff hs, heq] at hno
    cases hno
  have hsame : a.toList.map Char.toLower = b.toList.map Char.toLower →
      (StartsNoIdent a ↔ StartsNoIdent b) := by
    intro heq
    rw [startsNoIdent_iff ha, startsNoIdent_iff hb, heq]
  rw [rustIdent_eq ha, rustIdent_eq hb, String.ofList_inj, SameField, hcase, hcase,
    hcase, hunderscore,
    hunderscore]
  split_ifs with hna hnb hnb
  · rw [List.cons_inj_right, or_iff_left]
    rintro (⟨-, heq⟩ | ⟨-, heq⟩)
    · exact hstart ha hna heq
    · exact hstart hb hnb heq.symm
  · rw [or_iff_right fun heq => hnb ((hsame heq).mp hna), or_iff_right fun h => hnb h.1,
      and_iff_right hna]
  · rw [or_iff_right fun heq => hna ((hsame heq).mpr hnb), or_iff_left fun h => hna h.1,
      and_iff_right hnb]
  · exact (or_iff_left fun h => h.elim (fun h => hnb h.1) fun h => hna h.1).symm

end

/-! ### Reading the declarations -/

section

variable {ls ms : List String}

/-- A text that goes on differently does not have a prefix. -/
theorem not_prefix_append {p a x : List Char} (h : ¬ p <+: a ∧ ¬ a <+: p) : ¬ p <+: a ++ x := by
  intro hp
  obtain hpa | hap := List.prefix_or_prefix_of_prefix hp (List.prefix_append a x)
  · exact h.1 hpa
  · exact h.2 hap

/-- The line declares no type. -/
def NoType (line : String) : Prop :=
  startsWith "pub struct " line = false ∧ startsWith "pub type " line = false

instance (line : String) : Decidable (NoType line) := inferInstanceAs (Decidable (_ ∧ _))

/-- A line declares no type if it starts with something that goes on differently. -/
theorem noType_of_start {a : String} (h : ∀ p ∈ ["pub struct ", "pub type "],
    ¬ p.toList <+: a.toList ∧ ¬ a.toList <+: p.toList) (x : String) : NoType (a ++ x) := by
  have hnot : ∀ p ∈ ["pub struct ", "pub type "], startsWith p (a ++ x) = false := by
    intro p hp
    rw [startsWith, String.toList_append]
    exact decide_eq_false (not_prefix_append (h p hp))
  exact ⟨hnot _ (by decide), hnot _ (by decide)⟩

theorem NoType.declaredType_eq_none {line : String} (h : NoType line) :
    declaredType line = none := by
  rw [declaredType, stripPrefix, stripPrefix, if_neg (of_decide_eq_false h.1),
    if_neg (of_decide_eq_false h.2)]
  rfl

theorem typeNames_of_noType (h : ∀ line ∈ ls, NoType line) : typeNames ls = [] :=
  List.filterMap_eq_nil_iff.mpr fun line hline => (h line hline).declaredType_eq_none

/-- An identifier is read up to the character after it. -/
theorem leadingIdent_append {name rest : String} (hname : ∀ c ∈ name.toList, c.isAlphanum ∨ c = '_')
    (hrest : rest.toList.head?.any (fun c => !(c.isAlphanum || c == '_'))) :
    leadingIdent (name ++ rest) = name := by
  have hall : ∀ c ∈ name.toList, (c.isAlphanum || c == '_') = true := fun c hc => by
    simpa using hname c hc
  rw [leadingIdent, String.toList_append, List.takeWhile_append_of_pos hall]
  cases hlist : rest.toList with
  | nil =>
    rw [hlist] at hrest
    cases hrest
  | cons c cs =>
    rw [hlist] at hrest
    have hc : (c.isAlphanum || c == '_') = false := by simpa using hrest
    rw [List.takeWhile_cons_of_neg (by simp [hc]), List.append_nil, String.ofList_toList]

theorem typeNames_append : typeNames (ls ++ ms) = typeNames ls ++ typeNames ms :=
    List.filterMap_append

theorem structFields_append_of_noType (h : ∀ line ∈ ls, NoType line) :
    structFields (ls ++ ms) = structFields ms := by
  induction ls with
  | nil => rfl
  | cons line ls ih =>
    obtain ⟨hline, hls⟩ := List.forall_mem_cons.mp h
    rw [List.cons_append, structFields, hline.1, if_neg Bool.false_ne_true]
    exact ih hls

end

/-! ### The declarations of a function -/

section

variable {f : ContractFunction} {p : ContractParameter} {ls : List String}

theorem isAlphanum_pascalAux (upperNext : Bool) (cs : List Char) :
    ∀ c ∈ pascalAux upperNext cs, c.isAlphanum := by
  induction cs generalizing upperNext with
  | nil => nofun
  | cons c cs ih =>
    rw [pascalAux]
    split_ifs with hskip hupper
    · exact ih true
    · exact List.forall_mem_cons.mpr ⟨isAlphanum_toUpper (by tauto), ih false⟩
    · exact List.forall_mem_cons.mpr ⟨isAlphanum_toLower (by tauto), ih false⟩

theorem isAlphanum_structIdent (name : String) : ∀ c ∈ (structIdent name).toList, c.isAlphanum := by
  have hcall : ∀ c ∈ "Call".toList, c.isAlphanum := List.all_eq_true.mp (by decide)
  rw [structIdent, String.toList_append, String.toList_ofList]
  exact List.forall_mem_append.mpr ⟨isAlphanum_pascalAux true _, hcall⟩

theorem isAlphanum_aliasIdent (name : String) : ∀ c ∈ (aliasIdent name).toList, c.isAlphanum := by
  have houtput : ∀ c ∈ "Output".toList, c.isAlphanum := List.all_eq_true.mp (by decide)
  rw [aliasIdent, String.toList_append]
  exact List.forall_mem_append.mpr
    ⟨fun c hc => isAlphanum_structIdent name c (mem_of_mem_trimEndMatches hc), houtput⟩

theorem isName_rustIdent (name : String) : IsName (rustIdent name).toList := by
  have hout : IsName (name.toList.map fun c => if c.isAlphanum ∨ c = '_' then
    c.toLower else '_') := by
    intro d hd
    obtain ⟨c, -, rfl⟩ := List.mem_map.mp hd
    split_ifs with hc
    · obtain hc | rfl := hc
      · exact .inl (isAlphanum_toLower hc)
      · exact .inr rfl
    · exact .inr rfl
  rw [rustIdent, String.toList_ofList]
  split_ifs
  · exact List.forall_mem_cons.mpr ⟨.inr rfl, hout⟩
  · exact hout

/-- A field has one line that declares it, maybe after one with its documentation. -/
theorem declarations_fieldLines (h : fieldLines p = some ls) :
    ls.filterMap declaredField = [rustIdent p.name] ∧ ∀ line ∈ ls, NoType line ∧ line ≠ "\x7d" := by
  have hindented : ∀ a ∈ ["    /// ", "    pub "], ∀ x, NoType (a ++ x) ∧ a ++ x ≠ "\x7d" := by
    intro a ha x
    have hstarts : ∀ a ∈ ["    /// ", "    pub "], (∀ p ∈ ["pub struct ", "pub type "],
        ¬ p.toList <+: a.toList ∧ ¬ a.toList <+: p.toList) ∧ ¬ a.toList <+: ['\x7d'] := by decide
    obtain ⟨hstart, hbrace⟩ := hstarts a ha
    refine ⟨noType_of_start hstart x, fun heq => hbrace ⟨x.toList, ?_⟩⟩
    rw [← String.toList_append, heq]
    rfl
  have hdoc : ∀ x, declaredField ("    /// " ++ x) = none := by
    intro x
    rw [declaredField, stripPrefix, String.toList_append, if_neg (not_prefix_append (by decide))]
    rfl
  obtain ⟨rustTy, -, rfl⟩ := Option.map_eq_some_iff.mp h
  have hfield : declaredField ("    pub " ++ rustIdent p.name ++ ": " ++ rustTy ++ ",") =
      some (rustIdent p.name) := by
    rw [String.append_assoc, String.append_assoc, String.append_assoc, declaredField,
      stripPrefix_append,
      Option.map_some, leadingIdent_append (isName_rustIdent p.name)]
    rw [String.toList_append]
    rfl
  have hfieldLine := hindented "    pub " (by decide)
    (rustIdent p.name ++ (": " ++ (rustTy ++ ",")))
  simp only [String.append_assoc] at hfield ⊢
  split_ifs
  · exact ⟨by rw [List.nil_append, List.filterMap_cons_some hfield, List.filterMap_nil],
      List.forall_mem_singleton.mpr hfieldLine⟩
  · exact ⟨by rw [List.singleton_append, List.filterMap_cons_none (hdoc _),
        List.filterMap_cons_some hfield, List.filterMap_nil],
      List.forall_mem_cons.mpr ⟨hindented "    /// " (by decide) _,
        List.forall_mem_singleton.mpr hfieldLine⟩⟩

/-- Each parameter has its field. -/
theorem declarations_fields {ps : List ContractParameter} {fields : List (List String)}
    (h : ps.mapM fieldLines = some fields) :
    fields.flatten.filterMap declaredField = ps.map (fun p => rustIdent p.name) ∧
      ∀ line ∈ fields.flatten, NoType line ∧ line ≠ "\x7d" := by
  induction Option.mapM_eq_some_iff.mp h with
  | nil => exact ⟨rfl, nofun⟩
  | cons hp hps ih =>
    obtain ⟨hfield, hlines⟩ := declarations_fieldLines hp
    obtain ⟨hfields, hrest⟩ := ih (Option.mapM_eq_some_iff.mpr hps)
    rw [List.flatten_cons, List.filterMap_append, hfield, hfields, List.map_cons]
    exact ⟨rfl, List.forall_mem_append.mpr ⟨hlines, hrest⟩⟩

/-- No declaration starts with another character than the first one of `pub`. -/
theorem noType_append (a x : String) (h : a.toList.head?.any (· ≠ 'p')) : NoType (a ++ x) := by
  refine noType_of_start (fun p hp => ?_) x
  have hpub : ∀ p ∈ ["pub struct ", "pub type "], p.toList.head? = some 'p' := by decide
  have hhead := hpub p hp
  cases ha : a.toList with
  | nil =>
    rw [ha] at h
    cases h
  | cons c cs =>
    rw [ha] at h
    have hc : c ≠ 'p' := of_decide_eq_true h
    cases hlist : p.toList with
    | nil =>
      rw [hlist] at hhead
      cases hhead
    | cons d ds =>
      rw [hlist] at hhead
      have hd : d = 'p' := Option.some_inj.mp hhead
      subst hd
      exact ⟨fun hprefix => hc (List.cons_prefix_cons.mp hprefix).1.symm,
        fun hprefix => hc (List.cons_prefix_cons.mp hprefix).1⟩

theorem noType_literal (a : String) (h : a.toList.head?.any (· ≠ 'p')) : NoType a := by
  have happend := noType_append a "" h
  rwa [String.append_empty] at happend

/-- The arguments declare no type. -/
theorem noType_args {ps : List ContractParameter} {args : List String}
    (h : ps.mapM argLine = some args) : ∀ line ∈ args, NoType line := by
  induction Option.mapM_eq_some_iff.mp h with
  | nil => nofun
  | cons hp hps ih =>
    obtain ⟨tag, -, rfl⟩ := Option.map_eq_some_iff.mp hp
    refine List.forall_mem_cons.mpr ⟨?_, ih (Option.mapM_eq_some_iff.mpr hps)⟩
    simp only [String.append_assoc]
    exact noType_append "            format!(\"" _ rfl

/-- The lines between the struct of a function and its alias. -/
def implLines (f : ContractFunction) (args : List String) : List String :=
  ["#[allow(dead_code)]",
   "impl " ++ (structIdent f.name ++ " \x7b"),
   "    /// Contract function name.",
   "    pub const NAME: &'static str = \"" ++ (f.name ++ "\";"),
   "    /// Encode this call as \x60TYPE:VALUE\x60 argument strings",
   "    /// for \x60sdkt call <contract-id> " ++ (f.name ++ " [args...]\x60."),
   "    pub fn args(&self) -> Vec<String> \x7b",
   "        vec!["] ++ args ++
  ["        ]",
   "    \x7d",
   "\x7d",
   "/// Expected return type of \x60" ++ (f.name ++ "\x60.")]

/-- The lines of a function are a struct, an implementation and an alias. -/
theorem functionLines_eq_some_iff : functionLines f = some ls ↔
    ∃ fields args, f.parameters.mapM fieldLines = some fields ∧
      f.parameters.mapM argLine = some args ∧
      ls = docLine f :: ("pub struct " ++ (structIdent f.name ++ " \x7b"))
        :: (fields.flatten ++ "\x7d" ::
        (implLines f args ++
          ["pub type " ++ (aliasIdent f.name ++ (" = " ++ (outTy f ++ ";"))), ""])) := by
  constructor
  · intro h
    obtain ⟨fields, hfields, h⟩ := Option.bind_eq_some_iff.mp h
    obtain ⟨args, hargs, h⟩ := Option.bind_eq_some_iff.mp h
    refine ⟨fields, args, hfields, hargs, ?_⟩
    rw [← Option.some_inj.mp h, implLines]
    simp only [String.append_assoc, List.append_assoc, List.cons_append, List.nil_append]
  · rintro ⟨fields, args, hfields, hargs, rfl⟩
    refine Option.bind_eq_some_iff.mpr
      ⟨fields, hfields, Option.bind_eq_some_iff.mpr ⟨args, hargs, ?_⟩⟩
    rw [implLines]
    simp only [String.append_assoc, List.append_assoc, List.cons_append, List.nil_append]

theorem noType_docLine (f : ContractFunction) : NoType (docLine f) := by
  rw [docLine]
  simp only [String.append_assoc]
  split_ifs
  · exact noType_append "/// " _ rfl
  · exact noType_append "/// Typed call builder for \x60" _ rfl

theorem noType_implLines {args : List String} (h : ∀ line ∈ args, NoType line) :
    ∀ line ∈ implLines f args, NoType line := by
  rw [implLines]
  simp only [List.forall_mem_append, List.forall_mem_cons]
  refine ⟨⟨⟨noType_literal _ rfl, noType_append "impl " _ rfl, noType_literal _ rfl,
    noType_append "    pub const NAME: &'static str = \"" _ rfl, noType_literal _ rfl,
    noType_append "    /// for \x60sdkt call <contract-id> " _ rfl, noType_literal _ rfl,
    noType_literal _ rfl, nofun⟩, h⟩, noType_literal _ rfl, noType_literal _ rfl,
      noType_literal _ rfl,
    noType_append "/// Expected return type of \x60" _ rfl, nofun⟩

/-- The struct and the alias of a function are the types its lines declare. -/
theorem typeNames_functionLines (h : functionLines f = some ls) :
    typeNames ls = [structIdent f.name, aliasIdent f.name] := by
  obtain ⟨fields, args, hfields, hargs, rfl⟩ := functionLines_eq_some_iff.mp h
  have hstruct : declaredType ("pub struct " ++ (structIdent f.name ++ " \x7b")) =
      some (structIdent f.name) := by
    rw [declaredType, stripPrefix_append, Option.some_or, Option.map_some,
      leadingIdent_append (fun c hc => .inl (isAlphanum_structIdent _ c hc)) rfl]
  have halias : ∀ x, declaredType ("pub type " ++ (aliasIdent f.name ++ (" = " ++ x))) =
      some (aliasIdent f.name) := by
    intro x
    rw [declaredType, stripPrefix, String.toList_append, if_neg (not_prefix_append (by decide)),
      Option.none_or, stripPrefix_append, Option.map_some,
      leadingIdent_append (fun c hc => .inl (isAlphanum_aliasIdent _ c hc))]
    rw [String.toList_append]
    rfl
  have hbody : typeNames fields.flatten = [] :=
    typeNames_of_noType fun line hline => ((declarations_fields hfields).2 line hline).1
  rw [typeNames, List.filterMap_cons_none (noType_docLine f).declaredType_eq_none,
    List.filterMap_cons_some hstruct]
  refine congrArg (structIdent f.name :: ·) ?_
  calc typeNames (fields.flatten ++ "\x7d" :: (implLines f args ++
        ["pub type " ++ (aliasIdent f.name ++ (" = " ++ (outTy f ++ ";"))), ""]))
      = typeNames ("\x7d" :: (implLines f args ++
        ["pub type " ++ (aliasIdent f.name ++ (" = " ++ (outTy f ++ ";"))), ""])) := by
        rw [typeNames_append, hbody, List.nil_append]
    _ = typeNames (implLines f args ++
        ["pub type " ++ (aliasIdent f.name ++ (" = " ++ (outTy f ++ ";"))), ""]) :=
        List.filterMap_cons_none (noType_literal "\x7d" rfl).declaredType_eq_none
    _ = typeNames ["pub type " ++ (aliasIdent f.name ++ (" = " ++ (outTy f ++ ";"))), ""] := by
        rw [typeNames_append, typeNames_of_noType (noType_implLines (noType_args hargs)),
          List.nil_append]
    _ = [aliasIdent f.name] := by
        have hempty : declaredType "" = none := by decide
        rw [typeNames, List.filterMap_cons_some (halias _), List.filterMap_cons_none hempty,
          List.filterMap_nil]

/-- The struct of a function has a field for each parameter. -/
theorem structFields_functionLines (h : functionLines f = some ls) (ms : List String) :
    structFields (ls ++ ms) = f.parameters.map (fun p => rustIdent p.name) :: structFields ms := by
  obtain ⟨fields, args, hfields, hargs, rfl⟩ := functionLines_eq_some_iff.mp h
  obtain ⟨hdeclared, hlines⟩ := declarations_fields hfields
  have hstruct : startsWith "pub struct "
    ("pub struct " ++ (structIdent f.name ++ " \x7b")) = true := by
    rw [startsWith, String.toList_append]
    exact decide_eq_true (List.prefix_append _ _)
  have halias : ∀ x, startsWith "pub struct " ("pub type " ++ x) = false := by
    intro x
    rw [startsWith, String.toList_append]
    exact decide_eq_false (not_prefix_append (by decide))
  have hrest : structFields (fields.flatten ++ "\x7d" :: (implLines f args ++
      ["pub type " ++ (aliasIdent f.name ++ (" = " ++ (outTy f ++ ";"))), ""]) ++ ms) =
        structFields ms := by
    rw [List.append_assoc, structFields_append_of_noType fun line hline => (hlines line hline).1,
      List.cons_append, structFields, if_neg (by decide), List.append_assoc,
      structFields_append_of_noType (noType_implLines (noType_args hargs)), List.cons_append,
        structFields,
      halias, if_neg Bool.false_ne_true, List.singleton_append, structFields, if_neg (by decide)]
  rw [List.cons_append, structFields, (noType_docLine f).1, if_neg Bool.false_ne_true,
    List.cons_append, structFields, hstruct, if_pos rfl, hrest]
  refine congrArg (· :: structFields ms) ?_
  have hbrace : ∀ line ∈ fields.flatten, decide (line ≠ "\x7d") = true :=
    fun line hline => decide_eq_true (hlines line hline).2
  rw [List.append_assoc, List.takeWhile_append_of_pos hbrace, List.cons_append,
    List.takeWhile_cons_of_neg (by decide), List.append_nil, hdeclared]

end

/-! ### The lines of the text -/

section

variable {f : ContractFunction} {p : ContractParameter} {ls : List String}

/-- The text is one line. -/
def NoBreak (s : String) : Prop := ∀ c ∈ s.toList, (c == '\n') = false

instance (s : String) : Decidable (NoBreak s) := List.decidableBAll _ _

theorem noBreak_append {s t : String} : NoBreak (s ++ t) ↔ NoBreak s ∧ NoBreak t := by
  rw [NoBreak, String.toList_append]
  exact List.forall_mem_append

theorem noBreak_of_isName {s : String} (h : IsName s.toList) : NoBreak s := by
  intro c hc
  refine beq_eq_false_iff_ne.mpr ?_
  rintro rfl
  exact absurd (h '\n' hc) (by decide)

theorem noBreak_structIdent (name : String) : NoBreak (structIdent name) :=
  noBreak_of_isName fun c hc => .inl (isAlphanum_structIdent name c hc)

theorem noBreak_aliasIdent (name : String) : NoBreak (aliasIdent name) :=
  noBreak_of_isName fun c hc => .inl (isAlphanum_aliasIdent name c hc)

theorem noBreak_rustIdent (name : String) : NoBreak (rustIdent name) := noBreak_of_isName
    (isName_rustIdent name)

/-- A documentation is one line. -/
theorem noBreak_docText (doc : String) : NoBreak (docText doc) := by
  intro c hc
  rw [docText, String.toList_map] at hc
  obtain ⟨d, -, rfl⟩ := List.mem_map.mp hc
  split_ifs with hd
  · rfl
  · exact beq_eq_false_iff_ne.mpr hd

theorem noBreak_of_mapScalar {t : ContractType} {rustTy : String} (h : mapScalar t = some rustTy) :
    NoBreak rustTy := by
  have hall : ∀ name ∈ ["u32", "i32", "u64", "i64", "bool", "String", "()"],
    NoBreak name := by decide
  refine hall rustTy ?_
  unfold mapScalar at h
  split_ifs at h
  split at h <;> simp_all

theorem noBreak_of_scalarTypeTag {t : ContractType} {tag : String}
    (h : scalarTypeTag t = some tag) :
    NoBreak tag := by
  have hall : ∀ name ∈ ["u32", "i32", "u64", "i64", "bool", "address", "string", "symbol"],
    NoBreak name := by
    decide
  refine hall tag ?_
  unfold scalarTypeTag at h
  split at h <;> simp_all

theorem noBreak_outTy (f : ContractFunction) : NoBreak (outTy f) := by
  have hnone : NoBreak "()" := by decide
  rw [outTy]
  cases f.outputs with
  | nil => exact hnone
  | cons o outputs =>
    dsimp only
    cases h : mapScalar o with
    | none => exact hnone
    | some rustTy => exact noBreak_of_mapScalar h

/-- The lines of a text are the lines it was made of, and what follows the last one. -/
theorem linesOf_textOf (h : ∀ line ∈ ls, NoBreak line) : linesOf (textOf ls) = ls ++ [""] := by
  have htext : (textOf ls).toList = ls.flatMap fun line => line.toList ++ ['\n'] := by
    rw [textOf, String.toList_join, List.flatMap_map]
    exact List.flatMap_congr fun line _ => String.toList_append
  rw [linesOf, splitAt, htext]
  clear htext
  induction ls with
  | nil => rfl
  | cons line ls ih =>
    obtain ⟨hline, hls⟩ := List.forall_mem_cons.mp h
    rw [List.flatMap_cons, List.append_assoc, List.singleton_append,
      splitAtAux_append_cons hline rfl,
      List.nil_append, List.map_cons, ih hls, String.ofList_toList, List.cons_append]

/-- The lines of a field. -/
theorem noBreak_fieldLines (hp : IsName p.name.toList) (h : fieldLines p = some ls) :
    ∀ line ∈ ls, NoBreak line := by
  have hname := noBreak_of_isName hp
  obtain ⟨rustTy, hrust, rfl⟩ := Option.map_eq_some_iff.mp h
  have hfield : NoBreak ("    pub " ++ rustIdent p.name ++ ": " ++ rustTy ++ ",") := by
    simp only [noBreak_append]
    exact ⟨⟨⟨⟨by decide, noBreak_rustIdent p.name⟩, by decide⟩,
      noBreak_of_mapScalar hrust⟩, by decide⟩
  have hdoc : NoBreak ("    /// " ++ p.name ++ " — " ++ docText p.doc) := by
    simp only [noBreak_append]
    exact ⟨⟨⟨by decide, hname⟩, by decide⟩, noBreak_docText p.doc⟩
  refine List.forall_mem_append.mpr ⟨?_, List.forall_mem_singleton.mpr hfield⟩
  split_ifs
  · nofun
  · exact List.forall_mem_singleton.mpr hdoc

/-- The line of an argument. -/
theorem noBreak_argLine {line : String} (h : argLine p = some line) : NoBreak line := by
  obtain ⟨tag, htag, rfl⟩ := Option.map_eq_some_iff.mp h
  have hexpr : NoBreak ("self." ++ rustIdent p.name ++ ".to_string()") ∧
      NoBreak ("self." ++ rustIdent p.name ++ ".clone()") := by
    simp only [noBreak_append]
    exact ⟨⟨⟨by decide, noBreak_rustIdent p.name⟩, by decide⟩,
      ⟨by decide, noBreak_rustIdent p.name⟩,
      by decide⟩
  dsimp only
  rw [noBreak_append, noBreak_append, noBreak_append, noBreak_append]
  refine ⟨⟨⟨⟨by decide, noBreak_of_scalarTypeTag htag⟩, by decide⟩, ?_⟩, by decide⟩
  split_ifs
  · exact hexpr.1
  · exact hexpr.2

/-- Whatever is written for the members of a list is written in lines, if it is for each member. -/
theorem noBreak_of_mapM {α : Type} {as : List α} {k : α → Option (List String)}
    {blocks : List (List String)}
    (h : as.mapM k = some blocks) (hk : ∀ a ∈ as, ∀ ls, k a = some ls → ∀ line ∈ ls, NoBreak line) :
    ∀ line ∈ blocks.flatten, NoBreak line := by
  induction Option.mapM_eq_some_iff.mp h with
  | nil => nofun
  | cons ha has ih =>
    obtain ⟨hhead, htail⟩ := List.forall_mem_cons.mp hk
    rw [List.flatten_cons]
    exact List.forall_mem_append.mpr ⟨hhead _ ha, ih (Option.mapM_eq_some_iff.mpr has) htail⟩

/-- The lines of a function. -/
theorem noBreak_functionLines (hf : IsName f.name.toList)
    (hps : ∀ p ∈ f.parameters, IsName p.name.toList)
    (h : functionLines f = some ls) : ∀ line ∈ ls, NoBreak line := by
  obtain ⟨fields, args, hfields, hargs, rfl⟩ := functionLines_eq_some_iff.mp h
  have hname := noBreak_of_isName hf
  have hstruct := noBreak_structIdent f.name
  have hdoc : NoBreak (docLine f) := by
    rw [docLine]
    split_ifs
    · simp only [noBreak_append]
      exact ⟨⟨⟨by decide, hname⟩, by decide⟩, noBreak_docText f.doc⟩
    · simp only [noBreak_append]
      exact ⟨⟨by decide, hname⟩, by decide⟩
  have hfields : ∀ line ∈ fields.flatten, NoBreak line :=
    noBreak_of_mapM hfields fun p hp _ => noBreak_fieldLines (hps p hp)
  have hargs : ∀ line ∈ args, NoBreak line := by
    intro line hline
    obtain ⟨p, -, hp⟩ := Option.exists_of_mem_mapM hargs hline
    exact noBreak_argLine hp
  have himpl : ∀ line ∈ implLines f args, NoBreak line := by
    rw [implLines]
    simp only [List.forall_mem_append, List.forall_mem_cons, noBreak_append]
    refine ⟨⟨⟨by decide, ⟨by decide, hstruct, by decide⟩, by decide, ⟨by decide, hname, by decide⟩,
      by decide, ⟨by decide, hname, by decide⟩, by decide, by decide, nofun⟩,
        hargs⟩, by decide, by decide,
      by decide, ⟨by decide, hname, by decide⟩, nofun⟩
  simp only [List.forall_mem_append, List.forall_mem_cons, noBreak_append]
  exact ⟨hdoc, ⟨by decide, hstruct, by decide⟩, hfields, by decide, himpl,
    ⟨by decide, noBreak_aliasIdent f.name, by decide, noBreak_outTy f, by decide⟩, by decide, nofun⟩

end

/-! ### The declarations of the text -/

section

variable {ls : List String} {fs : List ContractFunction} {blocks : List (List String)}

/-- The struct and the alias of each function. -/
theorem typeNames_blocks (h : fs.mapM functionLines = some blocks) :
    typeNames blocks.flatten = fs.flatMap fun f => [structIdent f.name, aliasIdent f.name] := by
  induction Option.mapM_eq_some_iff.mp h with
  | nil => rfl
  | cons hf hfs ih =>
    rw [List.flatten_cons, typeNames_append, typeNames_functionLines hf,
      ih (Option.mapM_eq_some_iff.mpr hfs), List.flatMap_cons]

/-- The fields of each function. -/
theorem structFields_blocks (h : fs.mapM functionLines = some blocks) (ms : List String) :
    structFields (blocks.flatten ++ ms) =
      (fs.map fun f => f.parameters.map fun p => rustIdent p.name) ++ structFields ms := by
  induction Option.mapM_eq_some_iff.mp h with
  | nil => rfl
  | cons hf hfs ih =>
    rw [List.flatten_cons, List.append_assoc, structFields_functionLines hf,
      ih (Option.mapM_eq_some_iff.mpr hfs), List.map_cons, List.cons_append]

/-- No struct has the name of an alias. -/
theorem structIdent_ne_aliasIdent (f g : String) : structIdent f ≠ aliasIdent g := by
  intro heq
  have hlist := congrArg String.toList heq
  rw [structIdent, aliasIdent, String.toList_append, String.toList_append] at hlist
  have hlast := congrArg List.getLast? hlist
  rw [List.getLast?_append, List.getLast?_append] at hlast
  cases hlast

/-- The structs and aliases have different names exactly if the aliases have. -/
theorem nodup_typeNames_iff (hfs : ∀ f ∈ fs, IsName f.name.toList) :
    (fs.flatMap fun f => [structIdent f.name, aliasIdent f.name]).Nodup ↔
      fs.Pairwise fun f g => ¬ SameUpToCalls f.name g.name := by
  have hdisjoint : ∀ {f g : ContractFunction}, f ∈ fs → g ∈ fs →
      (List.Disjoint [structIdent f.name, aliasIdent f.name]
        [structIdent g.name, aliasIdent g.name] ↔
        ¬ SameUpToCalls f.name g.name) := by
    intro f g hf hg
    have hstruct := structIdent_inj (hfs f hf) (hfs g hg)
    have halias := aliasIdent_inj (hfs f hf) (hfs g hg)
    have hne := structIdent_ne_aliasIdent f.name g.name
    have hne' := structIdent_ne_aliasIdent g.name f.name
    simp only [List.disjoint_cons_left, List.mem_cons, List.not_mem_nil, or_false, not_or,
      List.disjoint_nil_left, and_true]
    rw [hstruct, halias]
    exact ⟨fun h => h.2.2, fun h => ⟨⟨fun houtline => h (sameUpToCalls_of_outline houtline), hne⟩,
      fun heq => hne' heq.symm, h⟩⟩
  rw [List.nodup_flatMap]
  rw [and_iff_right]
  · exact List.Pairwise.iff_of_mem hdisjoint
  · intro f _
    simpa using structIdent_ne_aliasIdent f.name f.name

/-- The fields of a function have different names exactly if no two parameters have one field. -/
theorem nodup_fields_iff {ps : List ContractParameter} (hps : ∀ p ∈ ps, IsName p.name.toList) :
    (ps.map fun p => rustIdent p.name).Nodup ↔ ps.Pairwise fun p q =>
      ¬ SameField p.name q.name := by
  rw [List.Nodup, List.pairwise_map]
  exact List.Pairwise.iff_of_mem fun hp hq => not_congr (rustIdent_inj (hps _ hp) (hps _ hq))

/-- The generator leaves no function out unless it is told to. -/
theorem sortFunctions_false_eq_ok {supported : List ContractFunction}
    {skipped : List (ContractFunction × ClientGenError)}
      (h : sortFunctions false fs = .ok (supported, skipped)) :
    supported = fs ∧ skipped = [] := by
  induction fs generalizing supported skipped with
  | nil =>
    cases h
    exact ⟨rfl, rfl⟩
  | cons f fs ih =>
    rw [sortFunctions] at h
    cases hf : checkSupported f with
    | error err =>
      rw [hf] at h
      cases h
    | ok u =>
      rw [hf] at h
      obtain ⟨⟨rest, left⟩, hrest, heq⟩ := Except.map_eq_ok_iff.mp h
      obtain ⟨rfl, rfl⟩ := ih hrest
      cases heq
      exact ⟨rfl, rfl⟩

/-- A line that is no declaration. -/
def PlainLine (line : String) : Prop := NoType line ∧ NoBreak line

instance (line : String) : Decidable (PlainLine line) := inferInstanceAs (Decidable (_ ∧ _))

theorem noType_function (x : String) : NoType ("pub fn contract_functions" ++ x) :=
  noType_of_start (by decide) x

/-- The lines at the beginning. -/
theorem plainLine_headerLines : ∀ line ∈ headerLines [], PlainLine line := by
  have hcomment : ∀ line ∈ headerLines [], line = "" ∨ line.toList.head?.any (· ≠ 'p') := by decide
  have hempty : PlainLine "" := by decide
  have hbreak : ∀ line ∈ headerLines [], NoBreak line := by decide
  intro line hline
  obtain rfl | hhead := hcomment line hline
  · exact hempty
  · exact ⟨noType_literal line hhead, hbreak line hline⟩

/-- The lines for a contract without functions. -/
theorem plainLine_noFunctions : ∀ line ∈ ["/// This contract exposes no callable functions.",
    "pub fn contract_functions() -> &'static [&'static str] \x7b &[] \x7d"], PlainLine line := by
  have hfunction := noType_function "() -> &'static [&'static str] \x7b &[] \x7d"
  exact List.forall_mem_cons.mpr ⟨⟨noType_literal _ rfl, by decide⟩,
    List.forall_mem_singleton.mpr ⟨hfunction, by decide⟩⟩

/-- The lines of the names of the functions. -/
theorem plainLine_nameLines (hfs : ∀ f ∈ fs, IsName f.name.toList) :
    ∀ line ∈ nameLines fs, PlainLine line := by
  have hfunction := noType_function "() -> &'static [&'static str] \x7b"
  have hnames : NoBreak (String.intercalate ", " (fs.map fun f => "\"" ++ f.name ++ "\"")) := by
    have hname : ∀ f ∈ fs, NoBreak ("\"" ++ f.name ++ "\"") := fun f hf =>
      noBreak_append.mpr ⟨noBreak_append.mpr ⟨by decide, noBreak_of_isName (hfs f hf)⟩, by decide⟩
    cases fs with
    | nil => decide
    | cons f fs =>
      obtain ⟨hf, hfs⟩ := List.forall_mem_cons.mp hname
      rw [List.map_cons, NoBreak, toList_intercalate_cons]
      refine List.forall_mem_append.mpr ⟨hf, fun c hc => ?_⟩
      obtain ⟨s, hs, hc⟩ := List.mem_flatMap.mp hc
      obtain ⟨g, hg, rfl⟩ := List.mem_map.mp hs
      obtain hc | hc := List.mem_append.mp hc
      · exact (by decide : NoBreak ", ") c hc
      · exact hfs g hg c hc
  have hlist : PlainLine
    ("    &[" ++ (String.intercalate ", " (fs.map fun f => "\"" ++ f.name ++ "\"") ++
      "]")) :=
    ⟨noType_append "    &[" _ rfl,
      noBreak_append.mpr ⟨by decide, noBreak_append.mpr ⟨hnames, by decide⟩⟩⟩
  rw [nameLines, String.append_assoc]
  exact List.forall_mem_cons.mpr ⟨⟨noType_literal _ rfl, by decide⟩, List.forall_mem_cons.mpr
    ⟨⟨hfunction, by decide⟩, List.forall_mem_cons.mpr ⟨hlist, by decide⟩⟩⟩

/-- The declarations of lines that follow others. -/
theorem declarations_textOf (hls : ∀ line ∈ ls, PlainLine line)
    (hblocks : fs.mapM functionLines = some blocks)
    (hfunctions : ∀ f ∈ fs, IsName f.name.toList)
    (hparameters : ∀ f ∈ fs, ∀ p ∈ f.parameters, IsName p.name.toList) :
    typeNames (linesOf (textOf (ls ++ blocks.flatten))) =
        (fs.flatMap fun f => [structIdent f.name, aliasIdent f.name]) ∧
      structFields (linesOf (textOf (ls ++ blocks.flatten))) =
        fs.map fun f => f.parameters.map fun p => rustIdent p.name := by
  have hbreak : ∀ line ∈ ls ++ blocks.flatten, NoBreak line :=
    List.forall_mem_append.mpr ⟨fun line hline => (hls line hline).2, noBreak_of_mapM hblocks
      fun f hf _ => noBreak_functionLines (hfunctions f hf) (hparameters f hf)⟩
  have htype : ∀ line ∈ ls, NoType line := fun line hline => (hls line hline).1
  have hlast : typeNames [""] = [] ∧ structFields [""] = [] := by decide
  rw [linesOf_textOf hbreak]
  constructor
  · rw [typeNames_append, typeNames_append, typeNames_of_noType htype, List.nil_append,
      typeNames_blocks hblocks, hlast.1, List.append_nil]
  · rw [List.append_assoc, structFields_append_of_noType htype,
      structFields_blocks hblocks, hlast.2,
      List.append_nil]

end

/-- The declarations of a generated module are those of its functions. -/
theorem declarations_of_generateClient {spec : ContractSpec} {text : String}
    (hspec : generateClient spec = some (.ok text))
    (hfunctions : ∀ f ∈ spec.functions, IsName f.name.toList)
    (hparameters : ∀ f ∈ spec.functions, ∀ p ∈ f.parameters, IsName p.name.toList) :
    typeNames (linesOf text) = (spec.functions.flatMap fun f =>
      [structIdent f.name, aliasIdent f.name]) ∧
      structFields (linesOf text) =
        spec.functions.map fun f => f.parameters.map fun p => rustIdent p.name := by
  rw [generateClient, generateClientWithOptions] at hspec
  cases hsort : sortFunctions false spec.functions with
  | error err =>
    rw [hsort] at hspec
    cases Option.some_inj.mp hspec
  | ok sorted =>
    obtain ⟨supported, skipped⟩ := sorted
    obtain ⟨rfl, rfl⟩ := sortFunctions_false_eq_ok hsort
    rw [hsort] at hspec
    obtain ⟨text', htext, heq⟩ := Option.map_eq_some_iff.mp hspec
    cases heq
    rw [clientText] at htext
    split_ifs at htext with hnone
    · have hnoBlocks : ([] : List ContractFunction).mapM functionLines = some [] := rfl
      have hplain := List.forall_mem_append.mpr ⟨plainLine_headerLines, plainLine_noFunctions⟩
      have hdeclarations := declarations_textOf hplain hnoBlocks (List.forall_mem_nil _)
        (List.forall_mem_nil _)
      rw [List.flatten_nil, List.append_nil] at hdeclarations
      rw [hnone, ← Option.some_inj.mp htext]
      exact hdeclarations
    · obtain ⟨blocks, hblocks, rfl⟩ := Option.map_eq_some_iff.mp htext
      exact declarations_textOf
        (List.forall_mem_append.mpr ⟨plainLine_headerLines, plainLine_nameLines hfunctions⟩) hblocks
        hfunctions hparameters

/-- **When a generated module declares nothing twice**: no two functions have one name up to words
`call` at its end, and no two parameters of a function have one field. -/
theorem declaresOnce_iff {spec : ContractSpec} {text : String}
    (hspec : generateClient spec = some (.ok text))
    (hfunctions : ∀ f ∈ spec.functions, IsName f.name.toList)
    (hparameters : ∀ f ∈ spec.functions, ∀ p ∈ f.parameters, IsName p.name.toList) :
    DeclaresOnce text ↔
      (spec.functions.Pairwise fun f g => ¬ SameUpToCalls f.name g.name) ∧
        ∀ f ∈ spec.functions, f.parameters.Pairwise fun p q => ¬ SameField p.name q.name := by
  obtain ⟨htypes, hfields⟩ := declarations_of_generateClient hspec hfunctions hparameters
  rw [DeclaresOnce, htypes, hfields, nodup_typeNames_iff hfunctions, List.forall_mem_map]
  exact and_congr_right fun _ => forall₂_congr fun f hf => nodup_fields_iff (hparameters f hf)

/-- A contract with two functions, which have two parameters and one. -/
def mintSpec : ContractSpec where
  envMeta := none
  functions := [
    { name := "mint", doc := "", outputs := []
      parameters := [{ name := "to", doc := "", type := primitive "address" },
        { name := "amount", doc := "", type := primitive "u64" }] },
    { name := "balance", doc := "", outputs := [primitive "u64"]
      parameters := [{ name := "owner", doc := "", type := primitive "address" }] }]
  customTypes := []
  events := []

theorem declaresOnce_mint : ∃ text, generateClient mintSpec = some (.ok text) ∧
    DeclaresOnce text := by
  have hfunctions : ∀ f ∈ mintSpec.functions, IsName f.name.toList := by decide
  have hparameters : ∀ f ∈ mintSpec.functions, ∀ p ∈ f.parameters, IsName p.name.toList := by decide
  have hnames : ¬ SameUpToCalls "mint" "balance" := by
    rw [← aliasIdent_inj (by decide) (by decide)]
    decide
  have hfields : ¬ SameField "to" "amount" := by decide
  obtain ⟨text, htext⟩ : ∃ text, generateClient mintSpec = some (.ok text) := ⟨_, rfl⟩
  refine ⟨text, htext, (declaresOnce_iff htext hfunctions hparameters).mpr
    ⟨List.pairwise_pair.mpr hnames, ?_⟩⟩
  refine List.forall_mem_cons.mpr ⟨List.pairwise_pair.mpr hfields, ?_⟩
  exact List.forall_mem_singleton.mpr (List.pairwise_singleton _ _)

/-- A contract with functions that are told apart by the word `call`. -/
def transferSpec : ContractSpec where
  envMeta := none
  functions := [{ name := "transfer", doc := "", parameters := [], outputs := [] },
    { name := "transfer_call", doc := "", parameters := [], outputs := [] }]
  customTypes := []
  events := []

/-- Its functions have different names, and the generated module declares one alias twice. -/
theorem transfer_declares_twice :
    (transferSpec.functions.map ContractFunction.name).Nodup ∧
      (∀ f ∈ transferSpec.functions, IsName f.name.toList) ∧
        ∃ text, generateClient transferSpec = some (.ok text) ∧ ¬ DeclaresOnce text := by
  have hfunctions : ∀ f ∈ transferSpec.functions, IsName f.name.toList := by decide
  have hparameters : ∀ f ∈ transferSpec.functions, ∀ p ∈ f.parameters,
    IsName p.name.toList := by decide
  obtain ⟨text, htext⟩ : ∃ text, generateClient transferSpec = some (.ok text) := ⟨_, rfl⟩
  refine ⟨by decide, hfunctions, text, htext, fun h => ?_⟩
  have htypes := (declarations_of_generateClient htext hfunctions hparameters).1
  have hnodup := h.1
  rw [htypes] at hnodup
  exact absurd hnodup (by decide)

end SorobanDevkit.Wasm
