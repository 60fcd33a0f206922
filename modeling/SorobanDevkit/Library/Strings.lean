import Mathlib.Data.List.Basic
import Mathlib.Data.List.Infix
import Mathlib.Data.List.TakeWhile

/-!
# Functions on strings

String functions as a program text uses them: trimming Unicode white space, removing a prefix,
splitting at an occurrence of a separator, comparing without case.

## Main results

* `stripPrefix_append` — a prefix that is there can be removed.
* `trim_eq_self` — a string without white space is trimmed already.
* `forall_mem_of_any` — a property of the characters of a text that is checked by running through
  it.
-/

namespace Strings

/-- The characters with the Unicode property `White_Space`. -/
def isWhitespace (c : Char) : Bool :=
  let n := c.toNat
  (9 ≤ n && n ≤ 13) || n == 0x20 || n == 0x85 || n == 0xA0 || n == 0x1680 ||
    (0x2000 ≤ n && n ≤ 0x200A) || n == 0x2028 || n == 0x2029 || n == 0x202F || n == 0x205F ||
    n == 0x3000

/-- The string without white space at both ends. -/
def trim (s : String) : String :=
  String.ofList ((s.toList.dropWhile isWhitespace).reverse.dropWhile isWhitespace).reverse

/-- The string has the prefix `p`. -/
def startsWith (p s : String) : Bool := decide (p.toList <+: s.toList)

/-- The string after the prefix `p`, if it has that prefix. -/
def stripPrefix (p s : String) : Option String :=
  if p.toList <+: s.toList then some (String.ofList (s.toList.drop p.toList.length)) else none

/-- The characters after all repetitions of the prefix `p`, looking for at most `fuel` of them. -/
def trimStartMatchesAux (p : List Char) : ℕ → List Char → List Char
  | 0, cs => cs
  | fuel + 1, cs => if p <+: cs then trimStartMatchesAux p fuel (cs.drop p.length) else cs

/-- The string after all repetitions of the nonempty prefix `p`. -/
def trimStartMatches (p s : String) : String :=
  String.ofList (trimStartMatchesAux p.toList s.toList.length s.toList)

/-- What is before and after the first occurrence of `sep` in a list of characters. -/
def splitOnceAux (sep : List Char) : List Char → Option (List Char × List Char)
  | [] => if sep = [] then some ([], []) else none
  | c :: cs =>
    if sep <+: c :: cs then some ([], (c :: cs).drop sep.length)
    else (splitOnceAux sep cs).map fun (before, after) => (c :: before, after)

/-- What is before and after the first occurrence of `sep`. -/
def splitOnce (s sep : String) : Option (String × String) :=
  (splitOnceAux sep.toList s.toList).map fun (before, after) =>
    (String.ofList before, String.ofList after)

/-- The pieces between the characters at which `p` holds. -/
def splitAtAux (p : Char → Bool) : List Char → List Char → List (List Char)
  | acc, [] => [acc]
  | acc, c :: cs => if p c then acc :: splitAtAux p [] cs else splitAtAux p (acc ++ [c]) cs

/-- The pieces of a string between the characters at which `p` holds. -/
def splitAt (p : Char → Bool) (s : String) : List String :=
  (splitAtAux p [] s.toList).map String.ofList

/-- A line without the carriage return that ends it. -/
def stripCarriageReturn (line : List Char) : List Char :=
  if line.getLast? = some '\r' then line.dropLast else line

/-- The lines of a text, the first of which starts with `acc`. -/
def linesAux : (acc text : List Char) → List (List Char)
  | acc, [] => if acc = [] then [] else [acc]
  | acc, c :: cs =>
    if c = '\n' then stripCarriageReturn acc :: linesAux [] cs else linesAux (acc ++ [c]) cs

/-- The lines of a text, without the line feeds that end them. -/
def lines (s : String) : List String := (linesAux [] s.toList).map String.ofList

/-- The string without a character at both ends. -/
def trimMatches (c : Char) (s : String) : String :=
  String.ofList ((s.toList.dropWhile (· == c)).reverse.dropWhile (· == c)).reverse

/-- What is after the last occurrence of `sep`, or the whole string. -/
def afterLast (sep s : String) : String :=
  match splitOnceAux sep.toList.reverse s.toList.reverse with
  | some (after, _) => String.ofList after.reverse
  | none => s

/-- The string has `p` in it. -/
def contains (p s : String) : Bool := decide (p.toList <:+: s.toList)

/-- The lower case of a character, as far as it has ASCII letters: the capital letters of ASCII, the
Kelvin sign and the I with a dot. The lower case of no other character has one. -/
def lowerChar (c : Char) : List Char :=
  if c.toNat = 0x212A then ['k']
  else if c.toNat = 0x130 then ['i', Char.ofNat 0x307]
  else [c.toLower]

/-- The string in lower case, as far as ASCII letters are concerned. -/
def toLowercase (s : String) : String := String.ofList (s.toList.flatMap lowerChar)

/-- Equality up to the case of ASCII letters. -/
def eqIgnoreAsciiCase (s t : String) : Bool :=
  s.toList.map Char.toLower == t.toList.map Char.toLower

/-- The characters in front that take a number of bytes, or all when there are fewer; none if the
bytes end inside a character. -/
def takeBytes : ℕ → List Char → Option (List Char)
  | 0, _ => some []
  | _ + 1, [] => some []
  | n + 1, c :: cs =>
    if c.utf8Size ≤ n + 1 then (takeBytes (n + 1 - c.utf8Size) cs).map (c :: ·) else none

/-- The characters in front that take a number of bytes, and those after them; none if there are
fewer bytes, or if they end inside a character. -/
def splitBytes : ℕ → List Char → Option (List Char × List Char)
  | 0, cs => some ([], cs)
  | _ + 1, [] => none
  | n + 1, c :: cs =>
    if c.utf8Size ≤ n + 1 then
      (splitBytes (n + 1 - c.utf8Size) cs).map fun (before, after) => (c :: before, after)
    else none

/-- The part of a string between two positions in bytes, if both are between characters. -/
def slice (s : String) (start stop : ℕ) : Option String := do
  let (_, rest) ← splitBytes start s.toList
  let (part, _) ← splitBytes (stop - start) rest
  some (String.ofList part)

/-- All characters of the string are ASCII. -/
def isAscii (s : String) : Bool := s.toList.all fun c => c.toNat < 128

theorem splitAtAux_of_forall {p : Char → Bool} {cs : List Char} (h : ∀ c ∈ cs, p c = false)
    (acc : List Char) : splitAtAux p acc cs = [acc ++ cs] := by
  induction cs generalizing acc with
  | nil => rw [splitAtAux, List.append_nil]
  | cons c cs ih =>
    obtain ⟨hc, hcs⟩ := List.forall_mem_cons.mp h
    rw [splitAtAux, hc, if_neg Bool.false_ne_true, ih hcs, List.append_assoc, List.singleton_append]

theorem splitAtAux_append_cons {p : Char → Bool} {before : List Char}
    (h : ∀ c ∈ before, p c = false) {c : Char} (hc : p c) (acc after : List Char) :
    splitAtAux p acc (before ++ c :: after) = (acc ++ before) :: splitAtAux p [] after := by
  induction before generalizing acc with
  | nil => rw [List.nil_append, splitAtAux, if_pos hc, List.append_nil]
  | cons d before ih =>
    obtain ⟨hd, hbefore⟩ := List.forall_mem_cons.mp h
    rw [List.cons_append, splitAtAux, hd, if_neg Bool.false_ne_true, ih hbefore, List.append_assoc,
      List.singleton_append]

/-- What comes before a line feed does not change the lines after it. -/
theorem linesAux_append (acc before after : List Char) :
    linesAux acc (before ++ '\n' :: after) = linesAux acc (before ++ ['\n']) ++
      linesAux [] after := by
  induction before generalizing acc with
  | nil => simp [linesAux]
  | cons c before ih =>
    rw [List.cons_append, List.cons_append, linesAux, linesAux]
    split_ifs
    · rw [ih, List.cons_append]
    · rw [ih]

theorem linesAux_singleton {line : List Char} (h : ∀ c ∈ line, c ≠ '\n') (acc : List Char) :
    linesAux acc (line ++ ['\n']) = [stripCarriageReturn (acc ++ line)] := by
  induction line generalizing acc with
  | nil => simp [linesAux]
  | cons c line ih =>
    obtain ⟨hc, hline⟩ := List.forall_mem_cons.mp h
    rw [List.cons_append, linesAux, if_neg hc, ih hline, List.append_assoc, List.singleton_append]

theorem subset_stripCarriageReturn (line : List Char) : stripCarriageReturn line ⊆ line := by
  rw [stripCarriageReturn]
  split
  · exact List.dropLast_subset line
  · exact List.Subset.refl line

/-- There is no line feed in a line. -/
theorem notMem_of_mem_linesAux {acc text line : List Char} (hacc : '\n' ∉ acc)
    (h : line ∈ linesAux acc text) : '\n' ∉ line := by
  induction text generalizing acc with
  | nil =>
    rw [linesAux] at h
    split at h
    · cases h
    · rwa [List.mem_singleton.mp h]
  | cons c text ih =>
    rw [linesAux] at h
    split at h
    · rcases List.mem_cons.mp h with rfl | h
      · exact fun hmem => hacc (subset_stripCarriageReturn acc hmem)
      · exact ih List.not_mem_nil h
    · next hc =>
      refine ih (fun hmem => ?_) h
      rcases List.mem_append.mp hmem with hmem | hmem
      · exact hacc hmem
      · exact hc (List.mem_singleton.mp hmem).symm

theorem notMem_of_mem_lines {s line : String} (h : line ∈ lines s) : '\n' ∉ line.toList := by
  obtain ⟨chars, hchars, rfl⟩ := List.mem_map.mp h
  rw [String.toList_ofList]
  exact notMem_of_mem_linesAux List.not_mem_nil hchars

/-- A property that is computed to hold of no character holds of none. -/
theorem forall_mem_of_any {p : Char → Bool} {l : List Char} (h : l.any p = false) :
    ∀ c ∈ l, p c = false := by
  simpa using h

theorem dropWhile_of_forall {p : Char → Bool} {l : List Char} (h : ∀ c ∈ l, p c = false) :
    l.dropWhile p = l := by
  cases l with
  | nil => rfl
  | cons c l => rw [List.dropWhile_cons_of_neg (by simp [h c List.mem_cons_self])]

/-- What is between two marks. -/
theorem trimMatches_marked {mark : Char} {l : List Char} (h : ∀ c ∈ l, (c == mark) = false) :
    trimMatches mark (String.ofList (mark :: (l ++ [mark]))) = String.ofList l := by
  have hreverse : ∀ c ∈ l.reverse, (c == mark) = false := fun c hc => h c (List.mem_reverse.mp hc)
  rw [trimMatches, String.toList_ofList, List.dropWhile_cons_of_pos (by simp)]
  cases l with
  | nil => simp
  | cons c l =>
    rw [List.cons_append, List.dropWhile_cons_of_neg (by simp [h c List.mem_cons_self]),
      ← List.cons_append, List.reverse_append, List.reverse_singleton, List.singleton_append,
      List.dropWhile_cons_of_pos (by simp), dropWhile_of_forall hreverse, List.reverse_reverse]

theorem eq_append_of_stripPrefix {p s t : String} (h : stripPrefix p s = some t) : s = p ++ t := by
  rw [stripPrefix] at h
  split at h
  · next hprefix =>
    obtain ⟨rest, hrest⟩ := hprefix
    rw [← Option.some.inj h, ← hrest, List.drop_left]
    exact String.toList_inj.mp (by rw [← hrest, String.toList_append, String.toList_ofList])
  · cases h

theorem stripPrefix_append (p s : String) : stripPrefix p (p ++ s) = some s := by
  rw [stripPrefix, String.toList_append, if_pos (List.prefix_append _ _), List.drop_left,
    String.ofList_toList]

theorem toList_intercalate_cons (separator s : String) (strings : List String) :
    (separator.intercalate (s :: strings)).toList =
      s.toList ++ strings.flatMap fun t => separator.toList ++ t.toList := by
  induction strings generalizing s with
  | nil => simp
  | cons t strings ih =>
    rw [String.intercalate_cons_cons, String.toList_append, ih, String.toList_append,
      List.flatMap_cons]
    simp only [List.append_assoc]

/-- A text that starts and ends with no white space is trimmed already. -/
theorem trim_bounded {first last : Char} {l : List Char} (hfirst : isWhitespace first = false)
    (hlast : isWhitespace last = false) :
    trim (String.ofList (first :: (l ++ [last]))) = String.ofList (first :: (l ++ [last])) := by
  rw [trim, String.toList_ofList, List.dropWhile_cons_of_neg (by simp [hfirst]), ← List.cons_append,
    List.reverse_append, List.reverse_singleton, List.singleton_append,
    List.dropWhile_cons_of_neg (by simp [hlast]), List.reverse_cons, List.reverse_reverse]

/-- A string without white space is trimmed already. -/
theorem trim_eq_self {s : String} (h : ∀ c ∈ s.toList, isWhitespace c = false) : trim s = s := by
  have hreverse : ∀ c ∈ s.toList.reverse, isWhitespace c = false :=
    fun c hc => h c (List.mem_reverse.mp hc)
  rw [trim, dropWhile_of_forall h, dropWhile_of_forall hreverse, List.reverse_reverse,
    String.ofList_toList]

/-- A string is not blank if a character of it is not whitespace. -/
theorem trim_ne_empty {s : String} {c : Char} (hmem : c ∈ s.toList) (hc : isWhitespace c = false) :
    trim s ≠ "" := by
  intro h
  have hnil := congrArg String.toList h
  rw [trim, String.toList_ofList, String.toList_empty, List.reverse_eq_nil_iff,
    List.dropWhile_eq_nil_iff] at hnil
  rw [← List.takeWhile_append_dropWhile (p := isWhitespace) (l := s.toList),
    List.mem_append] at hmem
  rcases hmem with hmem | hmem
  · exact Bool.false_ne_true (hc.symm.trans (List.mem_takeWhile_imp hmem))
  · exact Bool.false_ne_true (hc.symm.trans (hnil c (List.mem_reverse.mpr hmem)))

/-- What is before a separator is in front. -/
theorem prefix_of_splitOnceAux {sep text before after : List Char}
    (h : splitOnceAux sep text = some (before, after)) : before <+: text := by
  induction text generalizing before after with
  | nil =>
    rw [splitOnceAux, Option.ite_none_right_eq_some] at h
    cases h.2
    exact List.nil_prefix
  | cons c text ih =>
    rw [splitOnceAux] at h
    split at h
    · cases h
      exact List.nil_prefix
    · obtain ⟨⟨first, rest⟩, hrest, heq⟩ := Option.map_eq_some_iff.mp h
      cases heq
      exact List.cons_prefix_cons.mpr ⟨rfl, ih hrest⟩

/-- What is before a separator whose first character is not in it, and what is after. -/
theorem splitOnceAux_append {c : Char} (sep : List Char) {before : List Char} (h : c ∉ before)
    (after : List Char) :
    splitOnceAux (c :: sep) (before ++ (c :: sep ++ after)) = some (before, after) := by
  induction before with
  | nil =>
    have hpre : c :: sep <+: c :: (sep ++ after) := List.prefix_append (c :: sep) after
    rw [List.nil_append, List.cons_append, splitOnceAux, if_pos hpre]
    exact congrArg (fun rest => some ([], rest)) List.drop_left
  | cons first before ih =>
    obtain ⟨hfirst, hbefore⟩ := not_or.mp (List.mem_cons.not.mp h)
    have hnot : ¬ c :: sep <+: first :: (before ++ (c :: sep ++ after)) :=
      fun hpre => hfirst (List.cons_prefix_cons.mp hpre).1
    rw [List.cons_append, splitOnceAux, if_neg hnot, ih hbefore]
    rfl

/-- There is no separator in a text without its first character. -/
theorem splitOnceAux_eq_none {c : Char} (sep : List Char) {text : List Char} (h : c ∉ text) :
    splitOnceAux (c :: sep) text = none := by
  induction text with
  | nil => rfl
  | cons first text ih =>
    obtain ⟨hfirst, htext⟩ := not_or.mp (List.mem_cons.not.mp h)
    have hnot : ¬ c :: sep <+: first :: text := fun hpre => hfirst (List.cons_prefix_cons.mp hpre).1
    rw [splitOnceAux, if_neg hnot, ih htext]
    rfl

/-- What is after a separator is at the end. -/
theorem suffix_of_splitOnceAux {sep text before after : List Char}
    (h : splitOnceAux sep text = some (before, after)) : after <:+ text := by
  induction text generalizing before after with
  | nil =>
    rw [splitOnceAux, Option.ite_none_right_eq_some] at h
    cases h.2
    exact List.suffix_rfl
  | cons c text ih =>
    rw [splitOnceAux] at h
    split at h
    · cases h
      exact List.drop_suffix _ _
    · obtain ⟨⟨first, rest⟩, hrest, heq⟩ := Option.map_eq_some_iff.mp h
      cases heq
      exact (ih hrest).trans (List.suffix_cons c text)

theorem utf8Size_of_ascii {c : Char} (h : c.toNat < 128) : c.utf8Size = 1 := by
  have hle : c.val ≤ 127 := by
    rw [UInt32.le_iff_toNat_le]
    exact Nat.le_of_lt_succ h
  exact Char.utf8Size_eq_one_iff.mpr hle

/-- The bytes of ASCII are its characters. -/
theorem splitBytes_of_ascii {cs : List Char} (h : ∀ c ∈ cs, c.toNat < 128) {n : ℕ}
    (hn : n ≤ cs.length) : splitBytes n cs = some (cs.take n, cs.drop n) := by
  induction cs generalizing n with
  | nil =>
    obtain rfl := Nat.le_zero.mp hn
    rfl
  | cons c cs ih =>
    obtain ⟨hc, h⟩ := List.forall_mem_cons.mp h
    cases n with
    | zero => rfl
    | succ n =>
      have hsize := utf8Size_of_ascii hc
      have hle : c.utf8Size ≤ n + 1 := by omega
      have hrest : n + 1 - c.utf8Size = n := by omega
      rw [splitBytes, if_pos hle, hrest, ih h (Nat.le_of_succ_le_succ hn)]
      rfl

/-- A slice of ASCII is taken as from a list. -/
theorem slice_of_ascii {s : String} (h : ∀ c ∈ s.toList, c.toNat < 128) {start stop : ℕ}
    (hle : start ≤ stop) (hstop : stop ≤ s.toList.length) :
    slice s start stop = some (String.ofList ((s.toList.drop start).take (stop - start))) := by
  have hrest : ∀ c ∈ s.toList.drop start, c.toNat < 128 := fun c hc => h c (List.mem_of_mem_drop hc)
  have hlength : stop - start ≤ (s.toList.drop start).length := by
    rw [List.length_drop]
    omega
  rw [slice, splitBytes_of_ascii h (Nat.le_trans hle hstop)]
  dsimp only [Option.bind_eq_bind, Option.bind_some]
  rw [splitBytes_of_ascii hrest hlength]
  rfl

/-- A text without the separator is all after it. -/
theorem afterLast_eq_self {sep s : String}
    (h : splitOnceAux sep.toList.reverse s.toList.reverse = none) : afterLast sep s = s := by
  rw [afterLast, h]

/-- What is after the last separator, read from behind. -/
theorem afterLast_eq {sep s : String} {after rest : List Char}
    (h : splitOnceAux sep.toList.reverse s.toList.reverse = some (after, rest)) :
    afterLast sep s = String.ofList after.reverse := by
  rw [afterLast, h]

end Strings
