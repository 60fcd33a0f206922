import Mathlib.Tactic.SplitIfs
import SorobanDevkit.Library.Hex
import SorobanDevkit.Library.JsonValue

/-!
# Texts of JSON values

JSON values are printed without space between their parts and read from texts with any. How numbers
are printed is a parameter. Escapes of characters outside the basic plane are not read, and none is
printed.

## Main results

* `JsonText.parseValue_print` — a printed value is read back, whatever follows.
* `JsonText.parse_print` — a value is read back from its text.
-/

namespace JsonText

/-! ### Texts between quotation marks -/

/-- A character in a text. -/
def escape (c : Char) : List Char :=
  if c = '"' then ['\\', '"']
  else if c = '\\' then ['\\', '\\']
  else if c = '\n' then ['\\', 'n']
  else if c = '\r' then ['\\', 'r']
  else if c = '\t' then ['\\', 't']
  else if c = '\x08' then ['\\', 'b']
  else if c = '\x0c' then ['\\', 'f']
  else if c.toNat < 32 then
    ['\\', 'u', '0', '0', Hex.encodeDigit (c.toNat / 16), Hex.encodeDigit (c.toNat % 16)]
  else [c]

/-- A text between quotation marks. -/
def quote (s : List Char) : List Char := '"' :: (s.flatMap escape ++ ['"'])

/-- The character of an escape of one letter. -/
def letter (c : Char) : Option Char :=
  if c = '"' ∨ c = '\\' ∨ c = '/' then some c
  else if c = 'n' then some '\n'
  else if c = 'r' then some '\r'
  else if c = 't' then some '\t'
  else if c = 'b' then some '\x08'
  else if c = 'f' then some '\x0c'
  else none

/-- The character of an escape of four digits. -/
def code (digits : List Char) : Option Char := do
  let values ← digits.mapM Hex.decodeDigit
  let n := values.foldl (fun n d => 16 * n + d) 0
  if n.isValidChar then some (Char.ofNat n) else none

/-- The character of four digits, and what follows them. -/
def readCode : List Char → Option (Char × List Char)
  | a :: b :: c :: d :: rest => (code [a, b, c, d]).map fun c => (c, rest)
  | _ => none

/-- A character in a text, and what follows it. -/
def unescape : List Char → Option (Char × List Char)
  | [] => none
  | c :: rest =>
    if c = '\\' then
      match rest with
      | [] => none
      | d :: rest =>
        if d = 'u' then readCode rest
        else (letter d).map fun c => (c, rest)
    else if c.toNat < 32 then none
    else some (c, rest)

/-- A text of at most `fuel` characters before a quotation mark, and what follows. -/
def readQuoted : (fuel : ℕ) → List Char → Option (List Char × List Char)
  | _, '"' :: rest => some ([], rest)
  | 0, _ => none
  | fuel + 1, chars => do
    let (c, rest) ← unescape chars
    let (s, rest) ← readQuoted fuel rest
    some (c :: s, rest)

/-- An escaped character is read back. -/
theorem unescape_escape (c : Char) (rest : List Char) :
    unescape (escape c ++ rest) = some (c, rest) := by
  rw [escape]
  split_ifs with hquote hbackslash hn hr ht hb hf hcontrol
  · rw [hquote]; rfl
  · rw [hbackslash]; rfl
  · rw [hn]; rfl
  · rw [hr]; rfl
  · rw [ht]; rfl
  · rw [hb]; rfl
  · rw [hf]; rfl
  · have hzero : Hex.decodeDigit '0' = some 0 := by decide
    have hhigh := Hex.decodeDigit_encodeDigit (n := c.toNat / 16) (by omega)
    have hlow := Hex.decodeDigit_encodeDigit (n := c.toNat % 16) (by omega)
    have hvalue : 16 * (16 * (16 * (16 * 0 + 0) + 0) + c.toNat / 16) + c.toNat % 16 = c.toNat := by
      omega
    have hcode : code ['0', '0', Hex.encodeDigit (c.toNat / 16), Hex.encodeDigit (c.toNat % 16)] =
        some c := by
      simp only [code, List.mapM_cons, List.mapM_nil, hzero, hhigh, hlow, Option.pure_def,
        Option.bind_eq_bind, Option.bind_some, List.foldl_cons, List.foldl_nil, hvalue]
      have hvalid : c.toNat.isValidChar := c.valid
      rw [if_pos hvalid, Char.ofNat_toNat]
    exact congrArg (Option.map fun c => (c, rest)) hcode
  · exact (if_neg hbackslash).trans (if_neg hcontrol)

/-- An escaped character starts with no quotation mark. -/
theorem escape_eq_cons (c : Char) : ∃ d tail, escape c = d :: tail ∧ d ≠ '"' := by
  rw [escape]
  split_ifs with hquote
  all_goals first | exact ⟨_, _, rfl, by decide⟩ | exact ⟨_, _, rfl, hquote⟩

/-- A text is read back, whatever follows. -/
theorem readQuoted_quote {s : List Char} {fuel : ℕ} (h : s.length ≤ fuel) (rest : List Char) :
    readQuoted fuel (s.flatMap escape ++ '"' :: rest) = some (s, rest) := by
  induction s generalizing fuel with
  | nil => simp [readQuoted]
  | cons c s ih =>
    obtain ⟨fuel, rfl⟩ := Nat.exists_eq_succ_of_ne_zero (Nat.ne_of_gt (Nat.lt_of_lt_of_le
      (Nat.succ_pos s.length) h))
    have hread := unescape_escape c (s.flatMap escape ++ '"' :: rest)
    obtain ⟨d, tail, hescape, hd⟩ := escape_eq_cons c
    rw [List.flatMap_cons, List.append_assoc]
    rw [hescape, List.cons_append] at hread ⊢
    rw [readQuoted]
    · rw [hread, Option.bind_eq_bind, Option.bind_some]
      dsimp only
      rw [ih (Nat.le_of_succ_le_succ h)]
      rfl
    · rintro rest' heq
      cases heq
      exact hd rfl

theorem length_le_flatMap_escape (s : List Char) : s.length ≤ (s.flatMap escape).length := by
  induction s with
  | nil => exact Nat.le_refl 0
  | cons c s ih =>
    obtain ⟨d, tail, hescape, -⟩ := escape_eq_cons c
    rw [List.flatMap_cons, List.length_append, hescape, List.length_cons, List.length_cons]
    omega

/-! ### Numbers -/

/-- A character that a number may have. -/
def numeric (c : Char) : Bool := c.isDigit || ['-', '+', '.', 'e', 'E'].contains c

/-- How numbers are printed and read. A printed number starts with a digit or a minus sign. -/
structure Numbers (N : Type) where
  print : N → List Char
  read : List Char → Option N
  read_print : ∀ n, read (print n) = some n
  numeric_print : ∀ n, ∀ c ∈ print n, numeric c
  starts : ∀ n, ∃ c rest, print n = c :: rest ∧ (c.isDigit ∨ c = '-')

variable {N : Type} (numbers : Numbers N)

/-! ### Printing -/

mutual

/-- The text of a value. -/
def print : JsonValue N → List Char
  | .null => "null".toList
  | .bool true => "true".toList
  | .bool false => "false".toList
  | .number n => numbers.print n
  | .string s => quote s.toList
  | .array [] => ['[', ']']
  | .array (v :: items) => '[' :: (print v ++ printItems items)
  | .object [] => ['\x7b', '\x7d']
  | .object ((key, v) :: members) =>
    '\x7b' :: (quote key.toList ++ ':' :: (print v ++ printMembers members))

/-- The text of the items behind the first, with the end of the array. -/
def printItems : List (JsonValue N) → List Char
  | [] => [']']
  | v :: items => ',' :: (print v ++ printItems items)

/-- The text of the members behind the first, with the end of the object. -/
def printMembers : List (String × JsonValue N) → List Char
  | [] => ['\x7d']
  | (key, v) :: members => ',' :: (quote key.toList ++ ':' :: (print v ++ printMembers members))

end

/-! ### Parsing -/

/-- The space of JSON. -/
def space (c : Char) : Bool := [' ', '\n', '\r', '\t'].contains c

/-- What follows the space in front. -/
def skip (s : List Char) : List Char := s.dropWhile space

/-- The first character that is no space. -/
def first (s : List Char) : Option Char := (skip s).head?

/-- What follows the first character that is no space. -/
def behind (s : List Char) : List Char := (skip s).tail

/-- What follows a word. -/
def readWord (word s : List Char) : Option (List Char) :=
  if word.isPrefixOf (skip s) then some ((skip s).drop word.length) else none

/-- A text between quotation marks, and what follows. -/
def parseString (s : List Char) : Option (String × List Char) :=
  if first s = some '"' then
    (readQuoted (behind s).length (behind s)).map fun p => (String.ofList p.1, p.2)
  else none

/-- A number, and what follows. -/
def parseNumber (s : List Char) : Option (N × List Char) :=
  (numbers.read ((skip s).takeWhile numeric)).map fun n => (n, (skip s).dropWhile numeric)

/-- The key of a member and its colon, and what follows. -/
def parseKey (s : List Char) : Option (String × List Char) := do
  let (key, rest) ← parseString s
  if first rest = some ':' then some (key, behind rest) else none

mutual

/-- A value, and what follows. -/
def parseValue : (fuel : ℕ) → List Char → Option (JsonValue N × List Char)
  | 0, _ => none
  | fuel + 1, s =>
    if first s = some '"' then (parseString s).map fun p => (.string p.1, p.2)
    else if first s = some '[' then
      if first (behind s) = some ']' then some (.array [], behind (behind s))
      else do
        let (v, rest) ← parseValue fuel (behind s)
        let (items, rest) ← parseItems fuel rest
        some (.array (v :: items), rest)
    else if first s = some '\x7b' then
      if first (behind s) = some '\x7d' then some (.object [], behind (behind s))
      else do
        let (key, rest) ← parseKey (behind s)
        let (v, rest) ← parseValue fuel rest
        let (members, rest) ← parseMembers fuel rest
        some (.object ((key, v) :: members), rest)
    else if first s = some 'n' then (readWord "null".toList s).map fun rest => (.null, rest)
    else if first s = some 't' then (readWord "true".toList s).map fun rest => (.bool true, rest)
    else if first s = some 'f' then (readWord "false".toList s).map fun rest => (.bool false, rest)
    else (parseNumber numbers s).map fun p => (.number p.1, p.2)

/-- The items behind the first, and what follows the array. -/
def parseItems : (fuel : ℕ) → List Char → Option (List (JsonValue N) × List Char)
  | 0, _ => none
  | fuel + 1, s =>
    if first s = some ']' then some ([], behind s)
    else if first s = some ',' then do
      let (v, rest) ← parseValue fuel (behind s)
      let (items, rest) ← parseItems fuel rest
      some (v :: items, rest)
    else none

/-- The members behind the first, and what follows the object. -/
def parseMembers : (fuel : ℕ) → List Char → Option (List (String × JsonValue N) × List Char)
  | 0, _ => none
  | fuel + 1, s =>
    if first s = some '\x7d' then some ([], behind s)
    else if first s = some ',' then do
      let (key, rest) ← parseKey (behind s)
      let (v, rest) ← parseValue fuel rest
      let (members, rest) ← parseMembers fuel rest
      some ((key, v) :: members, rest)
    else none

end

/-- The value of a text, which has nothing but space behind it. -/
def parse (s : List Char) : Option (JsonValue N) :=
  match parseValue numbers s.length s with
  | some (v, rest) => if skip rest = [] then some v else none
  | none => none

/-! ### What is printed is read back -/

section

variable {c : Char} (h : space c = false) (rest : List Char)
include h

theorem skip_cons : skip (c :: rest) = c :: rest := by
  rw [skip, List.dropWhile_cons_of_neg (by rw [h]; decide)]

theorem first_cons : first (c :: rest) = some c := by
  rw [first, skip_cons h]
  rfl

theorem behind_cons : behind (c :: rest) = rest := by
  rw [behind, skip_cons h]
  rfl

end

/-- What follows a value does not continue a number. -/
def Ended (rest : List Char) : Prop := ∀ c ∈ rest.head?, numeric c = false

theorem quote_append (s rest : List Char) :
    quote s ++ rest = '"' :: (s.flatMap escape ++ '"' :: rest) := by
  rw [quote, List.cons_append, List.append_assoc, List.singleton_append]

theorem parseString_quote (s : String) (rest : List Char) :
    parseString (quote s.toList ++ rest) = some (s, rest) := by
  have hlength : s.toList.length ≤ (s.toList.flatMap escape ++ '"' :: rest).length := by
    rw [List.length_append]
    exact (length_le_flatMap_escape s.toList).trans (Nat.le_add_right _ _)
  rw [quote_append, parseString, first_cons (by decide), if_pos rfl, behind_cons (by decide),
    readQuoted_quote hlength, Option.map_some, String.ofList_toList]

theorem parseKey_quote (s : String) (rest : List Char) :
    parseKey (quote s.toList ++ ':' :: rest) = some (s, rest) := by
  rw [parseKey, parseString_quote, Option.bind_eq_bind, Option.bind_some]
  exact (if_pos (first_cons (by decide) rest)).trans
    (congrArg (fun rest => some (s, rest)) (behind_cons (by decide) rest))

theorem space_of_starts {c : Char} (h : c.isDigit ∨ c = '-') : space c = false := by
  cases hspace : space c with
  | false => rfl
  | true =>
    have hall : [' ', '\n', '\r', '\t'].all (fun c => !c.isDigit && c != '-') := by decide
    have hc := List.all_eq_true.mp hall c (List.contains_iff_mem.mp hspace)
    rw [Bool.and_eq_true, Bool.not_eq_true', bne_iff_ne] at hc
    exact (h.elim (fun hdigit => absurd hdigit (by rw [hc.1]; decide)) fun hc' => absurd hc' hc.2)

variable {numbers}

theorem parseNumber_print (n : N) {rest : List Char} (h : Ended rest) :
    parseNumber numbers (numbers.print n ++ rest) = some (n, rest) := by
  have hstop : rest.takeWhile numeric = [] ∧ rest.dropWhile numeric = rest := by
    cases rest with
    | nil => exact ⟨rfl, rfl⟩
    | cons c rest =>
      have hc : numeric c = false := h c rfl
      exact ⟨List.takeWhile_cons_of_neg (by rw [hc]; decide),
        List.dropWhile_cons_of_neg (by rw [hc]; decide)⟩
  obtain ⟨c, tail, hprint, hc⟩ := numbers.starts n
  have hskip : skip (numbers.print n ++ rest) = numbers.print n ++ rest := by
    rw [hprint, List.cons_append, skip_cons (space_of_starts hc)]
  rw [parseNumber, hskip, List.takeWhile_append_of_pos (numbers.numeric_print n),
    List.dropWhile_append_of_pos (numbers.numeric_print n), hstop.1, hstop.2, List.append_nil,
    numbers.read_print]
  rfl

theorem first_number (n : N) (rest : List Char) :
    ∃ c, first (numbers.print n ++ rest) = some c ∧ (c.isDigit ∨ c = '-') := by
  obtain ⟨c, tail, hprint, hc⟩ := numbers.starts n
  refine ⟨c, ?_, hc⟩
  rw [hprint, List.cons_append, first_cons (space_of_starts hc)]

theorem parseValue_number (n : N) (fuel : ℕ) {rest : List Char} (h : Ended rest) :
    parseValue numbers (fuel + 1) (numbers.print n ++ rest) = some (.number n, rest) := by
  obtain ⟨c, hfirst, hc⟩ := first_number n rest
  have hne {d : Char} (hd : ¬(d.isDigit ∨ d = '-')) : first (numbers.print n ++ rest) ≠ some d := by
    rw [hfirst]
    rintro ⟨⟩
    exact hd hc
  rw [parseValue, if_neg (hne (by decide)), if_neg (hne (by decide)), if_neg (hne (by decide)),
    if_neg (hne (by decide)), if_neg (hne (by decide)), if_neg (hne (by decide)),
    parseNumber_print n h]
  rfl

/-- The text of a value does not start with a closing bracket. -/
theorem first_print (v : JsonValue N) (rest : List Char) :
    first (print numbers v ++ rest) ≠ some ']' := by
  cases v with
  | null => exact fun h => absurd (Option.some.inj h) (by decide)
  | bool b =>
    cases b with
    | true => exact fun h => absurd (Option.some.inj h) (by decide)
    | false => exact fun h => absurd (Option.some.inj h) (by decide)
  | number n =>
    obtain ⟨c, hfirst, hc⟩ := first_number n rest
    rw [print, hfirst]
    rintro ⟨⟩
    exact absurd hc (by decide)
  | string s => exact fun h => absurd (Option.some.inj h) (by decide)
  | array items =>
    cases items with
    | nil => exact fun h => absurd (Option.some.inj h) (by decide)
    | cons v items => exact fun h => absurd (Option.some.inj h) (by decide)
  | object members =>
    cases members with
    | nil => exact fun h => absurd (Option.some.inj h) (by decide)
    | cons e members => exact fun h => absurd (Option.some.inj h) (by decide)

/-- What is printed behind the first item of an array ends a number. -/
theorem ended_printItems (items : List (JsonValue N)) (rest : List Char) :
    Ended (printItems numbers items ++ rest) := by
  cases items with
  | nil =>
    rintro c ⟨⟩
    decide
  | cons v items =>
    rintro c ⟨⟩
    decide

theorem ended_printMembers (members : List (String × JsonValue N)) (rest : List Char) :
    Ended (printMembers numbers members ++ rest) := by
  cases members with
  | nil =>
    rintro c ⟨⟩
    decide
  | cons e members =>
    rintro c ⟨⟩
    decide

theorem length_print_pos (v : JsonValue N) : 0 < (print numbers v).length := by
  cases v with
  | null => exact Nat.succ_pos _
  | bool b =>
    cases b with
    | true => exact Nat.succ_pos _
    | false => exact Nat.succ_pos _
  | number n =>
    obtain ⟨c, tail, hprint, -⟩ := numbers.starts n
    rw [print, hprint]
    exact Nat.succ_pos _
  | string s => exact Nat.succ_pos _
  | array items =>
    cases items with
    | nil => exact Nat.succ_pos _
    | cons v items => exact Nat.succ_pos _
  | object members =>
    cases members with
    | nil => exact Nat.succ_pos _
    | cons e members => exact Nat.succ_pos _

theorem length_printItems_pos (items : List (JsonValue N)) :
    0 < (printItems numbers items).length := by
  cases items with
  | nil => exact Nat.succ_pos _
  | cons v items => exact Nat.succ_pos _

theorem length_printMembers_pos (members : List (String × JsonValue N)) :
    0 < (printMembers numbers members).length := by
  cases members with
  | nil => exact Nat.succ_pos _
  | cons e members => exact Nat.succ_pos _

mutual

/-- **A printed value is read back, whatever follows**, but for the rest of a number. -/
theorem parseValue_print : (v : JsonValue N) → (fuel : ℕ) → (rest : List Char) → Ended rest →
    (print numbers v).length ≤ fuel →
      parseValue numbers fuel (print numbers v ++ rest) = some (v, rest)
  | v, 0, _, _, hfuel => absurd hfuel (length_print_pos v).not_ge
  | .null, fuel + 1, _, _, _ => rfl
  | .bool true, fuel + 1, _, _, _ => rfl
  | .bool false, fuel + 1, _, _, _ => rfl
  | .number n, fuel + 1, _, hrest, _ => parseValue_number n fuel hrest
  | .string s, fuel + 1, rest, _, _ => by
    have hfirst : first (quote s.toList ++ rest) = some '"' := first_cons (by decide) _
    rw [print, parseValue, if_pos hfirst, parseString_quote]
    rfl
  | .array [], fuel + 1, _, _, _ => rfl
  | .array (v :: items), fuel + 1, rest, _, hfuel => by
    rw [print, List.length_cons, List.length_append] at hfuel
    have hv := parseValue_print v fuel (printItems numbers items ++ rest)
      (ended_printItems items rest) (by omega)
    have hitems := parseItems_print items fuel rest (by omega)
    have hfirst : first (print numbers v ++ (printItems numbers items ++ rest)) ≠ some ']' :=
      first_print v _
    rw [print, List.cons_append, List.append_assoc, parseValue, first_cons (by decide),
      behind_cons (by decide), if_neg (by decide), if_pos rfl, if_neg hfirst, hv]
    simp only [Option.bind_eq_bind, Option.bind_some, hitems]
  | .object [], fuel + 1, _, _, _ => rfl
  | .object ((key, v) :: members), fuel + 1, rest, _, hfuel => by
    rw [print, List.length_cons, List.length_append, List.length_cons, List.length_append] at hfuel
    have hv := parseValue_print v fuel (printMembers numbers members ++ rest)
      (ended_printMembers members rest) (by omega)
    have hmembers := parseMembers_print members fuel rest (by omega)
    have hkey := parseKey_quote key (print numbers v ++ (printMembers numbers members ++ rest))
    have hfirst : first (quote key.toList ++
        ':' :: (print numbers v ++ (printMembers numbers members ++ rest))) ≠ some '\x7d' := by
      rw [quote_append, first_cons (by decide)]
      decide
    rw [print, List.cons_append, List.append_assoc, List.cons_append, List.append_assoc, parseValue,
      first_cons (by decide), behind_cons (by decide), if_neg (by decide), if_neg (by decide),
      if_pos rfl, if_neg hfirst, hkey]
    simp only [Option.bind_eq_bind, Option.bind_some, hv, hmembers]

theorem parseItems_print : (items : List (JsonValue N)) → (fuel : ℕ) → (rest : List Char) →
    (printItems numbers items).length ≤ fuel →
      parseItems numbers fuel (printItems numbers items ++ rest) = some (items, rest)
  | items, 0, _, hfuel => absurd hfuel (length_printItems_pos items).not_ge
  | [], fuel + 1, _, _ => rfl
  | v :: items, fuel + 1, rest, hfuel => by
    rw [printItems, List.length_cons, List.length_append] at hfuel
    have hv := parseValue_print v fuel (printItems numbers items ++ rest)
      (ended_printItems items rest) (by omega)
    have hitems := parseItems_print items fuel rest (by omega)
    rw [printItems, List.cons_append, List.append_assoc, parseItems, first_cons (by decide),
      behind_cons (by decide), if_neg (by decide), if_pos rfl, hv]
    simp only [Option.bind_eq_bind, Option.bind_some, hitems]

theorem parseMembers_print : (members : List (String × JsonValue N)) → (fuel : ℕ) →
    (rest : List Char) → (printMembers numbers members).length ≤ fuel →
      parseMembers numbers fuel (printMembers numbers members ++ rest) = some (members, rest)
  | members, 0, _, hfuel => absurd hfuel (length_printMembers_pos members).not_ge
  | [], fuel + 1, _, _ => rfl
  | (key, v) :: members, fuel + 1, rest, hfuel => by
    rw [printMembers, List.length_cons, List.length_append, List.length_cons,
      List.length_append] at hfuel
    have hv := parseValue_print v fuel (printMembers numbers members ++ rest)
      (ended_printMembers members rest) (by omega)
    have hmembers := parseMembers_print members fuel rest (by omega)
    have hkey := parseKey_quote key (print numbers v ++ (printMembers numbers members ++ rest))
    rw [printMembers, List.cons_append, List.append_assoc, List.cons_append, List.append_assoc,
      parseMembers, first_cons (by decide), behind_cons (by decide), if_neg (by decide),
      if_pos rfl, hkey]
    simp only [Option.bind_eq_bind, Option.bind_some, hv, hmembers]

end

/-- **A value is read back from its text.** -/
theorem parse_print (v : JsonValue N) : parse numbers (print numbers v) = some v := by
  have hprint := parseValue_print v (print numbers v).length [] (fun c h => nomatch h) le_rfl
  rw [List.append_nil] at hprint
  rw [parse, hprint]
  rfl

end JsonText
