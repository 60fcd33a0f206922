import Mathlib.Data.Nat.Digits.Defs
import SorobanDevkit.Library.Hex

/-!
# Quoted texts

A text between quotation marks, in which quotation marks, backslashes and characters that do not
print are escaped. Which other characters do not print is a parameter.

## Main results

* `Quoting.readQuoted_quote` — a quoted text is read back, whatever follows.
-/

namespace Quoting

/-- The digits of a number in base 16. -/
def hexDigits (n : ℕ) : List Char := (Nat.digits 16 n).reverse.map Hex.encodeDigit

/-- The number of digits in base 16. -/
def readHex (chars : List Char) : Option ℕ :=
  (chars.reverse.mapM Hex.decodeDigit).map (Nat.ofDigits 16)

section

variable (escapes : Char → Bool)

/-- A character in a quoted text. -/
def escape (c : Char) : List Char :=
  if c = Char.ofNat 0 then ['\\', '0']
  else if c = '\t' then ['\\', 't']
  else if c = '\r' then ['\\', 'r']
  else if c = '\n' then ['\\', 'n']
  else if c = '"' then ['\\', '"']
  else if c = '\\' then ['\\', '\\']
  else if escapes c then '\\' :: 'u' :: '\x7b' :: (hexDigits c.toNat ++ ['\x7d'])
  else [c]

/-- A quoted text. -/
def quote (s : List Char) : List Char := '"' :: (s.flatMap (escape escapes) ++ ['"'])

end

/-- The first character of a quoted text, and what follows it. -/
def unescape : List Char → Option (Char × List Char)
  | [] => none
  | '\\' :: '0' :: rest => some (Char.ofNat 0, rest)
  | '\\' :: 't' :: rest => some ('\t', rest)
  | '\\' :: 'r' :: rest => some ('\r', rest)
  | '\\' :: 'n' :: rest => some ('\n', rest)
  | '\\' :: '"' :: rest => some ('"', rest)
  | '\\' :: '\\' :: rest => some ('\\', rest)
  | '\\' :: 'u' :: _ :: rest =>
    (readHex (rest.takeWhile (· ≠ '\x7d'))).map fun n =>
      (Char.ofNat n, (rest.dropWhile (· ≠ '\x7d')).drop 1)
  | c :: rest => some (c, rest)

/-- A text of at most `fuel` characters before a quotation mark, and what follows. -/
def readQuoted : (fuel : ℕ) → List Char → Option (List Char × List Char)
  | _, '"' :: rest => some ([], rest)
  | 0, _ => none
  | fuel + 1, chars => do
    let (c, rest) ← unescape chars
    let (s, rest) ← readQuoted fuel rest
    some (c :: s, rest)

theorem readHex_hexDigits (n : ℕ) : readHex (hexDigits n) = some n := by
  have hmap : ∀ l : List ℕ, (∀ d ∈ l, d < 16) → (l.map Hex.encodeDigit).mapM Hex.decodeDigit =
      some l := by
    intro l hl
    induction l with
    | nil => rfl
    | cons d l ih =>
      obtain ⟨hd, hl⟩ := List.forall_mem_cons.mp hl
      rw [List.map_cons, List.mapM_cons, Hex.decodeDigit_encodeDigit hd, ih hl]
      rfl
  rw [readHex, hexDigits, ← List.map_reverse, List.reverse_reverse,
    hmap _ fun d hd => Nat.digits_lt_base (by decide) hd, Option.map_some, Nat.ofDigits_digits]

theorem hexDigits_ne (n : ℕ) : ∀ d ∈ hexDigits n, d ≠ '\x7d' := by
  intro d hd
  obtain ⟨m, hm, rfl⟩ := List.mem_map.mp hd
  have hlt : m < 16 := Nat.digits_lt_base (by decide) (List.mem_reverse.mp hm)
  have hall : ∀ m : Fin 16, Hex.encodeDigit m ≠ '\x7d' := by decide
  exact hall ⟨m, hlt⟩

theorem unescape_of_ne {c : Char} (h : c ≠ '\\') (rest : List Char) :
    unescape (c :: rest) = some (c, rest) := by
  unfold unescape
  split
  case h_9 => rename_i heq; cases heq; rfl
  all_goals
    rename_i heq
    cases heq
  all_goals exact absurd rfl h

/-- An escaped character is read back. -/
theorem unescape_escape (escapes : Char → Bool) (c : Char) (rest : List Char) :
    unescape (escape escapes c ++ rest) = some (c, rest) := by
  unfold escape
  split_ifs with h0 ht hr hn hq hb he
  · rw [h0]; rfl
  · rw [ht]; rfl
  · rw [hr]; rfl
  · rw [hn]; rfl
  · rw [hq]; rfl
  · rw [hb]; rfl
  · have htake : (hexDigits c.toNat ++ ['\x7d'] ++ rest).takeWhile (· ≠ '\x7d') =
        hexDigits c.toNat := by
      rw [List.append_assoc, List.takeWhile_append_of_pos fun d hd => by
        simpa using hexDigits_ne _ d hd]
      simp
    have hdrop : (hexDigits c.toNat ++ ['\x7d'] ++ rest).dropWhile (· ≠ '\x7d') =
        '\x7d' :: rest := by
      rw [List.append_assoc, List.dropWhile_append_of_pos fun d hd => by
        simpa using hexDigits_ne _ d hd]
      simp
    simp only [List.cons_append, unescape, htake, hdrop, readHex_hexDigits, Option.map_some,
      Char.ofNat_toNat, List.drop_succ_cons, List.drop_zero]
  · exact unescape_of_ne hb rest

/-- An escaped character starts with no quotation mark. -/
theorem escape_eq_cons (escapes : Char → Bool) (c : Char) :
    ∃ d tail, escape escapes c = d :: tail ∧ d ≠ '"' := by
  unfold escape
  split_ifs with h0 ht hr hn hq hb he
  all_goals first | exact ⟨_, _, rfl, by decide⟩ | exact ⟨_, _, rfl, hq⟩

/-- **A quoted text is read back, whatever follows.** -/
theorem readQuoted_quote (escapes : Char → Bool) {s : List Char} {fuel : ℕ} (h : s.length ≤ fuel)
    (rest : List Char) :
    readQuoted fuel (s.flatMap (escape escapes) ++ '"' :: rest) = some (s, rest) := by
  induction s generalizing fuel with
  | nil => simp [readQuoted]
  | cons c s ih =>
    obtain ⟨fuel, rfl⟩ := Nat.exists_eq_succ_of_ne_zero (Nat.ne_of_gt (Nat.lt_of_lt_of_le
      (Nat.succ_pos s.length) h))
    have hread := unescape_escape escapes c (s.flatMap (escape escapes) ++ '"' :: rest)
    obtain ⟨d, tail, hescape, hd⟩ := escape_eq_cons escapes c
    rw [List.flatMap_cons, List.append_assoc]
    rw [hescape, List.cons_append] at hread ⊢
    rw [readQuoted]
    · rw [hread, Option.bind_eq_bind, Option.bind_some]
      dsimp only
      rw [ih (Nat.le_of_succ_le_succ h)]
      rfl
    · rintro rest' heq
      cases heq
      exact hd rfl

/-- Quoted texts with what follows them are equal only if both are. -/
theorem quote_append_inj {escapes : Char → Bool} {s s' rest rest' : List Char}
    (h : quote escapes s ++ rest = quote escapes s' ++ rest') : s = s' ∧ rest = rest' := by
  simp only [quote, List.cons_append, List.append_assoc, List.nil_append, List.cons.injEq,
    true_and] at h
  have hread := readQuoted_quote escapes (le_max_left s.length s'.length) rest
  rw [h, readQuoted_quote escapes (le_max_right s.length s'.length)] at hread
  cases hread
  exact ⟨rfl, rfl⟩

end Quoting
