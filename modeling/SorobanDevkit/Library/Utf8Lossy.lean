import Mathlib.Data.List.Basic
import Mathlib.Data.Nat.Notation
import Mathlib.Tactic.Set
import Mathlib.Tactic.SplitIfs

/-!
# Lossy decoding of UTF-8

Bytes are decoded to characters, and each maximal prefix of a character that is not continued to one
is replaced by U+FFFD.

## Main results

* `Utf8Lossy.encode_decode` — the bytes of a text without replacements are those of its characters.
* `Utf8Lossy.exists_decode_eq` — the bytes of a text with a replacement are not determined by it.
* `Utf8Lossy.decode_append_cons` — a byte of ASCII is read as itself wherever it is.
* `Utf8Lossy.decode_flatMap`, `Utf8Lossy.fromUtf8_eq_some_iff` — decoding inverts encoding.
-/

namespace Utf8Lossy

/-- U+FFFD. -/
def replacement : Char := Char.ofNat 0xFFFD

/-- A byte that continues a character. -/
def Continues (c : UInt8) : Prop := 0x80 ≤ c.toNat ∧ c.toNat ≤ 0xBF

/-- The bytes that come second in a character of three bytes. -/
def Second3 (b c : UInt8) : Prop :=
  (b.toNat = 0xE0 ∧ 0xA0 ≤ c.toNat ∧ c.toNat ≤ 0xBF) ∨
  (0xE1 ≤ b.toNat ∧ b.toNat ≤ 0xEC ∧ Continues c) ∨
  (b.toNat = 0xED ∧ 0x80 ≤ c.toNat ∧ c.toNat ≤ 0x9F) ∨
  (0xEE ≤ b.toNat ∧ b.toNat ≤ 0xEF ∧ Continues c)

/-- The bytes that come second in a character of four bytes. -/
def Second4 (b c : UInt8) : Prop :=
  (b.toNat = 0xF0 ∧ 0x90 ≤ c.toNat ∧ c.toNat ≤ 0xBF) ∨
  (0xF1 ≤ b.toNat ∧ b.toNat ≤ 0xF3 ∧ Continues c) ∨
  (b.toNat = 0xF4 ∧ 0x80 ≤ c.toNat ∧ c.toNat ≤ 0x8F)

instance (c : UInt8) : Decidable (Continues c) := inferInstanceAs (Decidable (_ ∧ _))
instance (b c : UInt8) : Decidable (Second3 b c) := by unfold Second3; infer_instance
instance (b c : UInt8) : Decidable (Second4 b c) := by unfold Second4; infer_instance

/-- The first character, or its replacement, and how many of the other bytes it takes. -/
def firstChunk (b : UInt8) (rest : List UInt8) : Char × ℕ :=
  if b.toNat < 0x80 then (Char.ofNat b.toNat, 0)
  else if 0xC2 ≤ b.toNat ∧ b.toNat ≤ 0xDF then
    match rest with
    | c :: _ =>
      if Continues c then (Char.ofNat ((b.toNat - 0xC0) * 64 + (c.toNat - 0x80)), 1)
      else (replacement, 0)
    | [] => (replacement, 0)
  else if 0xE0 ≤ b.toNat ∧ b.toNat ≤ 0xEF then
    match rest with
    | c :: rest =>
      if Second3 b c then
        match rest with
        | d :: _ =>
          if Continues d then
            (Char.ofNat ((b.toNat - 0xE0) * 4096 + (c.toNat - 0x80) * 64 + (d.toNat - 0x80)), 2)
          else (replacement, 1)
        | [] => (replacement, 1)
      else (replacement, 0)
    | [] => (replacement, 0)
  else if 0xF0 ≤ b.toNat ∧ b.toNat ≤ 0xF4 then
    match rest with
    | c :: rest =>
      if Second4 b c then
        match rest with
        | d :: rest =>
          if Continues d then
            match rest with
            | e :: _ =>
              if Continues e then
                (Char.ofNat ((b.toNat - 0xF0) * 262144 + (c.toNat - 0x80) * 4096 +
                  (d.toNat - 0x80) * 64 + (e.toNat - 0x80)), 3)
              else (replacement, 2)
            | [] => (replacement, 2)
          else (replacement, 1)
        | [] => (replacement, 1)
      else (replacement, 0)
    | [] => (replacement, 0)
  else (replacement, 0)

/-- The characters of bytes, of which there are at most `fuel`. -/
def decodeAux : (fuel : ℕ) → List UInt8 → List Char
  | _, [] => []
  | 0, _ :: _ => []
  | fuel + 1, b :: rest =>
    (firstChunk b rest).1 :: decodeAux fuel (rest.drop (firstChunk b rest).2)

/-- The characters of bytes. -/
def decode (bytes : List UInt8) : List Char := decodeAux bytes.length bytes

theorem decodeAux_eq_decode {fuel : ℕ} {bytes : List UInt8} (h : bytes.length ≤ fuel) :
    decodeAux fuel bytes = decode bytes := by
  have hmono : ∀ n m (bytes : List UInt8), bytes.length ≤ n → bytes.length ≤ m →
      decodeAux n bytes = decodeAux m bytes := by
    intro n
    induction n with
    | zero =>
      intro m bytes hn _
      rw [List.length_eq_zero_iff.mp (Nat.le_zero.mp hn), decodeAux, decodeAux]
    | succ n ih =>
      intro m bytes hn hm
      cases bytes with
      | nil => rw [decodeAux, decodeAux]
      | cons b rest =>
        obtain ⟨m, rfl⟩ : ∃ k, m = k + 1 := Nat.exists_eq_add_one.mpr (by simp at hm; omega)
        have hdrop := List.length_drop (i := (firstChunk b rest).2) (l := rest)
        rw [List.length_cons] at hn hm
        rw [decodeAux, decodeAux, ih m _ (by omega) (by omega)]
  exact hmono fuel bytes.length bytes h (Nat.le_refl _)

theorem decode_cons (b : UInt8) (rest : List UInt8) : decode (b :: rest) =
    (firstChunk b rest).1 :: decode (rest.drop (firstChunk b rest).2) := by
  rw [decode, List.length_cons, decodeAux, decodeAux_eq_decode]
  rw [List.length_drop]
  exact Nat.sub_le _ _

/-! ### Characters that are not replaced -/

/-- The bytes of a character, of which `n` come after the first one, are in front. -/
inductive ValidChunk : UInt8 → List UInt8 → Char → ℕ → Prop
  | one {b rest} (hb : b.toNat < 0x80) : ValidChunk b rest (Char.ofNat b.toNat) 0
  | two {b c rest} (hb : 0xC2 ≤ b.toNat ∧ b.toNat ≤ 0xDF) (hc : Continues c) :
    ValidChunk b (c :: rest) (Char.ofNat ((b.toNat - 0xC0) * 64 + (c.toNat - 0x80))) 1
  | three {b c d rest} (hb : 0xE0 ≤ b.toNat ∧ b.toNat ≤ 0xEF) (hc : Second3 b c)
    (hd : Continues d) :
    ValidChunk b (c :: d :: rest) (Char.ofNat
      ((b.toNat - 0xE0) * 4096 + (c.toNat - 0x80) * 64 + (d.toNat - 0x80))) 2
  | four {b c d e rest} (hb : 0xF0 ≤ b.toNat ∧ b.toNat ≤ 0xF4) (hc : Second4 b c)
    (hd : Continues d) (he : Continues e) :
    ValidChunk b (c :: d :: e :: rest) (Char.ofNat ((b.toNat - 0xF0) * 262144 +
      (c.toNat - 0x80) * 4096 + (d.toNat - 0x80) * 64 + (e.toNat - 0x80))) 3

theorem ValidChunk.firstChunk_eq {b : UInt8} {rest : List UInt8} {char : Char} {n : ℕ}
    (h : ValidChunk b rest char n) : firstChunk b rest = (char, n) := by
  cases h with
  | one hb =>
    unfold firstChunk
    rw [if_pos hb]
  | two hb hc =>
    unfold firstChunk
    rw [if_neg (by omega), if_pos hb]
    exact if_pos hc
  | three hb hc hd =>
    unfold firstChunk
    rw [if_neg (by omega), if_neg (by omega), if_pos hb]
    exact (if_pos hc).trans (if_pos hd)
  | four hb hc hd he =>
    unfold firstChunk
    rw [if_neg (by omega), if_neg (by omega), if_neg (by omega), if_pos hb]
    exact (if_pos hc).trans ((if_pos hd).trans (if_pos he))

/-- The other bytes are not looked at. -/
theorem ValidChunk.append {b : UInt8} {rest : List UInt8} {char : Char} {n : ℕ}
    (h : ValidChunk b rest char n) (other : List UInt8) :
    ValidChunk b (rest.take n ++ other) char n := by
  cases h with
  | one hb => exact .one hb
  | two hb hc => exact .two hb hc
  | three hb hc hd => exact .three hb hc hd
  | four hb hc hd he => exact .four hb hc hd he

theorem ValidChunk.length_take {b : UInt8} {rest : List UInt8} {char : Char} {n : ℕ}
    (h : ValidChunk b rest char n) : (rest.take n).length = n := by
  cases h <;> rfl

theorem validChunk_firstChunk {b : UInt8} {rest : List UInt8}
    (h : (firstChunk b rest).1 ≠ replacement) :
    ValidChunk b rest (firstChunk b rest).1 (firstChunk b rest).2 := by
  unfold firstChunk at h ⊢
  split_ifs at h ⊢ with h1 h2 h3 h4
  · exact .one h1
  · split at h
    · split_ifs at h with hc
      · simp only [if_pos hc]
        exact .two h2 hc
      · exact absurd rfl h
    · exact absurd rfl h
  · split at h
    · split_ifs at h with hc
      · split at h
        · split_ifs at h with hd
          · simp only [if_pos hc, if_pos hd]
            exact .three h3 hc hd
          · exact absurd rfl h
        · exact absurd rfl h
      · exact absurd rfl h
    · exact absurd rfl h
  · split at h
    · split_ifs at h with hc
      · split at h
        · split_ifs at h with hd
          · split at h
            · split_ifs at h with he
              · simp only [if_pos hc, if_pos hd, if_pos he]
                exact .four h4 hc hd he
              · exact absurd rfl h
            · exact absurd rfl h
          · exact absurd rfl h
        · exact absurd rfl h
      · exact absurd rfl h
    · exact absurd rfl h
  · exact absurd rfl h

theorem toNat_ofNat {n : ℕ} (h : n.isValidChar) : (Char.ofNat n).val.toNat = n := by
  rw [Char.ofNat, dif_pos h]
  rfl

theorem ofNat_eq {b : UInt8} {n : ℕ} (h : n = b.toNat) : UInt8.ofNat n = b := by
  rw [h, UInt8.ofNat_toNat]

/-- The bytes of a character that is not replaced are its encoding. -/
theorem ValidChunk.utf8EncodeChar {b : UInt8} {rest : List UInt8} {char : Char} {n : ℕ}
    (h : ValidChunk b rest char n) : String.utf8EncodeChar char = b :: rest.take n := by
  cases h with
  | one hb =>
    have hval := toNat_ofNat (n := b.toNat) (.inl (by omega))
    rw [String.utf8EncodeChar, hval]
    rw [if_pos (by omega), ofNat_eq rfl, List.take_zero]
  | @two c rest hb hc =>
    obtain ⟨hc1, hc2⟩ := hc
    have hval := toNat_ofNat (n := (b.toNat - 0xC0) * 64 + (c.toNat - 0x80)) (.inl (by omega))
    rw [String.utf8EncodeChar, hval]
    rw [if_neg (by omega), if_pos (by omega), ofNat_eq (b := b) (by omega),
      ofNat_eq (b := c) (by omega)]
    rfl
  | @three c d rest hb hc hd =>
    obtain ⟨hd1, hd2⟩ := hd
    have hvalid : ((b.toNat - 0xE0) * 4096 + (c.toNat - 0x80) * 64 +
        (d.toNat - 0x80)).isValidChar := by
      unfold Second3 Continues at hc
      unfold Nat.isValidChar
      omega
    unfold Second3 Continues at hc
    rw [String.utf8EncodeChar, toNat_ofNat hvalid]
    rw [if_neg (by omega), if_neg (by omega), if_pos (by omega), ofNat_eq (b := b) (by omega),
      ofNat_eq (b := c) (by omega), ofNat_eq (b := d) (by omega)]
    rfl
  | @four c d e rest hb hc hd he =>
    obtain ⟨hd1, hd2⟩ := hd
    obtain ⟨he1, he2⟩ := he
    have hvalid : ((b.toNat - 0xF0) * 262144 + (c.toNat - 0x80) * 4096 + (d.toNat - 0x80) * 64 +
        (e.toNat - 0x80)).isValidChar := by
      unfold Second4 Continues at hc
      unfold Nat.isValidChar
      omega
    unfold Second4 Continues at hc
    rw [String.utf8EncodeChar, toNat_ofNat hvalid]
    rw [if_neg (by omega), if_neg (by omega), if_neg (by omega), ofNat_eq (b := b) (by omega),
      ofNat_eq (b := c) (by omega), ofNat_eq (b := d) (by omega), ofNat_eq (b := e) (by omega)]
    rfl

/-- **The bytes of a text without replacements are those of its characters.** -/
theorem encode_decode {bytes : List UInt8} (h : replacement ∉ decode bytes) :
    (decode bytes).flatMap String.utf8EncodeChar = bytes := by
  induction hn : bytes.length using Nat.strongRecOn generalizing bytes with
  | _ n ih =>
    cases bytes with
    | nil => rfl
    | cons b rest =>
      rw [decode_cons, List.mem_cons, not_or] at h
      have hlength : (rest.drop (firstChunk b rest).2).length < n := by
        rw [← hn, List.length_cons, List.length_drop]
        omega
      rw [decode_cons, List.flatMap_cons, ih _ hlength h.2 rfl,
        (validChunk_firstChunk (Ne.symm h.1)).utf8EncodeChar, List.cons_append,
        List.take_append_drop]

/-! ### Characters that are replaced -/

theorem firstChunk_of_le {b : UInt8} (h : 0xF5 ≤ b.toNat) (rest : List UInt8) :
    firstChunk b rest = (replacement, 0) := by
  unfold firstChunk
  rw [if_neg (by omega), if_neg (by omega), if_neg (by omega), if_neg (by omega)]

/-- **The bytes of a text with a replacement are not determined by it.** -/
theorem exists_decode_eq {bytes : List UInt8} (h : replacement ∈ decode bytes) :
    ∃ bytes', bytes' ≠ bytes ∧ decode bytes' = decode bytes ∧ bytes'.length ≤ bytes.length := by
  induction hn : bytes.length using Nat.strongRecOn generalizing bytes with
  | _ n ih =>
    cases bytes with
    | nil => cases h
    | cons b rest =>
      have hdrop := List.length_drop (i := (firstChunk b rest).2) (l := rest)
      rw [List.length_cons] at hn
      rw [decode_cons]
      by_cases hfirst : (firstChunk b rest).1 = replacement
      · -- another byte that starts no character takes the place of those that are replaced
        rw [hfirst]
        by_cases hb : b = 0xFF
        · have hchunk := firstChunk_of_le (b := b) (by rw [hb]; decide) rest
          refine ⟨0xFE :: rest, fun heq => ?_, ?_, by rw [List.length_cons]; omega⟩
          · rw [hb] at heq
            cases heq
          · rw [decode_cons, firstChunk_of_le (by decide), hchunk]
        · refine ⟨0xFF :: rest.drop (firstChunk b rest).2, fun heq => ?_, ?_, ?_⟩
          · exact hb (List.cons.inj heq).1.symm
          · rw [decode_cons, firstChunk_of_le (by decide)]
            rfl
          · rw [List.length_cons]
            omega
      · rw [decode_cons, List.mem_cons] at h
        obtain ⟨tail, hne, hdecode, hlength⟩ := ih _ (by omega)
          (h.resolve_left (Ne.symm hfirst)) rfl
        have hchunk := validChunk_firstChunk hfirst
        have htail : decode (b :: (rest.take (firstChunk b rest).2 ++ tail)) =
            (firstChunk b rest).1 :: decode tail := by
          rw [decode_cons, (hchunk.append tail).firstChunk_eq,
            List.drop_left' hchunk.length_take]
        refine ⟨b :: (rest.take (firstChunk b rest).2 ++ tail), fun heq => hne ?_, ?_, ?_⟩
        · have hrest := (List.cons.inj heq).2
          exact List.append_cancel_left
            (hrest.trans (List.take_append_drop (firstChunk b rest).2 rest).symm)
        · rw [htail, hdecode]
        · rw [List.length_cons, List.length_append, hchunk.length_take]
          have htake := hchunk.length_take
          rw [List.length_take] at htake
          omega

/-! ### Characters of ASCII -/

/-- A byte of ASCII is in no longer character. -/
theorem firstChunk_append {c : UInt8} (hc : c.toNat < 0x80) (b : UInt8) (rest after : List UInt8) :
    firstChunk b (rest ++ c :: after) = firstChunk b rest ∧
      (firstChunk b rest).2 ≤ rest.length := by
  have hnot : ¬ Continues c := fun h => by unfold Continues at h; omega
  have hnot3 : ¬ Second3 b c := fun h => by unfold Second3 Continues at h; omega
  have hnot4 : ¬ Second4 b c := fun h => by unfold Second4 Continues at h; omega
  match rest with
  | [] =>
    unfold firstChunk
    simp only [List.nil_append, if_neg hnot, if_neg hnot3, if_neg hnot4]
    split_ifs <;> simp
  | [x] =>
    unfold firstChunk
    simp only [List.cons_append, List.nil_append, if_neg hnot]
    split_ifs <;> simp
  | [x, y] =>
    unfold firstChunk
    simp only [List.cons_append, List.nil_append, if_neg hnot]
    split_ifs <;> simp
  | x :: y :: z :: rest =>
    unfold firstChunk
    simp only [List.cons_append]
    split_ifs <;> simp

/-- **A byte of ASCII is read as itself wherever it is.** -/
theorem decode_append_cons {c : UInt8} (hc : c.toNat < 0x80) (before after : List UInt8) :
    decode (before ++ c :: after) = decode before ++ Char.ofNat c.toNat :: decode after := by
  induction hn : before.length using Nat.strongRecOn generalizing before with
  | _ n ih =>
    cases before with
    | nil =>
      rw [List.nil_append, decode_cons, (ValidChunk.one hc).firstChunk_eq]
      rfl
    | cons b rest =>
      obtain ⟨hchunk, hle⟩ := firstChunk_append hc b rest after
      rw [List.cons_append, decode_cons, decode_cons, hchunk, List.drop_append_of_le_length hle,
        ih _ (by rw [← hn, List.length_cons, List.length_drop]; omega) _ rfl, List.cons_append]

/-- A character of ASCII is read from its byte. -/
theorem mem_of_mem_decode {char : Char} {c : UInt8} (hne : char ≠ replacement)
    (hencode : String.utf8EncodeChar char = [c]) {bytes : List UInt8} (h : char ∈ decode bytes) :
    c ∈ bytes := by
  induction hn : bytes.length using Nat.strongRecOn generalizing bytes with
  | _ n ih =>
    cases bytes with
    | nil => cases h
    | cons b rest =>
      rw [decode_cons, List.mem_cons] at h
      rcases h with hfirst | htail
      · have hchunk := (validChunk_firstChunk (hfirst ▸ hne)).utf8EncodeChar
        rw [← hfirst, hencode] at hchunk
        rw [(List.cons.inj hchunk).1]
        exact List.mem_cons_self
      · have hmem := ih _ (by rw [← hn, List.length_cons, List.length_drop]; omega) htail rfl
        exact List.mem_cons_of_mem _ (List.mem_of_mem_drop hmem)

/-! ### The bytes of a text -/

/-- The bytes of a text. -/
def encode (s : String) : List UInt8 := s.toList.flatMap String.utf8EncodeChar

/-- The text of bytes that are those of one. -/
def fromUtf8 (bytes : List UInt8) : Option String :=
  if (decode bytes).flatMap String.utf8EncodeChar = bytes then some (String.ofList (decode bytes))
  else none

theorem toNat_ofNat_of_lt {n : ℕ} (h : n < 256) : (UInt8.ofNat n).toNat = n := by
  rw [UInt8.toNat_ofNat', Nat.mod_eq_of_lt h]

theorem ofNat_val (c : Char) {n : ℕ} (h : n = c.val.toNat) : Char.ofNat n = c := by
  rw [h]
  exact Char.ofNat_toNat c

/-- The bytes of a character are a chunk. -/
theorem exists_validChunk (c : Char) (after : List UInt8) : ∃ b rest n,
    String.utf8EncodeChar c ++ after = b :: rest ∧ ValidChunk b rest c n ∧ rest.drop n = after := by
  have hvalid : c.val.toNat.isValidChar := c.valid
  unfold Nat.isValidChar at hvalid
  set v := c.val.toNat with hv
  rw [String.utf8EncodeChar, ← hv]
  split_ifs with h1 h2 h3
  · refine ⟨UInt8.ofNat v, after, 0, rfl, ?_, rfl⟩
    have hb := toNat_ofNat_of_lt (n := v) (by omega)
    have hchunk : ValidChunk (UInt8.ofNat v) after _ 0 := .one (by omega)
    rwa [ofNat_val c (by omega)] at hchunk
  · refine ⟨_, _, 1, rfl, ?_, rfl⟩
    have hb := toNat_ofNat_of_lt (n := v / 64 % 32 + 192) (by omega)
    have hc := toNat_ofNat_of_lt (n := v % 64 + 128) (by omega)
    have hchunk : ValidChunk (UInt8.ofNat (v / 64 % 32 + 192)) (UInt8.ofNat (v % 64 + 128) :: after)
      _ 1 := .two (by omega) (by unfold Continues; omega)
    rwa [ofNat_val c (by omega)] at hchunk
  · refine ⟨_, _, 2, rfl, ?_, rfl⟩
    have hb := toNat_ofNat_of_lt (n := v / 4096 % 16 + 224) (by omega)
    have hc := toNat_ofNat_of_lt (n := v / 64 % 64 + 128) (by omega)
    have hd := toNat_ofNat_of_lt (n := v % 64 + 128) (by omega)
    have hchunk : ValidChunk (UInt8.ofNat (v / 4096 % 16 + 224))
      (UInt8.ofNat (v / 64 % 64 + 128) :: UInt8.ofNat (v % 64 + 128) :: after) _ 2 :=
      .three (by omega) (by unfold Second3 Continues; omega) (by unfold Continues; omega)
    rwa [ofNat_val c (by omega)] at hchunk
  · refine ⟨_, _, 3, rfl, ?_, rfl⟩
    have hb := toNat_ofNat_of_lt (n := v / 262144 % 8 + 240) (by omega)
    have hc := toNat_ofNat_of_lt (n := v / 4096 % 64 + 128) (by omega)
    have hd := toNat_ofNat_of_lt (n := v / 64 % 64 + 128) (by omega)
    have he := toNat_ofNat_of_lt (n := v % 64 + 128) (by omega)
    have hchunk : ValidChunk (UInt8.ofNat (v / 262144 % 8 + 240))
      (UInt8.ofNat (v / 4096 % 64 + 128) :: UInt8.ofNat (v / 64 % 64 + 128) ::
        UInt8.ofNat (v % 64 + 128) :: after) _ 3 :=
      .four (by omega) (by unfold Second4 Continues; omega) (by unfold Continues; omega)
        (by unfold Continues; omega)
    rwa [ofNat_val c (by omega)] at hchunk

/-- **Decoding inverts encoding.** -/
theorem decode_flatMap (chars : List Char) : decode
    (chars.flatMap String.utf8EncodeChar) = chars := by
  induction chars with
  | nil => rfl
  | cons c chars ih =>
    obtain ⟨b, rest, n, heq, hchunk, hdrop⟩ := exists_validChunk c
      (chars.flatMap String.utf8EncodeChar)
    rw [List.flatMap_cons, heq, decode_cons, hchunk.firstChunk_eq, hdrop, ih]

theorem decode_encode (s : String) : decode (encode s) = s.toList := decode_flatMap s.toList

/-- The text of bytes is the one that they are the bytes of. -/
theorem fromUtf8_eq_some_iff {bytes : List UInt8} {s : String} :
    fromUtf8 bytes = some s ↔ bytes = encode s := by
  rw [fromUtf8]
  constructor
  · intro h
    split at h
    · next hbytes =>
      obtain rfl := Option.some.inj h
      rw [encode, String.toList_ofList, hbytes]
    · cases h
  · rintro rfl
    rw [decode_encode, if_pos (by rw [encode]), String.ofList_toList]

theorem fromUtf8_encode (s : String) : fromUtf8 (encode s) = some s := fromUtf8_eq_some_iff.mpr rfl

theorem encode_inj {s t : String} : encode s = encode t ↔ s = t := by
  refine ⟨fun h => ?_, congrArg encode⟩
  have hdecode := congrArg fromUtf8 h
  rwa [fromUtf8_encode, fromUtf8_encode, Option.some_inj] at hdecode

end Utf8Lossy
