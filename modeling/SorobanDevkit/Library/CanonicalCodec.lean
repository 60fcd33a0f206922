import Mathlib.Data.List.Basic
import Mathlib.Data.Nat.Notation
import SorobanDevkit.Library.WireUnion

/-!
# Canonical encodings

An encoding is canonical if its reader takes nothing but what the writer writes: the bytes that are
read are the encoding of the value, and what follows. Canonical encodings compose as encodings do.

## Main results

* `CanonicalCodec.read_eq_some_iff` — what is read is what is written.
-/

/-- An encoding whose reader takes what is written, and nothing else. -/
structure CanonicalCodec (α : Type) extends Codec α where
  canonical : ∀ bytes a rest, read bytes = some (a, rest) → bytes = write a ++ rest

namespace CanonicalCodec

variable {α β : Type}

/-- **What is read is what is written.** -/
theorem read_eq_some_iff (c : CanonicalCodec α) {bytes rest : List UInt8} {a : α} :
    c.read bytes = some (a, rest) ↔ bytes = c.write a ++ rest := by
  constructor
  · exact c.canonical bytes a rest
  · rintro rfl
    exact c.read_write a rest

/-- No bytes. -/
def empty : CanonicalCodec Unit where
  toCodec := .empty
  canonical bytes _ rest h := by
    cases h
    rfl

/-- A number of `w` bytes, put together by `ofNat`. -/
def word (w : ℕ) (toNat : α → ℕ) (ofNat : ℕ → α) (hlt : ∀ a, toNat a < 256 ^ w)
    (h : ∀ a, ofNat (toNat a) = a) (h' : ∀ n < 256 ^ w, toNat (ofNat n) = n) :
    CanonicalCodec α where
  toCodec := .word w toNat ofNat hlt h
  canonical bytes a rest hread := by
    simp only [Codec.word] at hread
    split at hread
    · next hle =>
      cases hread
      have hlength : (bytes.take w).length = w := List.length_take_of_le hle
      have hnum := ofBigEndian_lt (bytes.take w)
      have hdigits := bigEndian_ofBigEndian (bytes.take w)
      rw [hlength] at hnum hdigits
      show bytes = bigEndian w (toNat (ofNat (ofBigEndian (bytes.take w)))) ++ bytes.drop w
      rw [h' _ hnum, hdigits, List.take_append_drop]
    · cases hread

/-- `UInt32`. -/
def u32 : CanonicalCodec UInt32 :=
  word 4 UInt32.toNat UInt32.ofNat UInt32.toNat_lt (fun _ => UInt32.ofNat_toNat)
    fun _ hn => UInt32.toNat_ofNat_of_lt' hn

/-- `UInt64`. -/
def u64 : CanonicalCodec UInt64 :=
  word 8 UInt64.toNat UInt64.ofNat UInt64.toNat_lt (fun _ => UInt64.ofNat_toNat)
    fun _ hn => UInt64.toNat_ofNat_of_lt' hn

/-- Bytes of a fixed number. -/
def fixed (n : ℕ) : CanonicalCodec (Vector UInt8 n) where
  toCodec := .fixed n
  canonical bytes v rest hread := by
    simp only [Codec.fixed] at hread
    split at hread
    · next hle =>
      cases hread
      have htake : (Vector.ofFn fun i : Fin n => bytes.getD i 0).toList = bytes.take n := by
        apply List.ext_getElem
        · rw [Vector.length_toList, List.length_take_of_le hle]
        · intro i hi hi'
          rw [Vector.length_toList] at hi
          rw [Vector.getElem_toList, Vector.getElem_ofFn, List.getElem_take,
            List.getD_eq_getElem _ _ (Nat.lt_of_lt_of_le hi hle)]
      show bytes = (Vector.ofFn fun i : Fin n => bytes.getD i 0).toList ++ bytes.drop n
      rw [htake, List.take_append_drop]
    · cases hread

/-- Values of another type, taken apart by `f` and put together by `g`. -/
def ofInverse (c : CanonicalCodec α) (f : β → α) (g : α → β) (h : ∀ b, g (f b) = b)
    (h' : ∀ a, f (g a) = a) : CanonicalCodec β where
  toCodec := c.toCodec.ofInverse f g h
  canonical bytes b rest hread := by
    obtain ⟨⟨a, rest'⟩, ha, hpair⟩ := Option.map_eq_some_iff.mp hread
    cases hpair
    show bytes = c.write (f (g a)) ++ rest
    rw [h', ← c.canonical bytes a rest ha]

/-- `Int64`, by its two's complement. -/
def i64 : CanonicalCodec Int64 :=
  u64.ofInverse Int64.toUInt64 UInt64.toInt64 Int64.toInt64_toUInt64 UInt64.toUInt64_toInt64

/-- One value after the other. -/
def pair (c : CanonicalCodec α) (d : CanonicalCodec β) : CanonicalCodec (α × β) where
  toCodec := c.toCodec.pair d.toCodec
  canonical bytes p rest hread := by
    obtain ⟨⟨a, bytes'⟩, ha, hread⟩ := Option.bind_eq_some_iff.mp hread
    obtain ⟨⟨b, rest'⟩, hb, hpair⟩ := Option.bind_eq_some_iff.mp hread
    cases hpair
    show bytes = (c.write a ++ d.write b) ++ rest
    rw [List.append_assoc, ← d.canonical bytes' b rest hb, ← c.canonical bytes a bytes' ha]

/-- A value after a number that tells its kind. -/
def discriminated (n : ℕ) (c : CanonicalCodec α) : CanonicalCodec α where
  toCodec := c.toCodec.discriminated n
  canonical bytes a rest hread := by
    simp only [Codec.discriminated] at hread
    split at hread
    · next hprefix =>
      obtain ⟨bytes', rfl⟩ := hprefix
      rw [List.drop_left' (length_bigEndian 4 n)] at hread
      show _ = (bigEndian 4 n ++ c.write a) ++ rest
      rw [List.append_assoc, ← c.canonical bytes' a rest hread]
    · cases hread

/-- A value of the arm of a number, or else of other arms. -/
def armOr (n : ℕ) (c : CanonicalCodec α) (d : CanonicalCodec β)
    (h : ∀ b rest, ¬ bigEndian 4 n <+: d.write b ++ rest) : CanonicalCodec (α ⊕ β) where
  write
    | .inl a => (c.discriminated n).write a
    | .inr b => d.write b
  read bytes :=
    if bigEndian 4 n <+: bytes then
      ((c.discriminated n).read bytes).map fun (a, rest) => (.inl a, rest)
    else (d.read bytes).map fun (b, rest) => (.inr b, rest)
  read_write v rest := by
    cases v with
    | inl a =>
      have hprefix : bigEndian 4 n <+: (c.discriminated n).write a ++ rest := by
        show bigEndian 4 n <+: (bigEndian 4 n ++ c.write a) ++ rest
        rw [List.append_assoc]
        exact List.prefix_append _ _
      simp only [if_pos hprefix, Codec.read_write, Option.map_some]
    | inr b => simp only [if_neg (h b rest), Codec.read_write, Option.map_some]
  canonical bytes v rest hread := by
    split at hread
    · obtain ⟨⟨a, rest'⟩, ha, hpair⟩ := Option.map_eq_some_iff.mp hread
      cases hpair
      exact (c.discriminated n).canonical bytes a rest ha
    · obtain ⟨⟨b, rest'⟩, hb, hpair⟩ := Option.map_eq_some_iff.mp hread
      cases hpair
      exact d.canonical bytes b rest hb

/-- The numbers of two arms are told apart. -/
theorem not_prefix_discriminated {m n : ℕ} (hmn : m ≠ n) (hm : m < 256 ^ 4) (hn : n < 256 ^ 4)
    (c : CanonicalCodec α) (a : α) (rest : List UInt8) :
    ¬ bigEndian 4 m <+: (c.discriminated n).write a ++ rest := by
  show ¬ bigEndian 4 m <+: (bigEndian 4 n ++ c.write a) ++ rest
  rw [List.append_assoc, bigEndian_prefix_iff hm hn]
  exact hmn

theorem not_prefix_armOr {m n : ℕ} (hmn : m ≠ n) (hm : m < 256 ^ 4) (hn : n < 256 ^ 4)
    (c : CanonicalCodec α) {d : CanonicalCodec β}
      {h : ∀ b rest, ¬ bigEndian 4 n <+: d.write b ++ rest}
    (hd : ∀ b rest, ¬ bigEndian 4 m <+: d.write b ++ rest) (v : α ⊕ β) (rest : List UInt8) :
    ¬ bigEndian 4 m <+: (armOr n c d h).write v ++ rest := by
  cases v with
  | inl a => exact not_prefix_discriminated hmn hm hn c a rest
  | inr b => exact hd b rest

/-- A value that may be missing: arm 0 has no value, and another arm has one. -/
def optionArm (n : ℕ) (hn : n < 256 ^ 4 ∧ n ≠ 0) (c : CanonicalCodec α) :
    CanonicalCodec (Option α) :=
  (armOr n c (discriminated 0 empty) fun b rest =>
    not_prefix_discriminated hn.2 hn.1 (by decide) empty b rest).ofInverse
    (fun o => o.elim (.inr ()) .inl) (fun v => v.elim some fun _ => none)
    (fun o => by cases o <;> rfl) (fun v => by rcases v with a | ⟨⟩ <;> rfl)

/-! ### Lists and bytes of bounded length -/

/-- What is read in sequence is what is written in sequence. -/
theorem readMany_canonical (c : CanonicalCodec α) {n : ℕ} {bytes rest : List UInt8} {as : List α}
    (h : readMany c.read n bytes = some (as, rest)) :
    as.length = n ∧ bytes = as.flatMap c.write ++ rest := by
  induction n generalizing bytes as with
  | zero =>
    cases h
    exact ⟨rfl, rfl⟩
  | succ n ih =>
    obtain ⟨⟨a, bytes'⟩, ha, h⟩ := Option.bind_eq_some_iff.mp h
    obtain ⟨⟨as', rest'⟩, has, hpair⟩ := Option.bind_eq_some_iff.mp h
    cases hpair
    obtain ⟨hlength, hbytes⟩ := ih has
    refine ⟨by rw [List.length_cons, hlength], ?_⟩
    rw [List.flatMap_cons, List.append_assoc, ← hbytes, ← c.canonical bytes a bytes' ha]

/-- A list of at most `max` values, after their number. -/
def bounded (max : ℕ) (hmax : max < 256 ^ 4) (c : CanonicalCodec α) :
    CanonicalCodec { l : List α // l.length ≤ max } where
  write l := bigEndian 4 l.1.length ++ l.1.flatMap c.write
  read bytes := do
    let (n, bytes) ← u32.read bytes
    if n.toNat ≤ max then
      let (l, bytes) ← readMany c.read n.toNat bytes
      if h : l.length ≤ max then some (⟨l, h⟩, bytes) else none
    else none
  read_write l rest := by
    have hlt : l.1.length < 2 ^ 32 := Nat.lt_of_le_of_lt l.2 hmax
    have hnat : (UInt32.ofNat l.1.length).toNat = l.1.length := UInt32.toNat_ofNat_of_lt' hlt
    have hcount : u32.read (bigEndian 4 l.1.length ++ (l.1.flatMap c.write ++ rest)) = _ :=
      Codec.u32_read hlt _
    simp only [List.append_assoc, hcount, Option.bind_eq_bind, Option.bind_some, hnat, if_pos l.2,
      readMany_flatMap fun a _ => c.read_write a, dif_pos l.2]
  canonical bytes l rest hread := by
    obtain ⟨⟨n, bytes'⟩, hn, hread⟩ := Option.bind_eq_some_iff.mp hread
    simp only at hread
    split at hread
    · obtain ⟨⟨l', bytes''⟩, hl, hread⟩ := Option.bind_eq_some_iff.mp hread
      simp only at hread
      split at hread
      · cases hread
        obtain ⟨hlength, hbytes⟩ := readMany_canonical c hl
        show bytes = (bigEndian 4 l'.length ++ l'.flatMap c.write) ++ rest
        rw [hlength, List.append_assoc, ← hbytes]
        exact u32.canonical bytes n bytes' hn
      · cases hread
    · cases hread

/-- The zeros that follow bytes up to a multiple of four. -/
def padding (n : ℕ) : List UInt8 := List.replicate ((4 - n % 4) % 4) 0

/-- At most `max` bytes, after their number and with zeros up to a multiple of four. -/
def padded (max : ℕ) (hmax : max < 256 ^ 4) :
    CanonicalCodec { l : List UInt8 // l.length ≤ max } where
  write l := bigEndian 4 l.1.length ++ (l.1 ++ padding l.1.length)
  read bytes := do
    let (n, bytes) ← u32.read bytes
    if h : n.toNat ≤ max then
      if n.toNat ≤ bytes.length ∧ padding n.toNat <+: bytes.drop n.toNat then
        some (⟨bytes.take n.toNat, Nat.le_trans (List.length_take_le _ _) h⟩,
          (bytes.drop n.toNat).drop (padding n.toNat).length)
      else none
    else none
  read_write l rest := by
    have hlt : l.1.length < 2 ^ 32 := Nat.lt_of_le_of_lt l.2 hmax
    have hnat : (UInt32.ofNat l.1.length).toNat = l.1.length := UInt32.toNat_ofNat_of_lt' hlt
    have hcount : u32.read (bigEndian 4 l.1.length ++
        (l.1 ++ (padding l.1.length ++ rest))) = _ := Codec.u32_read hlt _
    have hfits : l.1.length ≤ (l.1 ++ (padding l.1.length ++ rest)).length ∧
        padding l.1.length <+: padding l.1.length ++ rest := by
      rw [List.length_append]
      exact ⟨Nat.le_add_right _ _, List.prefix_append _ _⟩
    simp only [List.append_assoc, hcount, Option.bind_eq_bind, Option.bind_some, hnat, dif_pos l.2,
      List.take_left, List.drop_left, if_pos hfits]
  canonical bytes l rest hread := by
    obtain ⟨⟨n, bytes'⟩, hn, hread⟩ := Option.bind_eq_some_iff.mp hread
    simp only at hread
    split at hread
    · split at hread
      · next hfits =>
        cases hread
        obtain ⟨hle, tail, htail⟩ := hfits
        have hlength : (bytes'.take n.toNat).length = n.toNat := List.length_take_of_le hle
        show bytes = (bigEndian 4 (bytes'.take n.toNat).length ++ (bytes'.take n.toNat ++
          padding (bytes'.take n.toNat).length)) ++
            (bytes'.drop n.toNat).drop (padding n.toNat).length
        rw [hlength, ← htail, List.drop_left, List.append_assoc, List.append_assoc, htail,
          List.take_append_drop]
        exact u32.canonical bytes n bytes' hn
      · cases hread
    · cases hread

end CanonicalCodec
