import Mathlib.Data.List.Basic
import Mathlib.Data.Nat.Notation
import SorobanDevkit.Library.Bytes

/-!
# Self-delimiting encodings

An encoding whose reader takes exactly what was written off the front of the input, whatever
follows. Such encodings compose: pairs, lists and values of several forms are written part after
part.

## Main results

* `readMany_flatMap` — a list is read back if each of its values is.
-/

/-- A writer, and a reader that takes off what was written. -/
structure Codec (α : Type) where
  write : α → List UInt8
  read : List UInt8 → Option (α × List UInt8)
  read_write : ∀ a rest, read (write a ++ rest) = some (a, rest)

/-- Read `n` values. -/
def readMany {α : Type} (read : List UInt8 → Option (α × List UInt8)) :
    (n : ℕ) → List UInt8 → Option (List α × List UInt8)
  | 0, bytes => some ([], bytes)
  | n + 1, bytes => do
    let (a, bytes) ← read bytes
    let (as, bytes) ← readMany read n bytes
    some (a :: as, bytes)

/-- A list is read back if each of its values is. -/
theorem readMany_flatMap {α : Type} {read : List UInt8 → Option (α × List UInt8)}
    {write : α → List UInt8} {as : List α}
    (h : ∀ a ∈ as, ∀ rest, read (write a ++ rest) = some (a, rest)) (rest : List UInt8) :
    readMany read as.length (as.flatMap write ++ rest) = some (as, rest) := by
  induction as with
  | nil => rfl
  | cons a as ih =>
    obtain ⟨ha, has⟩ := List.forall_mem_cons.mp h
    rw [List.length_cons, readMany, List.flatMap_cons, List.append_assoc, ha]
    simp only [Option.bind_eq_bind, Option.bind_some, ih has]

/-- Read a number in unary. -/
def readUnary : List UInt8 → Option (ℕ × List UInt8)
  | [] => none
  | b :: bytes =>
    if b = 0 then some (0, bytes)
    else (readUnary bytes).map fun (n, rest) => (n + 1, rest)

theorem readUnary_replicate (n : ℕ) (rest : List UInt8) :
    readUnary (List.replicate n 1 ++ 0 :: rest) = some (n, rest) := by
  induction n with
  | zero => rfl
  | succ n ih =>
    rw [List.replicate_succ, List.cons_append, readUnary, if_neg (by decide), ih, Option.map_some]

namespace Codec

variable {α β : Type}

/-- The value of an encoding that nothing follows. -/
def decode (c : Codec α) (bytes : List UInt8) : Option α :=
  match c.read bytes with
  | some (a, []) => some a
  | _ => none

@[simp] theorem read_write_nil (c : Codec α) (a : α) : c.read (c.write a) = some (a, []) := by
  have hread := c.read_write a []
  rwa [List.append_nil] at hread

@[simp] theorem decode_write (c : Codec α) (a : α) : c.decode (c.write a) = some a := by
  rw [decode, read_write_nil]

/-- One byte. -/
def byte : Codec UInt8 where
  write b := [b]
  read
    | [] => none
    | b :: rest => some (b, rest)
  read_write _ _ := rfl

/-- A Boolean value. -/
def bool : Codec Bool where
  write b := [if b then 1 else 0]
  read
    | [] => none
    | b :: rest => some (b == 1, rest)
  read_write b _ := by cases b <;> rfl

/-- A number, in unary. -/
def nat : Codec ℕ where
  write n := List.replicate n 1 ++ [0]
  read := readUnary
  read_write n rest := by
    rw [List.append_assoc]
    exact readUnary_replicate n rest

/-- Values of another type, taken apart by `f` and put together by `g`. -/
def ofInverse (c : Codec α) (f : β → α) (g : α → β) (h : ∀ b, g (f b) = b) : Codec β where
  write b := c.write (f b)
  read bytes := (c.read bytes).map fun (a, rest) => (g a, rest)
  read_write b rest := by
    simp only [c.read_write, Option.map_some, h]

/-- One value after the other. -/
def pair (c : Codec α) (d : Codec β) : Codec (α × β) where
  write p := c.write p.1 ++ d.write p.2
  read bytes := do
    let (a, bytes) ← c.read bytes
    let (b, bytes) ← d.read bytes
    some ((a, b), bytes)
  read_write p rest := by
    rw [List.append_assoc, c.read_write]
    simp only [Option.bind_eq_bind, Option.bind_some, d.read_write]

/-- A value of one of several forms, after a byte that tells which. -/
def tagged (tag : α → UInt8) (payload : α → List UInt8)
    (readPayload : UInt8 → List UInt8 → Option (α × List UInt8))
    (h : ∀ a rest, readPayload (tag a) (payload a ++ rest) = some (a, rest)) : Codec α where
  write a := tag a :: payload a
  read
    | [] => none
    | t :: bytes => readPayload t bytes
  read_write a rest := h a rest

/-- A list, after its length. -/
def list (c : Codec α) : Codec (List α) where
  write as := nat.write as.length ++ as.flatMap c.write
  read bytes := do
    let (n, bytes) ← nat.read bytes
    readMany c.read n bytes
  read_write as rest := by
    rw [List.append_assoc, nat.read_write]
    exact readMany_flatMap (fun a _ => c.read_write a) rest

/-- A number of at most `w` bytes, put together by `ofNat`. -/
def word (w : ℕ) (toNat : α → ℕ) (ofNat : ℕ → α) (hlt : ∀ a, toNat a < 256 ^ w)
    (h : ∀ a, ofNat (toNat a) = a) : Codec α where
  write a := bigEndian w (toNat a)
  read bytes :=
    if w ≤ bytes.length then some (ofNat (ofBigEndian (bytes.take w)), bytes.drop w) else none
  read_write a rest := by
    have hlength := length_bigEndian w (toNat a)
    rw [if_pos (by rw [List.length_append, hlength]; exact Nat.le_add_right _ _),
      List.take_left' hlength, List.drop_left' hlength, ofBigEndian_bigEndian (hlt a), h]

/-- `UInt32`. -/
def u32 : Codec UInt32 := word 4 UInt32.toNat UInt32.ofNat UInt32.toNat_lt fun _ => by simp

/-- `UInt64`. -/
def u64 : Codec UInt64 := word 8 UInt64.toNat UInt64.ofNat UInt64.toNat_lt fun _ => by simp

/-- `Int32`, by its two's complement. -/
def i32 : Codec Int32 := u32.ofInverse Int32.toUInt32 UInt32.toInt32 fun _ => by simp

/-- `Int64`, by its two's complement. -/
def i64 : Codec Int64 := u64.ofInverse Int64.toUInt64 UInt64.toInt64 fun _ => by simp

/-- A vector of bytes. -/
def vector (n : ℕ) : Codec (Vector UInt8 n) :=
  (list byte).ofInverse (fun v => v.toList) (fun l => Vector.ofFn fun i => l.getD i 0) fun v => by
    ext i hi
    simp

end Codec
