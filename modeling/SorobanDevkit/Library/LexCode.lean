import Mathlib.Data.Int.Notation
import Mathlib.Data.Nat.Notation
import Mathlib.Order.Compare

/-!
# Orders by lexicographic codes

A comparison is a linear order if the values have codes, lists of integers, that are compared as the
values are, whatever follows them. Such codes compose: parts that are compared one after the other
are written one after the other.

## Main results

* `Codes.field`, `Codes.list` — codes of parts.
* `Codes.transCmp` — a comparison with codes is transitive.
-/

open Std

variable {α β : Type}

/-- The codes are compared as the values are, whatever follows them. -/
def Codes (cmp : α → α → Ordering) (code : α → List ℤ) : Prop :=
  ∀ a b r r', compare (code a ++ r) (code b ++ r') = (cmp a b).then (compare r r')

namespace Codes

variable {cmp : α → α → Ordering} {code : α → List ℤ} {cmp' : β → β → Ordering}
  {code' : β → List ℤ}

/-- Values that are compared by a number. -/
theorem of_key {key : α → ℤ} (h : ∀ a b, cmp a b = compare (key a) (key b)) :
    Codes cmp fun a => [key a] := by
  intro a b r r'
  rw [List.singleton_append, List.singleton_append, List.compare_cons_cons, h]

/-- A last field. -/
theorem last (h : Codes cmp code) {a b : α} {o : Ordering} (ho : o = (cmp a b).then .eq)
    (r r' : List ℤ) : compare (code a ++ r) (code b ++ r') = o.then (compare r r') := by
  rw [h, ho, Ordering.then_eq]

/-- A field before others. -/
theorem field (h : Codes cmp code) {a b : α} {l l' : List ℤ} {o o' : Ordering}
    (ho : o = (cmp a b).then o')
    (hl : ∀ r r', compare (l ++ r) (l' ++ r') = o'.then (compare r r')) (r r' : List ℤ) :
    compare (code a ++ l ++ r) (code b ++ l' ++ r') = o.then (compare r r') := by
  rw [List.append_assoc, List.append_assoc, h, hl, ho, Ordering.then_assoc]

/-- Fields after the same variant. -/
theorem variant (d : ℤ) {l l' r r' : List ℤ} {o : Ordering}
    (h : compare (l ++ r) (l' ++ r') = o.then (compare r r')) :
    compare (d :: l ++ r) (d :: l' ++ r') = o.then (compare r r') := by
  rw [List.cons_append, List.cons_append, List.compare_cons_cons, compare_self, Ordering.eq_then,
    h]

/-- The code of a list: each member after a one, and a zero at the end. -/
def listCode (code : α → List ℤ) : List α → List ℤ
  | [] => [0]
  | a :: as => 1 :: (code a ++ listCode code as)

/-- The members of a list that are compared one after the other, a prefix before what it is one
of. -/
theorem listCode_cons (a b : α) (as bs : List α) (o : Ordering)
    (h : ∀ r r', compare (code a ++ r) (code b ++ r') = (cmp a b).then (compare r r'))
    (hs : ∀ r r', compare (listCode code as ++ r) (listCode code bs ++ r') =
      o.then (compare r r')) (r r' : List ℤ) :
    compare (listCode code (a :: as) ++ r) (listCode code (b :: bs) ++ r') =
      ((cmp a b).then o).then (compare r r') := by
  simp only [listCode, List.cons_append, List.append_assoc, List.compare_cons_cons, h, hs,
    Std.ReflCmp.compare_self, Ordering.then_assoc, Ordering.eq_then]

/-- Lists in lexicographic order. -/
theorem list [Ord α] (h : Codes (compare : α → α → Ordering) code) :
    Codes (compare : List α → List α → Ordering) (listCode code) := by
  intro as bs
  induction as generalizing bs with
  | nil =>
    cases bs with
    | nil => exact fun r r' => rfl
    | cons b bs => exact fun r r' => rfl
  | cons a as ih =>
    cases bs with
    | nil => exact fun r r' => rfl
    | cons b bs =>
      intro r r'
      rw [listCode_cons a b as bs _ (h a b) (ih bs), List.compare_cons_cons]

/-- Values are compared as their codes. -/
theorem compare_eq (h : Codes cmp code) (a b : α) : cmp a b = compare (code a) (code b) := by
  have hab := h a b [] []
  rw [List.append_nil, List.append_nil, compare_self, Ordering.then_eq] at hab
  exact hab.symm

/-- **A comparison with codes is transitive.** -/
theorem transCmp (h : Codes cmp code) : TransCmp cmp where
  eq_swap {a b} := by rw [h.compare_eq, h.compare_eq, OrientedOrd.eq_swap]
  isLE_trans {a b c} := by
    rw [h.compare_eq, h.compare_eq, h.compare_eq]
    exact TransOrd.isLE_trans

end Codes
