import SorobanDevkit.Library.Strings
import Mathlib.Data.List.Infix

/-!
# Occurrences of a word

Where a character that is not in a word stands in a text, no occurrence of the word goes across it.

## Main results

* `Strings.infix_append_cons_iff` — a word occurs before the character or after it.
* `Strings.splitOnceAux_append_cons` — the first occurrence is the one before it, if there is one.
* `Strings.splitOnceAux_eq_none_iff` — there is none.
-/

namespace Strings

variable {word before after : List Char} {c : Char}

theorem prefix_append_cons_iff (hc : c ∉ word) (before after : List Char) :
    word <+: before ++ c :: after ↔ word <+: before := by
  constructor
  · intro h
    obtain hle | hlt := le_or_gt word.length before.length
    · exact List.prefix_of_prefix_length_le h (List.prefix_append _ _) hle
    · have hmem : c ∈ word := by
        obtain ⟨rest, hrest⟩ := h
        have hget := congrArg (fun l => l[before.length]?) hrest
        simp only [List.getElem?_append_left hlt, List.getElem?_append_right (le_refl _),
          Nat.sub_self, List.getElem?_cons_zero] at hget
        exact List.mem_of_getElem? hget
      exact absurd hmem hc
  · exact fun h => h.trans (List.prefix_append _ _)

theorem not_prefix_cons (hc : c ∉ word) (hword : word ≠ []) (after : List Char) :
    ¬ word <+: c :: after := by
  have hnil := prefix_append_cons_iff hc [] after
  rw [List.nil_append, List.prefix_nil] at hnil
  exact fun h => hword (hnil.mp h)

/-- A word without a character occurs before the character or after it. -/
theorem infix_append_cons_iff (hc : c ∉ word) (hword : word ≠ []) :
    word <:+: before ++ c :: after ↔ word <:+: before ∨ word <:+: after := by
  induction before with
  | nil =>
    rw [List.nil_append, List.infix_cons_iff, List.infix_nil]
    exact or_congr_left (iff_of_false (not_prefix_cons hc hword after) hword)
  | cons d before ih =>
    have hpre := prefix_append_cons_iff hc (d :: before) after
    rw [List.cons_append] at hpre
    rw [List.cons_append, List.infix_cons_iff, hpre, ih, List.infix_cons_iff, or_assoc]

/-- What is before and after the first occurrence of a word, in a text with a character that is not
in the word. -/
theorem splitOnceAux_append_cons (hc : c ∉ word) (hword : word ≠ []) :
    splitOnceAux word (before ++ c :: after) =
      ((splitOnceAux word before).map fun p => (p.1, p.2 ++ c :: after)).or
        ((splitOnceAux word after).map fun p => (before ++ c :: p.1, p.2)) := by
  induction before with
  | nil =>
    have hnil : splitOnceAux word [] = none := if_neg hword
    have hcons : splitOnceAux word (c :: after) =
        (splitOnceAux word after).map fun p => (c :: p.1, p.2) :=
      if_neg (not_prefix_cons hc hword after)
    rw [List.nil_append, hcons, hnil]
    rfl
  | cons d before ih =>
    have hpre := prefix_append_cons_iff hc (d :: before) after
    rw [List.cons_append] at hpre
    rw [List.cons_append, splitOnceAux, splitOnceAux]
    by_cases h : word <+: d :: before
    · have hlength : word.length ≤ (d :: before).length := h.length_le
      rw [if_pos (hpre.mpr h), if_pos h, ← List.cons_append,
        List.drop_append_of_le_length hlength]
      rfl
    · rw [if_neg (mt hpre.mp h), if_neg h, ih]
      cases splitOnceAux word before with
      | none => cases splitOnceAux word after <;> rfl
      | some p => rfl

theorem splitOnceAux_eq_none_iff (hword : word ≠ []) {text : List Char} :
    splitOnceAux word text = none ↔ ¬ word <:+: text := by
  induction text with
  | nil =>
    rw [splitOnceAux, if_neg hword, List.infix_nil]
    exact iff_of_true rfl hword
  | cons c text ih =>
    rw [splitOnceAux, List.infix_cons_iff, not_or]
    by_cases h : word <+: c :: text
    · rw [if_pos h]
      exact iff_of_false (Option.some_ne_none _) fun hnot => hnot.1 h
    · rw [if_neg h, Option.map_eq_none_iff, ih]
      exact (and_iff_right h).symm

/-- What is before the first occurrence of a word, the word, and what is after it. -/
theorem append_of_splitOnceAux {text : List Char}
    (h : splitOnceAux word text = some (before, after)) : text = before ++ (word ++ after) := by
  induction text generalizing before with
  | nil =>
    rw [splitOnceAux] at h
    split at h
    · next hword =>
      obtain ⟨rfl, rfl⟩ := Prod.mk.inj (Option.some.inj h)
      rw [hword]
      rfl
    · cases h
  | cons c text ih =>
    rw [splitOnceAux] at h
    split at h
    · next hpre =>
      obtain ⟨rfl, rfl⟩ := Prod.mk.inj (Option.some.inj h)
      exact (List.prefix_iff_eq_append.mp hpre).symm
    · obtain ⟨p, hp, heq⟩ := Option.map_eq_some_iff.mp h
      obtain ⟨rfl, rfl⟩ := Prod.mk.inj heq
      rw [List.cons_append, ← ih hp]

end Strings
