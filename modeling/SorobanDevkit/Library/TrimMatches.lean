import SorobanDevkit.Library.Strings

/-!
# Trimming repeated suffixes

`trim_end_matches` removes every repetition of a suffix at the end of a string. What is left of two
strings is the same exactly if they are the same once each is continued with some repetitions.

## Main results

* `Strings.trimEndMatches_append` — the last repetition makes no difference.
* `Strings.trimEndMatches_eq_iff` — the strings of which the same is left.
-/

namespace Strings

/-- The string without the repetitions of the nonempty suffix `p`. -/
def trimEndMatches (p s : String) : String :=
  String.ofList (trimStartMatchesAux p.toList.reverse s.toList.length s.toList.reverse).reverse

section

variable {p cs ds : List Char}

/-- Repetitions of a list. -/
def repeated (p : List Char) (n : ℕ) : List Char := (List.replicate n p).flatten

theorem repeated_succ (p : List Char) (n : ℕ) : repeated p (n + 1) = p ++ repeated p n := by
  rw [repeated, List.replicate_succ, List.flatten_cons, repeated]

theorem repeated_add (p : List Char) (m n : ℕ) :
    repeated p (m + n) = repeated p m ++ repeated p n := by
  rw [repeated, List.replicate_add, List.flatten_append, repeated, repeated]

theorem reverse_repeated (p : List Char) (n : ℕ) :
    (repeated p n).reverse = repeated p.reverse n := by
  simp [repeated, List.reverse_flatten]

/-- A list is some repetitions of the prefix, and what is left of it. -/
theorem exists_repeated_append (hp : p ≠ []) (cs : List Char) {fuel : ℕ}
    (hfuel : cs.length ≤ fuel) :
    (∃ n, cs = repeated p n ++ trimStartMatchesAux p fuel cs) ∧
      ¬ p <+: trimStartMatchesAux p fuel cs := by
  induction fuel generalizing cs with
  | zero =>
    have hnil : cs = [] := List.length_eq_zero_iff.mp (Nat.le_zero.mp hfuel)
    subst hnil
    exact ⟨⟨0, rfl⟩, fun h => hp (List.prefix_nil.mp h)⟩
  | succ fuel ih =>
    rw [trimStartMatchesAux]
    split_ifs with hprefix
    · obtain ⟨rest, rfl⟩ := hprefix
      have hlength := List.length_pos_iff.mpr hp
      rw [List.drop_left]
      rw [List.length_append] at hfuel
      obtain ⟨⟨n, hn⟩, hleft⟩ := ih rest (by omega)
      refine ⟨⟨n + 1, ?_⟩, hleft⟩
      rw [repeated_succ, List.append_assoc, ← hn]
    · exact ⟨⟨0, rfl⟩, hprefix⟩

/-- What is left of a list is determined by its being repetitions of the prefix and what is left. -/
theorem eq_of_repeated_append {m n : ℕ} (hcs : ¬ p <+: cs) (hds : ¬ p <+: ds)
    (h : repeated p m ++ cs = repeated p n ++ ds) : cs = ds := by
  induction m generalizing n with
  | zero =>
    cases n with
    | zero => exact h
    | succ n =>
      rw [repeated_succ, List.append_assoc] at h
      exact absurd ⟨_, h.symm⟩ hcs
  | succ m ih =>
    cases n with
    | zero =>
      rw [repeated_succ, List.append_assoc] at h
      exact absurd ⟨_, h⟩ hds
    | succ n =>
      rw [repeated_succ, repeated_succ, List.append_assoc, List.append_assoc] at h
      exact ih (List.append_cancel_left h)

/-- Of two lists the same is left exactly if they are the same after some repetitions of the
prefix. -/
theorem trimStartMatchesAux_eq_iff (hp : p ≠ []) (cs ds : List Char) :
    trimStartMatchesAux p cs.length cs = trimStartMatchesAux p ds.length ds ↔
      ∃ m n, repeated p m ++ cs = repeated p n ++ ds := by
  obtain ⟨⟨i, hi⟩, hcs⟩ := exists_repeated_append hp cs (Nat.le_refl _)
  obtain ⟨⟨j, hj⟩, hds⟩ := exists_repeated_append hp ds (Nat.le_refl _)
  constructor
  · intro h
    refine ⟨j, i, ?_⟩
    calc repeated p j ++ cs
        = repeated p (j + i) ++ trimStartMatchesAux p cs.length cs := by
          rw [repeated_add, List.append_assoc, ← hi]
      _ = repeated p (i + j) ++ trimStartMatchesAux p ds.length ds := by rw [h, Nat.add_comm]
      _ = repeated p i ++ ds := by rw [repeated_add, List.append_assoc, ← hj]
  · rintro ⟨m, n, h⟩
    rw [hi, hj, ← List.append_assoc, ← List.append_assoc, ← repeated_add, ← repeated_add] at h
    exact eq_of_repeated_append hcs hds h

end

/-- **Of two strings the same is left exactly if they are the same before some repetitions of the
suffix.** -/
theorem trimEndMatches_eq_iff {p s t : String} (hp : p.toList ≠ []) :
    trimEndMatches p s = trimEndMatches p t ↔
      ∃ m n, s.toList ++ repeated p.toList m = t.toList ++ repeated p.toList n := by
  have hreverse : p.toList.reverse ≠ [] := by simpa using hp
  have hiff := trimStartMatchesAux_eq_iff hreverse s.toList.reverse t.toList.reverse
  rw [List.length_reverse, List.length_reverse] at hiff
  have hback : ∀ m n : ℕ, repeated p.toList.reverse m ++ s.toList.reverse =
      repeated p.toList.reverse n ++ t.toList.reverse ↔
        s.toList ++ repeated p.toList m = t.toList ++ repeated p.toList n := by
    intro m n
    rw [← reverse_repeated, ← reverse_repeated, ← List.reverse_append, ← List.reverse_append]
    exact List.reverse_inj
  simp only [← hback, ← hiff, trimEndMatches, String.ofList_inj, List.reverse_inj]

theorem mem_of_mem_trimStartMatchesAux {p cs : List Char} {c : Char} {fuel : ℕ}
    (h : c ∈ trimStartMatchesAux p fuel cs) : c ∈ cs := by
  induction fuel generalizing cs with
  | zero => exact h
  | succ fuel ih =>
    rw [trimStartMatchesAux] at h
    split_ifs at h
    · exact List.mem_of_mem_drop (ih h)
    · exact h

theorem mem_of_mem_trimEndMatches {p s : String} {c : Char} (h : c ∈ (trimEndMatches p s).toList) :
    c ∈ s.toList := by
  rw [trimEndMatches, String.toList_ofList, List.mem_reverse] at h
  exact List.mem_reverse.mp (mem_of_mem_trimStartMatchesAux h)

/-- A repetition of the suffix makes no difference. -/
theorem trimEndMatches_append {p s : String} (hp : p.toList ≠ []) :
    trimEndMatches p (s ++ p) = trimEndMatches p s := by
  refine (trimEndMatches_eq_iff hp).mpr ⟨0, 1, ?_⟩
  rw [String.toList_append]
  simp [repeated]

theorem trimStartMatchesAux_of_not_prefix {p cs : List Char} (h : ¬ p <+: cs) (fuel : ℕ) :
    trimStartMatchesAux p fuel cs = cs := by
  cases fuel with
  | zero => rfl
  | succ fuel => rw [trimStartMatchesAux, if_neg h]

/-- One repetition of the prefix is removed. -/
theorem trimStartMatches_append {p s : String} (hp : p.toList ≠ []) (h : ¬ p.toList <+: s.toList) :
    trimStartMatches p (p ++ s) = s := by
  obtain ⟨n, hn⟩ := Nat.exists_eq_add_of_lt (List.length_pos_iff.mpr hp)
  have hlength : (p ++ s).toList.length = n + s.toList.length + 1 := by
    rw [String.toList_append, List.length_append, hn]
    omega
  rw [trimStartMatches, hlength, trimStartMatchesAux, String.toList_append,
    if_pos (List.prefix_append _ _), List.drop_left, trimStartMatchesAux_of_not_prefix h,
    String.ofList_toList]

theorem trimEndMatches_of_not_suffix {p s : String} (h : ¬ p.toList <:+ s.toList) :
    trimEndMatches p s = s := by
  rw [trimEndMatches, trimStartMatchesAux_of_not_prefix (by rwa [List.reverse_prefix]),
    List.reverse_reverse, String.ofList_toList]

/-- What starts and ends with other characters is not trimmed. -/
theorem trimMatches_eq_self {c : Char} (first last : Char) {s : String} (hfirst : first ≠ c)
    (hlast : last ≠ c) (hhead : s.toList.head? = some first)
    (hgetLast : s.toList.getLast? = some last) : trimMatches c s = s := by
  obtain ⟨rest, hrest⟩ := List.head?_eq_some_iff.mp hhead
  obtain ⟨front, hfront⟩ := List.getLast?_eq_some_iff.mp hgetLast
  have hdrop : s.toList.dropWhile (· == c) = s.toList := by
    rw [hrest, List.dropWhile_cons_of_neg (by simpa using hfirst)]
  have hreverse : s.toList.reverse.dropWhile (· == c) = s.toList.reverse := by
    rw [hfront, List.reverse_concat, List.dropWhile_cons_of_neg (by simpa using hlast)]
  rw [trimMatches, hdrop, hreverse, List.reverse_reverse, String.ofList_toList]

end Strings
