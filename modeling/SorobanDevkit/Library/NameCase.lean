import SorobanDevkit.Library.TrimMatches

/-!
# The outline of a name

Programs that make one name of another drop the underscores and choose the case of the letters by
where words start. What such a name can still tell is the outline of the first one: its letters and
digits without case, with a mark at each letter that starts a word.

## Main results

* `NameCase.forall_of_isAlphanum` — a property of letters and digits is checked one by one.
* `NameCase.capitalized_outline_inj` — the outline is what the capital letters tell.
-/

namespace NameCase

open Strings

/-- Letters, digits and underscores of ASCII. -/
def IsName (cs : List Char) : Prop := ∀ c ∈ cs, c.isAlphanum ∨ c = '_'

instance (cs : List Char) : Decidable (IsName cs) := List.decidableBAll _ _

/-- The letters and digits without case, each letter after an underscore marked, for characters that
follow `previous`. -/
def outlineFrom (previous : Char) : List Char → List (Char × Bool)
  | [] => []
  | c :: cs =>
    if c = '_' then outlineFrom c cs
    else (c.toLower, c.isAlpha && previous == '_') :: outlineFrom c cs

/-- The letters and digits of a name without case, each letter that starts a word marked. -/
def outline (cs : List Char) : List (Char × Bool) := outlineFrom '_' cs

/-! ### Letters and digits -/

theorem toNat_lt_of_isAlphanum {c : Char} (h : c.isAlphanum) : c.toNat < 123 := by
  have hle : ∀ d : Char, d.toNat < 123 → c.val ≤ d.val → c.toNat < 123 :=
    fun d hd hcd => Nat.lt_of_le_of_lt (UInt32.le_iff_toNat_le.mp hcd) hd
  obtain hletter | hdigit := (Bool.or_eq_true c.isAlpha c.isDigit).mp h
  · obtain hupper | hlower := (Bool.or_eq_true c.isUpper c.isLower).mp hletter
    · exact hle 'Z' (by decide) (of_decide_eq_true hupper).2
    · exact hle 'z' (by decide) (of_decide_eq_true ((Bool.and_eq_true _ _).mp hlower).2)
  · exact hle '9' (by decide) (of_decide_eq_true ((Bool.and_eq_true _ _).mp hdigit).2)

/-- A property of letters and digits is checked one by one. -/
theorem forall_of_isAlphanum {p : Char → Prop}
    (h : ∀ n : Fin 123, (Char.ofNat n).isAlphanum → p (Char.ofNat n)) {c : Char}
    (hc : c.isAlphanum) : p c := by
  have hchar : Char.ofNat c.toNat = c := Char.ofNat_toNat c
  have hp := h ⟨c.toNat, toNat_lt_of_isAlphanum hc⟩
  rw [hchar] at hp
  exact hp hc

theorem toLower_toUpper {c : Char} (hc : c.isAlphanum) : c.toUpper.toLower = c.toLower :=
  forall_of_isAlphanum (p := fun c => c.toUpper.toLower = c.toLower) (by decide) hc

theorem isUpper_toUpper {c : Char} (hc : c.isAlphanum) : c.toUpper.isUpper = c.isAlpha :=
  forall_of_isAlphanum (p := fun c => c.toUpper.isUpper = c.isAlpha) (by decide) hc

theorem toUpper_toLower {c : Char} (hc : c.isAlphanum) : c.toLower.toUpper = c.toUpper :=
  forall_of_isAlphanum (p := fun c => c.toLower.toUpper = c.toUpper) (by decide) hc

theorem toLower_toLower {c : Char} (hc : c.isAlphanum) : c.toLower.toLower = c.toLower :=
  forall_of_isAlphanum (p := fun c => c.toLower.toLower = c.toLower) (by decide) hc

theorem isUpper_toLower {c : Char} (hc : c.isAlphanum) : c.toLower.isUpper = false :=
  forall_of_isAlphanum (p := fun c => c.toLower.isUpper = false) (by decide) hc

theorem toLower_of_not_isAlpha {c : Char} (hc : c.isAlphanum) (halpha : ¬ c.isAlpha) :
    c.toLower = c :=
  forall_of_isAlphanum (p := fun c => ¬ c.isAlpha → c.toLower = c) (by decide) hc halpha

theorem toUpper_of_not_isAlpha {c : Char} (hc : c.isAlphanum) (halpha : ¬ c.isAlpha) :
    c.toUpper = c :=
  forall_of_isAlphanum (p := fun c => ¬ c.isAlpha → c.toUpper = c) (by decide) hc halpha

theorem isAlphanum_toUpper {c : Char} (hc : c.isAlphanum) : c.toUpper.isAlphanum :=
  forall_of_isAlphanum (p := fun c => c.toUpper.isAlphanum) (by decide) hc

theorem isAlphanum_toLower {c : Char} (hc : c.isAlphanum) : c.toLower.isAlphanum :=
  forall_of_isAlphanum (p := fun c => c.toLower.isAlphanum) (by decide) hc

/-- Lower case makes no digit of another character of a name. -/
theorem isDigit_toLower {c : Char} (hc : c.isAlphanum ∨ c = '_') :
    c.toLower.isDigit = c.isDigit := by
  obtain hc | rfl := hc
  · exact forall_of_isAlphanum (p := fun c => c.toLower.isDigit = c.isDigit) (by decide) hc
  · rfl

/-! ### Capital letters -/

section

variable {cs ds : List Char}

/-- Letters and digits with a capital letter where a word starts. -/
def capitalized (marked : List (Char × Bool)) : List Char :=
  marked.map fun (c, starts) => if starts then c.toUpper else c

/-- The outline is read off the capital letters. -/
theorem map_capitalized_outlineFrom (hcs : IsName cs) (previous : Char) :
    (capitalized (outlineFrom previous cs)).map (fun c => (c.toLower, c.isUpper)) =
      outlineFrom previous cs := by
  induction cs generalizing previous with
  | nil => rfl
  | cons c cs ih =>
    obtain ⟨hc, hcs⟩ := List.forall_mem_cons.mp hcs
    rw [outlineFrom]
    split_ifs with hunderscore
    · exact ih hcs c
    · have hc := hc.resolve_right hunderscore
      have hread : ∀ mark : Bool, mark = true → c.isAlpha = true →
          (c.toLower.toUpper.toLower, c.toLower.toUpper.isUpper) = (c.toLower, mark) := by
        rintro mark rfl halpha
        rw [toUpper_toLower hc, toLower_toUpper hc, isUpper_toUpper hc, halpha]
      have hplain : (c.toLower.toLower, c.toLower.isUpper) = (c.toLower, false) := by
        rw [toLower_toLower hc, isUpper_toLower hc]
      rw [capitalized, List.map_cons, List.map_cons]
      refine congrArg₂ List.cons ?_ (ih hcs c)
      dsimp only
      split_ifs with hmark
      · exact hread _ hmark ((Bool.and_eq_true _ _).mp hmark).1
      · rw [hplain, Bool.eq_false_iff.mpr hmark]

/-- **Names are the same with capital letters exactly if their outlines are.** -/
theorem capitalized_outline_inj (hcs : IsName cs) (hds : IsName ds) :
    capitalized (outline cs) = capitalized (outline ds) ↔ outline cs = outline ds := by
  refine ⟨fun h => ?_, fun h => by rw [h]⟩
  rw [outline, outline, ← map_capitalized_outlineFrom hcs, ← map_capitalized_outlineFrom hds]
  exact congrArg _ h

theorem IsName.append_repeated {word : List Char} (hcs : IsName cs) (hword : IsName word) (n : ℕ) :
    IsName (cs ++ repeated word n) := by
  intro c hc
  obtain hc | hc := List.mem_append.mp hc
  · exact hcs c hc
  · obtain ⟨copy, hcopy, hc⟩ := List.mem_flatten.mp hc
    rw [List.eq_of_mem_replicate hcopy] at hc
    exact hword c hc

end

end NameCase
