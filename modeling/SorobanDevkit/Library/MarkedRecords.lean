import Mathlib.Data.List.Basic

/-!
# Records that end with a mark

A record is a key and a content, each written with a mark behind it, and records are written one
after the other. Keys have no mark. Where contents may have one, records that follow each other are
written as one record with a longer content.

## Main results

* `MarkedRecords.write_cons_cons` — two records or more are written as one.
* `MarkedRecords.write_eq_write_singleton_iff` — what is written as one record.
-/

namespace MarkedRecords

variable {α : Type} {mark : α} {records records' : List (List α × List α)}

/-- Records, one after the other. -/
def write (mark : α) (records : List (List α × List α)) : List α :=
  records.flatMap fun r => r.1 ++ mark :: (r.2 ++ [mark])

theorem write_cons (r : List α × List α) (records : List (List α × List α)) :
    write mark (r :: records) = r.1 ++ mark :: (r.2 ++ mark :: write mark records) := by
  rw [write, List.flatMap_cons, List.append_assoc, List.cons_append, List.append_assoc,
    List.singleton_append]
  rfl

theorem write_eq_nil_iff : write mark records = [] ↔ records = [] := by
  cases records with
  | nil => exact iff_of_true rfl rfl
  | cons r records =>
    rw [write_cons]
    exact iff_of_false (List.append_ne_nil_of_right_ne_nil _ (List.cons_ne_nil _ _))
      (List.cons_ne_nil _ _)

/-- What is written ends with a mark, also behind a content. -/
theorem exists_append_write (content : List α) (records : List (List α × List α)) :
    ∃ init, content ++ mark :: write mark records = init ++ [mark] := by
  induction records generalizing content with
  | nil => exact ⟨content, rfl⟩
  | cons r records ih =>
    obtain ⟨init, hinit⟩ := ih (content ++ mark :: (r.1 ++ mark :: r.2))
    refine ⟨init, ?_⟩
    rw [← hinit, write_cons]
    simp

/-- Two texts without marks that a mark follows. -/
theorem append_mark_inj {a b rest rest' : List α} (ha : mark ∉ a) (hb : mark ∉ b)
    (h : a ++ mark :: rest = b ++ mark :: rest') : a = b ∧ rest = rest' := by
  induction a generalizing b with
  | nil =>
    cases b with
    | nil => exact ⟨rfl, (List.cons.inj h).2⟩
    | cons c b => exact absurd (List.cons.inj h).1 (List.ne_of_not_mem_cons hb)
  | cons c a ih =>
    cases b with
    | nil => exact absurd (List.cons.inj h).1.symm (List.ne_of_not_mem_cons ha)
    | cons d b =>
      obtain ⟨hhead, htail⟩ := List.cons.inj h
      obtain ⟨hab, hrest⟩ := ih (List.not_mem_of_not_mem_cons ha) (List.not_mem_of_not_mem_cons hb)
        htail
      exact ⟨by rw [hhead, hab], hrest⟩

/-- **Two records or more are written as one.** -/
theorem write_cons_cons (r r' : List α × List α) (records : List (List α × List α)) :
    ∃ content, write mark (r :: r' :: records) = write mark [(r.1, content)] := by
  obtain ⟨init, hinit⟩ : ∃ init, r.2 ++ mark :: write mark (r' :: records) = init ++ [mark] :=
    exists_append_write _ _
  refine ⟨init, ?_⟩
  rw [write_cons, hinit]
  simp [write]

/-- What is written as one record: this record, or more of them, with the marks and the keys in its
content. -/
theorem write_eq_write_singleton_iff {key content : List α} (hkey : mark ∉ key)
    (h : ∀ r ∈ records, mark ∉ r.1) :
    write mark records = write mark [(key, content)] ↔
      records = [(key, content)] ∨ ∃ x q y init rest, records = (key, x) :: (q, y) :: rest ∧
        y ++ mark :: write mark rest = init ++ [mark] ∧
        content = x ++ mark :: (q ++ mark :: init) := by
  constructor
  · intro heq
    cases records with
    | nil => exact absurd (write_eq_nil_iff.mp heq.symm) (List.cons_ne_nil _ _)
    | cons r records =>
      obtain ⟨hr, h⟩ := List.forall_mem_cons.mp h
      rw [write_cons, write_cons] at heq
      obtain ⟨hfirst, heq⟩ := append_mark_inj hr hkey heq
      cases records with
      | nil =>
        have hcontent : r.2 = content := List.append_cancel_right heq
        exact .inl (by rw [← hfirst, ← hcontent])
      | cons r' records =>
        right
        obtain ⟨init, hinit⟩ : ∃ init, r'.2 ++ mark :: write mark records = init ++ [mark] :=
          exists_append_write _ _
        refine ⟨r.2, r'.1, r'.2, init, records, by rw [← hfirst], hinit, ?_⟩
        rw [write_cons, hinit] at heq
        have happend : content ++ [mark] = (r.2 ++ mark :: (r'.1 ++ mark :: init)) ++ [mark] := by
          simpa [write] using heq.symm
        exact List.append_cancel_right happend
  · rintro (rfl | ⟨x, q, y, init, rest, rfl, hinit, rfl⟩)
    · rfl
    · rw [write_cons, write_cons, write_cons]
      dsimp only
      rw [hinit]
      simp [write]

end MarkedRecords
