import Mathlib.Data.List.Basic

/-!
# Texts of paths

The text of a path is divided by separators. Empty components and dots are dropped, except for a dot
in front. The texts are lists over an alphabet with a separator and a dot, so that they may be bytes
or characters.

## Main results

* `PathText.isSafe_iff` — safe paths by their pieces.
* `PathText.eq_of_names_singleton` — a safe path of one name that does not end like a directory is
  that name.
* `PathText.names_of_notMem` — a text without separators.
* `PathText.getLast?_components_append` — the last component of a path that ends with a name.
-/

namespace PathText

variable {α : Type} [DecidableEq α] (sep dot : α)

/-- What is between the separators. -/
def pieces : List α → List (List α)
  | [] => [[]]
  | c :: cs =>
    if c = sep then [] :: pieces cs
    else
      match pieces cs with
      | [] => [[c]]
      | p :: ps => (c :: p) :: ps

/-- A component of a path. -/
inductive Component (α : Type)
  | root
  | current
  | parent
  | normal (name : List α)
  deriving DecidableEq

/-- A piece that is not dropped. -/
def isName (p : List α) : Bool := p ≠ [] ∧ p ≠ [dot]

/-- The components of a path. -/
def components (path : List α) : List (Component α) :=
  (if path.head? = some sep then [.root]
    else if (pieces sep path).head? = some [dot] then [.current]
    else []) ++
  ((pieces sep path).filter (isName dot)).map fun p =>
    if p = [dot, dot] then .parent else .normal p

/-- A component is a name. -/
def Component.isNormal : Component α → Bool
  | .normal _ => true
  | _ => false

/-- The path is relative, and its components are names. -/
def isSafe (path : List α) : Bool :=
  path.head? ≠ some sep ∧ (components sep dot path).all Component.isNormal

/-- The names in a safe path. -/
def names (path : List α) : List (List α) := (pieces sep path).filter (isName dot)

/-- The path ends like that of a directory: with a separator, or with one and a dot. -/
def namesDirectory (path : List α) : Bool := (pieces sep path).getLast?.all fun p => !isName dot p

/-- The extension of a file name: what is behind its last dot, unless that dot is in front. -/
def extension (name : List α) : Option (List α) :=
  let behind := (name.reverse.takeWhile (· ≠ dot)).reverse
  if name = [dot, dot] ∨ name.length ≤ behind.length + 1 then none else some behind

variable {sep dot}

theorem pieces_ne_nil (path : List α) : pieces sep path ≠ [] := by
  cases path with
  | nil => simp [pieces]
  | cons c cs =>
    rw [pieces]
    split
    · simp
    · split <;> simp

theorem pieces_cons_of_ne {c : α} (hc : c ≠ sep) (cs : List α) :
    ∃ p ps, pieces sep cs = p :: ps ∧ pieces sep (c :: cs) = (c :: p) :: ps := by
  obtain ⟨p, ps, hpieces⟩ := List.exists_cons_of_ne_nil (pieces_ne_nil cs : pieces sep cs ≠ [])
  exact ⟨p, ps, hpieces, by rw [pieces, if_neg hc, hpieces]⟩

/-- A text without separators is one piece. -/
theorem pieces_of_notMem {path : List α} (h : sep ∉ path) : pieces sep path = [path] := by
  induction path with
  | nil => rfl
  | cons c cs ih =>
    obtain ⟨hc, hcs⟩ := not_or.mp (List.mem_cons.not.mp h)
    rw [pieces, if_neg (Ne.symm hc), ih hcs]

/-- A text without separators is put behind the last piece. -/
theorem exists_pieces_append {more : List α} (h : sep ∉ more) (path : List α) :
    ∃ front last, pieces sep path = front ++ [last] ∧
      pieces sep (path ++ more) = front ++ [last ++ more] := by
  induction path with
  | nil => exact ⟨[], [], rfl, pieces_of_notMem h⟩
  | cons c cs ih =>
    obtain ⟨front, last, hpath, happend⟩ := ih
    rw [List.cons_append, pieces, pieces]
    by_cases hc : c = sep
    · rw [if_pos hc, if_pos hc, hpath, happend]
      exact ⟨[] :: front, last, rfl, rfl⟩
    · rw [if_neg hc, if_neg hc, hpath, happend]
      cases front with
      | nil => exact ⟨[], c :: last, rfl, rfl⟩
      | cons p ps => exact ⟨(c :: p) :: ps, last, rfl, rfl⟩

/-- A piece has no separators. -/
theorem notMem_of_mem_pieces {path p : List α} (h : p ∈ pieces sep path) : sep ∉ p := by
  induction path generalizing p with
  | nil =>
    rw [pieces, List.mem_singleton] at h
    simp [h]
  | cons c cs ih =>
    by_cases hc : c = sep
    · rw [pieces, if_pos hc, List.mem_cons] at h
      rcases h with rfl | h
      · simp
      · exact ih h
    · obtain ⟨first, ps, hpieces, heq⟩ := pieces_cons_of_ne hc cs
      rw [heq, List.mem_cons] at h
      rcases h with rfl | h
      · exact List.mem_cons.not.mpr (not_or.mpr ⟨Ne.symm hc, ih (by simp [hpieces])⟩)
      · exact ih (by simp [hpieces, h])

/-- The last component of a path that ends with a name. -/
theorem getLast?_components_append {more : List α} (h : sep ∉ more) (hlong : 2 < more.length)
    (path : List α) : ∃ last, (components sep dot (path ++ more)).getLast? =
      some (.normal (last ++ more)) := by
  obtain ⟨front, last, -, happend⟩ := exists_pieces_append h path
  have hname : isName dot (last ++ more) = true := by
    rw [isName, decide_eq_true_iff]
    refine ⟨fun hnil => ?_, fun hdot => ?_⟩
    · have hlength := congrArg List.length hnil
      simp only [List.length_append, List.length_nil] at hlength
      omega
    · have hlength := congrArg List.length hdot
      simp only [List.length_append, List.length_singleton] at hlength
      omega
  have hparent : last ++ more ≠ [dot, dot] := by
    intro hdots
    have hlength := congrArg List.length hdots
    simp only [List.length_append, List.length_cons, List.length_nil] at hlength
    omega
  refine ⟨last, ?_⟩
  rw [components, happend, List.filter_append, List.map_append, ← List.append_assoc]
  simp only [List.filter_cons, hname, if_true, List.filter_nil, List.map_cons, List.map_nil,
    if_neg hparent, List.getLast?_concat]

/-- A text that is one piece is that piece. -/
theorem eq_of_pieces_singleton {path p : List α} (h : pieces sep path = [p]) : path = p := by
  induction path generalizing p with
  | nil =>
    rw [pieces, List.singleton_inj] at h
    exact h
  | cons c cs ih =>
    by_cases hc : c = sep
    · rw [pieces, if_pos hc, List.cons_eq_cons] at h
      exact absurd h.2 (pieces_ne_nil cs)
    · obtain ⟨first, ps, hpieces, heq⟩ := pieces_cons_of_ne hc cs
      rw [heq, List.cons_eq_cons] at h
      obtain ⟨rfl, rfl⟩ := h
      rw [ih hpieces]

/-- The first piece of a relative path that is not empty is not empty. -/
theorem head_pieces_ne_nil {path : List α} (hne : path ≠ []) (hhead : path.head? ≠ some sep) :
    (pieces sep path).head? ≠ some [] := by
  cases path with
  | nil => exact absurd rfl hne
  | cons c cs =>
    have hc : c ≠ sep := fun hc => hhead (by rw [hc, List.head?_cons])
    obtain ⟨first, ps, -, heq⟩ := pieces_cons_of_ne hc cs
    rw [heq]
    simp

/-- **Safe paths by their pieces.** -/
theorem isSafe_iff {path : List α} : isSafe sep dot path = true ↔
    path.head? ≠ some sep ∧ (pieces sep path).head? ≠ some [dot] ∧
      [dot, dot] ∉ pieces sep path := by
  rw [isSafe, decide_eq_true_iff, components]
  refine and_congr_right fun hhead => ?_
  rw [if_neg hhead, List.all_append, Bool.and_eq_true]
  refine and_congr ?_ ?_
  · split
    · next h => simp [h, Component.isNormal]
    · next h => simp [h]
  · rw [List.all_map, List.all_eq_true]
    constructor
    · intro h hmem
      have hdots := h [dot, dot] (List.mem_filter.mpr ⟨hmem, by simp [isName]⟩)
      simp [Component.isNormal] at hdots
    · intro h p hp
      have hne : p ≠ [dot, dot] := fun heq => h (heq ▸ (List.mem_filter.mp hp).1)
      simp [hne, Component.isNormal]

/-- **A safe path of one name that does not end like a directory is that name.** -/
theorem eq_of_names_singleton {path name : List α} (hsafe : isSafe sep dot path = true)
    (hnames : names sep dot path = [name]) (hfile : namesDirectory sep dot path = false) :
    path = name := by
  obtain ⟨hhead, hdot, -⟩ := isSafe_iff.mp hsafe
  have hne : path ≠ [] := by
    rintro rfl
    simp [names, pieces, isName] at hnames
  have hnil := head_pieces_ne_nil hne hhead
  obtain ⟨first, rest, hpieces⟩ :=
    List.exists_cons_of_ne_nil (pieces_ne_nil path : pieces sep path ≠ [])
  rw [hpieces, List.head?_cons, Ne, Option.some.injEq] at hdot hnil
  rw [names, hpieces, List.filter_cons_of_pos (by simp [isName, hnil, hdot]),
    List.cons_eq_cons, List.filter_eq_nil_iff] at hnames
  obtain ⟨rfl, hrest⟩ := hnames
  cases hlast : rest.getLast? with
  | none =>
    rw [List.getLast?_eq_none_iff.mp hlast] at hpieces
    exact eq_of_pieces_singleton hpieces
  | some p =>
    have hdropped := hrest p (List.mem_of_getLast? hlast)
    rw [namesDirectory, hpieces, List.getLast?_cons, hlast] at hfile
    simp only [Option.getD_some, Option.all_some, Bool.not_eq_false'] at hfile
    exact absurd hfile hdropped

/-- A safe path that is not empty has a name. -/
theorem names_ne_nil {path : List α} (hsafe : isSafe sep dot path = true) (hne : path ≠ []) :
    names sep dot path ≠ [] := by
  obtain ⟨hhead, hdot, -⟩ := isSafe_iff.mp hsafe
  have hnil := head_pieces_ne_nil hne hhead
  obtain ⟨first, rest, hpieces⟩ :=
    List.exists_cons_of_ne_nil (pieces_ne_nil path : pieces sep path ≠ [])
  rw [hpieces, List.head?_cons, Ne, Option.some.injEq] at hdot hnil
  rw [names, hpieces, List.filter_cons_of_pos (by simp [isName, hnil, hdot])]
  exact List.cons_ne_nil _ _

/-- A text without separators that is a name has that name alone, and does not end like a
directory. -/
theorem names_of_notMem {path : List α} (hsep : sep ∉ path) (hname : isName dot path = true) :
    names sep dot path = [path] ∧ namesDirectory sep dot path = false := by
  rw [names, namesDirectory, pieces_of_notMem hsep]
  simp [hname]

/-- The names in a path have no separators, and are not dropped. -/
theorem of_mem_names {path name : List α} (h : name ∈ names sep dot path) :
    sep ∉ name ∧ isName dot name = true := by
  obtain ⟨hmem, hname⟩ := List.mem_filter.mp h
  exact ⟨notMem_of_mem_pieces hmem, hname⟩

end PathText
