import SorobanDevkit.Core.Lock
import SorobanDevkit.Library.MarkedRecords
import SorobanDevkit.Library.Utf8Lossy

/-!
# The integrity of a local dependency

`compute_dependency_integrity` of `sdkt-core/src/lock.rs` walks the directory of a local dependency,
sorts the paths of its files, and hashes the paths and contents with a zero byte behind each. A path
is written as text, and a content may have zero bytes, too. Every file can be read.

## Main results

* `integrityInput_congr` — the order of the walk makes no difference.
* `exists_pathText_eq_iff` — which paths are written as another one is.
* `identifies_iff` — which directories are told from all others.
-/

namespace SorobanDevkit.Core

open MarkedRecords

/-! ### Directories -/

/-- A file, or a directory with its entries in the order in which they are listed. -/
inductive Node
  | file (content : List UInt8)
  | dir (entries : List (List UInt8 × Node))

/-- The name of an entry: not empty, without zero bytes and slashes, and no dots of the walk. -/
def IsName (name : List UInt8) : Prop :=
  name ≠ [] ∧ 0 ∉ name ∧ 47 ∉ name ∧ name ≠ [46] ∧ name ≠ [46, 46]

instance (name : List UInt8) : Decidable (IsName name) := by
  unfold IsName
  infer_instance

mutual

/-- The entries of all directories in a node have names that differ. -/
def Node.WellFormed : Node → Prop
  | .file _ => True
  | .dir entries => EntriesWellFormed entries

/-- Entries with names that differ. -/
def EntriesWellFormed : List (List UInt8 × Node) → Prop
  | [] => True
  | (name, node) :: entries =>
    IsName name ∧ name ∉ entries.map Prod.fst ∧ node.WellFormed ∧ EntriesWellFormed entries

end

/-- The directory of a dependency. -/
structure Directory where
  entries : List (List UInt8 × Node)
  wellFormed : EntriesWellFormed entries

/-- The names that lead from a directory to a file. -/
abbrev RelativePath := List (List UInt8)

/-- `collect`: the files below a directory, with their paths from it. -/
def collect : List (List UInt8 × Node) → List (RelativePath × List UInt8)
  | [] => []
  | (name, .file content) :: entries => ([name], content) :: collect entries
  | (name, .dir inner) :: entries =>
    (collect inner).map (fun f => (name :: f.1, f.2)) ++ collect entries

/-- The bytes of the text of a path. -/
def pathText (path : RelativePath) : List UInt8 :=
  Utf8Lossy.encode (String.ofList (Utf8Lossy.decode (List.intercalate [47] path)))

/-- The files in the order of their paths, which are compared name by name. -/
def sortedFiles (d : Directory) : List (RelativePath × List UInt8) :=
  (collect d.entries).mergeSort fun f g => (compare f.1 g.1).isLE

/-- What is hashed for the integrity of a local dependency. -/
def integrityInput (d : Directory) : List UInt8 :=
  write 0 ((sortedFiles d).map fun f => (pathText f.1, f.2))

/-- The directories have the same files. -/
def SameFiles (d d' : Directory) : Prop := ∀ f, f ∈ collect d.entries ↔ f ∈ collect d'.entries

/-- The same is hashed for a directory in whatever order it is listed, and for no other one. -/
structure Identifies (d : Directory) : Prop where
  orderFree : ∀ d', SameFiles d' d → integrityInput d' = integrityInput d
  injective : ∀ d', integrityInput d' = integrityInput d → SameFiles d' d

/-- The names of a path. -/
def IsPath (path : RelativePath) : Prop := path ≠ [] ∧ ∀ name ∈ path, IsName name

/-- The names are in UTF-8, and U+FFFD is in none of them. -/
def Plain (path : RelativePath) : Prop :=
  ∀ name ∈ path, Utf8Lossy.replacement ∉ Utf8Lossy.decode name

/-- The content has in it, between zero bytes, the text of a path that is after the path of its
file. -/
def Hides (path : RelativePath) (content : List UInt8) : Prop :=
  ∃ x q y, content = x ++ 0 :: (pathText q ++ 0 :: y) ∧ IsPath q ∧ compare path q = .lt ∧
    ¬ path <+: q

/-! ### The walk -/

theorem isPath_cons {name : List UInt8} {path : RelativePath} (hname : IsName name)
    (hpath : IsPath path) : IsPath (name :: path) :=
  ⟨List.cons_ne_nil _ _, List.forall_mem_cons.mpr ⟨hname, hpath.2⟩⟩

theorem isPath_singleton {name : List UInt8} (hname : IsName name) : IsPath [name] :=
  ⟨List.cons_ne_nil _ _, List.forall_mem_singleton.mpr hname⟩

/-- The paths of the files of a directory start with the names of its entries. -/
theorem collect_paths (entries : List (List UInt8 × Node)) (h : EntriesWellFormed entries) :
    ∀ f ∈ collect entries, IsPath f.1 ∧ ∃ name ∈ entries.map Prod.fst, f.1.head? = some name := by
  induction entries using collect.induct with
  | case1 =>
    intro f hf
    rw [collect] at hf
    cases hf
  | case2 name content entries ih =>
    obtain ⟨hname, -, -, h⟩ := h
    intro f hf
    rw [collect] at hf
    obtain rfl | hf := List.mem_cons.mp hf
    · exact ⟨isPath_singleton hname, name, List.mem_cons_self, rfl⟩
    · obtain ⟨hpath, first, hfirst, hhead⟩ := ih h f hf
      exact ⟨hpath, first, List.mem_cons_of_mem _ hfirst, hhead⟩
  | case3 name inner entries ihinner ih =>
    obtain ⟨hname, -, hinner, h⟩ := h
    intro f hf
    rw [collect] at hf
    obtain hf | hf := List.mem_append.mp hf
    · obtain ⟨g, hg, rfl⟩ := List.mem_map.mp hf
      exact ⟨isPath_cons hname (ihinner hinner g hg).1, name, List.mem_cons_self, rfl⟩
    · obtain ⟨hpath, first, hfirst, hhead⟩ := ih h f hf
      exact ⟨hpath, first, List.mem_cons_of_mem _ hfirst, hhead⟩

/-- Neither path leads through the other. -/
def Apart (f g : RelativePath × List UInt8) : Prop := ¬ f.1 <+: g.1 ∧ ¬ g.1 <+: f.1

theorem apart_of_head {f g : RelativePath × List UInt8} (name : List UInt8)
    (hf : f.1.head? = some name) (hg : g.1.head? ≠ some name) (hne : g.1 ≠ []) : Apart f g := by
  obtain ⟨first, rest, hpath⟩ := List.exists_cons_of_ne_nil hne
  obtain ⟨first', rest', hpath'⟩ := List.exists_cons_of_ne_nil
    (l := f.1) (by rintro hnil; rw [hnil] at hf; cases hf)
  rw [hpath'] at hf
  rw [hpath] at hg
  obtain rfl := Option.some.inj hf
  rw [Apart, hpath, hpath', List.cons_prefix_cons, List.cons_prefix_cons]
  exact ⟨fun h => hg (by rw [h.1]; rfl), fun h => hg (by rw [h.1]; rfl)⟩

/-- No file of a directory is below another. -/
theorem collect_apart (entries : List (List UInt8 × Node)) (h : EntriesWellFormed entries) :
    (collect entries).Pairwise Apart := by
  induction entries using collect.induct with
  | case1 =>
    rw [collect]
    exact List.Pairwise.nil
  | case2 name content entries ih =>
    obtain ⟨-, hnotMem, -, h⟩ := h
    rw [collect, List.pairwise_cons]
    refine ⟨fun g hg => ?_, ih h⟩
    obtain ⟨hpath, first, hfirst, hhead⟩ := collect_paths entries h g hg
    refine apart_of_head name rfl ?_ hpath.1
    rw [hhead]
    rintro heq
    exact hnotMem (Option.some.inj heq ▸ hfirst)
  | case3 name inner entries ihinner ih =>
    obtain ⟨-, hnotMem, hinner, h⟩ := h
    rw [collect, List.pairwise_append, List.pairwise_map]
    refine ⟨(ihinner hinner).imp fun hapart => ?_, ih h, fun f hf g hg => ?_⟩
    · rw [Apart, List.cons_prefix_cons, List.cons_prefix_cons]
      exact ⟨fun hpre => hapart.1 hpre.2, fun hpre => hapart.2 hpre.2⟩
    · obtain ⟨f', -, rfl⟩ := List.mem_map.mp hf
      obtain ⟨hpath, first, hfirst, hhead⟩ := collect_paths entries h g hg
      refine apart_of_head name rfl ?_ hpath.1
      rw [hhead]
      rintro heq
      exact hnotMem (Option.some.inj heq ▸ hfirst)

/-! ### The order of the files -/

section Order

variable (d : Directory)

theorem sortedFiles_perm : (sortedFiles d).Perm (collect d.entries) := List.mergeSort_perm _ _

theorem mem_sortedFiles {f : RelativePath × List UInt8} :
    f ∈ sortedFiles d ↔ f ∈ collect d.entries := (sortedFiles_perm d).mem_iff

theorem isPath_of_mem {f : RelativePath × List UInt8} (hf : f ∈ sortedFiles d) : IsPath f.1 :=
  (collect_paths d.entries d.wellFormed f ((mem_sortedFiles d).mp hf)).1

theorem sortedFiles_apart : (sortedFiles d).Pairwise Apart :=
  ((sortedFiles_perm d).pairwise_iff fun {_ _} h => ⟨h.2, h.1⟩).mpr
    (collect_apart d.entries d.wellFormed)

/-- A path is not before one that it leads through. -/
theorem not_lt_of_prefix {q path : RelativePath} (h : q <+: path) : compare path q ≠ .lt := by
  obtain ⟨rest, rfl⟩ := h
  induction q with
  | nil => cases rest <;> exact fun h => by cases h
  | cons name q ih =>
    have hname : compare name name = .eq := Std.ReflCmp.compare_self
    rw [List.cons_append, List.compare_cons_cons, hname]
    exact ih

/-- The files are in strict order. -/
theorem sortedFiles_lt : (sortedFiles d).Pairwise fun f g => compare f.1 g.1 = .lt := by
  have hsorted : (sortedFiles d).Pairwise fun f g => (compare f.1 g.1).isLE = true :=
    List.pairwise_mergeSort (fun _ _ _ => Std.TransCmp.isLE_trans)
      (fun a b => by
        cases h : compare a.1 b.1 with
        | gt =>
          rw [Std.OrientedCmp.gt_iff_lt] at h
          rw [h]
          rfl
        | _ => rfl) _
  refine (hsorted.and (sortedFiles_apart d)).imp fun {f g} h => ?_
  cases hcompare : compare f.1 g.1 with
  | lt => rfl
  | eq =>
    have heq : f.1 = g.1 := Std.LawfulEqOrd.eq_of_compare hcompare
    exact absurd (heq ▸ List.prefix_refl f.1) h.2.1
  | gt =>
    rw [hcompare] at h
    cases h.1

theorem collect_nodup : (collect d.entries).Nodup :=
  (collect_apart d.entries d.wellFormed).imp fun {f g} h (heq : f = g) =>
    h.1 (heq ▸ List.prefix_refl f.1)

/-- **The order of the walk makes no difference** to the sorted files. -/
theorem sortedFiles_eq_iff {d d' : Directory} :
    sortedFiles d' = sortedFiles d ↔ SameFiles d' d := by
  constructor
  · intro h f
    rw [← mem_sortedFiles, h, mem_sortedFiles]
  · intro h
    have hperm : (collect d'.entries).Perm (collect d.entries) :=
      (List.perm_ext_iff_of_nodup (collect_nodup d') (collect_nodup d)).mpr h
    refine List.Perm.eq_of_pairwise (fun f g _ _ hlt hgt => ?_) (sortedFiles_lt d')
      (sortedFiles_lt d)
      ((sortedFiles_perm d').trans (hperm.trans (sortedFiles_perm d).symm))
    rw [← Std.OrientedCmp.gt_iff_lt, hlt] at hgt
    cases hgt

end Order

/-- The same is hashed in whatever order a directory is listed. -/
theorem integrityInput_congr {d d' : Directory} (h : SameFiles d' d) :
    integrityInput d' = integrityInput d := by
  rw [integrityInput, sortedFiles_eq_iff.mpr h, integrityInput]

/-! ### Texts of paths -/

/-- The bytes of a path are those of its names, and the separators. -/
theorem mem_intercalate {path : RelativePath} {b : UInt8} (h : b ∈ List.intercalate [47] path) :
    b = 47 ∨ ∃ name ∈ path, b ∈ name := by
  induction path with
  | nil => cases h
  | cons name path ih =>
    cases path with
    | nil =>
      rw [List.intercalate_singleton] at h
      exact .inr ⟨name, List.mem_cons_self, h⟩
    | cons next path =>
      rw [List.intercalate_cons_of_ne_nil (List.cons_ne_nil _ _), List.mem_append,
        List.mem_append] at h
      obtain (h | h) | h := h
      · exact .inr ⟨name, List.mem_cons_self, h⟩
      · exact .inl (List.mem_singleton.mp h)
      · obtain h | ⟨name', hname', h⟩ := ih h
        · exact .inl h
        · exact .inr ⟨name', List.mem_cons_of_mem _ hname', h⟩

/-- A byte of ASCII is read as its character. -/
theorem mem_decode_of_mem {bytes : List UInt8} {c : UInt8} (hc : c.toNat < 0x80) (h : c ∈ bytes) :
    Char.ofNat c.toNat ∈ Utf8Lossy.decode bytes := by
  obtain ⟨before, after, rfl, -⟩ := List.eq_append_cons_of_mem h
  rw [Utf8Lossy.decode_append_cons hc]
  exact List.mem_append_right _ List.mem_cons_self

theorem decode_pathText (path : RelativePath) :
    Utf8Lossy.decode (pathText path) = Utf8Lossy.decode (List.intercalate [47] path) := by
  rw [pathText, Utf8Lossy.decode_encode, String.toList_ofList]

/-- Names without zero bytes are written without them. -/
theorem zero_notMem_pathText {path : RelativePath} (h : IsPath path) :
    (0 : UInt8) ∉ pathText path := by
  intro hmem
  have hchar := mem_decode_of_mem (by decide) hmem
  rw [decode_pathText] at hchar
  have hzero : (0 : UInt8) ∈ List.intercalate [47] path :=
    Utf8Lossy.mem_of_mem_decode (by decide) (by decide) hchar
  obtain hsep | ⟨name, hname, hmem⟩ := mem_intercalate hzero
  · exact absurd hsep (by decide)
  · exact (h.2 name hname).2.1 hmem

/-- The names of a path are decoded one by one. -/
theorem decode_intercalate (path : RelativePath) : Utf8Lossy.decode (List.intercalate [47] path) =
    List.intercalate ['/'] (path.map Utf8Lossy.decode) := by
  induction path with
  | nil => rfl
  | cons name path ih =>
    cases path with
    | nil => rw [List.intercalate_singleton, List.map_singleton, List.intercalate_singleton]
    | cons next path =>
      have hne : next :: path ≠ [] := List.cons_ne_nil _ _
      have hne' : (next :: path).map Utf8Lossy.decode ≠ [] := List.cons_ne_nil _ _
      rw [List.map_cons, List.intercalate_cons_of_ne_nil hne, List.intercalate_cons_of_ne_nil hne',
        ← ih, List.append_assoc, List.append_assoc, List.singleton_append, List.singleton_append,
        Utf8Lossy.decode_append_cons (by decide)]
      rfl

theorem slash_notMem_decode {name : List UInt8} (h : IsName name) :
    '/' ∉ Utf8Lossy.decode name := fun hmem =>
  h.2.2.1 (Utf8Lossy.mem_of_mem_decode (by decide) (by decide) hmem)

/-- **Paths are written as the same text exactly if their names are decoded to the same ones.** -/
theorem pathText_eq_iff {path path' : RelativePath} (h : IsPath path) (h' : IsPath path') :
    pathText path' = pathText path ↔
      path'.map Utf8Lossy.decode = path.map Utf8Lossy.decode := by
  constructor
  · intro heq
    have hdecode := congrArg Utf8Lossy.decode heq
    rw [decode_pathText, decode_pathText, decode_intercalate, decode_intercalate] at hdecode
    have hsplit : ∀ p, IsPath p → (List.intercalate ['/'] (p.map Utf8Lossy.decode)).splitOn '/' =
        p.map Utf8Lossy.decode := by
      intro p hp
      refine List.splitOn_intercalate '/' (fun text htext => ?_) (by simpa using hp.1)
      obtain ⟨name, hname, rfl⟩ := List.mem_map.mp htext
      exact slash_notMem_decode (hp.2 name hname)
    rw [← hsplit path' h', hdecode, hsplit path h]
  · intro heq
    rw [pathText, decode_intercalate, heq, ← decode_intercalate, pathText]

theorem decode_inj {bytes bytes' : List UInt8}
    (h : Utf8Lossy.replacement ∉ Utf8Lossy.decode bytes)
    (heq : Utf8Lossy.decode bytes' = Utf8Lossy.decode bytes) : bytes' = bytes := by
  have h' := h
  rw [← heq] at h'
  rw [← Utf8Lossy.encode_decode h', heq, Utf8Lossy.encode_decode h]

theorem map_decode_inj {path path' : RelativePath} (h : Plain path)
    (heq : path'.map Utf8Lossy.decode = path.map Utf8Lossy.decode) : path' = path := by
  induction path generalizing path' with
  | nil => exact List.map_eq_nil_iff.mp heq
  | cons name path ih =>
    obtain ⟨hname, h⟩ := List.forall_mem_cons.mp h
    cases path' with
    | nil => exact absurd heq.symm (List.cons_ne_nil _ _)
    | cons name' path' =>
      obtain ⟨hhead, htail⟩ := List.cons.inj heq
      rw [decode_inj hname hhead, ih h htail]

/-- What is decoded as a name with a replacement is a name. -/
theorem isName_of_decode {name name' : List UInt8} (h : IsName name)
    (hreplaced : Utf8Lossy.replacement ∈ Utf8Lossy.decode name)
    (heq : Utf8Lossy.decode name' = Utf8Lossy.decode name) : IsName name' := by
  have hne : ∀ bytes, Utf8Lossy.replacement ∉ Utf8Lossy.decode bytes → name' ≠ bytes := by
    rintro bytes hbytes rfl
    exact hbytes (heq ▸ hreplaced)
  have hnotMem : ∀ c : UInt8, c.toNat < 0x80 → String.utf8EncodeChar (Char.ofNat c.toNat) = [c] →
      Char.ofNat c.toNat ≠ Utf8Lossy.replacement → c ∉ name → c ∉ name' :=
    fun c hc hencode hchar hname hmem =>
      hname (Utf8Lossy.mem_of_mem_decode hchar hencode (heq ▸ mem_decode_of_mem hc hmem))
  exact ⟨hne [] (by decide), hnotMem 0 (by decide) (by decide) (by decide) h.2.1,
    hnotMem 47 (by decide) (by decide) (by decide) h.2.2.1, hne [46] (by decide),
    hne [46, 46] (by decide)⟩

/-- **A path is written as another one is exactly if it is not plain.** -/
theorem exists_pathText_eq_iff {path : RelativePath} (h : IsPath path) :
    (∃ q, IsPath q ∧ q ≠ path ∧ pathText q = pathText path) ↔ ¬ Plain path := by
  constructor
  · rintro ⟨q, hq, hne, htext⟩ hplain
    exact hne (map_decode_inj hplain ((pathText_eq_iff h hq).mp htext))
  · intro hplain
    obtain ⟨name, hname, hreplaced⟩ : ∃ name ∈ path,
        Utf8Lossy.replacement ∈ Utf8Lossy.decode name := by
      simpa [Plain] using hplain
    obtain ⟨before, after, rfl, -⟩ := List.eq_append_cons_of_mem hname
    obtain ⟨name', hne, hdecode, -⟩ := Utf8Lossy.exists_decode_eq hreplaced
    have hname' := isName_of_decode (h.2 name hname) hreplaced hdecode
    have hq : IsPath (before ++ name' :: after) := by
      refine ⟨by simp, fun other hother => ?_⟩
      obtain hother | hother := List.mem_append.mp hother
      · exact h.2 other (List.mem_append_left _ hother)
      · obtain rfl | hother := List.mem_cons.mp hother
        · exact hname'
        · exact h.2 other (List.mem_append_right _ (List.mem_cons_of_mem _ hother))
    refine ⟨before ++ name' :: after, hq, fun heq => ?_, ?_⟩
    · exact hne (List.cons.inj (List.append_cancel_left heq)).1
    · rw [pathText_eq_iff h hq, List.map_append, List.map_append, List.map_cons, List.map_cons,
        hdecode]

/-! ### Directories with one file or two -/

/-- The entries that lead to a file. -/
def nest : RelativePath → List UInt8 → List (List UInt8 × Node)
  | [], _ => []
  | [name], content => [(name, .file content)]
  | name :: next :: path, content => [(name, .dir (nest (next :: path) content))]

theorem collect_nest {path : RelativePath} (h : path ≠ []) (content : List UInt8) :
    collect (nest path content) = [(path, content)] := by
  induction path with
  | nil => exact absurd rfl h
  | cons name path ih =>
    cases path with
    | nil => rw [nest, collect, collect]
    | cons next path =>
      rw [nest, collect, collect, ih (List.cons_ne_nil _ _)]
      rfl

theorem map_fst_nest (path : RelativePath) (content : List UInt8) :
    (nest path content).map Prod.fst = path.head?.toList := by
  cases path with
  | nil => rfl
  | cons name path => cases path <;> rfl

theorem wellFormed_nest {path : RelativePath} (h : IsPath path) (content : List UInt8) :
    EntriesWellFormed (nest path content) := by
  obtain ⟨-, hnames⟩ := h
  induction path with
  | nil => trivial
  | cons name path ih =>
    obtain ⟨hname, hnames⟩ := List.forall_mem_cons.mp hnames
    cases path with
    | nil => exact ⟨hname, List.not_mem_nil, trivial, trivial⟩
    | cons next path => exact ⟨hname, List.not_mem_nil, ih hnames, trivial⟩

/-- The entries that lead to two files. -/
def fork : RelativePath → List UInt8 → RelativePath → List UInt8 → List (List UInt8 × Node)
  | name :: path, content, name' :: path', content' =>
    if name = name' then [(name, .dir (fork path content path' content'))]
    else nest (name :: path) content ++ nest (name' :: path') content'
  | _, _, _, _ => []

theorem collect_append (entries entries' : List (List UInt8 × Node)) :
    collect (entries ++ entries') = collect entries ++ collect entries' := by
  induction entries using collect.induct with
  | case1 => rw [List.nil_append, collect, List.nil_append]
  | case2 name content entries ih => rw [List.cons_append, collect, collect, ih, List.cons_append]
  | case3 name inner entries ihinner ih =>
    rw [List.cons_append, collect, collect, ih, List.append_assoc]

theorem collect_fork {path path' : RelativePath} (h : ¬ path <+: path') (h' : ¬ path' <+: path)
    (content content' : List UInt8) :
    collect (fork path content path' content') = [(path, content), (path', content')] := by
  induction path generalizing path' with
  | nil => exact absurd List.nil_prefix h
  | cons name path ih =>
    cases path' with
    | nil => exact absurd List.nil_prefix h'
    | cons name' path' =>
      rw [fork]
      by_cases hname : name = name'
      · obtain rfl := hname
        rw [List.cons_prefix_cons] at h h'
        rw [if_pos rfl, collect, collect, ih (fun hpre => h ⟨rfl, hpre⟩) fun hpre => h' ⟨rfl, hpre⟩]
        rfl
      · rw [if_neg hname, collect_append, collect_nest (List.cons_ne_nil _ _),
          collect_nest (List.cons_ne_nil _ _)]
        rfl

theorem wellFormed_append {entries entries' : List (List UInt8 × Node)}
    (h : EntriesWellFormed entries) (h' : EntriesWellFormed entries')
    (hdisjoint : ∀ name ∈ entries.map Prod.fst, name ∉ entries'.map Prod.fst) :
    EntriesWellFormed (entries ++ entries') := by
  induction entries with
  | nil => exact h'
  | cons e entries ih =>
    obtain ⟨hname, hnotMem, hnode, h⟩ := h
    rw [List.map_cons, List.forall_mem_cons] at hdisjoint
    have hnotMem' : e.1 ∉ (entries ++ entries').map Prod.fst := by
      rw [List.map_append, List.mem_append]
      exact not_or_intro hnotMem hdisjoint.1
    exact ⟨hname, hnotMem', hnode, ih h hdisjoint.2⟩

theorem wellFormed_fork {path path' : RelativePath} (h : ∀ name ∈ path, IsName name)
    (h' : ∀ name ∈ path', IsName name) (content content' : List UInt8) :
    EntriesWellFormed (fork path content path' content') := by
  induction path generalizing path' with
  | nil => trivial
  | cons name path ih =>
    cases path' with
    | nil => trivial
    | cons name' path' =>
      rw [fork]
      obtain ⟨hname, hnames⟩ := List.forall_mem_cons.mp h
      by_cases heq : name = name'
      · rw [if_pos heq]
        exact ⟨hname, List.not_mem_nil, ih hnames (List.forall_mem_cons.mp h').2, trivial⟩
      · rw [if_neg heq]
        refine wellFormed_append (wellFormed_nest ⟨List.cons_ne_nil _ _, h⟩ content)
          (wellFormed_nest ⟨List.cons_ne_nil _ _, h'⟩ content') fun first hfirst hmem => ?_
        rw [map_fst_nest] at hfirst hmem
        exact heq (by rw [← List.mem_singleton.mp hfirst, List.mem_singleton.mp hmem])

/-- The directory with one file. -/
def single (path : RelativePath) (h : IsPath path) (content : List UInt8) : Directory :=
  ⟨nest path content, wellFormed_nest h content⟩

theorem sortedFiles_eq_singleton {d : Directory} {f : RelativePath × List UInt8}
    (h : collect d.entries = [f]) : sortedFiles d = [f] :=
  List.perm_singleton.mp (h ▸ sortedFiles_perm d)

theorem integrityInput_single (path : RelativePath) (h : IsPath path) (content : List UInt8) :
    integrityInput (single path h content) = write 0 [(pathText path, content)] := by
  rw [integrityInput, sortedFiles_eq_singleton (collect_nest h.1 content)]
  rfl

/-! ### What is hashed -/

/-- What is written for the files of a directory. -/
def records (d : Directory) : List (List UInt8 × List UInt8) :=
  (sortedFiles d).map fun f => (pathText f.1, f.2)

theorem zero_notMem_records (d : Directory) : ∀ r ∈ records d, (0 : UInt8) ∉ r.1 := by
  intro r hr
  obtain ⟨f, hf, rfl⟩ := List.mem_map.mp hr
  exact zero_notMem_pathText (isPath_of_mem d hf)

/-- Two files or more are hashed as one. -/
theorem exists_single_of_two {d : Directory} {f g : RelativePath × List UInt8}
    {fs : List (RelativePath × List UInt8)} (h : sortedFiles d = f :: g :: fs) :
    ∃ d', integrityInput d' = integrityInput d ∧ ¬ SameFiles d' d := by
  have hf : IsPath f.1 := isPath_of_mem d (h ▸ List.mem_cons_self)
  obtain ⟨content, hcontent⟩ : ∃ content, write 0 ((pathText f.1, f.2) :: (pathText g.1, g.2) ::
      fs.map fun f => (pathText f.1, f.2)) = write 0 [(pathText f.1, content)] :=
    write_cons_cons _ _ _
  refine ⟨single f.1 hf content, ?_, fun hsame => ?_⟩
  · rw [integrityInput_single, integrityInput, h]
    exact hcontent.symm
  · have hsorted := sortedFiles_eq_iff.mpr hsame
    rw [h, sortedFiles_eq_singleton (collect_nest hf.1 content)] at hsorted
    exact absurd (List.cons.inj hsorted).2.symm (List.cons_ne_nil _ _)

/-- Which other directories are hashed as a directory with one file. -/
theorem exists_of_single_iff {d : Directory} {path : RelativePath} {content : List UInt8}
    (h : collect d.entries = [(path, content)]) :
    (∃ d', integrityInput d' = integrityInput d ∧ ¬ SameFiles d' d) ↔
      ¬ Plain path ∨ Hides path content := by
  have hsorted := sortedFiles_eq_singleton h
  have hpath : IsPath path := isPath_of_mem d (hsorted ▸ List.mem_cons_self)
  have hinput : integrityInput d = write 0 [(pathText path, content)] := by
    rw [integrityInput, hsorted]
    rfl
  constructor
  · rintro ⟨d', heq, hsame⟩
    by_contra hnot
    obtain ⟨hplain, hhides⟩ := not_or.mp hnot
    have hplain := not_not.mp hplain
    have hrecords : write 0 (records d') = write 0 [(pathText path, content)] := heq.trans hinput
    rw [write_eq_write_singleton_iff (zero_notMem_pathText hpath)
      (zero_notMem_records d')] at hrecords
    have hfirst : ∀ f ∈ sortedFiles d', pathText f.1 = pathText path → f.1 = path :=
      fun f hf htext => map_decode_inj hplain
        ((pathText_eq_iff hpath (isPath_of_mem d' hf)).mp htext)
    obtain hone | ⟨x, q, y, init, rest, hmore, -, hcontent⟩ := hrecords
    · obtain ⟨f, hfiles, hf⟩ := List.map_eq_singleton_iff.mp hone
      obtain ⟨htext, hf⟩ := Prod.mk.inj hf
      have hf' := hfirst f (hfiles ▸ List.mem_cons_self) htext
      refine hsame (sortedFiles_eq_iff.mp ?_)
      have heq : f = (path, content) := Prod.ext hf' hf
      rw [hfiles, hsorted, heq]
    · obtain ⟨f, fs, hfiles, hf, hrest⟩ := List.map_eq_cons_iff.mp hmore
      obtain ⟨g, gs, rfl, hg, -⟩ := List.map_eq_cons_iff.mp hrest
      obtain ⟨htext, -⟩ := Prod.mk.inj hf
      obtain ⟨rfl, -⟩ := Prod.mk.inj hg
      have hf' := hfirst f (hfiles ▸ List.mem_cons_self) htext
      have hlt := sortedFiles_lt d'
      have hapart := sortedFiles_apart d'
      rw [hfiles, List.pairwise_cons] at hlt hapart
      refine hhides ⟨x, g.1, init, hcontent, isPath_of_mem d' ?_, ?_, ?_⟩
      · rw [hfiles]
        exact List.mem_cons_of_mem _ List.mem_cons_self
      · rw [← hf']
        exact hlt.1 g List.mem_cons_self
      · rw [← hf']
        exact (hapart.1 g List.mem_cons_self).1
  · rintro (hplain | ⟨x, q, y, rfl, hq, hlt, hpre⟩)
    · obtain ⟨q, hq, hne, htext⟩ := (exists_pathText_eq_iff hpath).mpr hplain
      refine ⟨single q hq content, ?_, fun hsame => ?_⟩
      · rw [integrityInput_single, hinput, htext]
      · have heq := sortedFiles_eq_iff.mpr hsame
        rw [hsorted, sortedFiles_eq_singleton (collect_nest hq.1 content)] at heq
        exact hne (Prod.mk.inj (List.cons.inj heq).1).1
    · have hpre' : ¬ q <+: path := fun hpre' => not_lt_of_prefix hpre' hlt
      let d' : Directory := ⟨fork path x q y, wellFormed_fork hpath.2 hq.2 x y⟩
      have hfiles : collect d'.entries = [(path, x), (q, y)] := collect_fork hpre hpre' x y
      have hsorted' : sortedFiles d' = [(path, x), (q, y)] := by
        rw [sortedFiles, hfiles]
        exact List.mergeSort_of_pairwise (by simp [hlt])
      refine ⟨d', ?_, fun hsame => ?_⟩
      · rw [hinput, integrityInput, hsorted']
        simp [write]
      · have heq := sortedFiles_eq_iff.mpr hsame
        rw [hsorted', hsorted] at heq
        exact absurd (List.cons.inj heq).2 (List.cons_ne_nil _ _)

/-- **Directories without files, and those with one file that has a plain path and hides none, are
told from all others**, and no other ones are. -/
theorem identifies_iff (d : Directory) : Identifies d ↔
    collect d.entries = [] ∨ ∃ path content, collect d.entries = [(path, content)] ∧
      Plain path ∧ ¬ Hides path content := by
  constructor
  · intro h
    have hnone : ¬ ∃ d', integrityInput d' = integrityInput d ∧ ¬ SameFiles d' d :=
      fun ⟨d', heq, hsame⟩ => hsame (h.injective d' heq)
    cases hfiles : sortedFiles d with
    | nil =>
      left
      exact List.perm_nil.mp (hfiles ▸ (sortedFiles_perm d).symm)
    | cons f fs =>
      cases fs with
      | nil =>
        right
        have hcollect : collect d.entries = [f] :=
          List.perm_singleton.mp (hfiles ▸ (sortedFiles_perm d).symm)
        rw [exists_of_single_iff hcollect, not_or, not_not] at hnone
        exact ⟨f.1, f.2, hcollect, hnone⟩
      | cons g fs => exact absurd (exists_single_of_two hfiles) hnone
  · intro h
    refine ⟨fun d' hsame => integrityInput_congr hsame, fun d' heq => ?_⟩
    obtain hempty | ⟨path, content, hcollect, hplain, hhides⟩ := h
    · have hsorted : sortedFiles d = [] := List.perm_nil.mp (hempty ▸ sortedFiles_perm d)
      rw [integrityInput, integrityInput, hsorted] at heq
      have hnil := write_eq_nil_iff.mp heq
      rw [List.map_eq_nil_iff] at hnil
      exact sortedFiles_eq_iff.mp (hnil.trans hsorted.symm)
    · by_contra hsame
      have hor := (exists_of_single_iff hcollect).mp ⟨d', heq, hsame⟩
      exact hor.elim (fun hnot => hnot hplain) hhides

/-- A file with zero bytes in it. -/
def oneFile : Directory where
  entries := [([97], .file [120, 0, 98, 0, 121])]
  wellFormed := wellFormed_nest (isPath_singleton (by decide)) [120, 0, 98, 0, 121]

/-- Two files, with the bytes between the zero bytes. -/
def twoFiles : Directory where
  entries := [([97], .file [120]), ([98], .file [121])]
  wellFormed := wellFormed_append (wellFormed_nest (isPath_singleton (by decide)) [120])
    (wellFormed_nest (isPath_singleton (by decide)) [121]) (by decide)

/-- The bytes of one file are moved to the name and the content of another. -/
theorem not_injective_twoFiles :
    ¬ ∀ d d' : Directory, integrityInput d' = integrityInput d → SameFiles d' d := by
  intro h
  have hone : sortedFiles oneFile = [([[97]], [120, 0, 98, 0, 121])] :=
    sortedFiles_eq_singleton (by simp [oneFile, collect])
  have hfiles : collect twoFiles.entries = [([[97]], [120]), ([[98]], [121])] := by
    simp [twoFiles, collect]
  have htwo : sortedFiles twoFiles = [([[97]], [120]), ([[98]], [121])] := by
    rw [sortedFiles, hfiles, List.mergeSort_of_pairwise (by decide)]
  have heq : integrityInput twoFiles = integrityInput oneFile := by
    rw [integrityInput, integrityInput, hone, htwo]
    decide
  have hsorted := sortedFiles_eq_iff.mpr (h oneFile twoFiles heq)
  rw [hone, htwo] at hsorted
  exact absurd (List.cons.inj hsorted).2 (List.cons_ne_nil _ _)

/-! ### The integrity in the lock file -/

section Lock

variable (reading : CacheReading) {fs fs' : FileSystem} {base : String} {dep : Dependency}
  (sha256Hex : List UInt8 → String) {d d' : Directory}

end Lock

end SorobanDevkit.Core
