import SorobanDevkit.Library.IntegerText
import SorobanDevkit.Library.Occurrences

/-!
# The version of the contract SDK that a manifest asks for

`requires_sdk_28` of `sdkt-core/src/build.rs` goes through the lines of a `Cargo.toml` and decides
with the first version that it finds in the dependency tables. It looks for the name of the package
and for the key of the version anywhere in a line.
-/

namespace SorobanDevkit.Core

open Strings

/-- A line, without the line feed. -/
abbrev Line := List Char

/-- The package of the SDK. -/
def sorobanSdk : Line := "soroban-sdk".toList

/-- The key of a version. -/
def versionKey : Line := "version".toList

/-! ### The scan -/

/-- `parse_leading_version`. -/
def parseLeadingVersion (req : Line) : Option (ℕ × ℕ) := do
  let req := (trim (String.ofList req)).toList.dropWhile
    (· ∈ ['=', '^', '~', '>', '<', 'v', ' '])
  let parts := splitAtAux (fun c => !c.isDigit) [] req
  let major ← parts.head?.bind (IntegerText.readUnsigned 10 18446744073709551615)
  let minor := (parts.tail.head?.bind (IntegerText.readUnsigned 10 18446744073709551615)).getD 0
  some (major, minor)

/-- The version between the first two quotation marks. -/
def quotedVersion (text : Line) : Option (ℕ × ℕ) := do
  let (_, rest) ← splitOnceAux ['"'] text
  let (req, _) ← splitOnceAux ['"'] rest
  parseLeadingVersion req

/-- `declared_version`. -/
def declaredVersion (line : Line) : Option (ℕ × ℕ) :=
  ((splitOnceAux versionKey line).bind fun p => quotedVersion p.2).or
    ((splitOnceAux ['='] line).bind fun p => quotedVersion p.2)

/-- The table that the scan is in: whether it is one of dependencies, and its package. -/
structure Section where
  inDeps : Bool
  tableDep : Option Line

/-- The table before the first header. -/
def Section.start : Section := ⟨false, none⟩

/-- The start of the header of a table for one dependency. -/
def tableStart : Line := "[dependencies.".toList

/-- The table with a header. -/
def Section.enter (header : Line) : Section :=
  let inDeps := decide (header = "[dependencies]".toList) || decide (tableStart <+: header)
  let tableDep :=
    if inDeps ∧ tableStart <+: header then
      some ((header.drop tableStart.length).reverse.dropWhile (· = ']')).reverse
    else none
  ⟨inDeps, tableDep⟩

/-- A line without the white space around it. -/
def trimmed (line : Line) : Line := (trim (String.ofList line)).toList

/-- The line is taken for a header. -/
def IsHeader (line : Line) : Prop := (trimmed line).head? = some '['

instance (line : Line) : Decidable (IsHeader line) := inferInstanceAs (Decidable (_ = _))

/-- The table after a line. -/
def Section.next (s : Section) (line : Line) : Section :=
  if IsHeader line then .enter (trimmed line) else s

/-- The table after some lines. -/
def Section.after (s : Section) (lines : List Line) : Section := lines.foldl Section.next s

/-- The line is looked at for a version. -/
def Section.Looks (s : Section) (line : Line) : Prop :=
  ¬ IsHeader line ∧ s.inDeps = true ∧ (sorobanSdk <:+: line ∨ s.tableDep = some sorobanSdk)

instance (s : Section) (line : Line) : Decidable (s.Looks line) :=
  inferInstanceAs (Decidable (_ ∧ _))

/-- The loop of `requires_sdk_28`. -/
def scan (s : Section) : List Line → Bool
  | [] => false
  | line :: lines =>
    if IsHeader line then scan (.enter (trimmed line)) lines
    else if !s.inDeps then scan s lines
    else if sorobanSdk <:+: line ∨ s.tableDep = some sorobanSdk then
      match declaredVersion line with
      | some (major, _) => decide (28 ≤ major)
      | none => scan s lines
    else scan s lines

/-- The lines of a manifest. -/
def manifestLines (manifest : String) : List Line := linesAux [] manifest.toList

/-- `requires_sdk_28`. -/
def requiresSdk28 (manifest : String) : Bool := scan .start (manifestLines manifest)

/-! ### The line that decides -/

/-- The scan finds a version in the line. -/
def Section.Finds (s : Section) (line : Line) : Prop :=
  s.Looks line ∧ (declaredVersion line).isSome = true

/-- The scan finds a version in one of the lines. -/
def Reads (s : Section) : List Line → Prop
  | [] => False
  | line :: lines => s.Finds line ∨ Reads (s.next line) lines

section Scan

variable {s s' : Section} {line : Line} {lines lines' : List Line}

theorem after_cons (s : Section) (line : Line) (lines : List Line) :
    s.after (line :: lines) = (s.next line).after lines := List.foldl_cons ..

/-- A line in which a version is found decides. -/
theorem scan_cons_of_finds (h : s.Finds line) (lines : List Line) :
    scan s (line :: lines) = scan s [line] := by
  obtain ⟨⟨hheader, hdeps, hlooks⟩, hversion⟩ := h
  obtain ⟨⟨major, minor⟩, hversion⟩ := Option.isSome_iff_exists.mp hversion
  have hin : ¬ (!s.inDeps) = true := by simp [hdeps]
  rw [scan, scan, if_neg hheader, if_neg hheader, if_neg hin, if_neg hin, if_pos hlooks,
    if_pos hlooks, hversion]

/-- Without one, the scan goes on. -/
theorem scan_cons_of_not_finds (h : ¬ s.Finds line) (lines : List Line) :
    scan s (line :: lines) = scan (s.next line) lines := by
  rw [scan, Section.next]
  by_cases hheader : IsHeader line
  · rw [if_pos hheader, if_pos hheader]
  · rw [if_neg hheader, if_neg hheader]
    split
    · rfl
    · next hin =>
      split
      · next hlooks =>
        have hnone : declaredVersion line = none := by
          rw [← Option.not_isSome_iff_eq_none]
          exact fun hversion => h ⟨⟨hheader, by simpa using hin, hlooks⟩, hversion⟩
        rw [hnone]
      · rfl

/-- **Lines in which a version is found decide**, whatever follows. -/
theorem scan_append_of_reads (h : Reads s lines) (lines' : List Line) :
    scan s (lines ++ lines') = scan s lines := by
  induction lines generalizing s with
  | nil => cases h
  | cons line lines ih =>
    rw [List.cons_append]
    by_cases hfinds : s.Finds line
    · rw [scan_cons_of_finds hfinds, scan_cons_of_finds hfinds lines]
    · rw [scan_cons_of_not_finds hfinds, scan_cons_of_not_finds hfinds,
        ih (h.resolve_left hfinds)]

/-- **Without one in them, what follows decides**, in the table that they lead to. -/
theorem scan_append (h : ¬ Reads s lines) (lines' : List Line) :
    scan s (lines ++ lines') = scan (s.after lines) lines' := by
  induction lines generalizing s with
  | nil => rfl
  | cons line lines ih =>
    obtain ⟨hfinds, h⟩ := not_or.mp h
    rw [List.cons_append, scan_cons_of_not_finds hfinds, ih h, after_cons]

theorem scan_of_not_reads (h : ¬ Reads s lines) : scan s lines = false := by
  have happend := scan_append h []
  rw [List.append_nil] at happend
  rw [happend]
  rfl

theorem looks_next (h : ∀ line, s.Looks line ↔ s'.Looks line) (line : Line) :
    ∀ other, (s.next line).Looks other ↔ (s'.next line).Looks other := by
  intro other
  rw [Section.next, Section.next]
  split
  · rfl
  · exact h other

/-- Tables in which the same lines are looked at make no difference. -/
theorem scan_congr (h : ∀ line, s.Looks line ↔ s'.Looks line) (lines : List Line) :
    scan s lines = scan s' lines := by
  induction lines generalizing s s' with
  | nil => rfl
  | cons line lines ih =>
    have hfinds : s.Finds line ↔ s'.Finds line := and_congr_left fun _ => h line
    by_cases hline : s.Finds line
    · obtain ⟨⟨-, hdeps', hlooks'⟩, hversion⟩ := hfinds.mp hline
      obtain ⟨⟨hheader, hdeps, hlooks⟩, -⟩ := hline
      obtain ⟨⟨major, minor⟩, hversion⟩ := Option.isSome_iff_exists.mp hversion
      have hin : ¬ (!s.inDeps) = true := by simp [hdeps]
      have hin' : ¬ (!s'.inDeps) = true := by simp [hdeps']
      rw [scan, scan, if_neg hheader, if_neg hheader, if_neg hin, if_neg hin', if_pos hlooks,
        if_pos hlooks', hversion]
    · rw [scan_cons_of_not_finds hline, scan_cons_of_not_finds (mt hfinds.mpr hline),
        ih (looks_next h line)]

/-- After a header, the table before it makes no difference. -/
theorem scan_cons_header (h : IsHeader line) (s s' : Section) (lines : List Line) :
    scan s (line :: lines) = scan s' (line :: lines) := by
  rw [scan, scan, if_pos h, if_pos h]

end Scan

/-! ### Manifests as they are meant -/

/-- What text is in: no string, a string with escapes, in an escape of it, or a string without. -/
inductive Mode
  | bare
  | basic
  | escaped
  | literal
  deriving DecidableEq

/-- Where a character stands: what it is in, and the number of brackets that are open. -/
structure Nesting where
  mode : Mode
  depth : ℕ
  deriving DecidableEq

/-- No string and no bracket is open. -/
def Nesting.closed : Nesting := ⟨.bare, 0⟩

/-- Where the next character stands. -/
def Nesting.step (n : Nesting) (c : Char) : Nesting :=
  match n.mode with
  | .bare =>
    if c = '"' then { n with mode := .basic }
    else if c = '\'' then { n with mode := .literal }
    else if c = '[' ∨ c = '{' then { n with depth := n.depth + 1 }
    else if c = ']' ∨ c = '}' then { n with depth := n.depth - 1 }
    else n
  | .basic =>
    if c = '"' then { n with mode := .bare }
    else if c = '\\' then { n with mode := .escaped }
    else n
  | .escaped => { n with mode := .basic }
  | .literal => if c = '\'' then { n with mode := .bare } else n

/-- Where the next line starts. A comment goes to the end of its line. -/
def Nesting.line (n : Nesting) : Line → Nesting
  | [] => n.step '\n'
  | c :: cs => if n.mode = .bare ∧ c = '#' then n else (n.step c).line cs

/-- The names of a dotted key, which ends before an equals sign or a bracket. Names may be
quoted. -/
def keyNames : Option Char → Line → Line → List Line
  | _, name, [] => [name]
  | some quote, name, c :: cs =>
    if c = quote then keyNames none name cs else keyNames (some quote) (name ++ [c]) cs
  | none, name, c :: cs =>
    if c = '"' ∨ c = '\'' then keyNames (some c) name cs
    else if c = '=' ∨ c = ']' then [name]
    else if c = '.' then name :: keyNames none [] cs
    else if isWhitespace c then keyNames none name cs
    else keyNames none (name ++ [c]) cs

/-- Where a line starts: what is open, and the table. -/
structure Position where
  nesting : Nesting
  table : List Line

/-- The start of a manifest. -/
def Position.start : Position := ⟨.closed, []⟩

/-- The path in the header of a table. -/
def headerPath (line : Line) : List Line := keyNames none [] ((trimmed line).dropWhile (· = '['))

/-- Where the next line starts. -/
def Position.next (p : Position) (line : Line) : Position where
  nesting := p.nesting.line line
  table := if p.nesting = .closed ∧ IsHeader line then headerPath line else p.table

/-- Where the line after some lines starts. -/
def Position.after (p : Position) (lines : List Line) : Position := lines.foldl Position.next p

/-- The path of the dependency on the SDK. -/
def sdkPath : List Line := ["dependencies".toList, sorobanSdk]

/-- What is at the path is not in the dependency on the SDK, nor is that in it. -/
def ApartFromSdk (path : List Line) : Prop := ¬ sdkPath <+: path ∧ ¬ path <+: sdkPath

/-- The line is a comment. -/
def IsComment (line : Line) : Prop := (trimmed line).head? = some '#'

/-- The line starts nothing that belongs to the dependency on the SDK, other than a key besides the
version in its table. -/
def Position.Unrelated (p : Position) (line : Line) : Prop :=
  p.nesting = .closed →
    trimmed line = [] ∨ IsComment line ∨ (IsHeader line ∧ ApartFromSdk (headerPath line)) ∨
    (¬ IsHeader line ∧ (ApartFromSdk (p.table ++ keyNames none [] line) ∨
      (p.table = sdkPath ∧ (keyNames none [] line).head? ≠ some versionKey)))

/-- None of the lines does, and nothing is open after them. -/
def Position.AllUnrelated (p : Position) : List Line → Prop
  | [] => p.nesting = .closed
  | line :: lines => p.Unrelated line ∧ (p.next line).AllUnrelated lines

/-- The text is empty or ends with a line feed. -/
def Terminated (text : String) : Prop := text = "" ∨ ∃ init, text.toList = init ++ ['\n']

/-- Lines that are inserted in a manifest, or removed from one: a comment, or entries, tables and
keys other than those of the dependency on the SDK. -/
structure Insertion where
  before : String
  piece : String
  terminated : Terminated before ∧ Terminated piece
  unrelated :
    ((Position.start.after (manifestLines before)).nesting.mode = .bare ∧
      ∃ line, manifestLines piece = [line] ∧ IsComment line) ∨
    ((Position.start.after (manifestLines before)).nesting = .closed ∧
      (Position.start.after (manifestLines before)).AllUnrelated (manifestLines piece))

section Insertion

variable (e : Insertion)

/-- The inserted lines end in the table in which they start. -/
def Insertion.KeepsTable : Prop :=
  ((Position.start.after (manifestLines e.before)).after (manifestLines e.piece)).table =
    (Position.start.after (manifestLines e.before)).table

/-- What follows is not moved to another table. -/
def Insertion.Fits (rest : String) : Prop :=
  e.KeepsTable ∨ ∀ line ∈ (manifestLines rest).head?, IsHeader line

/-- The inserted lines make no difference, whatever follows. -/
def Insertion.Harmless : Prop :=
  ∀ rest, e.Fits rest →
    requiresSdk28 (e.before ++ e.piece ++ rest) = requiresSdk28 (e.before ++ rest)

/-- A version is found before the inserted lines. Otherwise none is found in them, and the lines
that follow in the table are looked at as they are without them. -/
def Insertion.Skipped : Prop :=
  Reads .start (manifestLines e.before) ∨
  (¬ Reads (Section.start.after (manifestLines e.before)) (manifestLines e.piece) ∧
    (e.KeepsTable → ∀ line,
      ((Section.start.after (manifestLines e.before)).after (manifestLines e.piece)).Looks line ↔
        (Section.start.after (manifestLines e.before)).Looks line))

end Insertion

theorem manifestLines_append {text : String} (h : Terminated text) (rest : String) :
    manifestLines (text ++ rest) = manifestLines text ++ manifestLines rest := by
  obtain rfl | ⟨init, hinit⟩ := h
  · rw [String.empty_append]
    rfl
  · rw [manifestLines, manifestLines, manifestLines, String.toList_append, hinit, List.append_assoc,
      List.singleton_append, linesAux_append]

/-- Two lines tell the tables in which the same lines are looked at. -/
theorem looks_iff_of_probes {s s' : Section}
    (hcomment : s.Looks "# soroban-sdk = \"28\"".toList ↔ s'.Looks "# soroban-sdk = \"28\"".toList)
    (hversion : s.Looks "version = \"28\"".toList ↔ s'.Looks "version = \"28\"".toList)
    (line : Line) : s.Looks line ↔ s'.Looks line := by
  have hin : ∀ s : Section, s.Looks "# soroban-sdk = \"28\"".toList ↔ s.inDeps = true := fun s =>
    ⟨fun h => h.2.1, fun h => ⟨by decide, h, .inl (by decide)⟩⟩
  have htable : ∀ s : Section, s.Looks "version = \"28\"".toList ↔
      s.inDeps = true ∧ s.tableDep = some sorobanSdk := fun s =>
    ⟨fun h => ⟨h.2.1, h.2.2.resolve_left (by decide)⟩, fun h => ⟨by decide, h.1, .inr h.2⟩⟩
  rw [hin, hin] at hcomment
  rw [htable, htable] at hversion
  rw [Section.Looks, Section.Looks]
  refine and_congr_right fun _ => ?_
  constructor
  · rintro ⟨hdeps, hlooks⟩
    exact ⟨hcomment.mp hdeps, hlooks.imp_right fun h => (hversion.mp ⟨hdeps, h⟩).2⟩
  · rintro ⟨hdeps, hlooks⟩
    exact ⟨hcomment.mpr hdeps, hlooks.imp_right fun h => (hversion.mpr ⟨hdeps, h⟩).2⟩

/-! ### Insertions that make no difference -/

/-- A manifest without lines has no requirement, and one with these has. -/
theorem scan_probe (s : Section) :
    scan s (manifestLines "[dependencies]\nsoroban-sdk = \"28\"") = true := by
  rw [show manifestLines "[dependencies]\nsoroban-sdk = \"28\"" =
    ["[dependencies]".toList, "soroban-sdk = \"28\"".toList] by decide,
    scan_cons_header (by decide) s .start]
  decide

theorem scan_eq_true_of_looks {s : Section} {line : Line} (h : s.Looks line)
    (hversion : declaredVersion line = some (28, 0)) : scan s [line] = true := by
  obtain ⟨hheader, hdeps, hlooks⟩ := h
  have hin : ¬ (!s.inDeps) = true := by simp [hdeps]
  rw [scan, if_neg hheader, if_neg hin, if_pos hlooks, hversion]
  rfl

theorem scan_eq_false_of_not_looks {s : Section} {line : Line} (h : ¬ s.Looks line) :
    scan s [line] = false :=
  scan_of_not_reads fun hreads => h (hreads.resolve_right id).1

/-- A line with a version tells the tables in which it is looked at. -/
theorem looks_iff_of_scan {s s' : Section} {line : Line}
    (hversion : declaredVersion line = some (28, 0)) (h : scan s [line] = scan s' [line]) :
    s.Looks line ↔ s'.Looks line := by
  constructor
  · intro hlooks
    rw [scan_eq_true_of_looks hlooks hversion] at h
    by_contra hnot
    rw [scan_eq_false_of_not_looks hnot] at h
    cases h
  · intro hlooks
    rw [scan_eq_true_of_looks hlooks hversion] at h
    by_contra hnot
    rw [scan_eq_false_of_not_looks hnot] at h
    cases h

/-- The lines of the inserted text are scanned after those before it. -/
theorem Insertion.requiresSdk28_eq (e : Insertion) (rest : String) :
    requiresSdk28 (e.before ++ e.piece ++ rest) =
        scan .start (manifestLines e.before ++ (manifestLines e.piece ++ manifestLines rest)) ∧
      requiresSdk28 (e.before ++ rest) =
        scan .start (manifestLines e.before ++ manifestLines rest) := by
  rw [requiresSdk28, requiresSdk28, String.append_assoc, manifestLines_append e.terminated.1,
    manifestLines_append e.terminated.2, manifestLines_append e.terminated.1]
  exact ⟨rfl, rfl⟩

/-- **Inserted lines make no difference if a version is found before them, and otherwise if none is
found in them** and they do not move what follows to another table of the scan. -/
theorem Insertion.harmless_iff (e : Insertion) : e.Harmless ↔ e.Skipped := by
  rw [Insertion.Skipped]
  constructor
  · intro h
    by_cases hbefore : Reads .start (manifestLines e.before)
    · exact .inl hbefore
    · right
      set s := Section.start.after (manifestLines e.before) with hs
      have hequal : ∀ rest, e.Fits rest →
          scan s (manifestLines e.piece ++ manifestLines rest) = scan s (manifestLines rest) := by
        intro rest hrest
        have heq := h rest hrest
        rw [(e.requiresSdk28_eq rest).1, (e.requiresSdk28_eq rest).2, scan_append hbefore,
          scan_append hbefore] at heq
        exact heq
      have hpiece : ¬ Reads s (manifestLines e.piece) := by
        intro hreads
        have hnil := hequal "" (.inr fun line hline => by cases hline)
        have hprobe := hequal "[dependencies]\nsoroban-sdk = \"28\"" (.inr fun line hline => by
          obtain rfl : "[dependencies]".toList = line := by
            rw [show manifestLines "[dependencies]\nsoroban-sdk = \"28\"" =
              ["[dependencies]".toList, "soroban-sdk = \"28\"".toList] by decide] at hline
            exact Option.some.inj hline
          decide)
        rw [scan_append_of_reads hreads] at hnil hprobe
        rw [hnil, scan_probe] at hprobe
        cases hprobe
      refine ⟨hpiece, fun hkeeps => ?_⟩
      have hline : ∀ text, scan (s.after (manifestLines e.piece)) (manifestLines text) =
          scan s (manifestLines text) := by
        intro text
        rw [← scan_append hpiece, hequal text (.inl hkeeps)]
      refine looks_iff_of_probes (looks_iff_of_scan (by decide) ?_)
        (looks_iff_of_scan (by decide) ?_)
      · exact hline "# soroban-sdk = \"28\""
      · exact hline "version = \"28\""
  · intro h rest hrest
    rw [(e.requiresSdk28_eq rest).1, (e.requiresSdk28_eq rest).2]
    obtain hbefore | ⟨hpiece, hlooks⟩ := h
    · rw [scan_append_of_reads hbefore, scan_append_of_reads hbefore]
    · by_cases hbefore : Reads .start (manifestLines e.before)
      · rw [scan_append_of_reads hbefore, scan_append_of_reads hbefore]
      · rw [scan_append hbefore, scan_append hbefore, scan_append hpiece]
        obtain hkeeps | hheader := hrest
        · exact scan_congr (hlooks hkeeps) _
        · cases hlines : manifestLines rest with
          | nil => rfl
          | cons line lines =>
            rw [hlines] at hheader
            exact scan_cons_header (hheader line rfl) _ _ lines

end SorobanDevkit.Core
