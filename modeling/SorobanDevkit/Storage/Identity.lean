import SorobanDevkit.Library.LinkedDirectory
import SorobanDevkit.Library.Strings

/-!
# The identity store

`sdkt-storage/src/identity.rs` keeps named keys as files in a directory. The default identity is a
symbolic link to one of them, under the name `default`.

The directory is the state. Paths are given as they are joined to it; where the directory lies
decides which paths lead back into it, and whether the targets of its links lead where they were
meant to. Other directories have no key files. The texts of keys are given by a crate.
-/

namespace SorobanDevkit.Storage

open Strings

/-- The 32 bytes of an `ed25519` signing key. -/
abbrev Seed := Vector UInt8 32

/-- `Identity`. -/
structure Identity where
  name : String
  publicKey : String
  deriving DecidableEq

/-- `std::io::ErrorKind`, as far as it is raised here. -/
inductive ErrorKind
  | notFound
  | alreadyExists
  | invalidInput
  | invalidData
  | other
  deriving DecidableEq

/-- `StorageError`, as far as the store raises it. -/
inductive StorageError
  /-- An error that the store makes. -/
  | io (kind : ErrorKind) (message : String)
  /-- An error of the operating system. -/
  | os (kind : ErrorKind)
  | notFound (message : String)
  | noDefaultIdentity
  deriving DecidableEq

/-- The crates for keys: the text of a secret key, the key of a text, and the text of a public
key. -/
structure KeyCrates where
  secretText : Seed → String
  parseSecret : String → Except String Seed
  publicKey : Seed → String

/-- Where the directory of the store lies. -/
structure Place where
  /-- Whether a path to a parent, from the directory, leads to the directory. -/
  reaches : String → Bool
  /-- Whether a path leads, as the target of a link, from the directory where it leads from the
  working directory. -/
  anchored : String → Bool
  /-- Whether a file can have a name. -/
  takes : String → Bool

/-- The directory of a store: texts in files, and links to paths. -/
abbrev Directory := LinkedDirectory String String String

/-- `DEFAULT_IDENTITY_NAME`, and the name of the link to the default identity. -/
def defaultIdentityName : String := "default"

/-! ### Paths -/

/-- The last component of a path. -/
def fileName (path : String) : String :=
  String.ofList (path.toList.reverse.takeWhile (· ≠ '/')).reverse

/-- What is before the last component of a path. -/
def parentOf (path : String) : String :=
  String.ofList (path.toList.reverse.dropWhile (· ≠ '/')).reverse

/-- `Path::file_stem`, for paths that do not end in dots. -/
def fileStem (path : String) : String :=
  let name := fileName path
  let stem := (name.toList.reverse.dropWhile (· ≠ '.')).drop 1
  if stem = [] then name else String.ofList stem.reverse

/-- The path of the file of an identity. -/
def keyPath (name : String) : String := name ++ ".toml"

section Store

variable (place : Place) (crates : KeyCrates)

/-- The entry that a path names, if it leads to the directory. -/
def Place.entryOf (path : String) : Option String :=
  if parentOf path = "" ∨ place.reaches (parentOf path) then some (fileName path) else none

/-- The entry that the target of a link names. -/
def Place.follow (target : String) : Option String :=
  if place.anchored target then place.entryOf target else none

/-- `Path::exists`. -/
def pathExists (dir : Directory) (path : String) : Bool :=
  match place.entryOf path with
  | none => false
  | some entry => LinkedDirectory.exists? place.follow dir entry

/-- `fs::read_to_string`. -/
def readToString (dir : Directory) (path : String) : Except StorageError String :=
  match (place.entryOf path).bind (LinkedDirectory.content place.follow dir) with
  | none => .error (.os .notFound)
  | some text => .ok text

/-- `fs::remove_file`. -/
def removeFile (dir : Directory) (path : String) : Except StorageError Directory :=
  match (place.entryOf path).bind (LinkedDirectory.remove dir) with
  | none => .error (.os .notFound)
  | some dir => .ok dir

/-- `fs::read_link`, for an entry of the directory. -/
def readLink (dir : Directory) (entry : String) : Except StorageError String :=
  match dir entry with
  | none => .error (.os .notFound)
  | some (.file _) => .error (.os .invalidInput)
  | some (.link target) => .ok target

/-! ### Key files -/

/-- The text of a key file. -/
def keyText (name : String) (seed : Seed) : String :=
  "# Soroban Identity: " ++ name ++ "\nsecret_key = \"" ++ crates.secretText seed ++ "\"\n"

/-- The secret key in a line of a key file. -/
def secretOfLine (line : String) : Option String :=
  let line := trim line
  if startsWith "secret_key" line then
    match splitAt (· == '=') line with
    | [_, value] => some (trimMatches '"' (trim value))
    | _ => none
  else none

/-- The text of `load_key`. The last line with a secret key counts. -/
def loadKeyText (text : String) : Except StorageError Seed := do
  let secret := (lines text).foldl (fun secret line => (secretOfLine line).or secret) none
  match secret with
  | none => .error (.io .invalidData "secret_key not found in identity file")
  | some secret =>
    (crates.parseSecret secret).mapError fun e => .io .invalidData ("Invalid stored StrKey: " ++ e)

/-- `load_key`. -/
def loadKey (dir : Directory) (path : String) : Except StorageError Seed := do
  let text ← readToString place dir path
  loadKeyText crates text

/-- What is assumed of the texts of keys: a secret key is read back, and its text consists of
letters and digits. -/
structure KeyCrates.Documented : Prop where
  parse_secretText : ∀ seed, crates.parseSecret (crates.secretText seed) = .ok seed
  secretText_alphanum : ∀ seed, ∀ c ∈ (crates.secretText seed).toList, c.isAlphanum

variable {crates}

/-- The line of a key file with the secret key. -/
def secretLine (secret : List Char) : List Char := "secret_key = \"".toList ++ secret ++ ['"']

theorem secretOfLine_secretLine {secret : List Char} (h : ∀ c ∈ secret, c.isAlphanum) :
    secretOfLine (String.ofList (secretLine secret)) = some (String.ofList secret) := by
  have hne : ∀ d, d.isAlphanum = false → ∀ c ∈ secret, (c == d) = false := by
    intro d hd c hc
    rw [beq_eq_false_iff_ne]
    rintro rfl
    rw [h c hc] at hd
    cases hd
  have hline : secretLine secret = 's' :: ("ecret_key = \"".toList ++ secret ++ ['"']) := rfl
  have hparts : secretLine secret =
      "secret_key ".toList ++ '=' :: (' ' :: '"' :: (secret ++ ['"'])) := by
    unfold secretLine
    simp
  have hprefix : startsWith "secret_key" (String.ofList (secretLine secret)) := by
    refine decide_eq_true ⟨" = \"".toList ++ secret ++ ['"'], ?_⟩
    unfold secretLine
    simp
  have hafter : ∀ c ∈ ' ' :: '"' :: (secret ++ ['"']), (c == '=') = false := by
    simp only [List.mem_cons, List.mem_append, List.not_mem_nil, or_false]
    rintro c (rfl | rfl | hc | rfl)
    · decide
    · decide
    · exact hne '=' (by decide) c hc
    · decide
  have hsplit : splitAt (· == '=') (String.ofList (secretLine secret)) =
      [String.ofList "secret_key ".toList, String.ofList (' ' :: '"' :: (secret ++ ['"']))] := by
    rw [splitAt, String.toList_ofList, hparts,
      splitAtAux_append_cons (forall_mem_of_any (by decide)) (by decide),
        splitAtAux_of_forall hafter]
    rfl
  have hvalue : trim (String.ofList (' ' :: '"' :: (secret ++ ['"']))) =
      String.ofList ('"' :: (secret ++ ['"'])) := by
    have hbounded : trim (String.ofList ('"' :: (secret ++ ['"']))) =
        String.ofList ('"' :: (secret ++ ['"'])) := trim_bounded (by decide) (by decide)
    rw [← hbounded]
    simp only [trim, String.toList_ofList]
    rw [List.dropWhile_cons_of_pos (by decide)]
  have htrim : trim (String.ofList (secretLine secret)) = String.ofList (secretLine secret) := by
    rw [hline]
    exact trim_bounded (by decide) (by decide)
  rw [secretOfLine, htrim, if_pos hprefix, hsplit]
  dsimp only
  rw [hvalue, trimMatches_marked (hne '"' (by decide))]

/-- **The key in a file is read back, whatever its name.** -/
theorem loadKeyText_keyText (hcrates : crates.Documented) (name : String) (seed : Seed) :
    loadKeyText crates (keyText crates name seed) = .ok seed := by
  have halphanum := hcrates.secretText_alphanum seed
  have htext : (keyText crates name seed).toList = ("# Soroban Identity: ".toList ++ name.toList) ++
      '\n' :: (secretLine (crates.secretText seed).toList ++ ['\n']) := by
    unfold keyText secretLine
    simp
  have hfeed : ∀ c ∈ secretLine (crates.secretText seed).toList, c ≠ '\n' := by
    intro c hc
    unfold secretLine at hc
    rw [List.mem_append, List.mem_append] at hc
    rcases hc with (hc | hc) | hc
    · exact (by simp : ∀ c ∈ "secret_key = \"".toList, c ≠ '\n') c hc
    · rintro rfl
      exact absurd (halphanum '\n' hc) (by decide)
    · exact (by simp : ∀ c ∈ ['"'], c ≠ '\n') c hc
  have hend : stripCarriageReturn (secretLine (crates.secretText seed).toList) =
      secretLine (crates.secretText seed).toList := by
    have hlast : (secretLine (crates.secretText seed).toList).getLast? = some '"' :=
      List.getLast?_concat
    rw [stripCarriageReturn, hlast, if_neg (by decide)]
  -- whatever the lines of the name are, the last line is the one that counts
  rw [loadKeyText, lines, htext, linesAux_append, linesAux_singleton hfeed, List.nil_append, hend,
    List.map_append, List.foldl_append, List.map_singleton, List.foldl_cons, List.foldl_nil,
    secretOfLine_secretLine halphanum, Option.some_or, String.ofList_toList]
  dsimp only
  rw [hcrates.parse_secretText]
  rfl

variable (crates)

/-! ### The operations of the store -/

/-- `ensure_name_valid`. -/
def ensureNameValid (dir : Directory) (name : String) : Except StorageError Unit :=
  if name = "" ∨ name = "default" ∨ '/' ∈ name.toList ∨ '\\' ∈ name.toList then
    .error (.io .invalidInput "Invalid identity name")
  else if pathExists place dir (keyPath name) then
    .error (.io .alreadyExists ("Identity '" ++ name ++ "' already exists"))
  else .ok ()

/-- `save_key`. -/
def saveKey (dir : Directory) (name : String) (seed : Seed) :
    Except StorageError Identity × Directory :=
  if place.takes (keyPath name) then
    match (place.entryOf (keyPath name)).bind fun entry =>
      LinkedDirectory.write place.follow dir entry (keyText crates name seed) with
    | none => (.error (.os .notFound), dir)
    | some dir => (.ok ⟨name, crates.publicKey seed⟩, dir)
  else (.error (.os .invalidInput), dir)

/-- `IdentityStore::generate`, given the random bytes or why there are none. -/
def generate (dir : Directory) (name : String) (random : Except String Seed) :
    Except StorageError Identity × Directory :=
  match ensureNameValid place dir name with
  | .error e => (.error e, dir)
  | .ok () =>
    match random with
    | .error e => (.error (.io .other e), dir)
    | .ok seed => saveKey place crates dir name seed

/-- `IdentityStore::import`. -/
def importKey (dir : Directory) (name secretKey : String) :
    Except StorageError Identity × Directory :=
  match ensureNameValid place dir name with
  | .error e => (.error e, dir)
  | .ok () =>
    match crates.parseSecret secretKey with
    | .error e => (.error (.io .invalidInput ("Invalid StrKey: " ++ e)), dir)
    | .ok seed => saveKey place crates dir name seed

/-- `IdentityStore::get`. -/
def get (dir : Directory) (name : String) : Except StorageError Identity :=
  if pathExists place dir (keyPath name) then do
    let seed ← loadKey place crates dir (keyPath name)
    .ok ⟨name, crates.publicKey seed⟩
  else .error (.io .notFound ("Identity '" ++ name ++ "' not found"))

/-- The end of `remove`: the link to the default identity is cleared if it leads to what was
removed. -/
def clearDefault (dir : Directory) (name : String) : Directory :=
  if pathExists place dir defaultIdentityName then
    match readLink dir defaultIdentityName with
    | .error _ => dir
    | .ok target =>
      if fileStem target = name then
        match removeFile place dir defaultIdentityName with
        | .error _ => dir
        | .ok dir => dir
      else dir
  else dir

/-- `IdentityStore::remove`. -/
def remove (dir : Directory) (name : String) : Except StorageError Unit × Directory :=
  if pathExists place dir (keyPath name) then
    match removeFile place dir (keyPath name) with
    | .error e => (.error e, dir)
    | .ok dir => (.ok (), clearDefault place dir name)
  else (.error (.notFound ("Identity '" ++ name ++ "' not found")), dir)

/-- `IdentityStore::set_default`, on Unix. -/
def setDefault (dir : Directory) (name : String) : Except StorageError Unit × Directory :=
  if pathExists place dir (keyPath name) then
    let cleared :=
      if pathExists place dir defaultIdentityName then removeFile place dir defaultIdentityName
      else .ok dir
    match cleared with
    | .error e => (.error e, dir)
    | .ok dir =>
      match LinkedDirectory.symlink dir (keyPath name) defaultIdentityName with
      | none => (.error (.os .alreadyExists), dir)
      | some dir => (.ok (), dir)
  else (.error (.io .notFound ("Identity '" ++ name ++ "' not found")), dir)

/-- `IdentityStore::get_default`. -/
def getDefault (dir : Directory) : Except StorageError Identity :=
  if pathExists place dir defaultIdentityName then do
    let target ← readLink dir defaultIdentityName
    get place crates dir (fileStem target)
  else .error (.io .notFound "No default identity set")

end Store

end SorobanDevkit.Storage
