/-
# Sync.Scanner -- the markdown files of a vault, and the paths they go by

A vault on a case-sensitive file system is its regular files, each at a location: the names
on its way down from the root.  A file is known to the sync code by its normalized path, the
path in lower case, so two files may stand at different locations and go by one normalized
path; `scan_vault` refuses such a vault.

Empty directories, symbolic links and modification times are left out.
-/
import Kuku.Search.Vault
import Kuku.Sync.Merge
import Kuku.Theory.Except
import Kuku.Theory.Table

namespace Kuku.Sync

open Kuku.Theory List Assoc

abbrev Str := List Char

/-- The names on the way from the root of the vault down to a file. -/
abbrev Location := List Str

def kindMarkdown : Str := "markdown".toList

/-! ## Files on the disk -/

/-- No file stands where a directory is needed, and no two at one location. -/
structure Vault where
  files : Assoc Location Plaintext
  distinct : (files.map Prod.fst).Nodup
  nonroot : ∀ file ∈ files, file.1 ≠ []
  apart : ∀ file ∈ files, ∀ other ∈ files, file.1 <+: other.1 → file.1 = other.1

namespace Vault

def empty : Vault := ⟨[], nodup_nil, nofun, nofun⟩

variable (vault : Vault)

def read (location : Location) : Option Plaintext := vault.files.get location

def isDirectory (location : Location) : Bool :=
  vault.files.any fun file => location.isPrefixOf file.1 && location != file.1

/-- A file stands in the way of the location. -/
def isBlocked (location : Location) : Bool :=
  vault.files.any fun file => file.1.isPrefixOf location && location != file.1

/-- `Path::exists`. -/
def pathExists (location : Location) : Bool :=
  location = [] || vault.isDirectory location || (vault.read location).isSome

/-- What exists below the root: the files and the directories above them. -/
def paths : List Location := vault.files.flatMap fun file => file.1.inits

/-- The location can hold a file. -/
def admits (location : Location) : Bool :=
  location != [] && !vault.isDirectory location && !vault.isBlocked location

variable {vault} {location other : Location}

theorem apart_of_admits (admitted : vault.admits location = true) :
    ∀ file ∈ vault.files,
      (location <+: file.1 → location = file.1) ∧ (file.1 <+: location → file.1 = location) := by
  simp only [admits, isDirectory, isBlocked, Bool.and_eq_true, Bool.not_eq_true',
    any_eq_false, Bool.and_eq_true, not_and, bne_iff_ne, ne_eq, not_not,
    isPrefixOf_iff_prefix] at admitted
  exact fun file member => ⟨admitted.1.2 file member, fun above => (admitted.2 file member above).symm⟩

theorem ne_nil_of_admits (admitted : vault.admits location = true) : location ≠ [] := by
  simp only [admits, Bool.and_eq_true, bne_iff_ne, ne_eq] at admitted
  exact admitted.1.1

variable (vault)

/-- `create_dir_all` and `fs::write`. -/
def write (location : Location) (plaintext : Plaintext) : Option Vault :=
  if admitted : vault.admits location = true then
    some
      { files := vault.files.set location plaintext
        distinct := nodup_set vault.distinct
        nonroot := by
          intro file member
          rcases mem_cons.mp member with rfl | earlier
          · exact ne_nil_of_admits admitted
          · exact vault.nonroot file (mem_of_mem_filter earlier)
        apart := by
          intro file member other memberOther above
          rcases mem_cons.mp member with rfl | earlier
          · rcases mem_cons.mp memberOther with rfl | earlierOther
            · rfl
            · exact (apart_of_admits admitted other (mem_of_mem_filter earlierOther)).1 above
          · rcases mem_cons.mp memberOther with rfl | earlierOther
            · exact (apart_of_admits admitted file (mem_of_mem_filter earlier)).2 above
            · exact vault.apart file (mem_of_mem_filter earlier) other
                (mem_of_mem_filter earlierOther) above }
  else none

/-- `fs::remove_file` of a file that is there. -/
def remove (location : Location) : Vault where
  files := vault.files.remove location
  distinct := nodup_remove vault.distinct
  nonroot file member := vault.nonroot file (mem_of_mem_filter member)
  apart file member other memberOther :=
    vault.apart file (mem_of_mem_filter member) other (mem_of_mem_filter memberOther)

variable {vault} {vault' : Vault} {plaintext : Plaintext}

theorem read_write_self (wrote : vault.write location plaintext = some vault') :
    vault'.read location = some plaintext := by
  unfold write at wrote
  split at wrote
  · cases wrote
    exact get_set_self
  · cases wrote

theorem read_write_of_ne (wrote : vault.write location plaintext = some vault')
    (differs : other ≠ location) : vault'.read other = vault.read other := by
  unfold write at wrote
  split at wrote
  · cases wrote
    exact get_set_of_ne differs
  · cases wrote

@[simp] theorem read_remove_self : (vault.remove location).read location = none := get_remove_self

theorem read_remove_of_ne (differs : other ≠ location) :
    (vault.remove location).read other = vault.read other :=
  get_remove_of_ne differs

/-- A file can be written again where it stands. -/
theorem admits_of_read (found : vault.read location = some plaintext) :
    vault.admits location = true := by
  have member := mem_of_get found
  simp only [admits, isDirectory, isBlocked, Bool.and_eq_true, Bool.not_eq_true',
    any_eq_false, not_and, bne_iff_ne, ne_eq, not_not, isPrefixOf_iff_prefix]
  exact ⟨⟨vault.nonroot _ member, fun file isFile above => vault.apart _ member file isFile above⟩,
    fun file isFile above => (vault.apart file isFile _ member above).symm⟩

theorem write_of_admits (plaintext : Plaintext) (admitted : vault.admits location = true) :
    ∃ vault', vault.write location plaintext = some vault' := by
  unfold write
  rw [dif_pos admitted]
  exact ⟨_, rfl⟩

end Vault

/-! ## Paths -/

/-- `value.replace('\\', "/")`. -/
def slashed (value : Str) : Str := value.map fun c => if c = '\\' then '/' else c

def segments (value : Str) : List Str := value.splitOn '/'

def joined (names : List Str) : Str := List.intercalate ['/'] names

/-- What the crates answer: `str::to_lowercase`, and `blake3` in hex. -/
structure Crates where
  toLowercase : Str → Str
  blake3 : Plaintext → Str

variable (crates : Crates)

def normalizeVaultRelativePath (relativePath : Str) : Except SyncError Str :=
  let normalizedSeparators := slashed relativePath
  if normalizedSeparators = [] ∨ normalizedSeparators.head? = some '/' then
    .error (.invalidArgument "sync path must be vault-relative")
  else if "..".toList ∈ segments normalizedSeparators then
    .error (.invalidArgument "sync path traversal is not allowed")
  else
    let components := (segments normalizedSeparators).filter fun segment =>
      segment ≠ [] ∧ segment ≠ ".".toList
    if components = [] then .error (.invalidArgument "sync path must include a file name")
    else .ok (joined (components.map crates.toLowercase))

def fileIdForNormalizedPath (normalizedPath : Str) : Str :=
  "file_".toList ++ (crates.blake3 (Text.utf8 (String.ofList normalizedPath))).take 32

/-- `Path::file_stem` and `Path::extension` of a name. -/
def stemAndExtension (name : Str) : Str × Option Str :=
  match (name.reverse.splitOn '.') with
  | last :: rest@(_ :: _) =>
    let stem := (List.intercalate ['.'] rest).reverse
    if stem = [] then (name, none) else (stem, some last.reverse)
  | _ => (name, none)

def isMarkdownName (name : Str) : Bool := (stemAndExtension name).2.any fun extension =>
    extension.map Text.asciiLowerChar = "md".toList

/-- `resolve_vault_path`, from the location that is resolved so far. -/
def resolveComponents (relativePath : Str) : List Str → Location → Except SyncError Location
  | [], resolved => .ok resolved
  | name :: names, resolved =>
    if name = [] ∨ name = ".".toList then resolveComponents relativePath names resolved
    else if name = "..".toList then
      if resolved = [] then
        .error (.invalidArgument ("Path traversal denied: '" ++ String.ofList relativePath ++
          "' escapes vault root"))
      else resolveComponents relativePath names resolved.dropLast
    else resolveComponents relativePath names (resolved ++ [name])

def resolveRemotePath (relativePath : Str) : Except SyncError Location :=
  if relativePath.head? = some '/' then
    .error (.invalidArgument ("Absolute paths not allowed: '" ++ String.ofList relativePath ++ "'"))
  else resolveComponents relativePath (segments relativePath) []

/-! ## The scan -/

structure ScannedFile where
  fileId : Str
  path : Str
  normalizedPath : Str
  plaintextHash : Str
  sizeBytes : Int
  deriving DecidableEq

/-- The walk comes to the file: it skips neither it nor a directory above it. -/
def isScanned (location : Location) : Bool :=
  (location.inits.all fun names => !Search.shouldIgnorePath names) &&
    location.getLast?.any isMarkdownName

def toRelativePath (location : Location) : Str := slashed (joined location)

/-- What a file at a location goes by. -/
def normalizedOf (location : Location) : Except SyncError Str :=
  normalizeVaultRelativePath crates (toRelativePath location)

def scanFile (file : Location × Plaintext) : Except SyncError ScannedFile :=
  (normalizedOf crates file.1).map fun normalizedPath =>
    { fileId := fileIdForNormalizedPath crates normalizedPath
      path := toRelativePath file.1
      normalizedPath
      plaintextHash := crates.blake3 file.2
      sizeBytes := file.2.length }

/-- `seen` holds the normalized paths of the files before. -/
def validateUniqueNormalizedPaths : List ScannedFile → List Str → Except SyncError Unit
  | [], _ => .ok ()
  | file :: files, seen =>
    if file.normalizedPath ∈ seen then
      .error (.invalidArgument ("duplicate normalized sync path: " ++
        String.ofList file.normalizedPath))
    else validateUniqueNormalizedPaths files (file.normalizedPath :: seen)

def Vault.scanned (vault : Vault) : Assoc Location Plaintext :=
  vault.files.filter fun file => isScanned file.1

def scanVault (vault : Vault) : Except SyncError (List ScannedFile) := do
  let found ← vault.scanned.mapM (scanFile crates)
  let files := Table.sorted ScannedFile.normalizedPath found
  validateUniqueNormalizedPaths files []
  return files

end Kuku.Sync
