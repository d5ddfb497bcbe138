/-
# Desktop.VaultEntries -- an open vault, as the file tools of the assistant see it

The disk is a tree of entries.  A symbolic link leads to a canonical location, or to
nothing that can be resolved; a location without a link on its way is canonical.  The
vault stands at a canonical location, and was opened by a path that may be another one.
Calls on what is there do not fail for other reasons, and names are Unix names.

`resolve_vault_path_strict` refuses links; `guard_ai_raw_mutation_path` follows them, and
compares where they lead with the protected directories.  The digest, the lower case and
the JSON of a listing are a `ToolCrates`.
-/
import Kuku.Desktop.ApplyMutation
import Kuku.Knowledge.ProtectedPaths

namespace Kuku.Desktop.Tools

open Kuku.Theory
open Kuku.Ai (Str)
open Kuku.Sync (Location)
open Kuku.Desktop.Mutation (resolveVaultPath way errNotFound errNotDirectory errIsDirectory errUtf8)

/-! ## The disk -/

mutual

inductive Entry where
  | file (content : List UInt8)
  | directory (entries : Entries)
  | symlink (target : Option Location)

/-- What a directory holds, in the order it is read. -/
inductive Entries where
  | nil
  | cons (name : Str) (entry : Entry) (rest : Entries)

end

def Entries.get (name : Str) : Entries → Option Entry
  | .nil => none
  | .cons other entry rest => if other = name then some entry else rest.get name

/-- What `symlink_metadata` finds. -/
inductive Stat where
  | found (entry : Entry)
  | notFound
  | notDirectory

/-- A location below an entry.  No call asks for what is below a link. -/
def Entry.stat : Entry → Location → Stat
  | entry, [] => .found entry
  | .directory entries, name :: rest =>
    match entries.get name with
    | some entry => entry.stat rest
    | none => .notFound
  | .file _, _ :: _ => .notDirectory
  | .symlink _, _ :: _ => .notFound

structure Vault where
  disk : Entry
  /-- Where the vault stands. -/
  root : Location
  /-- The path it was opened by. -/
  opened : Str

def Vault.stat (vault : Vault) (location : Location) : Stat :=
  vault.disk.stat (vault.root ++ location)

/-! ## What the tools call of other crates -/

structure ToolCrates where
  knowledge : Knowledge.Crates
  /-- `str::to_lowercase`. -/
  toLowercase : Str → Str
  /-- `blake3::hash(..).to_hex()`. -/
  blake3 : List UInt8 → Str

/-! ## Reading -/

/-- `path.to_string_lossy()` of a path below the root. -/
def Vault.pathText (vault : Vault) (location : Location) : Str :=
  vault.opened ++ (location.map fun name => '/' :: name).flatten

/-- No symbolic link is on the way. -/
def resolveVaultPathStrict (vault : Vault) (relativePath : Str) : Except Str Location := do
  let location ← resolveVaultPath relativePath
  match (way location).find? fun above =>
      match vault.stat above with
      | .found (.symlink _) => true
      | _ => false with
  | some link => .error ("Symlinks are not allowed in the vault: ".toList ++ vault.pathText link)
  | none => return location

/-- `tokio::fs::read_to_string`. -/
def readToString (vault : Vault) (location : Location) : Except Str Str :=
  match vault.stat location with
  | .found (.file content) =>
    match Text.decodeUtf8 content with
    | some chars => .ok chars
    | none => .error errUtf8
  | .found (.directory _) => .error errIsDirectory
  | .found (.symlink _) => .error errNotFound
  | .notFound => .error errNotFound
  | .notDirectory => .error errNotDirectory

/-- `tokio::fs::read_dir`. -/
def readDir (vault : Vault) (location : Location) : Except Str Entries :=
  let failed (error : Str) : Except Str Entries :=
    .error ("Failed to read directory ".toList ++ vault.pathText location ++ ": ".toList ++ error)
  match vault.stat location with
  | .found (.directory entries) => .ok entries
  | .found (.file _) => failed errNotDirectory
  | .found (.symlink _) => failed errNotFound
  | .notFound => failed errNotFound
  | .notDirectory => failed errNotDirectory

/-! ## Listings -/

inductive FileEntry where
  | mk (name path : Str) (isDirectory : Bool) (children : Option (List FileEntry))

def FileEntry.name : FileEntry → Str
  | .mk name _ _ _ => name

def defaultFileExtensions : List Str := ["md".toList]

def matchesExtensions (name : Str) (extensions : List Str) : Bool :=
  extensions.isEmpty || extensions.any fun extension =>
    ('.' :: extension.map Text.asciiLowerChar).isSuffixOf (name.map Text.asciiLowerChar)

/-- The folders in front of the files, each kind by name. -/
def gathered (found : List FileEntry × List FileEntry) : List FileEntry :=
  Table.sorted FileEntry.name found.1 ++ Table.sorted FileEntry.name found.2

section Listing

variable (extensions : List Str)

mutual

def Entry.listed (relative : Location) (name : Str) : Entry → List FileEntry × List FileEntry
  | .symlink _ => ([], [])
  | .file _ =>
    if matchesExtensions name extensions then
      ([], [.mk name (Sync.toRelativePath relative) false none])
    else ([], [])
  | .directory entries =>
    ([.mk name (Sync.toRelativePath relative) true (some (gathered (entries.listed relative)))], [])

def Entries.listed (above : Location) : Entries → List FileEntry × List FileEntry
  | .nil => ([], [])
  | .cons name entry rest =>
    let here := if Search.shouldIgnorePath (above ++ [name]) then ([], [])
      else entry.listed (above ++ [name]) name
    let later := rest.listed above
    (here.1 ++ later.1, here.2 ++ later.2)

end

def readDirectoryRecursive (vault : Vault) (location : Location) : Except Str (List FileEntry) := do
  let entries ← readDir vault location
  return gathered (entries.listed extensions location)

end Listing

/-! ## Checksums -/

structure DirectoryEntryChecksum where
  relativePath : Str
  kind : Str
  checksum : Option Str

section Crates

variable (crates : ToolCrates)

def computeChecksum (content : Str) : Str := crates.blake3 (Text.utf8 (String.ofList content))

mutual

def Entry.checksums (relative : Location) : Entry → List DirectoryEntryChecksum
  | .symlink _ => []
  | .file content =>
    [⟨Sync.toRelativePath relative, "file".toList, some (crates.blake3 content)⟩]
  | .directory entries =>
    ⟨Sync.toRelativePath relative, "dir".toList, none⟩ :: entries.checksums relative

/-- `collect_directory_entries`. -/
def Entries.checksums (above : Location) : Entries → List DirectoryEntryChecksum
  | .nil => []
  | .cons name entry rest => entry.checksums (above ++ [name]) ++ rest.checksums above

end

/-- What an entry adds to the digest. -/
def DirectoryEntryChecksum.bytes (entry : DirectoryEntryChecksum) : List UInt8 :=
  Text.utf8 (String.ofList entry.kind) ++ [0] ++ Text.utf8 (String.ofList entry.relativePath) ++
    [0] ++ Text.utf8 (String.ofList (entry.checksum.getD [])) ++ [10]

def computeDirectoryChecksum (vault : Vault) (location : Location) : Except Str Str := do
  let entries ← readDir vault location
  let sorted := Table.sorted DirectoryEntryChecksum.relativePath (entries.checksums crates [])
  return crates.blake3 (sorted.flatMap DirectoryEntryChecksum.bytes)

/-! ## The guard of protected paths -/

def protectedPrefixes : List Str :=
  ["Knowledge/memory".toList, "Knowledge/decisions".toList, "Knowledge/wiki".toList]

def isProtectedRelativePath (path : Str) : Bool :=
  let key := crates.toLowercase path
  protectedPrefixes.any fun directory =>
    decide (key = crates.toLowercase directory) ||
      (crates.toLowercase directory ++ ['/']).isPrefixOf key

def pathKey (path : Str) : Str := crates.toLowercase (Sync.slashed path)

def absoluteText (location : Location) : Str := (location.map fun name => '/' :: name).flatten

def pathKeyIsUnder (path directory : Str) : Bool :=
  decide (path = directory) || (directory ++ ['/']).isPrefixOf path

/-- `canonicalize` of names below a canonical location. -/
def canonicalize (disk : Entry) (current : Location) : List Str → Option Location
  | [] => some current
  | name :: rest =>
    match disk.stat (current ++ [name]) with
    | .found (.symlink (some target)) => canonicalize disk target rest
    | .found (.symlink none) => none
    | .found _ => canonicalize disk (current ++ [name]) rest
    | .notFound => none
    | .notDirectory => none

/-- The keys are compared with each, so that their order does not matter. -/
def protectedAbsoluteKeys (vault : Vault) : List Str :=
  protectedPrefixes.flatMap fun directory =>
    pathKey crates (vault.opened ++ '/' :: directory) ::
      ((canonicalize vault.disk vault.root (directory.splitOn '/')).map fun location =>
        pathKey crates (absoluteText location)).toList

/-- The loop of `resolved_absolute_key`: links are followed, and what does not exist is
appended. -/
def followed (disk : Entry) (current : Location) : List Str → Except Str Location
  | [] => .ok current
  | segment :: rest =>
    match disk.stat (current ++ [segment]) with
    | .found (.symlink (some target)) => followed disk target rest
    | .found (.symlink none) =>
      .error ("Symlink target cannot be resolved: ".toList ++ errNotFound)
    | .found _ => followed disk (current ++ [segment]) rest
    | .notFound => .ok (current ++ segment :: rest)
    | .notDirectory => .error errNotDirectory

def resolvedPathIsProtected (vault : Vault) (normalizedPath : Str) : Except Str Bool := do
  let location ← followed vault.disk vault.root (normalizedPath.splitOn '/')
  let resolvedKey := pathKey crates (absoluteText location)
  return (protectedAbsoluteKeys crates vault).any (pathKeyIsUnder resolvedKey)

def protectedPathError (path : Str) : Str :=
  "AI raw file mutation is not allowed for protected Knowledge path: ".toList ++ path

def guardAiRawMutationPath (vault : Vault) (value : Str) : Except Str Str := do
  let normalized ←
    match Knowledge.normalizeAiRawMutationPath crates.knowledge (String.ofList value) with
    | .ok normalized => .ok normalized.toList
    | .error error => .error error.message.toList
  if isProtectedRelativePath crates normalized then .error (protectedPathError normalized)
  if ← resolvedPathIsProtected crates vault normalized then .error (protectedPathError normalized)
  return normalized

end Crates

end Kuku.Desktop.Tools
