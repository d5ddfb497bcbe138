/-
# Desktop.ApplyMutation -- a plan of the assistant is carried out on the vault

`apply_mutation` guards every operation, looks for conflicts without touching anything, and
then carries the operations out one by one; each is recorded as an expected mutation first,
and taken off again if it fails.

Every call of the file system may fail, whatever the file system is like; the world says which
calls do (`faults`), and what a call that fails has done by then.  A path that does not resolve
although nothing in the vault is in its way stands for a symbolic link that another program has
put there.  The checksums, the guard of protected paths and the search index are answers of the
rest of the application (`Host`); reading a directory for its checksum is one call.
-/
import Kuku.Ai.Types
import Kuku.Sync.Scanner
import Kuku.Theory.Effect

namespace Kuku.Desktop.Mutation

open Kuku.Theory List Effect
open Kuku.Ai (Str MutationOp MutationPlan MutationApplyResult ConflictItem AiError)
open Kuku.Sync (Location joined)

/-! ## The file system -/

inductive Node where
  | file (content : List UInt8)
  | directory
  | symlink
  deriving DecidableEq

/-- What stands where below the root of the vault. -/
abbrev Tree := Location → Option Node

/-- The root is a directory. -/
def Tree.node (tree : Tree) (location : Location) : Option Node :=
  if location = [] then some .directory else tree location

/-- The locations from the first name on, down to this one. -/
def way (location : Location) : List Location := location.inits.tail

/-- The first symbolic link on the way. -/
def Tree.symlinkTo (tree : Tree) (location : Location) : Option Location :=
  (way location).find? fun above => tree above = some .symlink

/-- Something that is no directory stands where one is needed. -/
def Tree.isBlocked (tree : Tree) (location : Location) : Bool :=
  (way location).any fun above => (tree above).any fun node => node ≠ .directory

/-- The directories that `create_dir_all` has to make, in its order. -/
def Tree.missing (tree : Tree) (location : Location) : List Location :=
  (way location).filter fun above => tree above = none

def Tree.put (tree : Tree) (location : Location) (node : Node) : Tree := fun other =>
  if other = location then some node else tree other

def Tree.makeDirectories (tree : Tree) (locations : List Location) : Tree := fun other =>
  if other ∈ locations then some .directory else tree other

def Tree.remove (tree : Tree) (location : Location) : Tree := fun other =>
  if other = location then none else tree other

def Tree.removeBelow (tree : Tree) (location : Location) : Tree := fun other =>
  if location <+: other then none else tree other

def Tree.move (tree : Tree) (source target : Location) : Tree := fun other =>
  if target <+: other then tree (source ++ other.drop target.length)
  else if source <+: other then none
  else tree other

/-- What a call that fails has done: the directories it has made, the bytes it has written to a
file that it has opened, the entries it has removed. -/
structure Fault where
  error : Str
  made : Nat := 0
  written : Option Nat := none
  removed : Location → Bool := fun _ => false

/-! ## Expected mutations -/

inductive AppMutation where
  | write (path : Str) (isDir : Bool)
  | delete (path : Str) (isDir : Bool)
  | rename (oldPath newPath : Str) (isDir : Bool)

structure ExpectedMutationLedger where
  entries : List (Nat × AppMutation) := []
  lastId : Nat := 0
  issued : ∀ entry ∈ entries, entry.1 ≤ lastId := by nofun

namespace ExpectedMutationLedger

variable (ledger : ExpectedMutationLedger)

def record (mutation : AppMutation) : ExpectedMutationLedger where
  entries := ledger.entries ++ [(ledger.lastId + 1, mutation)]
  lastId := ledger.lastId + 1
  issued := by
    intro entry member
    rcases mem_append.mp member with earlier | isNew
    · exact Nat.le_succ_of_le (ledger.issued entry earlier)
    · rw [mem_singleton.mp isNew]

def cancel (token : Nat) : ExpectedMutationLedger where
  entries := ledger.entries.filter fun entry => entry.1 ≠ token
  lastId := ledger.lastId
  issued entry member := ledger.issued entry (mem_of_mem_filter member)

@[simp] theorem entries_cancel_record (mutation : AppMutation) :
    ((ledger.record mutation).cancel (ledger.record mutation).lastId).entries =
      ledger.entries := by
  simp only [cancel, record, filter_append, filter_singleton]
  rw [filter_eq_self.mpr fun entry member => ?_]
  · simp
  · exact decide_eq_true (Nat.ne_of_lt (Nat.lt_succ_of_le (ledger.issued entry member)))

end ExpectedMutationLedger

/-! ## Calls -/

structure World where
  tree : Tree
  ledger : ExpectedMutationLedger := {}
  /-- For each call to come, how it fails, if it does. -/
  faults : List (Option Fault) := []

abbrev Act (ε α : Type) := Effect World ε α

/-- How the call fails that comes after a number of calls. -/
def World.fault (world : World) (calls : Nat) : Option Fault := (world.faults[calls]?).join

def World.skip (world : World) (calls : Nat) : World :=
  { world with faults := world.faults.drop calls }

/-- A call is made: how it fails, if it does. -/
def call {ε : Type} : Act ε (Option Fault) := fun world => (.ok (world.fault 0), world.skip 1)

def act {ε : Type} (f : Tree → Tree) : Act ε Unit :=
  modify fun world => { world with tree := f world.tree }

def errNotFound : Str := "No such file or directory (os error 2)".toList

def errNotDirectory : Str := "Not a directory (os error 20)".toList

def errIsDirectory : Str := "Is a directory (os error 21)".toList

def errInvalid : Str := "Invalid argument (os error 22)".toList

def errUtf8 : Str := "stream did not contain valid UTF-8".toList

def tryExists (location : Location) : Act Str Bool := do
  match ← call with
  | some fault => throw fault.error
  | none => do
    let world ← get
    pure (world.tree.node location).isSome

def readToString (location : Location) : Act Str (List UInt8) := do
  match ← call with
  | some fault => throw fault.error
  | none => do
    let world ← get
    match world.tree.node location with
    | some (.file content) =>
      if (Text.decodeUtf8 content).isSome then pure content else throw errUtf8
    | some .directory => throw errIsDirectory
    | some .symlink => throw errNotFound
    | none => throw errNotFound

def isDirectory (location : Location) : Act Str Bool := do
  match ← call with
  | some fault => throw fault.error
  | none => do
    let world ← get
    match world.tree.node location with
    | some node => pure (node = .directory)
    | none => throw errNotFound

def createDirAll (location : Location) : Act Str Unit := do
  let fault ← call
  let world ← get
  if world.tree.isBlocked location then throw errNotDirectory
  else match fault with
    | some fault => do
      act fun tree => tree.makeDirectories ((tree.missing location).dropLast.take fault.made)
      throw fault.error
    | none => act fun tree => tree.makeDirectories (tree.missing location)

/-- The file is opened, which empties it or makes it, and then written. -/
def write (location : Location) (content : List UInt8) : Act Str Unit := do
  let fault ← call
  let world ← get
  if world.tree.node location = some .directory then throw errIsDirectory
  else if world.tree.node location = none ∧
      world.tree.node location.dropLast ≠ some .directory then throw errNotFound
  else match fault with
    | some fault => do
      match fault.written with
      | some bytes => act fun tree => tree.put location (.file (content.take bytes))
      | none => pure ()
      throw fault.error
    | none => act fun tree => tree.put location (.file content)

def removeFile (location : Location) : Act Str Unit := do
  match ← call with
  | some fault => throw fault.error
  | none => do
    let world ← get
    match world.tree.node location with
    | some .directory => throw errIsDirectory
    | some _ => act fun tree => tree.remove location
    | none => throw errNotFound

def removeDirAll (location : Location) : Act Str Unit := do
  let fault ← call
  let world ← get
  if world.tree.node location ≠ some .directory then throw errNotDirectory
  else match fault with
    | some fault => do
      act fun tree other => if location <+: other ∧ fault.removed other then none else tree other
      throw fault.error
    | none => act fun tree => tree.removeBelow location

/-- To a place where nothing stands. -/
def rename (source target : Location) : Act Str Unit := do
  match ← call with
  | some fault => throw fault.error
  | none => do
    let world ← get
    if world.tree.node source = none ∨ world.tree.node target.dropLast ≠ some .directory then
      throw errNotFound
    else if source <+: target then throw errInvalid
    else act fun tree => tree.move source target

/-! ## Guarded operations -/

/-- What the rest of the application answers. -/
structure Host where
  /-- `get_vault_root`, as a text. -/
  root : Option Str
  /-- `guard_ai_raw_mutation_path`, which only looks. -/
  guardPath : Tree → Str → Except Str Unit
  /-- `compute_checksum`, of the bytes of a text. -/
  checksum : List UInt8 → Str
  /-- `compute_directory_checksum` of a directory that can be read. -/
  directoryChecksum : Tree → Location → Str
  /-- `AppMutationSync::notify_applied`. -/
  notifyApplied : AppMutation → Except Str Unit

variable (host : Host)

/-- `path.to_string_lossy()` of a resolved path. -/
def Host.pathText (location : Location) : Str :=
  host.root.getD [] ++ (location.map fun name => '/' :: name).flatten

def utf8 (text : Str) : List UInt8 := Text.utf8 (String.ofList text)

def computeDirectoryChecksum (location : Location) : Act Str Str := do
  match ← call with
  | some fault => throw fault.error
  | none => do
    let world ← get
    pure (host.directoryChecksum world.tree location)

def mismatch (expected actual : Str) : Str :=
  "Checksum mismatch: expected ".toList ++ expected ++ ", actual ".toList ++ actual

def checksumConflict (path expected actual : Str) : ConflictItem :=
  ⟨path, mismatch expected actual, some expected, some actual⟩

/-- `map_err(|e| conflict(path, format!("{what}: {e}")))`. -/
def orConflict {α : Type} (path : Str) (what : String) (x : Act Str α) : Act ConflictItem α :=
  mapError (fun error => ⟨path, what.toList ++ ": ".toList ++ error, none, none⟩) x

def refuse {α : Type} (path : Str) (reason : String) : Act ConflictItem α :=
  throw ⟨path, reason.toList, none, none⟩

def guardedCreate (location : Location) (content : Str) : Act ConflictItem Unit := do
  let path := host.pathText location
  let found ← orConflict path "Existence check failed" (tryExists location)
  if found then refuse path "File already exists"
  else do
    orConflict path "Failed to create parent directories" (createDirAll location.dropLast)
    orConflict path "Failed to write file" (write location (utf8 content))

def guardedCreateDir (location : Location) : Act ConflictItem Unit := do
  let path := host.pathText location
  let found ← orConflict path "Existence check failed" (tryExists location)
  if found then refuse path "Directory already exists"
  else orConflict path "Failed to create directory" (createDirAll location)

def guardedWrite (location : Location) (content expectedChecksum : Str) :
    Act ConflictItem Unit := do
  let path := host.pathText location
  let current ← orConflict path "Failed to read file" (readToString location)
  if host.checksum current ≠ expectedChecksum then
    throw (checksumConflict path expectedChecksum (host.checksum current))
  else orConflict path "Failed to write file" (write location (utf8 content))

def guardedDelete (location : Location) (expectedChecksum : Str) : Act ConflictItem Unit := do
  let path := host.pathText location
  let current ← orConflict path "Failed to read file" (readToString location)
  if host.checksum current ≠ expectedChecksum then
    throw (checksumConflict path expectedChecksum (host.checksum current))
  else orConflict path "Failed to delete file" (removeFile location)

def guardedDeleteDir (location : Location) (expectedChecksum : Str) : Act ConflictItem Unit := do
  let path := host.pathText location
  let isDir ← orConflict path "Failed to stat directory" (isDirectory location)
  if !isDir then refuse path "Path is not a directory"
  else do
    let actual ← orConflict path "Failed to checksum directory"
      (computeDirectoryChecksum host location)
    if actual ≠ expectedChecksum then
      throw (checksumConflict path expectedChecksum actual)
    else orConflict path "Failed to delete directory" (removeDirAll location)

def guardedRename (source target : Location) : Act ConflictItem Unit := do
  let sourcePath := host.pathText source
  let targetPath := host.pathText target
  let isSource ← orConflict sourcePath "Existence check failed" (tryExists source)
  if !isSource then refuse sourcePath "Source file does not exist"
  else do
    let isTarget ← orConflict targetPath "Existence check failed" (tryExists target)
    if isTarget then refuse targetPath "Destination file already exists"
    else do
      orConflict targetPath "Failed to create parent directories" (createDirAll target.dropLast)
      orConflict sourcePath "Failed to rename file" (rename source target)

/-! ## Paths -/

def resolveVaultPath (relativePath : Str) : Except Str Location :=
  match Sync.resolveRemotePath relativePath with
  | .ok location => .ok location
  | .error (.invalidArgument message) => .error message.toList
  | .error _ => .error []

/-- No symbolic link is on the way. -/
def resolveVaultPathStrict (relativePath : Str) : Act Str Location := do
  let fault ← call
  let location ← lift (resolveVaultPath relativePath)
  let world ← get
  match fault with
  | some fault => throw fault.error
  | none =>
    match world.tree.symlinkTo location with
    | some link =>
      throw ("Symlinks are not allowed in the vault: ".toList ++ host.pathText link)
    | none => pure location

def orState {α : Type} (x : Act Str α) : Act AiError α := mapError AiError.state x

/-! ## The check before -/

def guardMutationOp (tree : Tree) : MutationOp → Except Str Unit
  | .createFile path _ => host.guardPath tree path
  | .createDirectory path => host.guardPath tree path
  | .replaceFile path _ _ => host.guardPath tree path
  | .deleteFile path _ => host.guardPath tree path
  | .deleteDirectory path _ => host.guardPath tree path
  | .renameFile source target => do
    host.guardPath tree source
    host.guardPath tree target

def absent (path : Str) (reason : String) (found : Bool) : List ConflictItem :=
  if found then [] else [⟨path, reason.toList, none, none⟩]

def present (path : Str) (reason : String) (found : Bool) : List ConflictItem :=
  if found then [⟨path, reason.toList, none, none⟩] else []

/-- The conflict that an unread file or another checksum makes. -/
def checked (path expectedChecksum : Str) (what : String) : Except Str Str → List ConflictItem
  | .ok actual =>
    if actual ≠ expectedChecksum then [checksumConflict path expectedChecksum actual] else []
  | .error error => [⟨path, what.toList ++ ": ".toList ++ error, none, none⟩]

def checkFile (path expectedChecksum : Str) : Act AiError (List ConflictItem) := do
  let location ← orState (resolveVaultPathStrict host path)
  let current ← attempt (readToString location)
  pure (checked path expectedChecksum "Failed to read file" (current.map host.checksum))

def checkOperation : MutationOp → Act AiError (List ConflictItem)
  | .createFile path _ => do
    let location ← orState (resolveVaultPathStrict host path)
    let found ← mapError AiError.io (tryExists location)
    pure (present path "File already exists" found)
  | .createDirectory path => do
    let location ← orState (resolveVaultPathStrict host path)
    let found ← mapError AiError.io (tryExists location)
    pure (present path "Directory already exists" found)
  | .replaceFile path _ expectedChecksum => checkFile host path expectedChecksum
  | .deleteFile path expectedChecksum => checkFile host path expectedChecksum
  | .deleteDirectory path expectedChecksum => do
    let location ← orState (resolveVaultPathStrict host path)
    match ← attempt (isDirectory location) with
    | .error error =>
      pure [⟨path, "Failed to stat directory: ".toList ++ error, none, none⟩]
    | .ok isDir =>
      if !isDir then pure [⟨path, "Path is not a directory".toList, none, none⟩]
      else do
        let actual ← attempt (computeDirectoryChecksum host location)
        pure (checked path expectedChecksum "Failed to checksum directory" actual)
  | .renameFile source target => do
    let sourceLocation ← orState (resolveVaultPathStrict host source)
    let targetLocation ← orState (resolveVaultPathStrict host target)
    let isSource ← mapError AiError.io (tryExists sourceLocation)
    let isTarget ← mapError AiError.io (tryExists targetLocation)
    pure (absent source "Source file does not exist" isSource ++
      present target "Destination file already exists" isTarget)

def checkOperations : List MutationOp → Act AiError (List ConflictItem)
  | [] => pure []
  | op :: ops => do
    let first ← checkOperation host op
    let rest ← checkOperations ops
    pure (first ++ rest)

def guardOperations : List MutationOp → Act AiError Unit
  | [] => pure ()
  | op :: ops => do
    let world ← get
    mapError AiError.state (lift (guardMutationOp host world.tree op))
    guardOperations ops

/-- Everything that comes before the first operation. -/
def checkPlan (plan : MutationPlan) : Act AiError (List ConflictItem) := do
  match host.root with
  | none => throw (.state "No vault is currently open".toList)
  | some _ => do
    guardOperations host plan.operations
    checkOperations host plan.operations

/-! ## The operations -/

def mutationForAppliedOp : MutationOp → Act Str AppMutation
  | .createFile path _ => pure (.write path false)
  | .replaceFile path _ _ => pure (.write path false)
  | .createDirectory path => pure (.write path true)
  | .deleteFile path _ => pure (.delete path false)
  | .deleteDirectory path _ => pure (.delete path true)
  | .renameFile source target => do
    let sourceLocation ← resolveVaultPathStrict host source
    let isDir ← attempt (isDirectory sourceLocation)
    pure (.rename source target (isDir.toOption.getD false))

def opSummary : MutationOp → Str
  | .createFile path _ => "Created ".toList ++ path
  | .createDirectory path => "Created directory ".toList ++ path
  | .replaceFile path _ _ => "Modified ".toList ++ path
  | .deleteFile path _ => "Deleted ".toList ++ path
  | .deleteDirectory path _ => "Deleted directory ".toList ++ path
  | .renameFile source target => "Renamed ".toList ++ source ++ " -> ".toList ++ target

/-- The arms of the loop: the paths are resolved once more, and the operation is tried. -/
def tryOperation : MutationOp → Act AiError (Except ConflictItem Unit)
  | .createFile path content => do
    let location ← orState (resolveVaultPathStrict host path)
    attempt (guardedCreate host location content)
  | .createDirectory path => do
    let location ← orState (resolveVaultPathStrict host path)
    attempt (guardedCreateDir host location)
  | .replaceFile path content expectedChecksum => do
    let location ← orState (resolveVaultPathStrict host path)
    attempt (guardedWrite host location content expectedChecksum)
  | .deleteFile path expectedChecksum => do
    let location ← orState (resolveVaultPathStrict host path)
    attempt (guardedDelete host location expectedChecksum)
  | .deleteDirectory path expectedChecksum => do
    let location ← orState (resolveVaultPathStrict host path)
    attempt (guardedDeleteDir host location expectedChecksum)
  | .renameFile source target => do
    let sourceLocation ← orState (resolveVaultPathStrict host source)
    let targetLocation ← orState (resolveVaultPathStrict host target)
    attempt (guardedRename host sourceLocation targetLocation)

/-- The warning of a search index that could not be told. -/
def syncSearch (mutation : AppMutation) : Option Str :=
  match host.notifyApplied mutation with
  | .ok () => none
  | .error error => some ("Search sync fallback: ".toList ++ error)

/-- One turn of the loop: the warning of an operation that went well, or what it failed on. -/
def applyOperation (op : MutationOp) : Act AiError (Except ConflictItem (Option Str)) := do
  let mutation ← orState (mutationForAppliedOp host op)
  modify fun world => { world with ledger := world.ledger.record mutation }
  let world ← get
  let token := world.ledger.lastId
  match ← tryOperation host op with
  | .ok () => pure (.ok (syncSearch host mutation))
  | .error conflictItem => do
    modify fun world => { world with ledger := world.ledger.cancel token }
    pure (.error conflictItem)

def appliedSummary (plan : MutationPlan) (applied : List Str) : Str :=
  if Chars.trim plan.summary = [] then
    if applied = [] then "No operations".toList else Chars.join "; ".toList applied
  else plan.summary

def partialResult (op : MutationOp) (rest : List MutationOp) (item : ConflictItem)
    (applied warnings : List Str) : MutationApplyResult :=
  .partiallyApplied
    (Chars.ofNat applied.length ++ " applied, 1 failed, ".toList ++ Chars.ofNat rest.length ++
      " skipped".toList)
    applied [opSummary op ++ ": ".toList ++ item.reason] (rest.map opSummary) warnings

def applyOperations (plan : MutationPlan) :
    List MutationOp → List Str → List Str → Act AiError MutationApplyResult
  | [], applied, warnings => pure (.applied (appliedSummary plan applied) warnings)
  | op :: rest, applied, warnings => do
    match ← applyOperation host op with
    | .ok warning =>
      applyOperations plan rest (applied ++ [opSummary op]) (warnings ++ warning.toList)
    | .error item =>
      if applied = [] then
        pure (.conflict "Commit-time conflict. No changes were applied.".toList [item])
      else pure (partialResult op rest item applied warnings)

def applyMutation (plan : MutationPlan) : Act AiError MutationApplyResult := do
  let conflicts ← checkPlan host plan
  if conflicts ≠ [] then
    pure (.conflict (Chars.ofNat conflicts.length ++
      " conflict(s) detected. No changes were applied.".toList) conflicts)
  else applyOperations host plan plan.operations [] []

end Kuku.Desktop.Mutation
