/-
# Sync.Applier -- a pull: what the commits of the server do to a vault

`pull_remote_changes` decrypts each commit after the local head, checks it and applies it to
the files of the vault: a file that was changed here since the last pull is merged, or the
remote version is put beside it as a conflict copy; any other file is written or removed as
the commit says.  Which files were changed here is decided once, before the first commit
(`RemoteMergeState`).

What the server holds and what the crates make of it is a parameter (`Remote`).  The search
index that is told of each file, `sync_commits` and the time stamps of the rows are left out.
The ledger of expected mutations is the record of the files a pull has written and removed.
-/
import Kuku.Server.PublishCommit
import Kuku.Sync.Db
import Kuku.Sync.Replay
import Kuku.Theory.Effect

namespace Kuku.Sync.Applier

open Kuku.Theory Effect Text
open Kuku.Server (SyncCommitKind)

/-! ## Commits -/

structure SyncCommitHeader where
  commitId : String
  commitKind : SyncCommitKind
  parentCommitIds : List String
  bodyObjectId : String
  bodyCiphertextSha256 : String
  bodySizeBytes : Int
  referencedObjectIds : List String

structure CommitBodyContentRef where
  objectId : String
  entryId : String

inductive CommitBodyFileOp where
  | upsertFile (fileId path normalizedPath plaintextHash : Str) (sizeBytes : Int)
      (contentRef : CommitBodyContentRef)
  | deleteFile (fileId path normalizedPath : Str)

structure CommitBodyPackRef where
  objectId : String
  packKind : String
  entryCount : Nat

structure CommitBody where
  format : String
  version : Nat
  commitId : String
  commitKind : String
  parentCommitIds : List String
  treeId : Str
  changes : List CommitBodyFileOp
  packs : List CommitBodyPackRef

/-- The number of entries in the index of a pack, and the entries. -/
structure UnpackedPack where
  entryCount : Nat
  entries : Assoc String Plaintext

structure DecryptedCommit where
  header : SyncCommitHeader
  body : CommitBody
  packs : Assoc String UnpackedPack

inductive SyncObjectKind where
  | commitBody
  | contentPack
  | checkpointPack
  | other
  deriving DecidableEq

structure DownloadedObject where
  objectId : String
  kind : SyncObjectKind
  ciphertextSha256 : String
  ciphertext : List UInt8

/-- The fields of an entry that its tree id is made of. -/
structure TreeCacheEntryBody where
  fileId : Str
  normalizedPath : Str
  plaintextHash : Option Str
  contentObjectId : Option String
  packEntryId : Option String
  kind : Str

/-- The objects of the server, and what decrypts them. -/
structure Remote where
  crates : Crates
  /-- `serde_json::to_vec` of a tree. -/
  treeJson : List TreeCacheEntryBody → List UInt8
  downloadObjects : List String → Except SyncError (List DownloadedObject)
  /-- `decrypt_commit_body`, for a header and its kind, and `serde_json::from_slice`. -/
  decryptCommitBody : SyncCommitHeader → String → List UInt8 → Except SyncError CommitBody
  /-- `decrypt_pack`, for an object, its kind and a commit. -/
  decryptPack : String → String → String → List UInt8 → Except SyncError UnpackedPack

structure PullInput where
  pipeline : PipelineInput
  nowMs : Int

/-- A file that was written, or removed, by the sync code itself. -/
inductive ExpectedMutation where
  | write (path : Str)
  | delete (path : Str)
  deriving DecidableEq

structure Device where
  vault : Vault
  db : SyncDb := {}
  expectedMutations : List ExpectedMutation := []

abbrev Pull (α : Type) := Effect Device SyncError α

variable (remote : Remote)

/-! ## Checks -/

def validateRequired (value : Str) (field : String) : Except SyncError Unit :=
  if isBlank value then .error (.invalidArgument (field ++ " is required")) else .ok ()

def objectKindForPackKind (packKind : String) : Except SyncError SyncObjectKind :=
  if packKind = "content_pack" then .ok .contentPack
  else if packKind = "checkpoint_pack" then .ok .checkpointPack
  else .error (.invalidArgument ("unsupported sync pack kind: " ++ packKind))

def packKindForObjectKind : SyncObjectKind → Except SyncError String
  | .contentPack => .ok "content_pack"
  | .checkpointPack => .ok "checkpoint_pack"
  | _ => .error (.invalidArgument "sync object is not a decryptable pack")

def commitKindLabel : SyncCommitKind → Except SyncError String
  | .checkpoint => .ok "checkpoint"
  | .incremental => .ok "incremental"
  | .merge => .ok "merge"
  | .unspecified => .error (.invalidArgument "unsupported sync commit kind")

def validatePacks : List CommitBodyPackRef → List String → Except SyncError Unit
  | [], _ => .ok ()
  | pack :: packs, seen => do
    validateRequired pack.objectId.toList "pack.object_id"
    if pack.objectId ∈ seen then
      throw (.integrity ("duplicate pack object in commit body: " ++ pack.objectId))
    let _ ← objectKindForPackKind pack.packKind
    validatePacks packs (pack.objectId :: seen)

def validateCommitBody (header : SyncCommitHeader) (commitKind : String) (body : CommitBody) :
    Except SyncError Unit := do
  if body.format ≠ "kuku.sync.commit-body" then
    throw (.serialization "unsupported sync commit body format")
  if body.version ≠ 1 then throw (.unsupportedVersion body.version)
  if body.commitId ≠ header.commitId then throw (.integrity "commit body id mismatch")
  if body.commitKind ≠ commitKind then throw (.integrity "commit body kind mismatch")
  if body.parentCommitIds ≠ header.parentCommitIds then
    throw (.integrity "commit body parents mismatch")
  -- both sides are sorted by the source, which compares them as multisets
  if ¬ (body.packs.map CommitBodyPackRef.objectId).Perm header.referencedObjectIds then
    throw (.integrity "commit body referenced objects mismatch")
  validatePacks body.packs []

def validateDownloadedCommitBody (header : SyncCommitHeader) (object : DownloadedObject) :
    Except SyncError Unit := do
  if object.objectId ≠ header.bodyObjectId then
    throw (.integrity "commit body object id mismatch")
  if object.kind ≠ .commitBody then throw (.integrity "commit body object kind mismatch")
  if object.ciphertextSha256 ≠ header.bodyCiphertextSha256 then
    throw (.integrity "commit body ciphertext hash mismatch")
  if (object.ciphertext.length : Int) ≠ header.bodySizeBytes then
    throw (.integrity "commit body ciphertext size mismatch")

def validateDownloadedPack (packRef : CommitBodyPackRef) (object : DownloadedObject) :
    Except SyncError Unit := do
  if object.objectId ≠ packRef.objectId then throw (.integrity "pack object id mismatch")
  let expectedKind ← objectKindForPackKind packRef.packKind
  if object.kind ≠ expectedKind then throw (.integrity "pack object kind mismatch")

def validateRemoteFileIdentity (fileId path normalizedPath : Str) : Except SyncError Unit := do
  validateRequired fileId "file_id"
  validateRequired path "path"
  let observedNormalized ← normalizeVaultRelativePath remote.crates path
  if observedNormalized ≠ normalizedPath then
    throw (.integrity ("remote file normalized path mismatch for " ++ String.ofList path))
  if fileIdForNormalizedPath remote.crates normalizedPath ≠ fileId then
    throw (.integrity ("remote file id mismatch for " ++ String.ofList normalizedPath))
  let names := (segments path).filter fun name => name ≠ [] ∧ name ≠ ".".toList
  if ¬ names.getLast?.any isMarkdownName then
    throw (.invalidArgument ("remote file is not markdown: " ++ String.ofList path))

def validatePlaintextMetadata (path : Str) (plaintext : Plaintext) (plaintextHash : Str)
    (sizeBytes : Int) : Except SyncError Unit := do
  if (plaintext.length : Int) ≠ sizeBytes then
    throw (.integrity ("remote file size mismatch: " ++ String.ofList path))
  if remote.crates.blake3 plaintext ≠ plaintextHash then
    throw (.integrity ("remote file plaintext hash mismatch: " ++ String.ofList path))

def packEntryPlaintext (packs : Assoc String UnpackedPack) (contentRef : CommitBodyContentRef) :
    Except SyncError Plaintext :=
  match packs.get contentRef.objectId with
  | none => .error (.integrity ("content pack " ++ contentRef.objectId ++ " missing from commit"))
  | some pack =>
    match pack.entries.get contentRef.entryId with
    | none => .error (.integrity ("content pack entry " ++ contentRef.entryId ++
        " missing from " ++ contentRef.objectId))
    | some plaintext => .ok plaintext

def SyncTreeEntryRecord.body (entry : SyncTreeEntryRecord) : TreeCacheEntryBody := { entry with }

def treeIdForEntries (entries : List SyncTreeEntryRecord) : Str :=
  "tree_".toList ++
    (remote.crates.blake3 (remote.treeJson (entries.map SyncTreeEntryRecord.body))).take 32

def validateTreeId (treeId : Str) (entries : List SyncTreeEntryRecord) : Except SyncError Unit :=
  if treeIdForEntries remote entries ≠ treeId then
    .error (.integrity ("commit tree id mismatch: expected " ++ String.ofList treeId ++ ", got " ++
      String.ofList (treeIdForEntries remote entries)))
  else .ok ()

/-! ## Downloads -/

def downloadOne (objectId : String) : Except SyncError DownloadedObject := do
  let downloads ← remote.downloadObjects [objectId]
  match downloads with
  | [object] => return object
  | _ => throw (.transport ("download response for " ++ objectId ++ " returned " ++
      String.ofList (Chars.ofNat downloads.length) ++ " objects"))

def decryptPacks (header : SyncCommitHeader) (downloads : List DownloadedObject) :
    List CommitBodyPackRef → Except SyncError (Assoc String UnpackedPack)
  | [] => return []
  | packRef :: packRefs => do
    let some downloaded := downloads.reverse.find? fun object =>
        object.objectId = packRef.objectId
      | throw (.transport ("download response missing pack object " ++ packRef.objectId))
    validateDownloadedPack packRef downloaded
    let unpacked ← remote.decryptPack packRef.objectId packRef.packKind header.commitId
      downloaded.ciphertext
    if unpacked.entryCount ≠ packRef.entryCount then
      throw (.integrity ("pack " ++ packRef.objectId ++ " entry count mismatch"))
    let packs ← decryptPacks header downloads packRefs
    return (packRef.objectId, unpacked) :: packs

def decryptCommit (header : SyncCommitHeader) : Except SyncError DecryptedCommit := do
  let bodyDownload ← downloadOne remote header.bodyObjectId
  validateDownloadedCommitBody header bodyDownload
  let commitKind ← commitKindLabel header.commitKind
  let body ← remote.decryptCommitBody header commitKind bodyDownload.ciphertext
  validateCommitBody header commitKind body
  let downloads ← remote.downloadObjects (body.packs.map CommitBodyPackRef.objectId)
  let packs ← decryptPacks remote header downloads body.packs
  return ⟨header, body, packs⟩

def downloadTreeEntryContent (entry : SyncTreeEntryRecord) : Except SyncError (Option Plaintext) :=
  match entry.contentObjectId, entry.packEntryId with
  | some objectId, some entryId => do
    let object ← downloadOne remote objectId
    let packKind ← packKindForObjectKind object.kind
    let unpacked ← remote.decryptPack objectId packKind entry.commitId object.ciphertext
    return unpacked.entries.get entryId
  | _, _ => return none

/-! ## Files -/

/-- The file at a location is written, or the write fails and is no longer expected. -/
def applyRemoteWrite (path : Str) (plaintext : Plaintext) : Pull Unit := do
  let resolved ← lift (resolveRemotePath path)
  let device ← get
  match device.vault.write resolved plaintext with
  | none => throw (.storage ("failed to apply remote file " ++ String.ofList path))
  | some vault => modify fun device =>
    { device with
      vault
      expectedMutations := device.expectedMutations ++ [.write path] }

/-- A file that is not there is as good as removed. -/
def applyRemoteDelete (path : Str) : Pull Unit := do
  let resolved ← lift (resolveRemotePath path)
  let device ← get
  match device.vault.read resolved with
  | some _ => modify fun device =>
    { device with
      vault := device.vault.remove resolved
      expectedMutations := device.expectedMutations ++ [.delete path] }
  | none =>
    if device.vault.admits resolved then pure ()
    else throw (.storage ("failed to apply remote delete " ++ String.ofList path))

def readLocalFile (path : Str) : Pull Plaintext := do
  let resolved ← lift (resolveRemotePath path)
  let device ← get
  match device.vault.read resolved with
  | some plaintext => pure plaintext
  | none => throw (.storage ("failed to read local merge file " ++ String.ofList path))

/-! ## Conflict copies -/

def civilFromDays (days : Int) : Int × Int × Int :=
  let z := days + 719468
  let era := (if 0 ≤ z then z else z - 146096).tdiv 146097
  let doe := z - era * 146097
  let yoe := (doe - doe / 1460 + doe / 36524 - doe / 146096) / 365
  let y := yoe + era * 400
  let doy := doe - (365 * yoe + yoe / 4 - yoe / 100)
  let mp := (5 * doy + 2) / 153
  let day := doy - (153 * mp + 2) / 5 + 1
  let month := mp + if mp < 10 then 3 else -9
  let year := y + if month ≤ 2 then 1 else 0
  (year, month, day)

def decimal (value : Int) : Str :=
  if value < 0 then '-' :: Chars.ofNat value.natAbs else Chars.ofNat value.natAbs

/-- `{value:0width}`: the sign stands before the zeros. -/
def padded (width : Nat) (value : Int) : Str :=
  if value < 0 then '-' :: (Chars.ofNat value.natAbs).leftpad (width - 1) '0'
  else (Chars.ofNat value.natAbs).leftpad width '0'

def timestampUtc (ms : Int) : Str :=
  let seconds := ms / 1000
  let days := seconds / 86400
  let secondsOfDay := seconds % 86400
  let civil := civilFromDays days
  padded 4 civil.1 ++ padded 2 civil.2.1 ++ padded 2 civil.2.2 ++ '-' ::
    (padded 2 (secondsOfDay / 3600) ++ padded 2 (secondsOfDay % 3600 / 60) ++
      padded 2 (secondsOfDay % 60))

/-- The components of `validate_relative_path`. -/
def relativeComponents (path : Str) : Except SyncError (List Str) :=
  let names := (segments path).filter fun name => name ≠ [] ∧ name ≠ ".".toList
  if isBlank path then .error (.invalidArgument "conflict source path is required")
  else if path.head? = some '/' ∨ "..".toList ∈ names then
    .error (.invalidArgument "conflict source path must be vault-relative")
  else if names = [] then .error (.invalidArgument "conflict source path is required")
  else .ok names

def conflictFileName (name timestamp : Str) (suffix : Nat) : Str :=
  (stemAndExtension name).1 ++ ".conflict-".toList ++ timestamp ++
    (if suffix = 1 then [] else '-' :: Chars.ofNat suffix) ++
    ((stemAndExtension name).2.map fun extension => '.' :: extension).getD []

def conflictCandidate (names : List Str) (timestamp : Str) (suffix : Nat) : Str :=
  slashed (joined (names.dropLast ++ [conflictFileName (names.getLastD []) timestamp suffix]))

/-- `vault_root.join(candidate).exists()`; nothing is known of what lies outside the vault. -/
def candidateExists (vault : Vault) (candidate : Str) : Bool :=
  match resolveRemotePath candidate with
  | .ok location => vault.pathExists location
  | .error _ => false

/-- The loop over the suffixes ends at a free candidate: there are more of them than there are
paths, and the root. -/
def conflictCopyRelativePath (originalPath : Str) (createdAtMs : Int) (vault : Vault) :
    Except SyncError Str := do
  let names ← relativeComponents originalPath
  let candidates := (List.range (vault.paths.length + 2)).map fun index =>
    conflictCandidate names (timestampUtc createdAtMs) (index + 1)
  match candidates.find? fun candidate => !candidateExists vault candidate with
  | some candidate => return candidate
  | none => throw (.storage "unbounded suffix search should always return")

def conflictIdFor (path conflictPath : Str) (baseCommitId : Option String)
    (remoteCommitId : String) (createdAtMs : Int) : Str :=
  let separator := Char.ofNat 0
  "conflict_".toList ++ (remote.crates.blake3 (utf8 (String.ofList
    (path ++ separator :: conflictPath ++ separator :: (baseCommitId.getD "").toList ++
      separator :: remoteCommitId.toList ++ separator :: decimal createdAtMs)))).take 32

def writeConflictCopy (input : PullInput) (originalPath : Str) (plaintext : Plaintext)
    (baseCommitId : Option String) (remoteHeader : SyncCommitHeader) : Pull Unit := do
  let device ← get
  let conflictPath ← lift (conflictCopyRelativePath originalPath input.nowMs device.vault)
  applyRemoteWrite conflictPath plaintext
  modify fun device =>
    { device with
      db.conflicts := upsertConflict device.db.conflicts
        { conflictId := conflictIdFor remote originalPath conflictPath baseCommitId
            remoteHeader.commitId input.nowMs
          path := originalPath
          conflictPath
          baseCommitId
          localCommitId := none
          remoteCommitId := some remoteHeader.commitId
          status := "open".toList
          createdAtMs := input.nowMs } }

/-! ## A commit -/

inductive RemoteApplyAction where
  | appliedRemote
  | keptLocalDirty
  deriving DecidableEq

def mergeRemoteUpsert (input : PullInput) (remoteHeader : SyncCommitHeader)
    (baseEntry : Option SyncTreeEntryRecord) (dirty : SyncFileRecord) (path : Str)
    (remotePlaintext : Plaintext) : Pull RemoteApplyAction :=
  if dirty.deleted then do
    writeConflictCopy remote input path remotePlaintext
      (baseEntry.map SyncTreeEntryRecord.commitId) remoteHeader
    pure .keptLocalDirty
  else do
    let localPlaintext ← readLocalFile dirty.path
    match baseEntry with
    | none =>
      writeConflictCopy remote input path remotePlaintext none remoteHeader
      pure .keptLocalDirty
    | some baseEntry =>
      let basePlaintext ← lift (downloadTreeEntryContent remote baseEntry)
      match basePlaintext with
      | none =>
        writeConflictCopy remote input path remotePlaintext (some baseEntry.commitId) remoteHeader
        pure .keptLocalDirty
      | some basePlaintext =>
        let outcome ← lift (mergeMarkdown basePlaintext localPlaintext remotePlaintext)
        match outcome with
        | .merged merged =>
          applyRemoteWrite path merged
          pure (if merged = remotePlaintext then .appliedRemote else .keptLocalDirty)
        | .conflict =>
          writeConflictCopy remote input path remotePlaintext (some baseEntry.commitId) remoteHeader
          pure .keptLocalDirty

def mergeRemoteDelete (input : PullInput) (remoteHeader : SyncCommitHeader)
    (dirty : Option SyncFileRecord) (path : Str) : Pull RemoteApplyAction :=
  match dirty with
  | none => do
    applyRemoteDelete path
    pure .appliedRemote
  | some dirty =>
    if dirty.deleted then do
      applyRemoteDelete path
      pure .appliedRemote
    else do
      let localPlaintext ← readLocalFile dirty.path
      writeConflictCopy remote input path localPlaintext none remoteHeader
      applyRemoteDelete path
      pure .appliedRemote

def upsertedEntry (header : SyncCommitHeader) (fileId normalizedPath plaintextHash : Str)
    (contentRef : CommitBodyContentRef) : SyncTreeEntryRecord where
  commitId := header.commitId
  fileId
  normalizedPath
  plaintextHash := some plaintextHash
  contentObjectId := some contentRef.objectId
  packEntryId := some contentRef.entryId
  kind := kindMarkdown

/-- The tree as the changes make it, and the files that are as the remote has them. -/
structure Progress where
  tree : TreeEntries
  syncedFileIds : List Str := []

def Progress.record (progress : Progress) (tree : TreeEntries) (fileId : Str)
    (action : RemoteApplyAction) : Progress where
  tree
  syncedFileIds :=
    if action = .appliedRemote then progress.syncedFileIds ++ [fileId]
    else progress.syncedFileIds

/-- The files that were changed here, when the pull began. -/
abbrev RemoteMergeState := List SyncFileRecord

def RemoteMergeState.dirtyFile (mergeState : RemoteMergeState) (fileId : Str) :
    Option SyncFileRecord :=
  mergeState.find? fun row => row.fileId = fileId

def checkChange (packs : Assoc String UnpackedPack) : CommitBodyFileOp → Except SyncError Plaintext
  | .upsertFile fileId path normalizedPath plaintextHash sizeBytes contentRef => do
    validateRemoteFileIdentity remote fileId path normalizedPath
    let remotePlaintext ← packEntryPlaintext packs contentRef
    validatePlaintextMetadata remote path remotePlaintext plaintextHash sizeBytes
    return remotePlaintext
  | .deleteFile fileId path normalizedPath => do
    validateRemoteFileIdentity remote fileId path normalizedPath
    return []

/-- What the change makes of the tree. -/
def treeAfter (header : SyncCommitHeader) (tree : TreeEntries) : CommitBodyFileOp → TreeEntries
  | .upsertFile fileId _ normalizedPath plaintextHash _ contentRef =>
    tree.insert (upsertedEntry header fileId normalizedPath plaintextHash contentRef)
  | .deleteFile fileId _ _ => tree.remove fileId

def CommitBodyFileOp.fileId : CommitBodyFileOp → Str
  | .upsertFile fileId _ _ _ _ _ => fileId
  | .deleteFile fileId _ _ => fileId

/-- What a change that has passed its checks does to the vault. -/
def actOn (input : PullInput) (mergeState : RemoteMergeState) (header : SyncCommitHeader)
    (tree : TreeEntries) (remotePlaintext : Plaintext) :
    CommitBodyFileOp → Pull RemoteApplyAction
  | .upsertFile fileId path _ _ _ _ =>
    match mergeState.dirtyFile fileId with
    | some dirty =>
      mergeRemoteUpsert remote input header (tree.get fileId) dirty path remotePlaintext
    | none => do
      applyRemoteWrite path remotePlaintext
      pure .appliedRemote
  | .deleteFile fileId path _ =>
    mergeRemoteDelete remote input header (mergeState.dirtyFile fileId) path

/-- One turn of the loop over the changes of a commit. -/
def applyChange (input : PullInput) (mergeState : RemoteMergeState) (commit : DecryptedCommit)
    (progress : Progress) (change : CommitBodyFileOp) : Pull Progress := do
  let remotePlaintext ← lift (checkChange remote commit.packs change)
  let action ← actOn remote input mergeState commit.header progress.tree remotePlaintext change
  pure (progress.record (treeAfter commit.header progress.tree change) change.fileId action)

def applyChanges (input : PullInput) (mergeState : RemoteMergeState) (commit : DecryptedCommit) :
    List CommitBodyFileOp → Progress → Pull Progress
  | [], progress => pure progress
  | change :: changes, progress => do
    let progress ← applyChange remote input mergeState commit progress change
    applyChanges input mergeState commit changes progress

def refreshLocalScan : Pull Unit := do
  let device ← get
  let scannedFiles ← lift (scanVault remote.crates device.vault)
  let files ← lift (applyScan remote.crates device.db.files
    (scannedFiles.map ScannedFile.fileInput))
  modify fun device => { device with db.files := files }

def persistAppliedCommit (commit : DecryptedCommit) (progress : Progress) : Pull Unit := do
  lift (validateTreeId remote commit.body.treeId progress.tree.byPath)
  modify fun device =>
    { device with db := persistTreeCache device.db commit.header.commitId progress.tree.byPath }
  refreshLocalScan remote
  modify fun device =>
    { device with
      db.files := markFilesSynced device.db.files commit.header.commitId progress.syncedFileIds
      db.vault := updateVaultAfterPull device.db.vault commit.header.commitId }

/-- The tree a commit is applied to: a checkpoint names all its files itself. -/
def startingTree (commit : DecryptedCommit) (tree : TreeEntries) : TreeEntries :=
  if commit.header.commitKind = .checkpoint then [] else tree

def applyDecryptedCommit (input : PullInput) (mergeState : RemoteMergeState)
    (commit : DecryptedCommit) (tree : TreeEntries) : Pull TreeEntries := do
  let progress ← applyChanges remote input mergeState commit commit.body.changes
    { tree := startingTree commit tree }
  persistAppliedCommit remote commit progress
  pure progress.tree

/-! ## A pull -/

def materializeChanges (commit : DecryptedCommit) :
    List CommitBodyFileOp → TreeEntries → Except SyncError TreeEntries
  | [], tree => return tree
  | change :: changes, tree => do
    let _ ← checkChange remote commit.packs change
    materializeChanges commit changes (treeAfter commit.header tree change)

def materializeRemoteTreeOnly (commit : DecryptedCommit) (tree : TreeEntries) :
    Except SyncError TreeEntries :=
  materializeChanges remote commit commit.body.changes (startingTree commit tree)

def rematerializeTreeEntries (targetCommitId : String) :
    List SyncCommitHeader → TreeEntries → Except SyncError TreeEntries
  | [], _ => throw (.transport ("local head " ++ targetCommitId ++
      " is not present in remote history"))
  | header :: headers, tree => do
    let commit ← decryptCommit remote header
    let tree ← materializeRemoteTreeOnly remote commit tree
    if header.commitId = targetCommitId then return tree
    else rematerializeTreeEntries targetCommitId headers tree

def initialTreeEntries (db : SyncDb) (vault : SyncVaultRecord) : TreeEntries :=
  match vault.localHeadCommitId with
  | none => []
  | some localHead => TreeEntries.collect (listTreeEntries db localHead)

def initialOrRematerializedTreeEntries (db : SyncDb) (vault : SyncVaultRecord)
    (commits : List SyncCommitHeader) : Except SyncError TreeEntries :=
  let localHead := vault.localHeadCommitId.getD ""
  let tree := initialTreeEntries db vault
  if localHead = "" ∨ tree ≠ [] then return tree
  else rematerializeTreeEntries remote localHead commits []

def replayCommits (input : PullInput) (mergeState : RemoteMergeState) :
    List SyncCommitHeader → TreeEntries → Pull (List String)
  | [], _ => pure []
  | header :: headers, tree => do
    let commit ← lift (decryptCommit remote header)
    let tree ← applyDecryptedCommit remote input mergeState commit tree
    let applied ← replayCommits input mergeState headers tree
    pure (header.commitId :: applied)

def validatePullInput (input : PullInput) : Except SyncError Unit := do
  validateRequired input.pipeline.vaultId.toList "vault_id"
  validateRequired input.pipeline.workspaceId.toList "workspace_id"
  validateRequired input.pipeline.deviceId.toList "device_id"

/-- `head` and `commits` are the answers of `GetHead` and `ListCommits`. -/
def pullRemoteChanges (input : PullInput) (head : SyncHead) (commits : List SyncCommitHeader) :
    Pull (List String) := do
  lift (validatePullInput input)
  let device ← get
  let vault := ensurePullVaultRecord device.db.vault input.pipeline head
  modify fun device => { device with db.vault := some vault }
  if head.currentHeadCommitId = "" then pure []
  else do
    let selection ← lift
      (selectReplayCommits SyncCommitHeader.commitId vault.localHeadCommitId head commits)
    if selection = [] then pure []
    else do
      refreshLocalScan remote
      let device ← get
      let tree ← lift (initialOrRematerializedTreeEntries remote device.db vault commits)
      replayCommits remote input (listDirtyFiles device.db.files) selection tree

/-! ## A server with some commits -/

/-- ASCII paths, and a hash that can be undone. -/
def sampleCrates : Crates where
  toLowercase := List.map asciiLowerChar
  blake3 := List.map fun byte => Char.ofNat byte.toNat

/-- A file with its text, or a removed one. -/
def sampleChange (commitId : String) (change : String × Option String) : CommitBodyFileOp :=
  let path := change.1.toList
  let normalizedPath := path.map asciiLowerChar
  let fileId := fileIdForNormalizedPath sampleCrates normalizedPath
  match change.2 with
  | some text => .upsertFile fileId path normalizedPath (sampleCrates.blake3 (utf8 text))
      (utf8 text).length ⟨"pack_" ++ commitId, change.1⟩
  | none => .deleteFile fileId path normalizedPath

def sampleCommit (commitId : String) (treeId : Str) (changes : List (String × Option String)) :
    DecryptedCommit where
  header := ⟨commitId, .incremental, [], "body_" ++ commitId, "", 0, ["pack_" ++ commitId]⟩
  body := ⟨"kuku.sync.commit-body", 1, commitId, "incremental", [], treeId,
    changes.map (sampleChange commitId), [⟨"pack_" ++ commitId, "content_pack", 0⟩]⟩
  packs := [("pack_" ++ commitId, ⟨0, changes.filterMap fun change =>
    change.2.map fun text => (change.1, utf8 text)⟩)]

/-- Objects are named after their commits, and stand for what they decrypt to. -/
def sampleRemote (commits : List DecryptedCommit) : Remote where
  crates := sampleCrates
  treeJson entries := entries.flatMap fun entry =>
    utf8 (String.ofList (entry.normalizedPath ++ entry.plaintextHash.getD []))
  downloadObjects objectIds := .ok (objectIds.map fun objectId =>
    if commits.any fun commit => commit.header.bodyObjectId = objectId then
      ⟨objectId, .commitBody, "", []⟩
    else ⟨objectId, .contentPack, "", []⟩)
  decryptCommitBody header _ _ :=
    match commits.find? fun commit => commit.header.commitId = header.commitId with
    | some commit => .ok commit.body
    | none => .error (.crypto "decryption failed")
  decryptPack objectId _ _ _ :=
    match commits.findSome? fun commit => commit.packs.get objectId with
    | some pack => .ok pack
    | none => .error (.crypto "decryption failed")

/-- The commits, each with the id of the tree it makes. -/
def sampleHistory : List (String × List (String × Option String)) → TreeEntries →
    List DecryptedCommit
  | [], _ => []
  | (commitId, changes) :: commits, tree =>
    let next := ((materializeRemoteTreeOnly (sampleRemote [])
      (sampleCommit commitId [] changes) tree).toOption).getD []
    sampleCommit commitId (treeIdForEntries (sampleRemote []) (TreeEntries.byPath next))
      changes :: sampleHistory commits next

def sampleInput : PullInput := ⟨⟨"vault_1", "/vault", "workspace_1", "device_1"⟩, 0⟩

/-- A pull from a server with these commits. -/
def samplePull (commits : List DecryptedCommit) : Pull (List String) :=
  pullRemoteChanges (sampleRemote commits) sampleInput
    ⟨(commits.getLast?.map fun commit => commit.header.commitId).getD "", ""⟩
    (commits.map DecryptedCommit.header)

/-- A vault with some files at its root. -/
def sampleVault (files : List (String × String)) : Vault :=
  files.foldl (fun vault file =>
    (vault.write [file.1.toList] (utf8 file.2)).getD vault) Vault.empty

end Kuku.Sync.Applier
