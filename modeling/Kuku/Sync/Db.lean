/-
# Sync.Db -- the tables of the sync database

The rows of `sync_files`, `sync_tree_entries` and `sync_conflicts` with the statements a pull
runs on them.  A statement of one transaction is a function of the table; a transaction that
fails leaves the table as it was.

`sync_commits`, the JSON of a tree and the time stamps of a file are left out: a pull reads
none of them back.
-/
import Kuku.Sync.Scanner
import Kuku.Sync.VaultRecord

namespace Kuku.Sync

open Kuku.Theory

structure SyncFileInput where
  path : Str
  normalizedPath : Str
  kind : Str
  plaintextHash : Option Str
  sizeBytes : Option Int

structure SyncFileRecord where
  fileId : Str
  path : Str
  normalizedPath : Str
  kind : Str
  plaintextHash : Option Str
  sizeBytes : Option Int
  lastSyncedCommitId : Option String
  dirty : Bool
  deleted : Bool

structure SyncTreeEntryRecord where
  commitId : String
  fileId : Str
  normalizedPath : Str
  plaintextHash : Option Str
  contentObjectId : Option String
  packEntryId : Option String
  kind : Str

structure SyncConflictRecord where
  conflictId : Str
  path : Str
  conflictPath : Str
  baseCommitId : Option String
  localCommitId : Option String
  remoteCommitId : Option String
  status : Str
  createdAtMs : Int

/-- What a pull reads and writes of the database of a vault. -/
structure SyncDb where
  vault : Option SyncVaultRecord := none
  files : List SyncFileRecord := []
  trees : Assoc String (List SyncTreeEntryRecord) := []
  conflicts : List SyncConflictRecord := []

def ScannedFile.fileInput (file : ScannedFile) : SyncFileInput :=
  { file with
    kind := kindMarkdown
    plaintextHash := some file.plaintextHash
    sizeBytes := some file.sizeBytes }

/-! ## `sync_files` -/

variable (crates : Crates)

def isBlank (value : Str) : Bool := value.all Text.isSpace

def validateFileInput (file : SyncFileInput) : Except SyncError Unit :=
  if isBlank file.path || isBlank file.normalizedPath then
    .error (.invalidArgument "sync file path is required")
  else if isBlank file.kind then .error (.invalidArgument "sync file kind is required")
  else .ok ()

/-- The row differs from what the scan has found. -/
def SyncFileRecord.differs (row : SyncFileRecord) (file : SyncFileInput) : Bool :=
  row.deleted || row.path != file.path || row.kind != file.kind ||
    row.plaintextHash != file.plaintextHash || row.sizeBytes != file.sizeBytes

/-- `DO UPDATE` of the row with the path. -/
def SyncFileRecord.update (row : SyncFileRecord) (file : SyncFileInput) (dirty : Bool) :
    SyncFileRecord :=
  { row with
    path := file.path
    kind := file.kind
    plaintextHash := file.plaintextHash
    sizeBytes := file.sizeBytes
    dirty := row.dirty || dirty
    deleted := false }

/-- The row the statement would insert. -/
def SyncFileInput.row (file : SyncFileInput) (fileId : Str) (dirty : Bool) : SyncFileRecord :=
  { file with fileId, dirty, lastSyncedCommitId := none, deleted := false }

/-- `INSERT .. ON CONFLICT(normalized_path) DO UPDATE`, under the key `file_id`. -/
def upsertFile (rows : List SyncFileRecord) (file : SyncFileInput) (fileId : Str)
    (dirty : Bool) : Except SyncError (List SyncFileRecord) :=
  if rows.any fun row => row.normalizedPath = file.normalizedPath then
    .ok (rows.map fun row =>
      if row.normalizedPath = file.normalizedPath then row.update file dirty else row)
  else if rows.any fun row => row.fileId = fileId then
    .error (.storage "failed to upsert sync file: UNIQUE constraint failed: sync_files.file_id")
  else .ok (rows ++ [file.row fileId dirty])

/-- The loop of `apply_scan` over the files. -/
def scanFiles (existing : List SyncFileRecord) :
    List SyncFileInput → List Str → List SyncFileRecord → Except SyncError (List SyncFileRecord)
  | [], _, rows => .ok rows
  | file :: files, seen, rows => do
    validateFileInput file
    if file.normalizedPath ∈ seen then
      throw (.invalidArgument ("duplicate normalized sync path: " ++
        String.ofList file.normalizedPath))
    let previous := existing.find? fun row => row.normalizedPath = file.normalizedPath
    let fileId := (previous.map SyncFileRecord.fileId).getD
      (fileIdForNormalizedPath crates file.normalizedPath)
    let dirty := previous.all fun row => row.differs file
    let rows ← upsertFile rows file fileId dirty
    scanFiles existing files (file.normalizedPath :: seen) rows

/-- A row whose file the scan has not found. -/
def SyncFileRecord.markDeleted (row : SyncFileRecord) (seen : List Str) : SyncFileRecord :=
  if row.deleted || row.normalizedPath ∈ seen then row
  else { row with deleted := true, dirty := true }

def applyScan (rows : List SyncFileRecord) (files : List SyncFileInput) :
    Except SyncError (List SyncFileRecord) := do
  let scanned ← scanFiles crates rows files [] rows
  return scanned.map fun row => row.markDeleted (files.map SyncFileInput.normalizedPath)

def listDirtyFiles (rows : List SyncFileRecord) : List SyncFileRecord :=
  Table.sorted SyncFileRecord.normalizedPath (rows.filter SyncFileRecord.dirty)

def markFilesSynced (rows : List SyncFileRecord) (commitId : String) (fileIds : List Str) :
    List SyncFileRecord :=
  rows.map fun row =>
    if row.fileId ∈ fileIds then
      { row with dirty := false, lastSyncedCommitId := some commitId }
    else row

/-! ## `sync_tree_entries` -/

/-- A `BTreeMap` of tree entries: each file once, in the order of the ids. -/
abbrev TreeEntries := List SyncTreeEntryRecord

namespace TreeEntries

def get (tree : TreeEntries) (fileId : Str) : Option SyncTreeEntryRecord :=
  Table.get SyncTreeEntryRecord.fileId tree fileId

def insert (tree : TreeEntries) (entry : SyncTreeEntryRecord) : TreeEntries :=
  Table.sorted SyncTreeEntryRecord.fileId (Table.put SyncTreeEntryRecord.fileId tree entry)

def remove (tree : TreeEntries) (fileId : Str) : TreeEntries :=
  tree.filter fun entry => entry.fileId ≠ fileId

def collect (entries : List SyncTreeEntryRecord) : TreeEntries := entries.foldl insert []

def byPath (tree : TreeEntries) : List SyncTreeEntryRecord :=
  Table.sorted SyncTreeEntryRecord.normalizedPath tree

end TreeEntries

def persistTreeCache (db : SyncDb) (commitId : String) (entries : List SyncTreeEntryRecord) :
    SyncDb :=
  { db with trees := db.trees.set commitId entries }

def listTreeEntries (db : SyncDb) (commitId : String) : List SyncTreeEntryRecord :=
  Table.sorted SyncTreeEntryRecord.normalizedPath ((db.trees.get commitId).getD [])

/-! ## `sync_conflicts` -/

def upsertConflict (conflicts : List SyncConflictRecord) (conflict : SyncConflictRecord) :
    List SyncConflictRecord :=
  match Table.get SyncConflictRecord.conflictId conflicts conflict.conflictId with
  | some previous => Table.put SyncConflictRecord.conflictId conflicts
      { conflict with createdAtMs := previous.createdAtMs }
  | none => conflicts ++ [conflict]

end Kuku.Sync
