/-
# Search.Queue -- notifications, the job queue and the writer thread

A caller holds the manager's lock through one notification, whose test of the rebuild state,
insertion into the pending set and send are separate steps, as are the writer's: taking a job,
clearing its pending path, each read of a file, each transaction, the end of a rebuild.  Files
change at any time.

Two fields are no part of the program.  `promised` keeps, for a path whose `notify_written` has
returned, the texts that the file has had since; a path that is deleted, moved away or made
unreadable is no longer promised.  `owed`: a rebuild was requested while one was running, and
none has started since.
-/
import Kuku.Search.Handlers
import Kuku.Theory.Runs

namespace Kuku.Search

open Kuku.Theory

namespace Queue

inductive WriterJob where
  | fullRebuild
  | indexFile (path : DocId)
  | removeFile (path : DocId) (isDir : Bool)
  | renameFile (oldPath newPath : DocId) (isDir : Bool)
  deriving DecidableEq

structure RebuildQueueState where
  queued : Bool := false
  running : Bool := false
  rerun : Bool := false

/-- A rebuild between two reads: what it has collected, the documents and the unread paths of
its batch, and the batches after it. -/
structure Progress where
  files : List DocId
  docs : List (DocId × File)
  batch : List DocId
  later : List (List DocId)
  deriving DecidableEq

inductive Stage where
  | idle
  | popped (job : WriterJob)
  | reading (path : DocId)
  | writingIndex (path : DocId) (found : Option File)
  | writingRename (oldPath newPath : DocId) (found : Option File)
  | collecting
  | rebuilding (progress : Progress)
  | finishing
  | sending (job : WriterJob)
  deriving DecidableEq

inductive Caller where
  | idle
  | inserting (path : DocId)
  | sending (job : WriterJob)
  deriving DecidableEq

structure State where
  vault : Vault
  unreadable : List DocId := []
  incrementalUpdates : Bool := true
  queue : List WriterJob := []
  pending : List DocId := []
  rebuild : RebuildQueueState := {}
  caller : Caller := .idle
  stage : Stage := .idle
  db : Db := {}
  promised : Assoc DocId (List (List Char)) := []
  owed : Bool := false

inductive Label where
  | write (path : DocId) (file : File)
  | spoil (path : DocId)
  | delete (path : DocId)
  | rename (oldPath newPath : DocId)
  | setIncremental (incrementalUpdates : Bool)
  | notifyWritten (path : DocId)
  | notifyRemoved (path : DocId) (isDir : Bool)
  | notifyRenamed (oldPath newPath : DocId) (isDir : Bool)
  | requestRebuild
  | caller
  | writer

namespace State

variable (lib : Library) (s : State)

/-! ## Files -/

/-- `fs::read_to_string` of a markdown path; no result stands for its error. -/
def readMarkdown (path : DocId) : Option (Option File) :=
  if isMarkdownPath path && decide (path ∈ s.unreadable) && (s.vault.read path).isSome then none
  else some (s.vault.markdownFile path)

def isReadable (path : DocId) : Bool :=
  decide (path ∉ s.unreadable) && (s.vault.read path).isSome

/-- One more text of a promised path. -/
def extended (path : DocId) (file : File) : Assoc DocId (List (List Char)) :=
  match s.promised.get path with
  | some texts => s.promised.set path (texts ++ [file.markdown])
  | none => s.promised

def write (path : DocId) (file : File) : State :=
  { s with
    vault := s.vault.write path file
    unreadable := s.unreadable.filter fun other => other ≠ path
    promised := s.extended path file }

def spoil (path : DocId) : State :=
  { s with unreadable := path :: s.unreadable, promised := s.promised.remove path }

def delete (path : DocId) : State :=
  { s with
    vault := s.vault.remove path
    unreadable := s.unreadable.filter fun other => other ≠ path
    promised := s.promised.remove path }

/-- The file keeps its readability. -/
def rename (oldPath newPath : DocId) : Option State := (s.vault.read oldPath).map fun file =>
    let moved := (s.delete oldPath).write newPath file
    if oldPath ∈ s.unreadable then moved.spoil newPath else moved

/-! ## Notifications -/

/-- `notify_written` returns. -/
def promise (path : DocId) : State :=
  if s.isReadable path then
    { s with
      promised := s.promised.set path ((s.vault.read path).toList.map File.markdown) }
  else s

end State

def queueRebuild (rebuild : RebuildQueueState) : RebuildQueueState × Bool :=
  if rebuild.running then ({ rebuild with rerun := true }, false)
  else if rebuild.queued then (rebuild, false)
  else ({ rebuild with queued := true }, true)

namespace State

variable (lib : Library) (s : State)

def callerRebuild : State :=
  let result := queueRebuild s.rebuild
  { s with
    rebuild := result.1
    caller := if result.2 then .sending .fullRebuild else .idle
    owed := s.owed || s.rebuild.running }

def notifyWritten (path : DocId) : State :=
  if !isMarkdownPath path then s
  else if !s.incrementalUpdates then s.callerRebuild.promise path
  else if s.rebuild.queued && !s.rebuild.running then s.promise path
  else { s with caller := .inserting path }

def notifyRemoved (path : DocId) (isDir : Bool) : State :=
  if !s.incrementalUpdates then s.callerRebuild
  else
    { s with
      pending := s.pending.filter fun other => other ≠ path
      caller := .sending (.removeFile path isDir) }

def notifyRenamed (oldPath newPath : DocId) (isDir : Bool) : State :=
  if !s.incrementalUpdates then s.callerRebuild
  else
    { s with
      pending := s.pending.filter fun other => other ≠ oldPath ∧ other ≠ newPath
      caller := .sending (.renameFile oldPath newPath isDir) }

/-- The rest of a notification: `pending.insert`, then `send`. -/
def callerStep : Option State :=
  match s.caller with
  | .idle => none
  | .inserting path =>
    if path ∈ s.pending then some ({ s with caller := .idle }.promise path)
    else
      some { s with pending := path :: s.pending, caller := .sending (.indexFile path) }
  | .sending job =>
    let sent := { s with queue := s.queue ++ [job], caller := .idle }
    match job with
    | .indexFile path => some (sent.promise path)
    | _ => some sent

/-! ## The writer thread -/

/-- A job about a directory queues a rebuild. -/
def directoryMutation : State :=
  let result := queueRebuild s.rebuild
  { s with
    rebuild := result.1
    stage := if result.2 then .sending .fullRebuild else .idle
    owed := s.owed || s.rebuild.running }

def finish : State :=
  if s.rebuild.rerun then
    { s with
      rebuild := { queued := true, running := false, rerun := false }
      stage := .sending .fullRebuild }
  else { s with rebuild := { s.rebuild with running := false }, stage := .idle }

/-- The documents read are built with the uids of the tables before their batch. -/
def builtDocs (docs : List (DocId × File)) : List IndexedDocument :=
  docs.map fun doc => lib.indexed (existingNoteUid s.db doc.1) doc.1 doc.2

def rebuildStep (progress : Progress) : State :=
  match progress.batch with
  | path :: rest =>
    match s.readMarkdown path with
    | none => { s with rebuild := {}, stage := .idle }
    | some found =>
      { s with
        stage := .rebuilding
          { progress with
            docs := progress.docs ++ (found.map (Prod.mk path)).toList
            batch := rest } }
  | [] =>
    let written := writeBatch s.db (s.builtDocs lib progress.docs)
    match progress.later with
    | batch :: later =>
      { s with db := written, stage := .rebuilding { progress with docs := [], batch, later } }
    | [] =>
      { s with
        db := resolveAllWikilinks lib (removeStale written progress.files)
        stage := .finishing }

def jobStep : WriterJob → State
  | .fullRebuild =>
    { s with
      rebuild := { s.rebuild with queued := false, running := true }
      stage := .collecting
      owed := false }
  | .indexFile path =>
    { s with
      pending := s.pending.filter fun other => other ≠ path
      stage := if isMarkdownPath path then .reading path else .idle }
  | .removeFile path isDir =>
    if isDir then s.directoryMutation
    else { s with db := handleRemoveFile lib s.db path, stage := .idle }
  | .renameFile oldPath newPath isDir =>
    if isDir then s.directoryMutation
    else
      match s.readMarkdown newPath with
      | none => { s with stage := .idle }
      | some found => { s with stage := .writingRename oldPath newPath found }

def writerStep : Option State :=
  match s.stage with
  | .idle =>
    match s.queue with
    | [] => none
    | job :: rest => some { s with queue := rest, stage := .popped job }
  | .popped job => some (s.jobStep lib job)
  | .reading path =>
    match s.readMarkdown path with
    | none => some { s with stage := .idle }
    | some found => some { s with stage := .writingIndex path found }
  | .writingIndex path found =>
    some { s with
      db := writeIndexFile lib s.db path (found.map (lib.indexed (existingNoteUid s.db path) path))
      stage := .idle }
  | .writingRename oldPath newPath found =>
    some { s with
      db := writeRenameFile lib s.db oldPath newPath
        (found.map (lib.indexed (existingNoteUid s.db newPath) newPath))
      stage := .idle }
  | .collecting =>
    some { s with
      stage := .rebuilding
        ⟨Table.sorted id s.vault.collectMarkdownFiles, [], [], rebuildBatches s.vault⟩ }
  | .rebuilding progress => some (s.rebuildStep lib progress)
  | .finishing => some s.finish
  | .sending job => some { s with queue := s.queue ++ [job], stage := .idle }

end State

/-- A notification starts when no other holds the lock. -/
def next (lib : Library) (s : State) : Label → Option State
  | .write path file => some (s.write path file)
  | .spoil path => if (s.vault.read path).isSome then some (s.spoil path) else none
  | .delete path => if (s.vault.read path).isSome then some (s.delete path) else none
  | .rename oldPath newPath => s.rename oldPath newPath
  | .setIncremental incrementalUpdates => some { s with incrementalUpdates }
  | .notifyWritten path => if s.caller = .idle then some (s.notifyWritten path) else none
  | .notifyRemoved path isDir =>
    if s.caller = .idle then some (s.notifyRemoved path isDir) else none
  | .notifyRenamed oldPath newPath isDir =>
    if s.caller = .idle then some (s.notifyRenamed oldPath newPath isDir) else none
  | .requestRebuild => if s.caller = .idle then some s.callerRebuild else none
  | .caller => s.callerStep
  | .writer => s.writerStep lib

/-- A runtime that has just been opened, over an index of any texts. -/
structure Starts (lib : Library) (s : State) : Prop where
  index : ∃ contents, HoldsText lib contents s.db ∧ ∀ path, contents path ≠ none → isMarkdownPath path
  queue : s.queue = []
  pending : s.pending = []
  rebuild : s.rebuild = {}
  caller : s.caller = .idle
  stage : s.stage = .idle
  promised : s.promised = []
  owed : s.owed = false

def system (lib : Library) : System State Label := System.ofStep (Starts lib) (next lib)

/-! ## The condition -/

/-- The job reads the path when it begins, or queues a rebuild. -/
def reads (path : DocId) : WriterJob → Bool
  | .fullRebuild => true
  | .indexFile other => decide (other = path)
  | .removeFile _ isDir => isDir
  | .renameFile _ newPath isDir => isDir || decide (newPath = path)

def Stage.job : Stage → Option WriterJob
  | .popped job => some job
  | .sending job => some job
  | _ => none

def Caller.job : Caller → Option WriterJob
  | .sending job => some job
  | _ => none

namespace State

variable (lib : Library) (s : State)

/-- The jobs that have not begun. -/
def upcoming : List WriterJob := s.stage.job.toList ++ s.queue ++ s.caller.job.toList

/-- With the one that the end of the running rebuild will send. -/
def jobsAhead : List WriterJob := s.upcoming ++ (if s.rebuild.rerun then [.fullRebuild] else [])

def coming (path : DocId) : Bool := s.jobsAhead.any (reads path)

/-- The path may lose its row: nothing is promised of it, or it will be read again. -/
def mayLose (path : DocId) : Bool := (s.promised.get path).isNone || s.coming path

def shows (path : DocId) (texts : List (List Char)) : Bool :=
  texts.any fun text => s.db.loadDocumentFreshness path = some (lib.computeChecksum text)

/-- A failing rebuild was waited for by nobody. -/
def mayFail : Bool :=
  !s.rebuild.rerun && s.promised.all fun entry => s.coming entry.1 || s.shows lib entry.1 entry.2

def safeWriter : Bool :=
  match s.stage with
  | .popped (.removeFile path false) => s.mayLose path
  | .popped (.renameFile oldPath newPath false) =>
    (s.readMarkdown newPath).isNone || decide (oldPath = newPath) || s.mayLose oldPath
  | .writingIndex path found => found.isNone || !takesOver s.db path
  | .rebuilding progress =>
    match progress.batch with
    | path :: _ =>
      match s.readMarkdown path with
      | none => s.mayFail lib
      | some found => found.isNone || !takesOver s.db path
    | [] => true
  | _ => true

end State

def safe (lib : Library) (s : State) : Label → Bool
  | .notifyWritten path => !isMarkdownPath path || isListed path
  | .writer => s.safeWriter lib
  | _ => true

end Queue

end Kuku.Search
