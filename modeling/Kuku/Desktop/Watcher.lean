/-
# Desktop.Watcher -- what the vault watcher tells of the events of the file system

The loop of `start_watching_with_search` takes the events one by one and emits a
`FileChangeEvent` for most of them.  A rename that arrives in two halves is put together again
through one slot, `pending`: the second half is told as a rename from the path in the slot, and
a first half whose second one does not come in time is told as a deletion.

The clock, `fs::metadata` and the order of a hash map's keys are answers of the moment.  Left
out are the search index and the ledger of expected mutations, which see every event that is
emitted, and the channels' ends.
-/
import Kuku.Sync.Scanner

namespace Kuku.Desktop.Watcher

open Kuku.Theory
open Kuku.Sync (Str slashed joined)

/-- An absolute path: the names on the way from `/`. -/
abbrev PathBuf := List Str

/-! ## Events -/

inductive CreateKind where
  | any
  | file
  | folder
  | other

inductive RemoveKind where
  | any
  | file
  | folder
  | other

inductive RenameMode where
  | any
  | movedTo
  | movedFrom
  | both
  | other

inductive ModifyKind where
  | any
  | data
  | metadata
  | name (rename : RenameMode)
  | other

inductive EventKind where
  | any
  | access
  | create (kind : CreateKind)
  | modify (kind : ModifyKind)
  | remove (kind : RemoveKind)
  | other

/-- `notify::Event`. -/
structure Event where
  kind : EventKind
  paths : List PathBuf

inductive ChangeKind where
  | create
  | modify
  | delete
  | rename
  deriving DecidableEq

structure FileChangeEvent where
  kind : ChangeKind
  path : Str
  isDir : Bool
  oldPath : Option Str
  deriving DecidableEq

/-! ## The state of the watcher -/

/-- Times are in nanoseconds. -/
structure PendingRename where
  path : PathBuf
  isDir : Bool
  since : Nat

abbrev PathKindCache := Assoc PathBuf Bool

def pendingRenameTimeoutMs : Nat := 600

/-- `Duration::from_millis(PENDING_RENAME_TIMEOUT_MS)`. -/
def pendingRenameTimeout : Nat := pendingRenameTimeoutMs * 1000000

/-- What the world answers while an event is looked at. -/
structure Moment where
  now : Nat
  metadata : PathBuf → Option Bool
  keyOrder : List PathBuf → List PathBuf
  keyOrder_perm : ∀ keys, (keyOrder keys).Perm keys

structure WatcherState where
  pending : Option PendingRename := none
  cache : PathKindCache := []

/-! ## Paths -/

variable (root : PathBuf) (moment : Moment)

/-- `path.to_string_lossy()`. -/
def pathText (path : PathBuf) : Str := '/' :: joined path

def isIgnored (path : PathBuf) : Bool :=
  root.isPrefixOf path && Search.shouldIgnorePath (path.drop root.length)

def toRelativePath (path : PathBuf) : Str :=
  if root.isPrefixOf path then slashed (joined (path.drop root.length)) else slashed (pathText path)

/-! ## The cache of what is a directory -/

def inferPathKind (path : PathBuf) (hintedIsDir : Option Bool) (cache : PathKindCache) : Bool :=
  ((hintedIsDir.or (moment.metadata path)).or (cache.get path)).getD false

def removeCachedPath (cache : PathKindCache) (path : PathBuf) (isDir : Bool) : PathKindCache :=
  if isDir then cache.filter fun entry => !path.isPrefixOf entry.1 else cache.remove path

/-- The keys, in the order in which the hash map has them. -/
def cachedPaths (cache : PathKindCache) : List PathBuf := moment.keyOrder (cache.map Prod.fst)

def renameCachedPath (cache : PathKindCache) (source target : PathBuf) (isDir : Bool) :
    PathKindCache :=
  if isDir then
    let descendants := (cachedPaths moment cache).filterMap fun candidate =>
      if source.isPrefixOf candidate then
        (cache.get candidate).map fun cachedIsDir => (candidate, cachedIsDir)
      else none
    let moved := descendants.foldl (fun cache entry =>
      (cache.remove entry.1).set (target ++ entry.1.drop source.length) entry.2) cache
    if (moved.get target).isSome then moved else moved.set target true
  else (cache.remove source).set target false

def eqIgnoreAsciiCase (left right : Str) : Bool :=
  left.map Text.asciiLowerChar = right.map Text.asciiLowerChar

def findCaseOnlyCachedPath (cache : PathKindCache) (path : PathBuf) : Option PathBuf :=
  (cachedPaths moment cache).find? fun candidate =>
    candidate ≠ path && eqIgnoreAsciiCase (pathText candidate) (pathText path)

/-! ## One event -/

def renameEvent (source target : PathBuf) (isDir : Bool) : FileChangeEvent where
  kind := .rename
  path := toRelativePath root target
  isDir
  oldPath := some (toRelativePath root source)

def plainEvent (kind : ChangeKind) (path : PathBuf) (isDir : Bool) : FileChangeEvent where
  kind
  path := toRelativePath root path
  isDir
  oldPath := none

/-- `maybe_cleanup_pending`, at a time. -/
def maybeCleanupPending (now : Nat) (state : WatcherState) :
    WatcherState × Option FileChangeEvent :=
  match state.pending with
  | none => (state, none)
  | some pending =>
    if pendingRenameTimeout < now - pending.since then
      ({ pending := none, cache := removeCachedPath state.cache pending.path pending.isDir },
        some (plainEvent root .delete pending.path pending.isDir))
    else (state, none)

def mapCaseOnlyCachedRename (path : PathBuf) (isDir : Bool) (cache : PathKindCache) :
    Option (PathKindCache × FileChangeEvent) :=
  (findCaseOnlyCachedPath moment cache path).map fun oldPath =>
    let isDir := isDir || (cache.get oldPath).getD false
    (renameCachedPath moment cache oldPath path isDir, renameEvent root oldPath path isDir)

/-- The path is in the cache and told as created or modified. -/
def mapSeen (kind : ChangeKind) (path : PathBuf) (isDir : Bool) (state : WatcherState) :
    WatcherState × Option FileChangeEvent :=
  ({ state with cache := state.cache.set path isDir }, some (plainEvent root kind path isDir))

def mapRemoved (path : PathBuf) (isDir : Bool) (state : WatcherState) :
    WatcherState × Option FileChangeEvent :=
  ({ state with cache := removeCachedPath state.cache path isDir },
    some (plainEvent root .delete path isDir))

/-- The first half of a rename. -/
def mapMovedFrom (oldPath : PathBuf) (state : WatcherState) :
    WatcherState × Option FileChangeEvent :=
  let isDir := inferPathKind moment oldPath none state.cache
  ({ state with pending := some ⟨oldPath, isDir, moment.now⟩ }, none)

/-- The second half of a rename: `pending` is taken whether or not it is in time. -/
def mapMovedTo (newPath : PathBuf) (state : WatcherState) : WatcherState × Option FileChangeEvent :=
  match state.pending.filter fun prev => moment.now - prev.since ≤ pendingRenameTimeout with
  | some prev =>
    let isDir := inferPathKind moment newPath (some prev.isDir) state.cache
    ({ pending := none, cache := renameCachedPath moment state.cache prev.path newPath isDir },
      some (renameEvent root prev.path newPath isDir))
  | none =>
    mapSeen root .create newPath (inferPathKind moment newPath none state.cache)
      { state with pending := none }

def mapRenamed (oldPath newPath : PathBuf) (state : WatcherState) :
    WatcherState × Option FileChangeEvent :=
  if isIgnored root oldPath || isIgnored root newPath then (state, none)
  else
    let isDir := inferPathKind moment newPath none state.cache ||
      (state.cache.get oldPath).getD false
    ({ state with cache := renameCachedPath moment state.cache oldPath newPath isDir },
      some (renameEvent root oldPath newPath isDir))

/-- A rename of which one path is known, and not which half it is. -/
def mapRenamedAny (path : PathBuf) (state : WatcherState) : WatcherState × Option FileChangeEvent :=
  let isDir := inferPathKind moment path none state.cache
  match mapCaseOnlyCachedRename root moment path isDir state.cache with
  | some (cache, mapped) => ({ state with cache := cache }, some mapped)
  | none => mapSeen root .modify path isDir state

def mapEvent (event : Event) (state : WatcherState) : WatcherState × Option FileChangeEvent :=
  match event.paths with
  | [] => (state, none)
  | path :: rest =>
    match event.kind, rest with
    | .modify (.name .both), newPath :: _ => mapRenamed root moment path newPath state
    | .modify (.name .any), newPath :: _ => mapRenamed root moment path newPath state
    | .modify (.name .other), newPath :: _ => mapRenamed root moment path newPath state
    | kind, _ =>
      if isIgnored root path then (state, none)
      else match kind with
        | .create .folder => mapSeen root .create path true state
        | .create _ => mapSeen root .create path (inferPathKind moment path none state.cache) state
        | .modify (.name .movedFrom) => mapMovedFrom moment path state
        | .modify (.name .movedTo) => mapMovedTo root moment path state
        | .modify (.name .both) => (state, none)
        | .modify (.name _) => mapRenamedAny root moment path state
        | .modify _ => mapSeen root .modify path (inferPathKind moment path none state.cache) state
        | .remove .folder => mapRemoved root path true state
        | .remove _ => mapRemoved root path (inferPathKind moment path none state.cache) state
        | .any => (state, none)
        | .access => (state, none)
        | .other => (state, none)

/-! ## The loop -/

/-- What `recv_timeout` answers.  An event that is the first half of a rename comes with the
place the path has really gone to, if that is below the watched root; the watcher is not told. -/
inductive Received where
  | event (event : Event) (destination : Option PathBuf)
  | error
  | timeout

/-- One turn of the loop; `cleanupAt` is when `maybe_cleanup_pending` looks at the clock. -/
structure Turn where
  received : Received
  cleanupAt : Nat
  moment : Moment
  ordered : cleanupAt ≤ moment.now

def Turn.step (turn : Turn) (state : WatcherState) : WatcherState × List FileChangeEvent :=
  match turn.received with
  | .error => (state, [])
  | .timeout =>
    let cleaned := maybeCleanupPending root turn.cleanupAt state
    (cleaned.1, cleaned.2.toList)
  | .event event _ =>
    let cleaned := maybeCleanupPending root turn.cleanupAt state
    let mapped := mapEvent root turn.moment event cleaned.1
    (mapped.1, cleaned.2.toList ++ mapped.2.toList)

/-- The events that are emitted over some turns. -/
def emitted : List Turn → WatcherState → List FileChangeEvent
  | [], _ => []
  | turn :: turns, state =>
    (turn.step root state).2 ++ emitted turns (turn.step root state).1

def stateAfter : List Turn → WatcherState → WatcherState
  | [], state => state
  | turn :: turns, state => stateAfter turns (turn.step root state).1

end Kuku.Desktop.Watcher
