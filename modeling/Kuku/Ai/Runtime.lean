/-
# Ai.Runtime -- the record of one session

`SessionRuntime` is what every turn, command and tool of a session shares, each part
behind a lock of its own: the mode, the messages, the approvals that are waited for, the
checksums of the paths the session knows, and the control record that says whether a
turn runs and how to cancel it.  Every function here is one critical section.

A `CancellationToken` and a oneshot channel are numbers, given out by counters.
-/
import Kuku.Ai.History

namespace Kuku.Ai

open Kuku.Theory

inductive SessionStatus where
  | idle
  | streaming
  | awaitingApproval
  | applying
  deriving DecidableEq

inductive ApprovalDecision where
  | approve
  | reject
  deriving DecidableEq

/-- A `CancellationToken`. -/
abbrev Token := Nat

abbrev Channel := Nat

structure SessionControl where
  status : SessionStatus
  cancel : Option Token
  deferredCancel : Bool

structure PathSnapshot where
  checksum : Str
  isDir : Bool

structure SessionRuntime where
  mode : ChatMode
  messages : List ChatMessage
  editorContext : EditorContext
  approvals : Str → Option Channel
  pathSnapshots : Str → Option PathSnapshot
  control : SessionControl

namespace SessionRuntime

def new (mode : ChatMode) : SessionRuntime where
  mode
  messages := []
  editorContext := {}
  approvals _ := none
  pathSnapshots _ := none
  control := ⟨.idle, none, false⟩

def replaceMode (session : SessionRuntime) (mode : ChatMode) : ChatMode × SessionRuntime :=
  (session.mode, { session with mode := mode })

/-- `start_run`, with the token it would give out. -/
def startRun (session : SessionRuntime) (cancel : Token) : Except AiError SessionRuntime :=
  if session.control.status ≠ .idle then .error .sessionBusy
  else .ok { session with control := ⟨.streaming, some cancel, false⟩ }

/-- `cancel`, with the token that it cancels. -/
def cancel (session : SessionRuntime) : Option Token × SessionRuntime :=
  match session.control.status with
  | .applying =>
    (session.control.cancel,
      { session with control := { session.control with deferredCancel := true } })
  | _ =>
    (session.control.cancel,
      { session with control := { session.control with cancel := none } })

def setStatus (session : SessionRuntime) (status : SessionStatus) : SessionRuntime :=
  { session with control := { session.control with status := status } }

def beginAwaitingApproval (session : SessionRuntime) (callId : Str) (channel : Channel) :
    SessionRuntime :=
  { session with
    approvals := Function.update session.approvals callId (some channel)
    control := { session.control with status := .awaitingApproval } }

def clearApproval (session : SessionRuntime) (callId : Str) : SessionRuntime :=
  { session with approvals := Function.update session.approvals callId none }

def pushMessage (session : SessionRuntime) (message : ChatMessage) : SessionRuntime :=
  { session with messages := session.messages ++ [message] }

/-- `complete_run`, and whether a cancel was deferred. -/
def completeRun (session : SessionRuntime) : Bool × SessionRuntime :=
  (session.control.deferredCancel, { session with control := ⟨.idle, none, false⟩ })

/-! ## The paths a session knows -/

abbrev Snapshots := Str → Option PathSnapshot

def rememberPathSnapshot (session : SessionRuntime) (path : Str) (snapshot : PathSnapshot) :
    SessionRuntime :=
  { session with pathSnapshots := Function.update session.pathSnapshots path (some snapshot) }

/-- What a successful operation leaves at its paths, without reading them again. -/
def snapshotsAfter (hash : Str → Str) (snapshots : Snapshots) : MutationOp → Snapshots
  | .createFile path content =>
    Function.update snapshots path (some ⟨hash content, false⟩)
  | .replaceFile path content _ =>
    Function.update snapshots path (some ⟨hash content, false⟩)
  | .createDirectory path => Function.update snapshots path (some ⟨hash [], true⟩)
  | .deleteFile path _ => Function.update snapshots path none
  | .deleteDirectory path _ => Function.update snapshots path none
  | .renameFile source target =>
    -- `insert` of what `remove` gave, or `remove` of what was known at the target
    Function.update (Function.update snapshots source none) target (snapshots source)

def snapshotsCleared (snapshots : Snapshots) : MutationOp → Snapshots
  | .createFile path _ => Function.update snapshots path none
  | .createDirectory path => Function.update snapshots path none
  | .replaceFile path _ _ => Function.update snapshots path none
  | .deleteFile path _ => Function.update snapshots path none
  | .deleteDirectory path _ => Function.update snapshots path none
  | .renameFile source target =>
    Function.update (Function.update snapshots source none) target none

def applySuccessfulMutation (hash : Str → Str) (session : SessionRuntime)
    (operations : List MutationOp) : SessionRuntime :=
  { session with pathSnapshots := operations.foldl (snapshotsAfter hash) session.pathSnapshots }

def clearMutationSnapshots (session : SessionRuntime) (operations : List MutationOp) :
    SessionRuntime :=
  { session with pathSnapshots := operations.foldl snapshotsCleared session.pathSnapshots }

end SessionRuntime

end Kuku.Ai
