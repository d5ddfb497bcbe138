/-
# Sync.SyncError -- the errors of the desktop's sync code

`SyncError` (`errors.rs`) with its messages, the category a command reports
(`SyncErrorCategory`), and the errors a call to the server ends in
(`sync_rpc_error`, `client.rs`).
-/
import Kuku.Theory.Text

namespace Kuku.Sync

open Kuku.Theory

inductive SyncError where
  | crypto (message : String)
  | integrity (message : String)
  | invalidArgument (message : String)
  | loginRequired
  | notConfigured
  | offline (message : String)
  | permissionRequired
  | quotaExceeded (message : String)
  | serialization (message : String)
  | server (message : String)
  | storage (message : String)
  | syncDisabled
  | transport (message : String)
  | unsupportedVersion (version : Nat)
  deriving DecidableEq

/-- The codes of the server's errors (`handler.go`, `serviceError`) the client tells apart. -/
inductive RpcCode where
  | unauthenticated
  | permissionDenied
  | resourceExhausted
  | unavailable
  | internal
  | failedPrecondition
  | aborted
  | alreadyExists
  | invalidArgument

def syncRpcError (operation : String) (code : RpcCode) (text : String) : SyncError :=
  let message := operation ++ " failed: " ++ text
  match code with
  | .unauthenticated => .loginRequired
  | .permissionDenied => .permissionRequired
  | .resourceExhausted => .quotaExceeded message
  | .unavailable => .offline message
  | .internal => .server message
  | .failedPrecondition =>
    if Text.contains (Text.asciiLower text) "sync disabled" then .syncDisabled
    else .transport message
  | _ => .transport message

/-- `is_head_conflict` (`commands.rs`). -/
def isHeadConflict : SyncError → Bool
  | .transport message => Text.contains (Text.asciiLower message) "head conflict"
  | _ => false

end Kuku.Sync
