/-
# Sync.Replay -- which commits a pull replays

`select_replay_commits` (`applier.rs`): everything after the local head, or, for a vault
that has no local head, everything from the latest checkpoint on.  It reads nothing of a
commit but its id.
-/
import Kuku.Sync.SyncError
import Kuku.Sync.VaultRecord

namespace Kuku.Sync

section Select

variable {γ : Type} (commitId : γ → String)

/-- The position the replay starts at. -/
def replayStart (localHead : String) (head : SyncHead) (commits : List γ) :
    Except SyncError Nat :=
  if localHead = "" then
    if head.latestCheckpointCommitId = "" then .ok 0
    else
      match commits.findIdx? fun commit => commitId commit = head.latestCheckpointCommitId with
      | some index => .ok index
      | none =>
        .error (.transport ("latest checkpoint " ++ head.latestCheckpointCommitId ++
          " is missing from remote history"))
  else
    match commits.findIdx? fun commit => commitId commit = localHead with
    | some index => .ok (index + 1)
    | none =>
      .error (.transport ("local head " ++ localHead ++ " is not present in remote history"))

def selectReplayCommits (localHeadCommitId : Option String) (head : SyncHead)
    (commits : List γ) : Except SyncError (List γ) := do
  let localHead := localHeadCommitId.getD ""
  if localHead = head.currentHeadCommitId then return []
  let start ← replayStart commitId localHead head commits
  let replay := commits.drop start
  if replay.getLast?.map commitId = some head.currentHeadCommitId then return replay
  throw (.transport ("remote history does not include head " ++ head.currentHeadCommitId))

theorem selectReplayCommits_suffix {localHeadCommitId : Option String} {head : SyncHead}
    {commits replay : List γ}
    (selected : selectReplayCommits commitId localHeadCommitId head commits = .ok replay) :
    replay <:+ commits := by
  simp only [selectReplayCommits, bind, Except.bind, pure, Except.pure, throw, throwThe,
    MonadExceptOf.throw] at selected
  split at selected
  · cases selected
    exact List.nil_suffix
  · split at selected
    · cases selected
    · split at selected <;> cases selected
      exact List.drop_suffix _ _

end Select

end Kuku.Sync
