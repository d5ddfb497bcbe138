/-
# Sync.EqualContent -- a remote version that is what the vault has already

The merge of two equal texts is that text, but the applier comes to the merge only for a file
that is not deleted here and whose old version it can get; before that, a file that counts as
changed here gets a conflict copy, whatever the remote text is (`taken_as_equal_iff`).
-/
import Kuku.Sync.ApplierSteps

namespace Kuku.Sync.Applier

open Kuku.Theory List Effect

variable {remote : Remote} {input : PullInput} {mergeState : RemoteMergeState}
  {commit : DecryptedCommit} {progress progress' : Progress} {device device' : Device}

/-! ## What stays synced -/

theorem mem_record {tree : TreeEntries} {fileId other : Str} {action : RemoteApplyAction}
    (member : other ∈ progress.syncedFileIds) :
    other ∈ (progress.record tree fileId action).syncedFileIds := by
  unfold Progress.record
  dsimp only
  split_ifs
  · exact mem_append_left _ member
  · exact member

theorem mem_synced_applyChanges {changes : List CommitBodyFileOp} {fileId : Str}
    (ran : applyChanges remote input mergeState commit changes progress device =
      (.ok progress', device'))
    (member : fileId ∈ progress.syncedFileIds) : fileId ∈ progress'.syncedFileIds := by
  induction changes generalizing progress device with
  | nil =>
    cases ran
    exact member
  | cons change changes ih =>
    obtain ⟨next, moved, isFirst, isRest⟩ := Effect.bind_ok.mp ran
    obtain ⟨text, action, -, -, rfl⟩ := applyChange_ok.mp isFirst
    exact ih isRest (mem_record member)

/-- The rows of a file are clean at a commit. -/
def CleanAt (device : Device) (fileId : Str) (commitId : String) : Prop :=
  ∀ row ∈ device.db.files, row.fileId = fileId →
    row.dirty = false ∧ row.lastSyncedCommitId = some commitId

theorem cleanAt_persisted {fileId : Str} (member : fileId ∈ progress.syncedFileIds)
    (persisted : persistAppliedCommit remote commit progress device = (.ok (), device')) :
    CleanAt device' fileId commit.header.commitId := by
  obtain ⟨⟨⟩, _, -, later⟩ := Effect.bind_ok.mp persisted
  obtain ⟨⟨⟩, _, -, later⟩ := Effect.bind_ok.mp later
  obtain ⟨⟨⟩, scanned, -, last⟩ := Effect.bind_ok.mp later
  cases last
  intro row isRow isFile
  obtain ⟨old, -, rfl⟩ := mem_map.mp isRow
  by_cases isSynced : old.fileId ∈ progress.syncedFileIds
  · rw [if_pos isSynced]
    exact ⟨rfl, rfl⟩
  · rw [if_neg isSynced] at isFile
    exact absurd (isFile ▸ member) isSynced

/-! ## Equal texts -/

section Equal

variable {fileId path normalizedPath plaintextHash : Str} {sizeBytes : Int}
  {contentRef : CommitBodyContentRef} {text : Plaintext} {after : List CommitBodyFileOp}

/-- The vault has a file of this normalized path with this text, and it is the one that a row
of a changed file is about. -/
def LocalTextIs (remote : Remote) (mergeState : RemoteMergeState) (fileId normalizedPath : Str)
    (text : Plaintext) (device : Device) : Prop :=
  ∃ location, normalizedOf remote.crates location = .ok normalizedPath ∧
    device.vault.read location = some text ∧
    ∀ dirty, mergeState.dirtyFile fileId = some dirty → dirty.deleted = false →
      resolveRemotePath dirty.path = .ok location

/-- The upsert leaves every file as it is, brings no conflict, and once its commit is applied
the file is clean there. -/
def TakenAsEqual (remote : Remote) (input : PullInput) (mergeState : RemoteMergeState)
    (commit : DecryptedCommit) (progress : Progress) (change : CommitBodyFileOp)
    (after : List CommitBodyFileOp) (device : Device) : Prop :=
  ∃ progress' device', applyChange remote input mergeState commit progress change device =
      (.ok progress', device') ∧
    (∀ location, device'.vault.read location = device.vault.read location) ∧
    device'.db.conflicts = device.db.conflicts ∧
    ∀ last arrived final, applyChanges remote input mergeState commit after progress' device' =
        (.ok last, arrived) →
      persistAppliedCommit remote commit last arrived = (.ok (), final) →
      CleanAt final change.fileId commit.header.commitId

/-- The file stands under the very path the commit has for it, and if it was changed here, it
is not deleted and its old version can be had. -/
structure ReachesMerge (remote : Remote) (mergeState : RemoteMergeState) (tree : TreeEntries)
    (fileId path : Str) (text : Plaintext) (device : Device) : Prop where
  samePath : ∃ location, resolveRemotePath path = .ok location ∧
    device.vault.read location = some text
  hasBase : ∀ dirty, mergeState.dirtyFile fileId = some dirty → dirty.deleted = false ∧
    ∃ entry base, tree.get fileId = some entry ∧
      downloadTreeEntryContent remote entry = .ok (some base)

theorem mergeMarkdown_equal (base : Plaintext) :
    mergeMarkdown base text text = .ok (.merged text) := by
  unfold mergeMarkdown
  rw [if_pos rfl]
  rfl

/-- A text written where it stands changes nothing. -/
theorem rewrite_same {location : Location} {vault : Vault}
    (wrote : device.vault.write location text = some vault)
    (found : device.vault.read location = some text) (other : Location) :
    vault.read other = device.vault.read other := by
  by_cases isIt : other = location
  · rw [isIt, Vault.read_write_self wrote, found]
  · exact Vault.read_write_of_ne wrote isIt

theorem applyRemoteWrite_same (samePath : ∃ location, resolveRemotePath path = .ok location ∧
      device.vault.read location = some text) :
    ∃ vault, applyRemoteWrite path text device = (.ok (), device.wrote vault path) ∧
      ∀ location, vault.read location = device.vault.read location := by
  obtain ⟨location, resolved, found⟩ := samePath
  obtain ⟨vault, wrote⟩ := Vault.write_of_admits text (Vault.admits_of_read found)
  exact ⟨vault, applyRemoteWrite_ok.mpr ⟨location, vault, resolved, wrote, rfl⟩,
    rewrite_same wrote found⟩

/-- A conflict copy does change the vault. -/
theorem copied_differs {base : Option String} {header : SyncCommitHeader}
    (copied : writeConflictCopy remote input path text base header device = (.ok (), device')) :
    ∃ location, device'.vault.read location ≠ device.vault.read location := by
  obtain ⟨conflictPath, location, vault, isPath, resolved, wrote, rfl⟩ :=
    writeConflictCopy_ok.mp copied
  refine ⟨location, ?_⟩
  rw [conflictCopyRelativePath_free isPath resolved]
  exact fun same => nomatch (Vault.read_write_self wrote).symm.trans same

/-- A file that the action has left as the remote has it is synced. -/
theorem mem_record_self {tree : TreeEntries} {fileId : Str} :
    fileId ∈ (progress.record tree fileId .appliedRemote).syncedFileIds :=
  mem_append_right _ mem_cons_self

variable {header : SyncCommitHeader}

/-- The three-way merge is reached. -/
theorem mergeRemoteUpsert_equal {tree : TreeEntries} {dirty : SyncFileRecord}
    (isDirty : mergeState.dirtyFile fileId = some dirty)
    (reaches : ReachesMerge remote mergeState tree fileId path text device)
    (localText : ∃ location, resolveRemotePath dirty.path = .ok location ∧
      device.vault.read location = some text) :
    mergeRemoteUpsert remote input header (tree.get fileId) dirty path text device =
      (do applyRemoteWrite path text; pure RemoteApplyAction.appliedRemote) device := by
  obtain ⟨isHere, entry, base, hasEntry, hasBase⟩ := reaches.hasBase dirty isDirty
  unfold mergeRemoteUpsert
  rw [if_neg (by rw [isHere]; exact Bool.false_ne_true),
    bind_of_ok (readLocalFile_ok.mpr ⟨rfl, localText⟩), hasEntry]
  dsimp only
  rw [bind_of_ok (by rw [lift_run, hasBase])]
  dsimp only
  rw [bind_of_ok (by rw [lift_run, mergeMarkdown_equal])]
  simp only [if_true]

/-- An upsert of what the vault has already is taken as equal exactly when the file stands
under the remote path and, if it was changed here, the merge is reached. -/
theorem taken_as_equal_iff (remote : Remote) (input : PullInput) (mergeState : RemoteMergeState)
    (commit : DecryptedCommit) (progress : Progress) (after : List CommitBodyFileOp)
    (device : Device) (fileId path normalizedPath plaintextHash : Str) (sizeBytes : Int)
    (contentRef : CommitBodyContentRef) (text : Plaintext)
    (checked : checkChange remote commit.packs (.upsertFile fileId path normalizedPath
      plaintextHash sizeBytes contentRef) = .ok text)
    (isLocal : LocalTextIs remote mergeState fileId normalizedPath text device) :
    TakenAsEqual remote input mergeState commit progress
        (.upsertFile fileId path normalizedPath plaintextHash sizeBytes contentRef) after device ↔
      ReachesMerge remote mergeState progress.tree fileId path text device := by
  obtain ⟨_, -, found, isRow⟩ := isLocal
  constructor
  · rintro ⟨progress', device', ran, sameFiles, -, -⟩
    obtain ⟨_, action, isText, acted, -⟩ := applyChange_ok.mp ran
    cases checked.symm.trans isText
    have samePath : ∀ {merged}, applyRemoteWrite path merged device = (.ok (), device') →
        ∃ location, resolveRemotePath path = .ok location ∧
          device.vault.read location = some merged := by
      intro merged wrote
      obtain ⟨location, vault, resolved, isVault, rfl⟩ := applyRemoteWrite_ok.mp wrote
      exact ⟨location, resolved, (sameFiles location).symm.trans (Vault.read_write_self isVault)⟩
    simp only [actOn] at acted
    cases isDirty : mergeState.dirtyFile fileId with
    | none =>
      rw [isDirty] at acted
      obtain ⟨⟨⟩, _, wrote, rest⟩ := Effect.bind_ok.mp acted
      cases rest
      exact ⟨samePath wrote, fun dirty isSome => nomatch isDirty.symm.trans isSome⟩
    | some dirty =>
      rw [isDirty] at acted
      obtain ⟨_, copied, -⟩ | ⟨merged, wrote, -, isHere, entry, location, localText, base, hasEntry,
        resolved, isRead, hasBase, merges⟩ := mergeRemoteUpsert_ok acted
      · obtain ⟨location, differs⟩ := copied_differs copied
        exact absurd (sameFiles location) differs
      · cases resolved.symm.trans (isRow dirty isDirty isHere)
        cases isRead.symm.trans found
        rw [mergeMarkdown_equal] at merges
        cases merges
        refine ⟨samePath wrote, fun other isOther => ?_⟩
        cases isDirty.symm.trans isOther
        exact ⟨isHere, entry, base, hasEntry, hasBase⟩
  · intro reaches
    obtain ⟨vault, wrote, sameFiles⟩ := applyRemoteWrite_same reaches.samePath
    have wrotes : (do applyRemoteWrite path text; pure RemoteApplyAction.appliedRemote) device =
        (.ok .appliedRemote, device.wrote vault path) :=
      bind_of_ok wrote
    refine ⟨_, device.wrote vault path,
      applyChange_ok.mpr ⟨text, .appliedRemote, checked, ?_, rfl⟩, sameFiles, rfl, ?_⟩
    · simp only [actOn]
      cases isDirty : mergeState.dirtyFile fileId with
      | none => exact wrotes
      | some dirty =>
        have isHere := (reaches.hasBase dirty isDirty).1
        dsimp only
        rw [mergeRemoteUpsert_equal isDirty reaches ⟨_, isRow dirty isDirty isHere, found⟩]
        exact wrotes
    · intro last arrived final ran persisted
      exact cleanAt_persisted (mem_synced_applyChanges ran mem_record_self) persisted

end Equal

/-! ## The first pull of a vault that has the file -/

def firstCommits : List DecryptedCommit := sampleHistory [("c1", [("a.md", some "text")])] []

def firstChange : CommitBodyFileOp := sampleChange "c1" ("a.md", some "text")

def firstDevice : Device := { vault := sampleVault [("a.md", "text")] }

/-- What the first scan makes of the vault: every file counts as changed here. -/
def firstMergeState : RemoteMergeState :=
  listDirtyFiles (refreshLocalScan (sampleRemote firstCommits) firstDevice).2.db.files

theorem first_checked : checkChange (sampleRemote firstCommits)
    (sampleCommit "c1" [] [("a.md", some "text")]).packs firstChange = .ok (Text.utf8 "text") := by
  decide +kernel

theorem first_local {mergeState : RemoteMergeState}
    (isRow : ∀ dirty ∈ mergeState, dirty.path = "a.md".toList) :
    LocalTextIs (sampleRemote firstCommits) mergeState firstChange.fileId "a.md".toList
      (Text.utf8 "text") firstDevice := by
  refine ⟨["a.md".toList], by decide +kernel, by decide +kernel, fun dirty isDirty _ => ?_⟩
  rw [isRow dirty (mem_of_find?_eq_some isDirty)]
  decide +kernel

/-- For a vault that has nothing changed, an equal text is taken as equal. -/
theorem taken_as_equal_clean :
    TakenAsEqual (sampleRemote firstCommits) sampleInput []
      (sampleCommit "c1" [] [("a.md", some "text")]) { tree := [] } firstChange [] firstDevice :=
  (taken_as_equal_iff (sampleRemote firstCommits) sampleInput []
    (sampleCommit "c1" [] [("a.md", some "text")]) { tree := [] } [] firstDevice _ _ _ _ _ _ _
    first_checked (first_local nofun)).mpr
    ⟨⟨["a.md".toList], by decide +kernel, by decide +kernel⟩, nofun⟩

/-- The first pull brings a conflict copy of a file that the vault has already. -/
theorem first_pull_conflicts :
    ¬ TakenAsEqual (sampleRemote firstCommits) sampleInput firstMergeState
      (sampleCommit "c1" [] [("a.md", some "text")]) { tree := [] } firstChange [] firstDevice ∧
    LocalTextIs (sampleRemote firstCommits) firstMergeState firstChange.fileId "a.md".toList
      (Text.utf8 "text") firstDevice ∧
    (samplePull firstCommits firstDevice).2.db.conflicts.map SyncConflictRecord.conflictPath =
      ["a.conflict-19700101-000000.md".toList] := by
  refine ⟨?_, first_local (by decide +kernel), by decide +kernel⟩
  rintro ⟨progress', device', ran, -, sameConflicts, -⟩
  have conflicted : (applyChange (sampleRemote firstCommits) sampleInput firstMergeState
      (sampleCommit "c1" [] [("a.md", some "text")]) { tree := [] } firstChange
      firstDevice).2.db.conflicts ≠ [] := by
    decide +kernel
  rw [ran] at conflicted
  exact conflicted sameConflicts

end Kuku.Sync.Applier
