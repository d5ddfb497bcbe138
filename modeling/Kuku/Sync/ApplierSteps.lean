/-
# Sync.ApplierSteps -- what each part of a pull can do

One lemma for each function of the applier that acts on the device: when it succeeds, and what
it has done then.  Every result about pulls is derived from these.
-/
import Kuku.Sync.Applier

namespace Kuku.Sync.Applier

open Kuku.Theory List Option Effect

variable {remote : Remote} {input : PullInput} {header : SyncCommitHeader} {path : Str}
  {plaintext : Plaintext} {device device' : Device}

/-- The device with one more file written. -/
def Device.wrote (device : Device) (vault : Vault) (path : Str) : Device :=
  { device with
    vault
    expectedMutations := device.expectedMutations ++ [.write path] }

def Device.removed (device : Device) (location : Location) (path : Str) : Device :=
  { device with
    vault := device.vault.remove location
    expectedMutations := device.expectedMutations ++ [.delete path] }

def Device.conflicted (device : Device) (conflict : SyncConflictRecord) : Device :=
  { device with db.conflicts := upsertConflict device.db.conflicts conflict }

/-! ## Files -/

theorem applyRemoteWrite_ok : applyRemoteWrite path plaintext device = (.ok (), device') ↔
    ∃ location vault, resolveRemotePath path = .ok location ∧
      device.vault.write location plaintext = some vault ∧ device' = device.wrote vault path := by
  simp only [applyRemoteWrite]
  cases resolved : resolveRemotePath path with
  | error error => simp
  | ok location =>
    simp only [Effect.lift_bind_ok, Effect.get_bind]
    cases wrote : device.vault.write location plaintext with
    | none => simp [wrote]
    | some vault => simp [wrote, Device.wrote, eq_comm]

theorem applyRemoteDelete_ok : applyRemoteDelete path device = (.ok (), device') ↔
    ∃ location, resolveRemotePath path = .ok location ∧
      ((device.vault.read location).isSome ∧ device' = device.removed location path ∨
        device.vault.read location = none ∧ device.vault.admits location = true ∧
          device' = device) := by
  simp only [applyRemoteDelete]
  cases resolved : resolveRemotePath path with
  | error error => simp
  | ok location =>
    simp only [Effect.lift_bind_ok, Effect.get_bind]
    cases found : device.vault.read location with
    | some text =>
      constructor
      · intro ran
        cases ran
        exact ⟨location, rfl, .inl ⟨by rw [found]; rfl, rfl⟩⟩
      · rintro ⟨_, isIt, ⟨-, rfl⟩ | ⟨isNone, -⟩⟩
        · cases isIt
          rfl
        · cases isIt
          rw [found] at isNone
          cases isNone
    | none =>
      dsimp only
      constructor
      · intro ran
        split_ifs at ran with admitted
        · cases ran
          exact ⟨location, rfl, .inr ⟨found, admitted, rfl⟩⟩
        · cases ran
      · rintro ⟨_, isIt, ⟨isSome, -⟩ | ⟨-, admitted, rfl⟩⟩
        · cases isIt
          rw [found] at isSome
          cases isSome
        · cases isIt
          rw [if_pos admitted]
          rfl

theorem readLocalFile_ok {text : Plaintext} :
    readLocalFile path device = (.ok text, device') ↔
      device' = device ∧ ∃ location, resolveRemotePath path = .ok location ∧
        device.vault.read location = some text := by
  simp only [readLocalFile]
  cases resolved : resolveRemotePath path with
  | error error => simp
  | ok location =>
    simp only [Effect.lift_bind_ok, Effect.get_bind]
    cases found : device.vault.read location with
    | none => simp [found]
    | some held =>
      constructor
      · intro ran
        cases ran
        exact ⟨rfl, location, rfl, found⟩
      · rintro ⟨rfl, _, isIt, isHeld⟩
        cases isIt
        cases found.symm.trans isHeld
        rfl

/-! ## Conflict copies -/

def conflictRecord (remote : Remote) (input : PullInput) (originalPath conflictPath : Str)
    (baseCommitId : Option String) (header : SyncCommitHeader) : SyncConflictRecord where
  conflictId := conflictIdFor remote originalPath conflictPath baseCommitId header.commitId
    input.nowMs
  path := originalPath
  conflictPath
  baseCommitId
  localCommitId := none
  remoteCommitId := some header.commitId
  status := "open".toList
  createdAtMs := input.nowMs

theorem writeConflictCopy_ok {base : Option String} :
    writeConflictCopy remote input path plaintext base header device = (.ok (), device') ↔
      ∃ conflictPath location vault,
        conflictCopyRelativePath path input.nowMs device.vault = .ok conflictPath ∧
        resolveRemotePath conflictPath = .ok location ∧
        device.vault.write location plaintext = some vault ∧
        device' = (device.wrote vault conflictPath).conflicted
          (conflictRecord remote input path conflictPath base header) := by
  simp only [writeConflictCopy, Effect.get_bind]
  cases isPath : conflictCopyRelativePath path input.nowMs device.vault with
  | error error => simp
  | ok conflictPath =>
    simp only [Effect.lift_bind_ok, Effect.bind_ok, Effect.modify_run]
    constructor
    · rintro ⟨⟨⟩, wroteDevice, wrote, isDevice⟩
      obtain ⟨location, vault, resolved, isVault, rfl⟩ := applyRemoteWrite_ok.mp wrote
      exact ⟨conflictPath, location, vault, rfl, resolved, isVault, (Prod.mk.inj isDevice).2.symm⟩
    · rintro ⟨isIt, location, vault, isSame, resolved, isVault, rfl⟩
      cases isSame
      exact ⟨(), _, applyRemoteWrite_ok.mpr ⟨location, vault, resolved, isVault, rfl⟩, rfl⟩

theorem conflictCopyRelativePath_free {createdAtMs : Int} {vault : Vault} {conflictPath : Str}
    {location : Location}
    (isPath : conflictCopyRelativePath path createdAtMs vault = .ok conflictPath)
    (resolved : resolveRemotePath conflictPath = .ok location) : vault.read location = none := by
  obtain ⟨names, -, chosen⟩ := bind_ok.mp isPath
  dsimp only at chosen
  split at chosen
  · rename_i candidate isFound
    cases chosen
    have isFree := find?_some isFound
    simp only [candidateExists, resolved, Vault.pathExists, Bool.not_eq_true',
      Bool.or_eq_false_iff, isSome_eq_false_iff, isNone_iff_eq_none] at isFree
    exact isFree.2
  · cases chosen

/-! ## A change -/

variable {baseEntry : Option SyncTreeEntryRecord} {dirty : SyncFileRecord}
  {action : RemoteApplyAction} {mergeState : RemoteMergeState} {tree : TreeEntries}

/-- The text of a file that was changed here is merged with the remote one. -/
structure MergesTo (remote : Remote) (baseEntry : Option SyncTreeEntryRecord)
    (dirty : SyncFileRecord) (plaintext : Plaintext) (device : Device)
    (outcome : MarkdownMergeOutcome) : Prop where
  isHere : dirty.deleted = false
  merges : ∃ entry location localText baseText, baseEntry = some entry ∧
    resolveRemotePath dirty.path = .ok location ∧
    device.vault.read location = some localText ∧
    downloadTreeEntryContent remote entry = .ok (some baseText) ∧
    mergeMarkdown baseText localText plaintext = .ok outcome

/-- There is nothing to merge the remote version with. -/
inductive Unmergeable (remote : Remote) (baseEntry : Option SyncTreeEntryRecord)
    (dirty : SyncFileRecord) (plaintext : Plaintext) (device : Device) : Prop where
  | deleted (isDeleted : dirty.deleted = true)
  | noBase (isHere : dirty.deleted = false) (isNone : baseEntry = none)
  | noBaseText (isHere : dirty.deleted = false) (entry : SyncTreeEntryRecord)
      (isSome : baseEntry = some entry)
      (unavailable : downloadTreeEntryContent remote entry = .ok none)
  | conflict (merges : MergesTo remote baseEntry dirty plaintext device .conflict)

theorem mergeRemoteUpsert_ok
    (ran : mergeRemoteUpsert remote input header baseEntry dirty path plaintext device =
      (.ok action, device')) :
    (∃ base, writeConflictCopy remote input path plaintext base header device =
        (.ok (), device') ∧ action = .keptLocalDirty ∧
        Unmergeable remote baseEntry dirty plaintext device) ∨
    (∃ merged, applyRemoteWrite path merged device = (.ok (), device') ∧
      action = (if merged = plaintext then .appliedRemote else .keptLocalDirty) ∧
      MergesTo remote baseEntry dirty plaintext device (.merged merged)) := by
  have copied : ∀ base, (do
      writeConflictCopy remote input path plaintext base header
      pure RemoteApplyAction.keptLocalDirty) device = (.ok action, device') →
      writeConflictCopy remote input path plaintext base header device = (.ok (), device') ∧
        action = .keptLocalDirty := by
    intro base ran
    obtain ⟨⟨⟩, _, copied, rest⟩ := Effect.bind_ok.mp ran
    cases rest
    exact ⟨copied, rfl⟩
  unfold mergeRemoteUpsert at ran
  by_cases isDeleted : dirty.deleted = true
  · rw [if_pos isDeleted] at ran
    obtain ⟨isCopied, isKept⟩ := copied _ ran
    exact .inl ⟨_, isCopied, isKept, .deleted isDeleted⟩
  · have isHere : dirty.deleted = false := Bool.not_eq_true _ ▸ isDeleted
    rw [if_neg isDeleted] at ran
    obtain ⟨localText, _, isRead, read⟩ := Effect.bind_ok.mp ran
    obtain ⟨rfl, location, resolved, found⟩ := readLocalFile_ok.mp isRead
    cases baseEntry with
    | none =>
      obtain ⟨isCopied, isKept⟩ := copied _ read
      exact .inl ⟨_, isCopied, isKept, .noBase isHere rfl⟩
    | some entry =>
      obtain ⟨baseText, _, isBase, based⟩ := Effect.bind_ok.mp read
      obtain ⟨hasBase, rfl⟩ := Prod.mk.inj isBase
      match baseText with
      | none =>
        obtain ⟨isCopied, isKept⟩ := copied _ based
        exact .inl ⟨_, isCopied, isKept, .noBaseText isHere entry rfl hasBase⟩
      | some baseText =>
        obtain ⟨outcome, _, isOutcome, merged⟩ := Effect.bind_ok.mp based
        obtain ⟨hasOutcome, rfl⟩ := Prod.mk.inj isOutcome
        have merges : MergesTo remote (some entry) dirty plaintext _ outcome :=
          ⟨isHere, entry, location, localText, baseText, rfl, resolved, found, hasBase, hasOutcome⟩
        cases outcome with
        | merged text =>
          obtain ⟨⟨⟩, _, wrote, rest⟩ := Effect.bind_ok.mp merged
          cases rest
          exact .inr ⟨text, wrote, rfl, merges⟩
        | conflict =>
          obtain ⟨isCopied, isKept⟩ := copied _ merged
          exact .inl ⟨_, isCopied, isKept, .conflict merges⟩

theorem mergeRemoteDelete_ok {dirty : Option SyncFileRecord}
    (ran : mergeRemoteDelete remote input header dirty path device = (.ok action, device')) :
    action = .appliedRemote ∧
    ((∀ row, dirty = some row → row.deleted = true) ∧
        applyRemoteDelete path device = (.ok (), device') ∨
      ∃ row location localText copied, dirty = some row ∧ row.deleted = false ∧
        resolveRemotePath row.path = .ok location ∧
        device.vault.read location = some localText ∧
        writeConflictCopy remote input path localText none header device = (.ok (), copied) ∧
        applyRemoteDelete path copied = (.ok (), device')) := by
  have deleted : (do
      applyRemoteDelete path
      pure RemoteApplyAction.appliedRemote) device = (.ok action, device') →
      applyRemoteDelete path device = (.ok (), device') ∧ action = .appliedRemote := by
    intro ran
    obtain ⟨⟨⟩, _, deleted, rest⟩ := Effect.bind_ok.mp ran
    cases rest
    exact ⟨deleted, rfl⟩
  unfold mergeRemoteDelete at ran
  cases dirty with
  | none =>
    obtain ⟨isDeleted, isApplied⟩ := deleted ran
    exact ⟨isApplied, .inl ⟨nofun, isDeleted⟩⟩
  | some row =>
    dsimp only at ran
    by_cases isDeleted : row.deleted = true
    · rw [if_pos isDeleted] at ran
      obtain ⟨removed, isApplied⟩ := deleted ran
      refine ⟨isApplied, .inl ⟨?_, removed⟩⟩
      rintro _ ⟨⟩
      exact isDeleted
    · rw [if_neg isDeleted] at ran
      obtain ⟨localText, _, isRead, read⟩ := Effect.bind_ok.mp ran
      obtain ⟨rfl, location, resolved, found⟩ := readLocalFile_ok.mp isRead
      obtain ⟨⟨⟩, copied, isCopied, made⟩ := Effect.bind_ok.mp read
      obtain ⟨⟨⟩, _, removed, rest⟩ := Effect.bind_ok.mp made
      cases rest
      exact ⟨rfl, .inr ⟨row, location, localText, copied, rfl, Bool.not_eq_true _ ▸ isDeleted,
        resolved, found, isCopied, removed⟩⟩

/-! ## The changes of a commit -/

section Changes

variable {commit : DecryptedCommit} {progress progress' : Progress} {change : CommitBodyFileOp}

theorem actOn_upsert {fileId normalizedPath plaintextHash : Str} {sizeBytes : Int}
    {contentRef : CommitBodyContentRef} :
    actOn remote input mergeState header tree plaintext
        (.upsertFile fileId path normalizedPath plaintextHash sizeBytes contentRef) =
      (match mergeState.dirtyFile fileId with
      | some dirty => mergeRemoteUpsert remote input header (tree.get fileId) dirty path plaintext
      | none => do
        applyRemoteWrite path plaintext
        pure .appliedRemote) := rfl

theorem applyChange_ok :
    applyChange remote input mergeState commit progress change device = (.ok progress', device') ↔
      ∃ text action, checkChange remote commit.packs change = .ok text ∧
        actOn remote input mergeState commit.header progress.tree text change device =
          (.ok action, device') ∧
        progress' = progress.record (treeAfter commit.header progress.tree change)
          change.fileId action := by
  simp only [applyChange, Effect.bind_ok, Effect.lift_run, Effect.pure_run, Prod.mk.injEq,
    Except.ok.injEq]
  constructor
  · rintro ⟨text, _, ⟨isText, rfl⟩, action, _, acted, rfl, rfl⟩
    exact ⟨text, action, isText, acted, rfl⟩
  · rintro ⟨text, action, isText, acted, rfl⟩
    exact ⟨text, device, ⟨isText, rfl⟩, action, device', acted, rfl, rfl⟩

theorem applyChanges_cons {changes : List CommitBodyFileOp} :
    applyChanges remote input mergeState commit (change :: changes) progress device =
      (do
        let progress ← applyChange remote input mergeState commit progress change
        applyChanges remote input mergeState commit changes progress) device := rfl

theorem applyChanges_append {first second : List CommitBodyFileOp} :
    applyChanges remote input mergeState commit (first ++ second) progress device =
      (do
        let progress ← applyChanges remote input mergeState commit first progress
        applyChanges remote input mergeState commit second progress) device := by
  induction first generalizing progress device with
  | nil => rfl
  | cons change first ih =>
    rw [cons_append, applyChanges_cons]
    match isFirst : applyChange remote input mergeState commit progress change device with
    | (.error error, stopped) =>
      rw [bind_of_error isFirst, bind_of_error]
      rw [applyChanges_cons, bind_of_error isFirst]
    | (.ok next, moved) =>
      rw [bind_of_ok isFirst, ih]
      match isRest : applyChanges remote input mergeState commit first next moved with
      | (.error error, stopped) =>
        rw [bind_of_error isRest, bind_of_error]
        rw [applyChanges_cons, bind_of_ok isFirst, isRest]
      | (.ok last, arrived) =>
        rw [bind_of_ok isRest, bind_of_ok]
        rw [applyChanges_cons, bind_of_ok isFirst, isRest]

/-- What all changes keep, each change keeps. -/
theorem applyChanges_keeps {R : Device → Device → Prop} (refl : ∀ device, R device device)
    (trans : ∀ first second third, R first second → R second third → R first third)
    (each : ∀ progress change,
      Effect.Keeps R (applyChange remote input mergeState commit progress change))
    (changes : List CommitBodyFileOp) (progress : Progress) :
    Effect.Keeps R (applyChanges remote input mergeState commit changes progress) := by
  induction changes generalizing progress with
  | nil => exact fun device => refl device
  | cons change changes ih => exact (each progress change).bind trans ih

end Changes

end Kuku.Sync.Applier
