/-
# Sync.IntegrityFailures -- what a commit that fails an integrity check leaves behind

The changes of a commit are checked one by one, each right before it is acted on, and the id of
the tree is checked after all of them.  So a commit whose first check fails leaves nothing
behind, and one that fails later leaves the files of the changes before
(`nothing_changed_iff`).
-/
import Kuku.Sync.ApplierSteps

namespace Kuku.Sync.Applier

open Kuku.Theory List Effect

variable {remote : Remote} {input : PullInput} {header : SyncCommitHeader} {path : Str}
  {plaintext : Plaintext} {device device' : Device} {mergeState : RemoteMergeState}
  {tree : TreeEntries} {message : String}

/-! ## What raises no alarm -/

/-- The computation does not end in an integrity error. -/
def Calm {α : Type} (result : Except SyncError α) : Prop :=
  ∀ message, result ≠ .error (.integrity message)

theorem Calm.ok {α : Type} (value : α) : Calm (.ok value : Except SyncError α) := nofun

variable {α β : Type}

theorem Calm.bind {result : Except SyncError α} {next : α → Except SyncError β}
    (first : Calm result) (rest : ∀ value, Calm (next value)) : Calm (result >>= next) := by
  cases result with
  | error error => exact fun message isAlarm => first message (by cases isAlarm; rfl)
  | ok value => exact rest value

theorem Calm.map {result : Except SyncError α} (first : Calm result) (f : α → β) :
    Calm (result.map f) := by
  cases result with
  | error error => exact fun message isAlarm => first message (by cases isAlarm; rfl)
  | ok value => exact Calm.ok _

theorem Calm.mapM {f : α → Except SyncError β} (each : ∀ value, Calm (f value)) (values : List α) :
    Calm (values.mapM f) := by
  induction values with
  | nil => exact Calm.ok _
  | cons value values ih =>
    rw [mapM_cons]
    exact (each value).bind fun _ => ih.bind fun _ => Calm.ok _

theorem Calm.pull_bind {x : Pull α} {next : α → Pull β} (first : ∀ device, Calm (x device).1)
    (rest : ∀ value device, Calm (next value device).1) (device : Device) :
    Calm ((x >>= next) device).1 := by
  match ran : x device with
  | (.ok value, moved) =>
    rw [bind_of_ok ran]
    exact rest value moved
  | (.error error, stopped) =>
    rw [bind_of_error ran]
    intro message isAlarm
    have alarmed := first device message
    rw [ran] at alarmed
    exact alarmed (by cases isAlarm; rfl)

theorem resolveComponents_calm (names : List Str) (resolved : Location) :
    Calm (resolveComponents path names resolved) := by
  induction names generalizing resolved with
  | nil => exact Calm.ok _
  | cons name names ih =>
    unfold resolveComponents
    split_ifs
    · exact ih _
    · exact nofun
    · exact ih _
    · exact ih _

theorem resolveRemotePath_calm : Calm (resolveRemotePath path) := by
  unfold resolveRemotePath
  split_ifs
  · exact nofun
  · exact resolveComponents_calm _ _

theorem conflictCopyRelativePath_calm {vault : Vault} :
    Calm (conflictCopyRelativePath path input.nowMs vault) := by
  have relative : Calm (relativeComponents path) := by
    unfold relativeComponents
    dsimp only
    split_ifs <;> exact nofun
  refine relative.bind fun _ => ?_
  dsimp only
  split
  · exact Calm.ok _
  · exact nofun

theorem mergeMarkdown_calm (base localText : Plaintext) :
    Calm (mergeMarkdown base localText plaintext) := by
  have decoded : ∀ bytes, Calm (utf8OrConflict bytes) := by
    intro bytes
    unfold utf8OrConflict
    split <;> exact nofun
  unfold mergeMarkdown
  split_ifs
  · exact Calm.ok _
  · exact Calm.ok _
  · exact Calm.ok _
  · refine (decoded _).bind fun _ => (decoded _).bind fun _ => (decoded _).bind fun _ => ?_
    split <;> exact Calm.ok _

theorem normalizedOf_calm (crates : Crates) (location : Location) :
    Calm (normalizedOf crates location) := by
  unfold normalizedOf normalizeVaultRelativePath
  dsimp only
  split_ifs <;> exact nofun

theorem scanVault_calm (crates : Crates) (vault : Vault) : Calm (scanVault crates vault) := by
  have unique : ∀ files seen, Calm (validateUniqueNormalizedPaths files seen) := by
    intro files
    induction files with
    | nil => exact fun _ => Calm.ok _
    | cons file files ih =>
      intro seen
      unfold validateUniqueNormalizedPaths
      split_ifs
      · exact nofun
      · exact ih _
  unfold scanVault
  exact (Calm.mapM (fun file : Location × Plaintext => (normalizedOf_calm crates file.1).map _) _).bind fun _ =>
    (unique _ _).bind fun _ => Calm.ok _

theorem applyScan_calm (crates : Crates) (rows : List SyncFileRecord)
    (files : List SyncFileInput) : Calm (applyScan crates rows files) := by
  have scanned : ∀ (files : List SyncFileInput) seen rows',
      Calm (scanFiles crates rows files seen rows') := by
    intro files
    induction files with
    | nil => exact fun _ _ => Calm.ok _
    | cons file files ih =>
      intro seen rows'
      unfold scanFiles
      have valid : Calm (validateFileInput file) := by
        unfold validateFileInput
        split_ifs <;> exact nofun
      refine valid.bind fun _ => ?_
      split_ifs
      · exact nofun
      · refine Calm.bind ?_ fun _ => ih _ _
        unfold upsertFile
        split_ifs <;> exact nofun
  exact (scanned _ _ _).bind fun _ => Calm.ok _

theorem refreshLocalScan_calm (device : Device) : Calm (refreshLocalScan remote device).1 := by
  refine Calm.pull_bind (fun _ => Calm.ok _) (fun before => ?_) device
  refine Calm.pull_bind (fun _ => scanVault_calm _ _) fun files => ?_
  exact Calm.pull_bind (fun _ => applyScan_calm _ _ _) fun _ _ => Calm.ok _

theorem applyRemoteWrite_calm (path : Str) (plaintext : Plaintext) (device : Device) :
    Calm (applyRemoteWrite path plaintext device).1 := by
  refine Calm.pull_bind (fun _ => resolveRemotePath_calm) (fun location => ?_) device
  refine Calm.pull_bind (fun _ => Calm.ok _) fun before device => ?_
  cases before.vault.write location plaintext with
  | none => exact nofun
  | some vault => exact nofun

theorem applyRemoteDelete_calm (path : Str) (device : Device) :
    Calm (applyRemoteDelete path device).1 := by
  refine Calm.pull_bind (fun _ => resolveRemotePath_calm) (fun location => ?_) device
  refine Calm.pull_bind (fun _ => Calm.ok _) fun before device => ?_
  cases before.vault.read location with
  | some text => exact nofun
  | none =>
    by_cases admitted : before.vault.admits location = true
    · simp only [if_pos admitted]
      exact nofun
    · simp only [if_neg admitted]
      exact nofun

theorem readLocalFile_calm (path : Str) (device : Device) : Calm (readLocalFile path device).1 := by
  refine Calm.pull_bind (fun _ => resolveRemotePath_calm) (fun location => ?_) device
  refine Calm.pull_bind (fun _ => Calm.ok _) fun before device => ?_
  cases before.vault.read location with
  | some text => exact nofun
  | none => exact nofun

theorem writeConflictCopy_calm (path : Str) (plaintext : Plaintext) (base : Option String)
    (device : Device) : Calm (writeConflictCopy remote input path plaintext base header device).1 := by
  refine Calm.pull_bind (fun _ => Calm.ok _) (fun before => ?_) device
  refine Calm.pull_bind (fun _ => conflictCopyRelativePath_calm) fun conflictPath => ?_
  exact Calm.pull_bind (applyRemoteWrite_calm _ _) fun _ _ => Calm.ok _

theorem Calm.absurd {α : Type} {x : Pull α} (calm : Calm (x device).1)
    (alarmed : x device = (.error (.integrity message), device')) : False :=
  calm message (congrArg Prod.fst alarmed)

theorem Calm.pull_pure {x : Pull α} (calm : ∀ device, Calm (x device).1) (value : β)
    (device : Device) : Calm ((do let _ ← x; pure value) device).1 :=
  Calm.pull_bind calm (fun _ _ => Calm.ok _) device

/-! ## What raises an alarm -/

/-- The old version of a file that was changed here, which a merge would need, is damaged. -/
structure DamagedBase (remote : Remote) (baseEntry : Option SyncTreeEntryRecord)
    (dirty : SyncFileRecord) (device : Device) (message : String) : Prop where
  isHere : dirty.deleted = false
  isRead : ∃ location localText, resolveRemotePath dirty.path = .ok location ∧
    device.vault.read location = some localText
  isDamaged : ∃ entry, baseEntry = some entry ∧
    downloadTreeEntryContent remote entry = .error (.integrity message)

theorem mergeRemoteUpsert_alarm {baseEntry : Option SyncTreeEntryRecord} {dirty : SyncFileRecord} :
    mergeRemoteUpsert remote input header baseEntry dirty path plaintext device =
        (.error (.integrity message), device') ↔
      DamagedBase remote baseEntry dirty device message ∧ device' = device := by
  constructor
  · intro alarmed
    unfold mergeRemoteUpsert at alarmed
    by_cases isDeleted : dirty.deleted = true
    · rw [if_pos isDeleted] at alarmed
      exact (Calm.pull_pure (writeConflictCopy_calm _ _ _) _ _).absurd alarmed |>.elim
    · rw [if_neg isDeleted] at alarmed
      obtain unread | ⟨localText, _, isRead, read⟩ := Effect.bind_error.mp alarmed
      · exact ((readLocalFile_calm _ _).absurd unread).elim
      · obtain ⟨rfl, location, resolved, found⟩ := readLocalFile_ok.mp isRead
        cases baseEntry with
        | none => exact ((Calm.pull_pure (writeConflictCopy_calm _ _ _) _ _).absurd read).elim
        | some entry =>
          obtain unbased | ⟨baseText, _, isBase, based⟩ := Effect.bind_error.mp read
          · obtain ⟨isDamaged, rfl⟩ := Prod.mk.inj unbased
            exact ⟨⟨Bool.not_eq_true _ ▸ isDeleted, ⟨location, localText, resolved, found⟩,
              ⟨entry, rfl, isDamaged⟩⟩, rfl⟩
          · match baseText with
            | none =>
              exact ((Calm.pull_pure (writeConflictCopy_calm _ _ _) _ _).absurd based).elim
            | some baseText =>
              obtain unmerged | ⟨outcome, _, -, merged⟩ := Effect.bind_error.mp based
              · exact absurd (congrArg Prod.fst unmerged) (mergeMarkdown_calm _ _ _)
              · cases outcome with
                | merged text =>
                  exact ((Calm.pull_pure (applyRemoteWrite_calm _ _) _ _).absurd merged).elim
                | conflict =>
                  exact ((Calm.pull_pure (writeConflictCopy_calm _ _ _) _ _).absurd merged).elim
  · rintro ⟨⟨isHere, ⟨location, localText, resolved, found⟩, entry, rfl, isDamaged⟩, rfl⟩
    unfold mergeRemoteUpsert
    rw [if_neg (by rw [isHere]; exact Bool.false_ne_true),
      bind_of_ok (readLocalFile_ok.mpr ⟨rfl, location, resolved, found⟩)]
    exact bind_of_error (by rw [lift_run, isDamaged])

theorem mergeRemoteDelete_calm (dirty : Option SyncFileRecord) (path : Str) (device : Device) :
    Calm (mergeRemoteDelete remote input header dirty path device).1 := by
  unfold mergeRemoteDelete
  cases dirty with
  | none => exact Calm.pull_pure (applyRemoteDelete_calm _) _ _
  | some row =>
    dsimp only
    split_ifs
    · exact Calm.pull_pure (applyRemoteDelete_calm _) _ _
    · refine Calm.pull_bind (readLocalFile_calm _) (fun localText => ?_) device
      refine Calm.pull_bind (writeConflictCopy_calm _ _ _) fun _ => ?_
      exact Calm.pull_pure (applyRemoteDelete_calm _) _

/-- The check of a change fails, or the old version it has to be merged with is damaged. -/
inductive ChangeFails (remote : Remote) (mergeState : RemoteMergeState)
    (packs : Assoc String UnpackedPack) (tree : TreeEntries) (device : Device)
    (message : String) : CommitBodyFileOp → Prop where
  | unchecked (change : CommitBodyFileOp)
      (fails : checkChange remote packs change = .error (.integrity message)) :
      ChangeFails remote mergeState packs tree device message change
  | damaged (fileId path normalizedPath plaintextHash : Str) (sizeBytes : Int)
      (contentRef : CommitBodyContentRef) (text : Plaintext) (dirty : SyncFileRecord)
      (checked : checkChange remote packs (.upsertFile fileId path normalizedPath plaintextHash
        sizeBytes contentRef) = .ok text)
      (isDirty : mergeState.dirtyFile fileId = some dirty)
      (isDamaged : DamagedBase remote (tree.get fileId) dirty device message) :
      ChangeFails remote mergeState packs tree device message (.upsertFile fileId path
        normalizedPath plaintextHash sizeBytes contentRef)

variable {commit : DecryptedCommit}

theorem applyChange_alarm {progress : Progress} {change : CommitBodyFileOp} :
    applyChange remote input mergeState commit progress change device =
        (.error (.integrity message), device') ↔
      ChangeFails remote mergeState commit.packs progress.tree device message change ∧
        device' = device := by
  constructor
  · intro alarmed
    obtain unchecked | ⟨text, _, checked, acts⟩ := Effect.bind_error.mp alarmed
    · obtain ⟨fails, rfl⟩ := Prod.mk.inj unchecked
      exact ⟨.unchecked change fails, rfl⟩
    · obtain ⟨isChecked, rfl⟩ := Prod.mk.inj checked
      obtain unacted | ⟨action, _, -, ended⟩ := Effect.bind_error.mp acts
      · cases change with
        | upsertFile fileId path normalizedPath plaintextHash sizeBytes contentRef =>
          simp only [actOn] at unacted
          cases isDirty : mergeState.dirtyFile fileId with
          | none =>
            rw [isDirty] at unacted
            exact ((Calm.pull_pure (applyRemoteWrite_calm _ _) _ _).absurd unacted).elim
          | some dirty =>
            rw [isDirty] at unacted
            obtain ⟨isDamaged, rfl⟩ := mergeRemoteUpsert_alarm.mp unacted
            exact ⟨.damaged _ _ _ _ _ _ text dirty isChecked isDirty isDamaged, rfl⟩
        | deleteFile fileId path normalizedPath =>
          exact ((mergeRemoteDelete_calm _ _ _).absurd unacted).elim
      · cases ended
  · rintro ⟨fails, rfl⟩
    cases fails with
    | unchecked _ fails => exact bind_of_error (by rw [lift_run, fails])
    | damaged fileId path normalizedPath plaintextHash sizeBytes contentRef text dirty checked
        isDirty isDamaged =>
      unfold applyChange
      rw [bind_of_ok (by rw [lift_run, checked])]
      apply bind_of_error
      simp only [actOn, isDirty]
      exact mergeRemoteUpsert_alarm.mpr ⟨isDamaged, rfl⟩

theorem persistAppliedCommit_alarm {progress : Progress} :
    persistAppliedCommit remote commit progress device = (.error (.integrity message), device') ↔
      validateTreeId remote commit.body.treeId progress.tree.byPath =
          .error (.integrity message) ∧ device' = device := by
  constructor
  · intro alarmed
    obtain unchecked | ⟨_, _, -, persists⟩ := Effect.bind_error.mp alarmed
    · exact ⟨(Prod.mk.inj unchecked).1, (Prod.mk.inj unchecked).2.symm⟩
    · refine (Calm.absurd (x := do
        modify fun device : Device => { device with
          db := persistTreeCache device.db commit.header.commitId progress.tree.byPath }
        refreshLocalScan remote
        modify fun device : Device => { device with
          db.files := markFilesSynced device.db.files commit.header.commitId progress.syncedFileIds
          db.vault := updateVaultAfterPull device.db.vault commit.header.commitId }) ?_
        persists).elim
      refine Calm.pull_bind (fun _ => Calm.ok _) (fun _ => ?_) _
      exact Calm.pull_bind (refreshLocalScan_calm) fun _ _ => Calm.ok _
  · rintro ⟨fails, rfl⟩
    exact bind_of_error (by rw [lift_run, fails])

/-! ## What a change touches -/

/-- The change writes or removes a file: it brings a version, or the file it removes is there
or was changed here. -/
def Touches (mergeState : RemoteMergeState) (device : Device) : CommitBodyFileOp → Prop
  | .upsertFile .. => True
  | .deleteFile fileId path _ =>
    (∃ row, mergeState.dirtyFile fileId = some row ∧ row.deleted = false) ∨
      ∃ location, resolveRemotePath path = .ok location ∧ (device.vault.read location).isSome

section Changes

variable {commit : DecryptedCommit} {progress progress' : Progress} {change : CommitBodyFileOp}
  {changes : List CommitBodyFileOp}

/-- The files that a device has written and removed. -/
def Device.mutated (device : Device) : Nat := device.expectedMutations.length

theorem mutated_write (wrote : applyRemoteWrite path plaintext device = (.ok (), device')) :
    device.mutated < device'.mutated := by
  obtain ⟨location, vault, -, -, rfl⟩ := applyRemoteWrite_ok.mp wrote
  simp [Device.mutated, Device.wrote]

theorem mutated_copy {base : Option String}
    (copied : writeConflictCopy remote input path plaintext base header device =
      (.ok (), device')) : device.mutated < device'.mutated := by
  obtain ⟨conflictPath, location, vault, -, -, -, rfl⟩ := writeConflictCopy_ok.mp copied
  simp [Device.mutated, Device.conflicted, Device.wrote]

theorem mutated_delete (deleted : applyRemoteDelete path device = (.ok (), device')) :
    device.mutated ≤ device'.mutated := by
  obtain ⟨location, -, ⟨-, rfl⟩ | ⟨-, -, rfl⟩⟩ := applyRemoteDelete_ok.mp deleted
  · simp [Device.mutated, Device.removed]
  · exact le_rfl

variable
  (ran : applyChange remote input mergeState commit progress change device = (.ok progress', device'))

include ran

theorem applyChange_untouched (untouched : ¬ Touches mergeState device change) :
    device' = device := by
  obtain ⟨text, action, -, acted, -⟩ := applyChange_ok.mp ran
  cases change with
  | upsertFile => exact absurd trivial untouched
  | deleteFile fileId path normalizedPath =>
    obtain ⟨notHere, notThere⟩ := not_or.mp untouched
    obtain ⟨-, ⟨-, deleted⟩ | ⟨row, _, _, _, isRow, isHere, -⟩⟩ := mergeRemoteDelete_ok acted
    · obtain ⟨location, resolved, ⟨found, -⟩ | ⟨-, -, isSame⟩⟩ := applyRemoteDelete_ok.mp deleted
      · exact absurd ⟨location, resolved, found⟩ notThere
      · exact isSame
    · exact absurd ⟨row, isRow, isHere⟩ notHere

theorem applyChange_touched (touches : Touches mergeState device change) :
    device.mutated < device'.mutated := by
  obtain ⟨text, action, -, acted, -⟩ := applyChange_ok.mp ran
  cases change with
  | upsertFile fileId path normalizedPath plaintextHash sizeBytes contentRef =>
    simp only [actOn] at acted
    cases isDirty : mergeState.dirtyFile fileId with
    | none =>
      rw [isDirty] at acted
      obtain ⟨⟨⟩, _, wrote, rest⟩ := Effect.bind_ok.mp acted
      cases rest
      exact mutated_write wrote
    | some dirty =>
      rw [isDirty] at acted
      obtain ⟨_, copied, -⟩ | ⟨_, wrote, -⟩ := mergeRemoteUpsert_ok acted
      · exact mutated_copy copied
      · exact mutated_write wrote
  | deleteFile fileId path normalizedPath =>
    obtain ⟨-, ⟨allDeleted, deleted⟩ | ⟨row, _, _, copied, -, -, -, -, isCopied, deleted⟩⟩ :=
      mergeRemoteDelete_ok acted
    · obtain ⟨row, isRow, isHere⟩ | ⟨location, resolved, found⟩ := touches
      · rw [allDeleted row isRow] at isHere
        cases isHere
      · obtain ⟨other, isOther, ⟨-, rfl⟩ | ⟨isNone, -⟩⟩ := applyRemoteDelete_ok.mp deleted
        · simp [Device.mutated, Device.removed]
        · cases resolved.symm.trans isOther
          rw [isNone] at found
          cases found
    · exact (mutated_copy isCopied).trans_le (mutated_delete deleted)

theorem applyChange_mutated : device.mutated ≤ device'.mutated := by
  by_cases touches : Touches mergeState device change
  · exact (applyChange_touched ran touches).le
  · rw [applyChange_untouched ran touches]

omit ran

theorem applyChanges_mutated
    (ran : applyChanges remote input mergeState commit changes progress device =
      (.ok progress', device')) : device.mutated ≤ device'.mutated := by
  induction changes generalizing progress device with
  | nil =>
    cases ran
    exact le_rfl
  | cons change changes ih =>
    obtain ⟨next, moved, isFirst, isRest⟩ := Effect.bind_ok.mp ran
    exact (applyChange_mutated isFirst).trans (ih isRest)

/-- Up to the first change that touches a file, the device is as it was; from then on it is
not. -/
theorem applyChanges_touched
    (ran : applyChanges remote input mergeState commit changes progress device =
      (.ok progress', device')) :
    (∃ change ∈ changes, Touches mergeState device change) ∧ device.mutated < device'.mutated ∨
      (∀ change ∈ changes, ¬ Touches mergeState device change) ∧ device' = device := by
  induction changes generalizing progress device with
  | nil =>
    cases ran
    exact .inr ⟨nofun, rfl⟩
  | cons change changes ih =>
    obtain ⟨next, moved, isFirst, isRest⟩ := Effect.bind_ok.mp ran
    by_cases touches : Touches mergeState device change
    · exact .inl ⟨⟨change, mem_cons_self, touches⟩,
        (applyChange_touched isFirst touches).trans_le (applyChanges_mutated isRest)⟩
    · have isSame := applyChange_untouched isFirst touches
      subst isSame
      obtain ⟨⟨other, member, touched⟩, grown⟩ | ⟨untouched, isSame⟩ := ih isRest
      · exact .inl ⟨⟨other, mem_cons_of_mem _ member, touched⟩, grown⟩
      · exact .inr ⟨forall_mem_cons.mpr ⟨touches, untouched⟩, isSame⟩

theorem applyChanges_alarm :
    applyChanges remote input mergeState commit changes progress device =
        (.error (.integrity message), device') ↔
      ∃ before change after progress', changes = before ++ change :: after ∧
        applyChanges remote input mergeState commit before progress device =
          (.ok progress', device') ∧
        ChangeFails remote mergeState commit.packs progress'.tree device' message change := by
  constructor
  · intro alarmed
    induction changes generalizing progress device with
    | nil => cases alarmed
    | cons change changes ih =>
      obtain isFirst | ⟨next, moved, isFirst, isRest⟩ := Effect.bind_error.mp alarmed
      · obtain ⟨fails, rfl⟩ := applyChange_alarm.mp isFirst
        exact ⟨[], change, changes, progress, rfl, rfl, fails⟩
      · obtain ⟨before, failing, after, reached, rfl, ran, fails⟩ := ih isRest
        refine ⟨change :: before, failing, after, reached, rfl, ?_, fails⟩
        rw [applyChanges_cons, bind_of_ok isFirst]
        exact ran
  · rintro ⟨before, change, after, reached, rfl, ran, fails⟩
    rw [applyChanges_append, bind_of_ok ran]
    exact bind_of_error (applyChange_alarm.mpr ⟨fails, rfl⟩)

end Changes

/-! ## A commit that fails -/

/-- The commit with a header, decrypted and applied. -/
def applyCommit (remote : Remote) (input : PullInput) (mergeState : RemoteMergeState)
    (tree : TreeEntries) (header : SyncCommitHeader) : Pull TreeEntries := do
  let commit ← lift (decryptCommit remote header)
  applyDecryptedCommit remote input mergeState commit tree

/-- No file was written, created or removed, no conflict or tree entry was added, and the local
head is where it was. -/
structure Unchanged (before after : Device) : Prop where
  files : ∀ location, after.vault.read location = before.vault.read location
  mutations : after.expectedMutations = before.expectedMutations
  conflicts : after.db.conflicts = before.db.conflicts
  trees : after.db.trees = before.db.trees
  localHead : after.db.vault.bind SyncVaultRecord.localHeadCommitId =
    before.db.vault.bind SyncVaultRecord.localHeadCommitId

theorem Unchanged.refl (device : Device) : Unchanged device device :=
  ⟨fun _ => rfl, rfl, rfl, rfl, rfl⟩

/-- An integrity error leaves everything as it was. -/
def NothingChanged (remote : Remote) (input : PullInput) (mergeState : RemoteMergeState)
    (tree : TreeEntries) (header : SyncCommitHeader) (device : Device) : Prop :=
  ∀ message device', applyCommit remote input mergeState tree header device =
    (.error (.integrity message), device') → Unchanged device device'

/-- The check that comes after the changes that are applied already: that of the next change,
or, after the last one, that of the tree id. -/
def NextFails (remote : Remote) (mergeState : RemoteMergeState) (commit : DecryptedCommit)
    (tree : TreeEntries) (device : Device) : List CommitBodyFileOp → Prop
  | [] => treeIdForEntries remote tree.byPath ≠ commit.body.treeId
  | change :: _ => ∃ message, ChangeFails remote mergeState commit.packs tree device message change

/-- Once a change has touched a file, no check fails any more. -/
def FailsEarly (remote : Remote) (input : PullInput) (mergeState : RemoteMergeState)
    (tree : TreeEntries) (header : SyncCommitHeader) (device : Device) : Prop :=
  ∀ commit before after progress moved, decryptCommit remote header = .ok commit →
    commit.body.changes = before ++ after →
    (∃ change ∈ before, Touches mergeState device change) →
    applyChanges remote input mergeState commit before { tree := startingTree commit tree }
      device = (.ok progress, moved) →
    ¬ NextFails remote mergeState commit progress.tree moved after

/-- The alarm of a whole commit: what was applied before it, and the check that failed. -/
theorem applyDecryptedCommit_alarm :
    (∃ message, applyDecryptedCommit remote input mergeState commit tree device =
        (.error (.integrity message), device')) ↔
      ∃ before after progress, commit.body.changes = before ++ after ∧
        applyChanges remote input mergeState commit before { tree := startingTree commit tree }
          device = (.ok progress, device') ∧
        NextFails remote mergeState commit progress.tree device' after := by
  constructor
  · rintro ⟨message, alarmed⟩
    obtain changing | ⟨progress, moved, changed, persisting⟩ := Effect.bind_error.mp alarmed
    · obtain ⟨before, change, after, progress, isSplit, ran, fails⟩ :=
        applyChanges_alarm.mp changing
      exact ⟨before, change :: after, progress, isSplit, ran, message, fails⟩
    · obtain unpersisted | ⟨_, _, -, ended⟩ := Effect.bind_error.mp persisting
      · obtain ⟨fails, rfl⟩ := persistAppliedCommit_alarm.mp unpersisted
        refine ⟨commit.body.changes, [], progress, (append_nil _).symm, changed, ?_⟩
        intro isSame
        rw [validateTreeId, if_neg (not_not.mpr isSame)] at fails
        cases fails
      · cases ended
  · rintro ⟨before, after, progress, isSplit, ran, fails⟩
    unfold applyDecryptedCommit
    cases after with
    | nil =>
      rw [isSplit, append_nil, bind_of_ok ran]
      exact ⟨_, bind_of_error (persistAppliedCommit_alarm.mpr ⟨if_pos fails, rfl⟩)⟩
    | cons change after =>
      obtain ⟨message, fails⟩ := fails
      exact ⟨message, bind_of_error
        (applyChanges_alarm.mpr ⟨before, change, after, progress, isSplit, ran, fails⟩)⟩

/-- A commit that fails an integrity check changes nothing exactly when no check fails after a
change that touches a file. -/
theorem nothing_changed_iff (remote : Remote) (input : PullInput) (mergeState : RemoteMergeState)
    (tree : TreeEntries) (header : SyncCommitHeader) (device : Device) :
    NothingChanged remote input mergeState tree header device ↔
      FailsEarly remote input mergeState tree header device := by
  constructor
  · intro nothing commit before after progress moved decrypted isSplit touches ran fails
    obtain ⟨message, alarmed⟩ := applyDecryptedCommit_alarm.mpr
      ⟨before, after, progress, isSplit, ran, fails⟩
    have unchanged := nothing message moved (by
      unfold applyCommit
      rw [bind_of_ok (by rw [lift_run, decrypted])]
      exact alarmed)
    obtain ⟨-, grown⟩ | ⟨untouched, -⟩ := applyChanges_touched ran
    · rw [Device.mutated, Device.mutated, unchanged.mutations] at grown
      exact lt_irrefl _ grown
    · obtain ⟨change, member, touched⟩ := touches
      exact untouched change member touched
  · intro early message device' alarmed
    obtain undecrypted | ⟨commit, _, decrypted, applying⟩ := Effect.bind_error.mp alarmed
    · rw [← (Prod.mk.inj undecrypted).2]
      exact .refl device
    · obtain ⟨isCommit, rfl⟩ := Prod.mk.inj decrypted
      obtain ⟨before, after, progress, isSplit, ran, fails⟩ :=
        applyDecryptedCommit_alarm.mp ⟨message, applying⟩
      obtain ⟨touches, -⟩ | ⟨-, rfl⟩ := applyChanges_touched ran
      · exact absurd fails (early commit before after progress _ isCommit isSplit touches ran)
      · exact .refl _

/-! ## A tree id that does not fit -/

def misfiled : DecryptedCommit := sampleCommit "c1" "tree_of another".toList [("a.md", some "x")]

/-- The file of the commit is written, and then its tree id is found to be wrong. -/
theorem misfiled_written :
    ¬ NothingChanged (sampleRemote [misfiled]) sampleInput [] [] misfiled.header
      { vault := Vault.empty } := by
  intro nothing
  have alarmed : ∃ message device',
      applyCommit (sampleRemote [misfiled]) sampleInput [] [] misfiled.header
        { vault := Vault.empty } = (.error (.integrity message), device') ∧
      device'.expectedMutations = [.write "a.md".toList] :=
    ⟨_, _, rfl, by decide +kernel⟩
  obtain ⟨message, device', alarmed, wrote⟩ := alarmed
  have unchanged := (nothing message device' alarmed).mutations
  rw [wrote] at unchanged
  cases unchanged

end Kuku.Sync.Applier
