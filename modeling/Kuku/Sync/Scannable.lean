/-
# Sync.Scannable -- whether a vault can be scanned after a commit

A scan refuses a vault with two markdown files of one normalized path.  The changes of a commit
write and remove files at the very paths they name, and a file of the same normalized path that
stands elsewhere is left where it is; so a vault stays scannable exactly when no change writes a
file beside such a rival that the commit does not remove again (`stays_scannable_iff`).
-/
import Kuku.Sync.ApplierSteps

namespace Kuku.Sync

open Kuku.Theory List Effect Vault

/-! ## Vaults that can be scanned -/

def Vault.Holds (vault : Vault) (location : Location) : Prop := (vault.read location).isSome = true

/-- Two files that the scan takes for one. -/
structure Rivals (crates : Crates) (location other : Location) : Prop where
  differ : location ≠ other
  isScanned : isScanned location = true
  otherScanned : Kuku.Sync.isScanned other = true
  normalized : ∃ path, normalizedOf crates location = .ok path ∧
    normalizedOf crates other = .ok path

def Scannable (crates : Crates) (vault : Vault) : Prop :=
  ∀ location other, vault.Holds location → vault.Holds other → ¬ Rivals crates location other

section Scan

variable {crates : Crates} {vault vault' : Vault} {location other : Location}
  {plaintext : Plaintext}

theorem Rivals.symm (rivals : Rivals crates location other) :
    Rivals crates other location := by
  obtain ⟨path, isPath, isOther⟩ := rivals.normalized
  exact ⟨rivals.differ.symm, rivals.otherScanned, rivals.isScanned, path, isOther, isPath⟩

theorem holds_write (wrote : vault.write location plaintext = some vault') :
    vault'.Holds other ↔ vault.Holds other ∨ location = other := by
  unfold Vault.Holds
  by_cases isIt : other = location
  · rw [isIt, read_write_self wrote]
    exact ⟨fun _ => .inr rfl, fun _ => rfl⟩
  · rw [read_write_of_ne wrote isIt]
    exact ⟨.inl, fun held => held.resolve_right (Ne.symm isIt)⟩

theorem holds_remove :
    (vault.remove location).Holds other ↔ vault.Holds other ∧ location ≠ other := by
  unfold Vault.Holds
  by_cases isIt : other = location
  · rw [isIt, read_remove_self]
    exact ⟨nofun, fun held => absurd rfl held.2⟩
  · rw [read_remove_of_ne isIt]
    exact ⟨fun held => ⟨held, Ne.symm isIt⟩, fun held => held.1⟩

theorem holds_of_mem {file : Location × Plaintext} (member : file ∈ vault.files) :
    vault.Holds file.1 :=
  Assoc.mem_keys.mp (mem_map_of_mem member)

/-- A file alone has no rival. -/
theorem scannable_of_files {names : List Location} (isAll : vault.files.map Prod.fst = names)
    (few : names.length ≤ 1) : Scannable crates vault := by
  intro location other held heldOther rivals
  have isMember := isAll ▸ Assoc.mem_keys.mpr held
  have isOther := isAll ▸ Assoc.mem_keys.mpr heldOther
  match names, few with
  | [], _ => cases isMember
  | [name], _ =>
    exact rivals.differ ((mem_singleton.mp isMember).trans (mem_singleton.mp isOther).symm)

theorem validateUnique_ok {files : List ScannedFile} {seen : List Str}
    (distinct : (files.map ScannedFile.normalizedPath).Nodup)
    (unseen : ∀ file ∈ files, file.normalizedPath ∉ seen) :
    validateUniqueNormalizedPaths files seen = .ok () := by
  induction files generalizing seen with
  | nil => rfl
  | cons file files ih =>
    obtain ⟨isNew, distinct⟩ := nodup_cons.mp distinct
    unfold validateUniqueNormalizedPaths
    rw [if_neg (unseen file mem_cons_self)]
    refine ih distinct fun later member isSeen => ?_
    rcases mem_cons.mp isSeen with isSame | isEarlier
    · exact isNew (isSame ▸ mem_map_of_mem member)
    · exact unseen later (mem_cons_of_mem file member) isEarlier

theorem scanned_distinct {entries : List (Location × Plaintext)} {found : List ScannedFile}
    (scanned : List.Forall₂ (fun file row => scanFile crates file = .ok row) entries found)
    (distinct : (entries.map Prod.fst).Nodup)
    (apart : ∀ file ∈ entries, ∀ other ∈ entries, file.1 ≠ other.1 → ∀ path,
      normalizedOf crates file.1 = .ok path → normalizedOf crates other.1 ≠ .ok path) :
    (found.map ScannedFile.normalizedPath).Nodup := by
  have normalized : ∀ {file : Location × Plaintext} {row}, scanFile crates file = .ok row →
      normalizedOf crates file.1 = .ok row.normalizedPath := by
    intro file row isScanned
    unfold scanFile at isScanned
    cases isPath : normalizedOf crates file.1 with
    | error error =>
      rw [isPath] at isScanned
      cases isScanned
    | ok path =>
      rw [isPath] at isScanned
      cases isScanned
      rfl
  induction scanned with
  | nil => exact nodup_nil
  | @cons file row entries found isRow rest ih =>
    obtain ⟨isNew, distinct⟩ := nodup_cons.mp distinct
    refine nodup_cons.mpr ⟨fun member => ?_, ih distinct fun file member other memberOther =>
      apart file (mem_cons_of_mem _ member) other (mem_cons_of_mem _ memberOther)⟩
    obtain ⟨other, isFound, samePath⟩ := mem_map.mp member
    obtain ⟨entry, isEntry, isOther⟩ := mapM_ok_right (mapM_ok_iff.mpr rest) isFound
    refine apart file mem_cons_self entry (mem_cons_of_mem _ isEntry) ?_ _
      (normalized isRow) (samePath ▸ normalized isOther)
    intro isSame
    exact isNew (isSame ▸ mem_map_of_mem isEntry)

/-- The message of a scan that has found two files of one path. -/
def duplicatePath (path : String) : SyncError :=
  .invalidArgument ("duplicate normalized sync path: " ++ path)

theorem normalizedOf_ne_duplicate (path : String) :
    normalizedOf crates location ≠ .error (duplicatePath path) := by
  have starts : ∀ message : String, message.toList.head? = some 's' →
      SyncError.invalidArgument message ≠ duplicatePath path := by
    intro message isFirst isSame
    rw [SyncError.invalidArgument.inj isSame, String.toList_append] at isFirst
    cases isFirst
  unfold normalizedOf normalizeVaultRelativePath
  dsimp only
  split_ifs
  · exact fun failed => starts _ rfl (Except.error.inj failed)
  · exact fun failed => starts _ rfl (Except.error.inj failed)
  · exact fun failed => starts _ rfl (Except.error.inj failed)
  · exact nofun

theorem scanVault_distinct (scannable : Scannable crates vault) (path : String) :
    scanVault crates vault ≠ .error (duplicatePath path) := by
  unfold scanVault
  match isFound : vault.scanned.mapM (scanFile crates) with
  | .error error =>
    rintro ⟨⟩
    obtain ⟨file, -, failed⟩ := mapM_error isFound
    unfold scanFile at failed
    cases isPath : normalizedOf crates file.1 with
    | error first =>
      rw [isPath] at failed
      cases failed
      exact normalizedOf_ne_duplicate path isPath
    | ok normalizedPath =>
      rw [isPath] at failed
      cases failed
  | .ok found =>
    have distinct := scanned_distinct (mapM_ok_iff.mp isFound)
      (vault.distinct.sublist (List.Sublist.map _ filter_sublist)) ?_
    · intro failed
      have sortedDistinct : ((Table.sorted ScannedFile.normalizedPath found).map
          ScannedFile.normalizedPath).Nodup :=
        ((perm_insertionSort _ found).map _).nodup_iff.mpr distinct
      change (do
        validateUniqueNormalizedPaths (Table.sorted ScannedFile.normalizedPath found) []
        return Table.sorted ScannedFile.normalizedPath found) = _ at failed
      rw [validateUnique_ok sortedDistinct fun _ _ => not_mem_nil] at failed
      cases failed
    · intro file member other memberOther differ path isPath isOther
      obtain ⟨isFile, isScanned⟩ := mem_filter.mp member
      obtain ⟨isOtherFile, otherScanned⟩ := mem_filter.mp memberOther
      exact scannable file.1 other.1 (holds_of_mem isFile) (holds_of_mem isOtherFile)
        ⟨differ, isScanned, otherScanned, path, isPath, isOther⟩

end Scan

namespace Applier

variable {remote : Remote} {input : PullInput} {mergeState : RemoteMergeState}
  {header : SyncCommitHeader} {commit : DecryptedCommit} {progress progress' : Progress}
  {change : CommitBodyFileOp} {changes : List CommitBodyFileOp} {path : Str}
  {plaintext : Plaintext} {device device' : Device} {location other : Location}

/-! ## Where a change writes -/

/-- A file can be written under the path, there. -/
def WritableAt (device : Device) (path : Str) (location : Location) : Prop :=
  resolveRemotePath path = .ok location ∧ device.vault.admits location = true

/-- The path of a conflict copy. -/
def CopiedTo (input : PullInput) (device : Device) (path conflictPath : Str) : Prop :=
  conflictCopyRelativePath path input.nowMs device.vault = .ok conflictPath

def Readable (device : Device) (path : Str) : Prop :=
  ∃ location text, resolveRemotePath path = .ok location ∧ device.vault.read location = some text

/-- The path that an upsert of a file changed here writes under: its own for a merged text, or
that of a conflict copy. -/
inductive MergeTarget (remote : Remote) (input : PullInput)
    (baseEntry : Option SyncTreeEntryRecord) (dirty : SyncFileRecord) (path : Str)
    (plaintext : Plaintext) (device : Device) : Str → Prop where
  | merged (text : Plaintext)
      (merges : MergesTo remote baseEntry dirty plaintext device (.merged text)) :
      MergeTarget remote input baseEntry dirty path plaintext device path
  | copied (conflictPath : Str)
      (unmergeable : Unmergeable remote baseEntry dirty plaintext device)
      (isRead : dirty.deleted = false → Readable device dirty.path)
      (isFree : CopiedTo input device path conflictPath) :
      MergeTarget remote input baseEntry dirty path plaintext device conflictPath

/-- The path that a change writes under. -/
inductive Target (remote : Remote) (input : PullInput) (mergeState : RemoteMergeState)
    (tree : TreeEntries) (plaintext : Plaintext) (device : Device) :
    CommitBodyFileOp → Str → Prop where
  | clean {fileId path normalizedPath plaintextHash : Str} {sizeBytes : Int}
      {contentRef : CommitBodyContentRef} (isClean : mergeState.dirtyFile fileId = none) :
      Target remote input mergeState tree plaintext device (.upsertFile fileId path
        normalizedPath plaintextHash sizeBytes contentRef) path
  | dirty {fileId path normalizedPath plaintextHash : Str} {sizeBytes : Int}
      {contentRef : CommitBodyContentRef} {target : Str} (row : SyncFileRecord)
      (isDirty : mergeState.dirtyFile fileId = some row)
      (isTarget : MergeTarget remote input (tree.get fileId) row path plaintext device target) :
      Target remote input mergeState tree plaintext device (.upsertFile fileId path
        normalizedPath plaintextHash sizeBytes contentRef) target
  | kept {fileId path normalizedPath conflictPath : Str} (row : SyncFileRecord)
      (isDirty : mergeState.dirtyFile fileId = some row) (isHere : row.deleted = false)
      (isRead : Readable device row.path) (isFree : CopiedTo input device path conflictPath) :
      Target remote input mergeState tree plaintext device
        (.deleteFile fileId path normalizedPath) conflictPath

/-- The change passes its checks and writes a file there. -/
def WritesTo (remote : Remote) (input : PullInput) (mergeState : RemoteMergeState)
    (commit : DecryptedCommit) (progress : Progress) (change : CommitBodyFileOp)
    (device : Device) (location : Location) : Prop :=
  ∃ plaintext target, checkChange remote commit.packs change = .ok plaintext ∧
    Target remote input mergeState progress.tree plaintext device change target ∧
    WritableAt device target location

/-- The change removes the file there, when it is applied. -/
def Removes : CommitBodyFileOp → Location → Prop
  | .upsertFile .., _ => False
  | .deleteFile _ path _, location => resolveRemotePath path = .ok location

variable (other) in
theorem applyRemoteWrite_holds (path : Str) (plaintext : Plaintext) (device : Device) :
    (applyRemoteWrite path plaintext device).2.vault.Holds other ↔
      device.vault.Holds other ∨ WritableAt device path other := by
  unfold WritableAt
  simp only [applyRemoteWrite]
  cases resolved : resolveRemotePath path with
  | error error => simp
  | ok location =>
    simp only [lift_bind_ok, get_bind]
    cases wrote : device.vault.write location plaintext with
    | none =>
      have isRefused : device.vault.admits location = true → False := fun admitted => by
        obtain ⟨vault, isVault⟩ := write_of_admits plaintext admitted
        cases wrote.symm.trans isVault
      constructor
      · exact .inl
      · rintro (held | ⟨⟨⟩, admitted⟩)
        · exact held
        · exact (isRefused admitted).elim
    | some vault =>
      have admitted : device.vault.admits location = true := by
        unfold write at wrote
        split at wrote
        · assumption
        · cases wrote
      refine (holds_write wrote).trans (or_congr_right ?_)
      constructor
      · rintro rfl
        exact ⟨rfl, admitted⟩
      · rintro ⟨⟨⟩, -⟩
        rfl

variable (other) in
theorem writeConflictCopy_holds (remote : Remote) (input : PullInput) (path : Str)
    (plaintext : Plaintext) (base : Option String) (header : SyncCommitHeader) (device : Device) :
    (writeConflictCopy remote input path plaintext base header device).2.vault.Holds other ↔
      device.vault.Holds other ∨
        ∃ conflictPath, CopiedTo input device path conflictPath ∧
          WritableAt device conflictPath other := by
  unfold CopiedTo
  simp only [writeConflictCopy, get_bind]
  cases isPath : conflictCopyRelativePath path input.nowMs device.vault with
  | error error => simp
  | ok conflictPath =>
    simp only [lift_bind_ok]
    have written := applyRemoteWrite_holds other conflictPath plaintext device
    rcases wrote : applyRemoteWrite conflictPath plaintext device with ⟨error | ⟨⟩, moved⟩
    · rw [wrote] at written
      rw [bind_of_error wrote]
      simpa using written
    · rw [wrote] at written
      rw [bind_of_ok wrote]
      simpa using written

theorem readLocalFile_run (path : Str) (device : Device) :
    (∃ location text, resolveRemotePath path = .ok location ∧
        device.vault.read location = some text ∧ readLocalFile path device = (.ok text, device)) ∨
      ¬ Readable device path ∧ ∃ error, readLocalFile path device = (.error error, device) := by
  match ran : readLocalFile path device with
  | (.ok text, moved) =>
    obtain ⟨rfl, location, resolved, found⟩ := readLocalFile_ok.mp ran
    exact .inl ⟨location, text, resolved, found, rfl⟩
  | (.error error, stopped) =>
    refine .inr ⟨?_, error, ?_⟩
    · rintro ⟨location, text, resolved, found⟩
      rw [readLocalFile_ok.mpr ⟨rfl, location, resolved, found⟩] at ran
      cases ran
    · simp only [readLocalFile] at ran
      cases resolved : resolveRemotePath path with
      | error error =>
        rw [resolved] at ran
        cases ran
        rfl
      | ok location =>
        rw [resolved] at ran
        simp only [lift_bind_ok, get_bind] at ran
        cases found : device.vault.read location with
        | none =>
          rw [found] at ran
          cases ran
          rfl
        | some text =>
          rw [found] at ran
          cases ran

theorem state_bind_pure {α β : Type} {x : Pull α} {value : β} :
    ((do let _ ← x; pure value) device).2 = (x device).2 := by
  match ran : x device with
  | (.ok _, _) => rw [bind_of_ok ran]; rfl
  | (.error _, _) => rw [bind_of_error ran]

section Merge

variable {baseEntry : Option SyncTreeEntryRecord} {dirty : SyncFileRecord}
  {outcome other' : MarkdownMergeOutcome}

theorem MergesTo.unique (merges : MergesTo remote baseEntry dirty plaintext device outcome)
    (others : MergesTo remote baseEntry dirty plaintext device other') : outcome = other' := by
  obtain ⟨-, entry, location, localText, baseText, rfl, resolved, found, hasBase, isOutcome⟩ := merges
  obtain ⟨-, _, _, _, _, isEntry, isLocation, isText, isBase, isOther⟩ := others
  cases isEntry
  cases resolved.symm.trans isLocation
  cases found.symm.trans isText
  cases hasBase.symm.trans isBase
  cases isOutcome.symm.trans isOther
  rfl

/-- A file that can be merged has something to be merged with, unless the merge conflicts. -/
theorem Unmergeable.not_merged {text : Plaintext}
    (unmergeable : Unmergeable remote baseEntry dirty plaintext device) :
    ¬ MergesTo remote baseEntry dirty plaintext device (.merged text) := by
  intro merges
  cases unmergeable with
  | deleted isDeleted =>
    rw [merges.isHere] at isDeleted
    cases isDeleted
  | noBase _ isNone =>
    obtain ⟨-, _, _, _, _, isSome, -⟩ := merges
    cases isNone.symm.trans isSome
  | noBaseText _ _ isEntry unavailable =>
    obtain ⟨-, _, _, _, _, isSome, -, -, hasBase, -⟩ := merges
    cases isEntry.symm.trans isSome
    cases unavailable.symm.trans hasBase
  | conflict conflicts => cases conflicts.unique merges

/-- The three ends of an upsert of a file that was changed here: a conflict copy, a merged text,
or an error before anything is written. -/
theorem mergeRemoteUpsert_run (remote : Remote) (input : PullInput) (header : SyncCommitHeader)
    (baseEntry : Option SyncTreeEntryRecord) (dirty : SyncFileRecord) (path : Str)
    (plaintext : Plaintext) (device : Device) :
    (∃ base, mergeRemoteUpsert remote input header baseEntry dirty path plaintext device =
        (do writeConflictCopy remote input path plaintext base header
            pure RemoteApplyAction.keptLocalDirty) device ∧
      Unmergeable remote baseEntry dirty plaintext device ∧
      (dirty.deleted = false → Readable device dirty.path)) ∨
    (∃ text action, mergeRemoteUpsert remote input header baseEntry dirty path plaintext device =
        (do applyRemoteWrite path text; pure action) device ∧
      MergesTo remote baseEntry dirty plaintext device (.merged text)) ∨
    (∃ error, mergeRemoteUpsert remote input header baseEntry dirty path plaintext device =
        (.error error, device)) ∧
      ∀ target, ¬ MergeTarget remote input baseEntry dirty path plaintext device target := by
  unfold mergeRemoteUpsert
  by_cases isDeleted : dirty.deleted = true
  · rw [if_pos isDeleted]
    refine .inl ⟨_, rfl, .deleted isDeleted, fun isHere => ?_⟩
    rw [isDeleted] at isHere
    cases isHere
  · have isHere : dirty.deleted = false := Bool.not_eq_true _ ▸ isDeleted
    rw [if_neg isDeleted]
    obtain ⟨location, localText, resolved, found, isRead⟩ | ⟨unread, error, isError⟩ :=
      readLocalFile_run dirty.path device
    · have readable : dirty.deleted = false → Readable device dirty.path :=
        fun _ => ⟨location, localText, resolved, found⟩
      rw [bind_of_ok isRead]
      cases baseEntry with
      | none => exact .inl ⟨_, rfl, .noBase isHere rfl, readable⟩
      | some entry =>
        dsimp only
        -- an error here leaves nothing to write: no merge, and no reason for a copy
        have stuck : downloadTreeEntryContent remote entry ≠ .ok none →
            (∀ outcome, ¬ MergesTo remote (some entry) dirty plaintext device outcome) →
            ∀ target, ¬ MergeTarget remote input (some entry) dirty path plaintext device
              target := by
          intro hasText unmerged target isTarget
          cases isTarget with
          | merged text merges => exact unmerged _ merges
          | copied _ unmergeable =>
            cases unmergeable with
            | deleted isDeleted' => exact isDeleted isDeleted'
            | noBase _ isNone => cases isNone
            | noBaseText _ _ isEntry unavailable =>
              cases isEntry
              exact hasText unavailable
            | conflict merges => exact unmerged _ merges
        match hasBase : downloadTreeEntryContent remote entry with
        | .error error =>
          refine .inr (.inr ⟨⟨error, bind_of_error rfl⟩, stuck (by rw [hasBase]; exact nofun) ?_⟩)
          rintro outcome ⟨-, _, _, _, _, ⟨⟩, -, -, isBase, -⟩
          cases hasBase.symm.trans isBase
        | .ok none => exact .inl ⟨_, rfl, .noBaseText isHere entry rfl hasBase, readable⟩
        | .ok (some baseText) =>
          rw [lift_bind_ok]
          dsimp only
          match hasOutcome : mergeMarkdown baseText localText plaintext with
          | .error error =>
            refine .inr (.inr ⟨⟨error, bind_of_error rfl⟩, stuck (by rw [hasBase]; exact nofun) ?_⟩)
            rintro outcome ⟨-, _, _, _, _, ⟨⟩, isLocation, isText, isBase, isOutcome⟩
            cases resolved.symm.trans isLocation
            cases found.symm.trans isText
            cases hasBase.symm.trans isBase
            cases hasOutcome.symm.trans isOutcome
          | .ok outcome =>
            have merges : MergesTo remote (some entry) dirty plaintext device outcome :=
              ⟨isHere, entry, location, localText, baseText, rfl, resolved, found, hasBase,
                hasOutcome⟩
            cases outcome with
            | conflict => exact .inl ⟨_, rfl, .conflict merges, readable⟩
            | merged text => exact .inr (.inl ⟨text, _, rfl, merges⟩)
    · rw [bind_of_error isError]
      refine .inr (.inr ⟨⟨error, rfl⟩, fun target isTarget => unread ?_⟩)
      cases isTarget with
      | merged text merges =>
        obtain ⟨-, _, location, text, _, -, resolved, found, -⟩ := merges
        exact ⟨location, text, resolved, found⟩
      | copied _ _ isRead => exact isRead isHere

theorem mergeRemoteUpsert_holds (remote : Remote) (input : PullInput) (header : SyncCommitHeader)
    (baseEntry : Option SyncTreeEntryRecord) (dirty : SyncFileRecord) (path : Str)
    (plaintext : Plaintext) (device : Device) :
    (mergeRemoteUpsert remote input header baseEntry dirty path plaintext
        device).2.vault.Holds other ↔
      device.vault.Holds other ∨
        ∃ target, MergeTarget remote input baseEntry dirty path plaintext device target ∧
          WritableAt device target other := by
  obtain ⟨base, isCopy, unmergeable, isRead⟩ | ⟨text, action, isMerge, merges⟩ |
    ⟨⟨error, isError⟩, noTarget⟩ :=
      mergeRemoteUpsert_run remote input header baseEntry dirty path plaintext device
  · rw [isCopy, state_bind_pure, writeConflictCopy_holds]
    refine or_congr_right (exists_congr fun target => and_congr_left fun _ => ?_)
    constructor
    · exact fun isFree => .copied target unmergeable isRead isFree
    · intro isTarget
      cases isTarget with
      | merged text merges => exact absurd merges unmergeable.not_merged
      | copied _ _ _ isFree => exact isFree
  · rw [isMerge, state_bind_pure, applyRemoteWrite_holds]
    refine or_congr_right ?_
    constructor
    · exact fun writable => ⟨path, .merged text merges, writable⟩
    · rintro ⟨target, isTarget, writable⟩
      cases isTarget with
      | merged => exact writable
      | copied _ unmergeable => exact absurd merges unmergeable.not_merged
  · rw [isError]
    exact ⟨.inl, fun held => held.resolve_right fun ⟨target, isTarget, _⟩ =>
      noTarget target isTarget⟩

end Merge

/-- A removal that ends well leaves no file at its path, and touches no other. -/
theorem applyRemoteDelete_holds (path : Str) (device : Device) :
    ((applyRemoteDelete path device).2.vault.Holds other ↔
      device.vault.Holds other ∧
        ((applyRemoteDelete path device).1 = .ok () → resolveRemotePath path ≠ .ok other)) ∧
    ∀ error, (applyRemoteDelete path device).1 = .error error →
      (applyRemoteDelete path device).2 = device := by
  simp only [applyRemoteDelete]
  cases resolved : resolveRemotePath path with
  | error error => simp
  | ok location =>
    simp only [lift_bind_ok, get_bind]
    cases found : device.vault.read location with
    | some text =>
      constructor
      · refine holds_remove.trans (and_congr_right fun _ => ?_)
        constructor
        · rintro differs - ⟨⟩
          exact differs rfl
        · rintro differs rfl
          exact differs rfl rfl
      · rintro error ⟨⟩
    | none =>
      dsimp only
      split_ifs with admitted
      · constructor
        · constructor
          · intro held
            refine ⟨held, ?_⟩
            rintro - ⟨⟩
            unfold Vault.Holds at held
            rw [pure_run, found] at held
            cases held
          · exact And.left
        · rintro error ⟨⟩
      · simp

theorem deleting_holds (path : Str) (device : Device) :
    (((do applyRemoteDelete path; pure RemoteApplyAction.appliedRemote) : Pull _)
        device).2.vault.Holds other ↔
      device.vault.Holds other ∧
        ((∃ action, (((do applyRemoteDelete path; pure RemoteApplyAction.appliedRemote) : Pull _)
          device).1 = .ok action) → resolveRemotePath path ≠ .ok other) := by
  rw [state_bind_pure]
  refine (applyRemoteDelete_holds path device).1.trans (and_congr_right fun _ => ?_)
  match ran : applyRemoteDelete path device with
  | (.ok (), moved) =>
    rw [bind_of_ok ran]
    simp
  | (.error error, stopped) =>
    rw [bind_of_error ran]
    simp

theorem mergeRemoteDelete_holds (row : SyncFileRecord) (isHere : row.deleted = false) :
    (mergeRemoteDelete remote input header (some row) path device).2.vault.Holds other ↔
      (device.vault.Holds other ∨ Readable device row.path ∧
        ∃ conflictPath, CopiedTo input device path conflictPath ∧
          WritableAt device conflictPath other) ∧
      ((∃ action, (mergeRemoteDelete remote input header (some row) path device).1 =
        .ok action) → resolveRemotePath path ≠ .ok other) := by
  unfold mergeRemoteDelete
  dsimp only
  rw [if_neg (by rw [isHere]; exact Bool.false_ne_true)]
  obtain ⟨location, localText, resolved, found, isRead⟩ | ⟨unread, error, isError⟩ :=
    readLocalFile_run row.path device
  · have copied := writeConflictCopy_holds other remote input path localText none header device
    have readable : Readable device row.path := ⟨location, localText, resolved, found⟩
    rw [bind_of_ok isRead]
    match ran : writeConflictCopy remote input path localText none header device with
    | (.ok (), moved) =>
      rw [ran] at copied
      rw [bind_of_ok ran]
      refine (deleting_holds path moved).trans (and_congr_left fun _ => copied.trans ?_)
      exact or_congr_right (and_iff_right readable).symm
    | (.error error, stopped) =>
      rw [ran] at copied
      rw [bind_of_error ran]
      simpa [readable] using copied
  · rw [bind_of_error isError]
    simp [unread]

variable (other) in
theorem actOn_holds (remote : Remote) (input : PullInput) (mergeState : RemoteMergeState)
    (header : SyncCommitHeader) (tree : TreeEntries) (plaintext : Plaintext)
    (change : CommitBodyFileOp) (device : Device) :
    (actOn remote input mergeState header tree plaintext change device).2.vault.Holds other ↔
      (device.vault.Holds other ∨
        ∃ target, Target remote input mergeState tree plaintext device change target ∧
          WritableAt device target other) ∧
      ((∃ action, (actOn remote input mergeState header tree plaintext change device).1 =
        .ok action) → ¬ Removes change other) := by
  cases change with
  | upsertFile fileId path normalizedPath plaintextHash sizeBytes contentRef =>
    simp only [actOn, Removes, not_false_eq_true, implies_true, and_true]
    cases isDirty : mergeState.dirtyFile fileId with
    | none =>
      dsimp only
      rw [state_bind_pure, applyRemoteWrite_holds]
      refine or_congr_right ⟨fun writable => ⟨path, .clean isDirty, writable⟩, ?_⟩
      rintro ⟨target, isTarget, writable⟩
      cases isTarget with
      | clean => exact writable
      | dirty row isSome => cases isDirty.symm.trans isSome
    | some row =>
      dsimp only
      rw [mergeRemoteUpsert_holds]
      refine or_congr_right (exists_congr fun target => and_congr_left fun _ => ?_)
      constructor
      · exact fun isTarget => .dirty row isDirty isTarget
      · intro isTarget
        cases isTarget with
        | clean isClean => cases isDirty.symm.trans isClean
        | dirty other isOther isTarget =>
          cases isDirty.symm.trans isOther
          exact isTarget
  | deleteFile fileId path normalizedPath =>
    simp only [actOn, Removes]
    have unkept : (∀ row, mergeState.dirtyFile fileId = some row → row.deleted = true) →
        (device.vault.Holds other ↔ device.vault.Holds other ∨
          ∃ target, Target remote input mergeState tree plaintext device
            (.deleteFile fileId path normalizedPath) target ∧ WritableAt device target other) := by
      intro allDeleted
      refine ⟨.inl, fun held => held.resolve_right ?_⟩
      rintro ⟨target, isTarget, -⟩
      cases isTarget with
      | kept row isDirty isHere =>
        rw [allDeleted row isDirty] at isHere
        cases isHere
    cases isDirty : mergeState.dirtyFile fileId with
    | none =>
      refine (deleting_holds path device).trans (and_congr_left fun _ => unkept ?_)
      rw [isDirty]
      exact nofun
    | some row =>
      cases isHere : row.deleted with
      | true =>
        simp only [mergeRemoteDelete, isHere, if_true]
        refine (deleting_holds path device).trans (and_congr_left fun _ => unkept ?_)
        rw [isDirty]
        rintro _ ⟨⟩
        exact isHere
      | false =>
        refine (mergeRemoteDelete_holds row isHere).trans (and_congr_left fun _ => or_congr_right ?_)
        constructor
        · rintro ⟨isRead, conflictPath, isFree, writable⟩
          exact ⟨conflictPath, .kept row isDirty isHere isRead isFree, writable⟩
        · rintro ⟨target, isTarget, writable⟩
          cases isTarget with
          | kept other isOther _ isRead isFree =>
            cases isDirty.symm.trans isOther
            exact ⟨isRead, target, isFree, writable⟩

variable (other) in
/-- What a change leaves of the files: those that were there and the one it writes, less the one
it removes. -/
theorem applyChange_holds (remote : Remote) (input : PullInput) (mergeState : RemoteMergeState)
    (commit : DecryptedCommit) (progress : Progress) (change : CommitBodyFileOp)
    (device : Device) :
    (applyChange remote input mergeState commit progress change device).2.vault.Holds other ↔
      (device.vault.Holds other ∨
        WritesTo remote input mergeState commit progress change device other) ∧
      ((∃ progress', (applyChange remote input mergeState commit progress change device).1 =
        .ok progress') → ¬ Removes change other) := by
  unfold applyChange WritesTo
  cases isText : checkChange remote commit.packs change with
  | error error =>
    rw [bind_of_error (by rw [lift_run])]
    simp
  | ok plaintext =>
    have acted := actOn_holds other remote input mergeState commit.header progress.tree
      plaintext change device
    rw [lift_bind_ok]
    simp only [Except.ok.injEq, exists_and_left, exists_eq_left']
    match ran : actOn remote input mergeState commit.header progress.tree plaintext change device with
    | (.ok action, moved) =>
      rw [ran] at acted
      rw [bind_of_ok ran]
      simpa using acted
    | (.error error, stopped) =>
      rw [ran] at acted
      rw [bind_of_error ran]
      simpa using acted

theorem Target.unique {tree : TreeEntries} {target target' : Str}
    (isTarget : Target remote input mergeState tree plaintext device change target)
    (isOther : Target remote input mergeState tree plaintext device change target') :
    target = target' := by
  cases isTarget with
  | clean isClean =>
    cases isOther with
    | clean => rfl
    | dirty row isDirty => cases isClean.symm.trans isDirty
  | dirty row isDirty isTarget =>
    cases isOther with
    | clean isClean => cases isClean.symm.trans isDirty
    | dirty row' isDirty' isOther =>
      cases isDirty.symm.trans isDirty'
      cases isTarget with
      | merged text merges =>
        cases isOther with
        | merged => rfl
        | copied _ unmergeable => exact absurd merges unmergeable.not_merged
      | copied _ unmergeable _ isFree =>
        cases isOther with
        | merged text merges => exact absurd merges unmergeable.not_merged
        | copied _ _ _ isFree' => exact Except.ok.inj (isFree.symm.trans isFree')
  | kept row isDirty _ _ isFree =>
    cases isOther with
    | kept _ _ _ _ isFree' => exact Except.ok.inj (isFree.symm.trans isFree')

theorem WritesTo.unique
    (writes : WritesTo remote input mergeState commit progress change device location)
    (writesOther : WritesTo remote input mergeState commit progress change device other) :
    location = other := by
  obtain ⟨plaintext, target, checked, isTarget, resolved, -⟩ := writes
  obtain ⟨_, target', isChecked, isOther, isResolved, -⟩ := writesOther
  cases checked.symm.trans isChecked
  cases isTarget.unique isOther
  exact Except.ok.inj (resolved.symm.trans isResolved)

/-! ## Two files through the changes of a commit -/

/-- One of the changes, which is reached and applied, removes one of the two files. -/
def Undone (remote : Remote) (input : PullInput) (mergeState : RemoteMergeState)
    (commit : DecryptedCommit) (changes : List CommitBodyFileOp) (progress : Progress)
    (device : Device) (location other : Location) : Prop :=
  ∃ before remover after last arrived, changes = before ++ remover :: after ∧
    (Removes remover location ∨ Removes remover other) ∧
    applyChanges remote input mergeState commit (before ++ [remover]) progress device =
      (.ok last, arrived)

theorem undone_of_ok (ran : applyChange remote input mergeState commit progress change device =
      (.ok progress', device')) :
    Undone remote input mergeState commit (change :: changes) progress device location other ↔
      (Removes change location ∨ Removes change other) ∨
        Undone remote input mergeState commit changes progress' device' location other := by
  constructor
  · rintro ⟨before, remover, after, last, arrived, isSplit, removes, applied⟩
    cases before with
    | nil =>
      cases isSplit
      exact .inl removes
    | cons first before =>
      cases isSplit
      rw [cons_append, applyChanges_cons, bind_of_ok ran] at applied
      exact .inr ⟨before, remover, after, last, arrived, rfl, removes, applied⟩
  · rintro (removes | ⟨before, remover, after, last, arrived, rfl, removes, applied⟩)
    · exact ⟨[], change, changes, progress', device', rfl, removes, bind_of_ok ran⟩
    · refine ⟨change :: before, remover, after, last, arrived, rfl, removes, ?_⟩
      rw [cons_append, applyChanges_cons, bind_of_ok ran]
      exact applied

theorem not_undone_of_error {error : SyncError}
    (ran : applyChange remote input mergeState commit progress change device =
      (.error error, device')) :
    ¬ Undone remote input mergeState commit (change :: changes) progress device location
      other := by
  rintro ⟨before, remover, after, last, arrived, isSplit, -, applied⟩
  cases before with
  | nil =>
    cases isSplit
    rw [nil_append, applyChanges_cons, bind_of_error ran] at applied
    cases applied
  | cons first before =>
    cases isSplit
    rw [cons_append, applyChanges_cons, bind_of_error ran] at applied
    cases applied

/-- Two files that no change removes are there to the end. -/
theorem holds_both_of_not_undone (held : device.vault.Holds location)
    (heldOther : device.vault.Holds other)
    (kept : ¬ Undone remote input mergeState commit changes progress device location other) :
    (applyChanges remote input mergeState commit changes progress device).2.vault.Holds location ∧
      (applyChanges remote input mergeState commit changes progress device).2.vault.Holds
        other := by
  induction changes generalizing progress device with
  | nil => exact ⟨held, heldOther⟩
  | cons change changes ih =>
    have step := applyChange_holds location remote input mergeState commit progress
      change device
    have stepOther := applyChange_holds other remote input mergeState commit progress
      change device
    rw [applyChanges_cons]
    match ran : applyChange remote input mergeState commit progress change device with
    | (.error error, stopped) =>
      rw [ran] at step stepOther
      rw [bind_of_error ran]
      exact ⟨step.mpr ⟨.inl held, nofun⟩, stepOther.mpr ⟨.inl heldOther, nofun⟩⟩
    | (.ok next, moved) =>
      rw [ran] at step stepOther
      rw [bind_of_ok ran]
      obtain ⟨unremoved, kept⟩ := not_or.mp (mt (undone_of_ok ran).mpr kept)
      exact ih (step.mpr ⟨.inl held, fun _ removes => unremoved (.inl removes)⟩)
        (stepOther.mpr ⟨.inl heldOther, fun _ removes => unremoved (.inr removes)⟩) kept

/-- A change writes one of the two files beside the other. -/
def WritesBeside (remote : Remote) (input : PullInput) (mergeState : RemoteMergeState)
    (commit : DecryptedCommit) (progress : Progress) (change : CommitBodyFileOp)
    (device : Device) (location other : Location) : Prop :=
  WritesTo remote input mergeState commit progress change device location ∧ device.vault.Holds other

/-- A file that is written beside another one, and that no change removes, ends beside it. -/
theorem holds_both_of_written
    (writes : WritesBeside remote input mergeState commit progress change device location other)
    (kept : ¬ Undone remote input mergeState commit (change :: changes) progress device location
      other) :
    (applyChanges remote input mergeState commit (change :: changes) progress
        device).2.vault.Holds location ∧
      (applyChanges remote input mergeState commit (change :: changes) progress
        device).2.vault.Holds other := by
  have step := applyChange_holds location remote input mergeState commit progress
    change device
  have stepOther := applyChange_holds other remote input mergeState commit progress
    change device
  rw [applyChanges_cons]
  match ran : applyChange remote input mergeState commit progress change device with
  | (.error error, stopped) =>
    rw [ran] at step stepOther
    rw [bind_of_error ran]
    exact ⟨step.mpr ⟨.inr writes.1, nofun⟩, stepOther.mpr ⟨.inl writes.2, nofun⟩⟩
  | (.ok next, moved) =>
    rw [ran] at step stepOther
    rw [bind_of_ok ran]
    obtain ⟨unremoved, kept⟩ := not_or.mp (mt (undone_of_ok ran).mpr kept)
    exact holds_both_of_not_undone
      (step.mpr ⟨.inr writes.1, fun _ removes => unremoved (.inl removes)⟩)
      (stepOther.mpr ⟨.inl writes.2, fun _ removes => unremoved (.inr removes)⟩) kept

/-- Two files that are there in the end were there to begin with, or one was written beside the
other; and nothing has removed either since. -/
theorem written_of_holds_both (differ : location ≠ other)
    (held : (applyChanges remote input mergeState commit changes progress
      device).2.vault.Holds location)
    (heldOther : (applyChanges remote input mergeState commit changes progress
      device).2.vault.Holds other) :
    (device.vault.Holds location ∧ device.vault.Holds other ∧
      ¬ Undone remote input mergeState commit changes progress device location other) ∨
    ∃ before change after progress' moved, changes = before ++ change :: after ∧
      applyChanges remote input mergeState commit before progress device = (.ok progress', moved) ∧
      (WritesBeside remote input mergeState commit progress' change moved location other ∨
        WritesBeside remote input mergeState commit progress' change moved other location) ∧
      ¬ Undone remote input mergeState commit (change :: after) progress' moved location
        other := by
  induction changes generalizing progress device with
  | nil =>
    refine .inl ⟨held, heldOther, ?_⟩
    rintro ⟨_ | _, _, _, _, _, ⟨⟩, -⟩
  | cons change changes ih =>
    have step := applyChange_holds location remote input mergeState commit progress
      change device
    have stepOther := applyChange_holds other remote input mergeState commit progress
      change device
    -- what the head has done, once it is known that nothing is undone from here on
    have first : (applyChange remote input mergeState commit progress change
          device).2.vault.Holds location →
        (applyChange remote input mergeState commit progress change device).2.vault.Holds other →
        ¬ Undone remote input mergeState commit (change :: changes) progress device location other →
        (device.vault.Holds location ∧ device.vault.Holds other) ∨
        (WritesBeside remote input mergeState commit progress change device location other ∨
          WritesBeside remote input mergeState commit progress change device other location) := by
      intro after afterOther kept
      rcases (step.mp after).1 with early | writes
      · rcases (stepOther.mp afterOther).1 with earlyOther | writesOther
        · exact .inl ⟨early, earlyOther⟩
        · exact .inr (.inr ⟨writesOther, early⟩)
      · rcases (stepOther.mp afterOther).1 with earlyOther | writesOther
        · exact .inr (.inl ⟨writes, earlyOther⟩)
        · exact absurd (writes.unique writesOther) differ
    rw [applyChanges_cons] at held heldOther
    match ran : applyChange remote input mergeState commit progress change device with
    | (.error error, stopped) =>
      rw [bind_of_error ran] at held heldOther
      rw [ran] at first
      obtain ⟨early, earlyOther⟩ | beside :=
        first held heldOther (not_undone_of_error ran)
      · exact .inl ⟨early, earlyOther, not_undone_of_error ran⟩
      · exact .inr ⟨[], change, changes, progress, device, rfl, rfl, beside,
          not_undone_of_error ran⟩
    | (.ok next, moved) =>
      rw [bind_of_ok ran] at held heldOther
      rw [ran] at first step stepOther
      obtain ⟨after, afterOther, kept⟩ | ⟨before, later, after, reached, there, rfl, applied,
        beside, kept⟩ := ih held heldOther
      · have isKept : ¬ Undone remote input mergeState commit (change :: changes) progress device
            location other := by
          rw [undone_of_ok ran]
          rintro ((removes | removes) | undone)
          · exact (step.mp after).2 ⟨next, rfl⟩ removes
          · exact (stepOther.mp afterOther).2 ⟨next, rfl⟩ removes
          · exact kept undone
        obtain ⟨early, earlyOther⟩ | beside := first after afterOther isKept
        · exact .inl ⟨early, earlyOther, isKept⟩
        · exact .inr ⟨[], change, changes, progress, device, rfl, rfl, beside, isKept⟩
      · refine .inr ⟨change :: before, later, after, reached, there, rfl, ?_, beside, kept⟩
        rw [applyChanges_cons, bind_of_ok ran]
        exact applied

/-! ## A commit -/

theorem applyDecryptedCommit_vault (tree : TreeEntries) :
    (applyDecryptedCommit remote input mergeState commit tree device).2.vault =
      (applyChanges remote input mergeState commit commit.body.changes
        { tree := startingTree commit tree } device).2.vault := by
  have scanned : ∀ device, (refreshLocalScan remote device).2.vault = device.vault := by
    intro device
    unfold refreshLocalScan
    rw [get_bind]
    cases scanVault remote.crates device.vault with
    | error error => rfl
    | ok files =>
      rw [lift_bind_ok]
      cases applyScan remote.crates device.db.files (files.map ScannedFile.fileInput) with
      | error error => rfl
      | ok rows => rfl
  have persisted : ∀ progress device,
      (persistAppliedCommit remote commit progress device).2.vault = device.vault := by
    intro progress device
    unfold persistAppliedCommit
    cases validateTreeId remote commit.body.treeId progress.tree.byPath with
    | error error => rfl
    | ok _ =>
      rw [lift_bind_ok, modify_bind]
      have same := scanned { device with
        db := persistTreeCache device.db commit.header.commitId progress.tree.byPath }
      match ran : refreshLocalScan remote { device with
          db := persistTreeCache device.db commit.header.commitId progress.tree.byPath } with
      | (.error error, stopped) =>
        rw [ran] at same
        rw [bind_of_error ran]
        exact same
      | (.ok (), moved) =>
        rw [ran] at same
        rw [bind_of_ok ran]
        exact same
  unfold applyDecryptedCommit
  match ran : applyChanges remote input mergeState commit commit.body.changes
      { tree := startingTree commit tree } device with
  | (.error error, stopped) => rw [bind_of_error ran]
  | (.ok progress, moved) =>
    rw [bind_of_ok ran]
    match done : persistAppliedCommit remote commit progress moved with
    | (.error error, stopped) =>
      rw [bind_of_error done, ← persisted progress moved, done]
    | (.ok (), last) =>
      rw [bind_of_ok done, ← persisted progress moved, done]
      rfl

/-- Whatever a commit comes to, the vault it leaves can be scanned as far as the paths of its
files go. -/
def StaysScannable (remote : Remote) (input : PullInput) (mergeState : RemoteMergeState)
    (commit : DecryptedCommit) (tree : TreeEntries) (device : Device) : Prop :=
  let vault := (applyDecryptedCommit remote input mergeState commit tree device).2.vault
  Scannable remote.crates vault ∧
    ∀ path, scanVault remote.crates vault ≠ .error (duplicatePath path)

/-- A change that writes a file beside a rival, and no change from it on, when it is reached and
applied, removes one of the two: this does not happen. -/
def NoLastingRival (remote : Remote) (input : PullInput) (mergeState : RemoteMergeState)
    (commit : DecryptedCommit) (tree : TreeEntries) (device : Device) : Prop :=
  ∀ before change after progress moved location rival,
    commit.body.changes = before ++ change :: after →
    applyChanges remote input mergeState commit before { tree := startingTree commit tree }
      device = (.ok progress, moved) →
    WritesBeside remote input mergeState commit progress change moved location rival →
    Rivals remote.crates location rival →
    Undone remote input mergeState commit (change :: after) progress moved location rival

theorem Undone.symm
    (undone : Undone remote input mergeState commit changes progress device location other) :
    Undone remote input mergeState commit changes progress device other location := by
  obtain ⟨before, remover, after, last, arrived, isSplit, removes, applied⟩ := undone
  exact ⟨before, remover, after, last, arrived, isSplit, removes.symm, applied⟩

def renames : List DecryptedCommit :=
  sampleHistory [("c1", [("a.md", some "text")]), ("c2", [("A.md", some "text")])] []

def renamed : DecryptedCommit := renames.getLastD (sampleCommit "" [] [])

/-- A device that has pulled the file under its first name. -/
def named : Device := (samplePull (renames.take 1) { vault := empty }).2

end Applier

end Kuku.Sync
