/-
# Sync.RemoteStatus -- what "no remote changes" says about the vault

The indicator (`remote_status_from_head`) compares the server's head with the remote head of the
vault's row, not with its local head.  Three functions write the remote head: the one that moves
both heads after a commit, and the two that refresh the row before a pull or a merge push
(`ensurePullVaultRecord`, `ensureMergeVaultRecord`), which only have the server's word for it.

A pull or a merge push that stops right after that leaves a row whose remote head is ahead of
its local head.  `pull_settled_iff` says when a pull does; `status_sound` is the result for the
runs in which no step stops there.
-/
import Kuku.Account.Vault
import Kuku.Sync.IntegrityFailures

namespace Kuku.Sync.RemoteStatus

open Kuku.Theory Kuku.Sync.Applier

structure SyncRemoteStatus where
  workspaceId : String
  remoteHeadCommitId : String
  latestCheckpointCommitId : String
  localRemoteHeadCommitId : Option String
  localHeadCommitId : Option String
  hasRemoteChanges : Bool

def remoteStatusFromHead (workspaceId : String) (localVault : Option SyncVaultRecord)
    (head : SyncHead) : SyncRemoteStatus where
  workspaceId
  remoteHeadCommitId := head.currentHeadCommitId
  latestCheckpointCommitId := head.latestCheckpointCommitId
  localRemoteHeadCommitId := localVault.bind SyncVaultRecord.remoteHeadCommitId
  localHeadCommitId := localVault.bind SyncVaultRecord.localHeadCommitId
  hasRemoteChanges := head.currentHeadCommitId ≠ "" ∧
    localVault.bind SyncVaultRecord.remoteHeadCommitId ≠ some head.currentHeadCommitId

/-- "No remote changes" means that the server's head is the local head. -/
def Sound (row : Option SyncVaultRecord) : Prop :=
  ∀ workspaceId head, head.currentHeadCommitId ≠ "" →
    (remoteStatusFromHead workspaceId row head).hasRemoteChanges = false →
      row.bind SyncVaultRecord.localHeadCommitId = some head.currentHeadCommitId

/-! ## The steps -/

/-- A pull from the answer of `GetHead` on; `ListCommits` may fail. -/
def pull (remote : Remote) (input : PullInput) (head : SyncHead)
    (listed : Except SyncError (List SyncCommitHeader)) : Pull (List String) :=
  match listed with
  | .ok commits => pullRemoteChanges remote input head commits
  | .error error => do
    Effect.lift (validatePullInput input)
    Effect.modify fun device =>
      { device with db.vault := some (ensurePullVaultRecord device.db.vault input.pipeline head) }
    if head.currentHeadCommitId = "" then pure [] else Effect.throw error

/-- A push or a merge push (with its local parent), from the answer of `GetHead` on; it stops
somewhere, or its commit is published under an id. -/
structure Push where
  input : PipelineInput
  localParent : Option String
  head : SyncHead
  published : Option String

namespace Push

variable (push : Push)

/-- `validate_push_input` and `validate_push_merge_input`. -/
def validate : Except SyncError Unit := do
  validateRequired push.input.vaultId.toList "vault_id"
  validateRequired push.input.workspaceId.toList "workspace_id"
  validateRequired push.input.deviceId.toList "device_id"
  match push.localParent with
  | some localParent => validateRequired localParent.toList "local_parent_commit_id"
  | none => .ok ()

def ensureRow (existing : Option SyncVaultRecord) : SyncVaultRecord :=
  match push.localParent with
  | some _ => ensureMergeVaultRecord existing push.input push.head
  | none => ensureVaultRecord existing push.input push.head

def check (vault : SyncVaultRecord) : Except SyncError Unit :=
  match push.localParent with
  | some localParent =>
    Account.ensureMergeParentCanPush vault push.head.currentHeadCommitId localParent
  | none => Account.ensureLocalHeadCanPush vault push.head.currentHeadCommitId

/-- What becomes of the row. -/
def row (existing : Option SyncVaultRecord) : Option SyncVaultRecord :=
  match push.validate with
  | .error _ => existing
  | .ok () =>
    let vault := push.ensureRow existing
    match push.check vault, push.published with
    | .ok (), some commitId =>
      updateVaultAfterPublish (some vault) commitId (vault.nextDeviceSeq + 1)
    | _, _ => some vault

end Push

/-- A pull, a push, a configuration, a disconnection, or anything that leaves the row alone;
`others` is what a push or such a thing makes of the files and of the other tables. -/
inductive Label where
  | pull (remote : Remote) (input : PullInput) (head : SyncHead)
      (listed : Except SyncError (List SyncCommitHeader))
  | push (push : Push) (others : Device)
  | configure (config : SyncVaultConfig) (enabled : Bool)
  | disconnect
  | elsewhere (others : Device)

def withRow (device : Device) (row : Option SyncVaultRecord) : Device :=
  { device with db.vault := row }

def next (device : Device) : Label → Option Device
  | .pull remote input head listed => some (pull remote input head listed device).2
  | .push push others => some (withRow others (push.row device.db.vault))
  | .configure config enabled =>
    some (withRow device (some (persistConfiguredVault device.db.vault config enabled)))
  | .disconnect => some (withRow device none)
  | .elsewhere others => some (withRow others device.db.vault)

/-- A new vault has no row. -/
def syncing : System Device Label := System.ofStep (fun device => device.db.vault = none) next

/-! ## The row -/

section Row

variable {row : Option SyncVaultRecord} {vault : SyncVaultRecord} {head : SyncHead}
  {commitId : String}

/-- The remote head, if there is one, is the local head. -/
def Settled (row : Option SyncVaultRecord) : Prop :=
  ∀ head, head ≠ "" → row.bind SyncVaultRecord.remoteHeadCommitId = some head →
    row.bind SyncVaultRecord.localHeadCommitId = some head

theorem sound_iff : Sound row ↔ Settled row := by
  constructor
  · intro sound head nonempty isRemote
    refine sound "" ⟨head, ""⟩ nonempty (decide_eq_false ?_)
    exact fun both => both.2 isRemote
  · intro settled workspaceId head nonempty unchanged
    refine settled head.currentHeadCommitId nonempty ?_
    by_contra differs
    exact of_decide_eq_false unchanged ⟨nonempty, differs⟩

theorem settled_none : Settled none := nofun

theorem settled_of_same (same : vault.remoteHeadCommitId = vault.localHeadCommitId) :
    Settled (some vault) := by
  intro head _ isRemote
  exact same.symm.trans isRemote

theorem settled_afterPull : Settled (updateVaultAfterPull row commitId) := by
  cases row with
  | none => exact settled_none
  | some vault => exact settled_of_same rfl

theorem settled_afterPublish {seq : Int} : Settled (updateVaultAfterPublish row commitId seq) := by
  cases row with
  | none => exact settled_none
  | some vault => exact settled_of_same rfl

theorem settled_emptyToNone (isRemote : vault.remoteHeadCommitId = emptyToNone head.currentHeadCommitId) :
    Settled (some vault) ↔
      head.currentHeadCommitId = "" ∨ vault.localHeadCommitId = some head.currentHeadCommitId := by
  rw [emptyToNone] at isRemote
  constructor
  · intro settled
    by_cases isEmpty : head.currentHeadCommitId = ""
    · exact .inl isEmpty
    · rw [if_neg isEmpty] at isRemote
      exact .inr (settled _ isEmpty isRemote)
  · rintro (isEmpty | isLocal) other nonempty isOther
    · rw [if_pos isEmpty] at isRemote
      cases isRemote.symm.trans isOther
    · split_ifs at isRemote with isEmpty
      · cases isRemote.symm.trans isOther
      · rw [← Option.some.inj (isRemote.symm.trans isOther)]
        exact isLocal

end Row

/-! ## What leaves the row alone -/

section Frame

variable {remote : Remote} {input : PullInput} {mergeState : RemoteMergeState}
  {commit : DecryptedCommit} {header : SyncCommitHeader}

def SameRow (before after : Device) : Prop := after.db.vault = before.db.vault

theorem sameRow_refl (device : Device) : SameRow device device := rfl

theorem sameRow_trans (first second third : Device) (here : SameRow first second)
    (there : SameRow second third) : SameRow first third :=
  there.trans here

theorem keeps_same {α : Type} {x : Pull α} (same : ∀ device, (x device).2 = device) :
    Effect.Keeps SameRow x :=
  .of_same sameRow_refl same

theorem keeps_bind {α β : Type} {x : Pull α} {f : α → Pull β} (first : Effect.Keeps SameRow x)
    (rest : ∀ a, Effect.Keeps SameRow (f a)) : Effect.Keeps SameRow (x >>= f) :=
  first.bind sameRow_trans rest

theorem keeps_then {α β : Type} {x : Pull α} {b : β} (first : Effect.Keeps SameRow x) :
    Effect.Keeps SameRow (do let _ ← x; pure b) :=
  keeps_bind first fun _ => keeps_same fun _ => rfl

theorem keeps_lift {α : Type} (result : Except SyncError α) :
    Effect.Keeps SameRow (Effect.lift result : Pull α) :=
  keeps_same fun _ => rfl

theorem keeps_get : Effect.Keeps SameRow (Effect.get : Pull Device) := keeps_same fun _ => rfl

theorem keeps_throw {α : Type} (error : SyncError) :
    Effect.Keeps SameRow (Effect.throw error : Pull α) :=
  keeps_same fun _ => rfl

theorem keeps_write (path : Str) (plaintext : Plaintext) :
    Effect.Keeps SameRow (applyRemoteWrite path plaintext) := by
  refine keeps_bind (keeps_lift _) fun resolved => keeps_bind keeps_get fun device => ?_
  split
  · exact keeps_throw _
  · exact fun _ => rfl

theorem keeps_delete (path : Str) : Effect.Keeps SameRow (applyRemoteDelete path) := by
  refine keeps_bind (keeps_lift _) fun resolved => keeps_bind keeps_get fun device => ?_
  split
  · exact fun _ => rfl
  · split_ifs
    · exact fun _ => rfl
    · exact keeps_throw _

theorem keeps_read (path : Str) : Effect.Keeps SameRow (readLocalFile path) := by
  refine keeps_bind (keeps_lift _) fun resolved => keeps_bind keeps_get fun device => ?_
  split
  · exact fun _ => rfl
  · exact keeps_throw _

theorem keeps_copy (path : Str) (plaintext : Plaintext) (base : Option String) :
    Effect.Keeps SameRow (writeConflictCopy remote input path plaintext base header) := by
  refine keeps_bind keeps_get fun device => keeps_bind (keeps_lift _) fun conflictPath => ?_
  exact keeps_bind (keeps_write _ _) fun _ _ => rfl

theorem keeps_mergeUpsert (baseEntry : Option SyncTreeEntryRecord) (dirty : SyncFileRecord)
    (path : Str) (plaintext : Plaintext) :
    Effect.Keeps SameRow
      (mergeRemoteUpsert remote input header baseEntry dirty path plaintext) := by
  unfold mergeRemoteUpsert
  split_ifs with gone
  · exact keeps_then (keeps_copy _ _ _)
  · refine keeps_bind (keeps_read _) fun localPlaintext => ?_
    split
    · exact keeps_then (keeps_copy _ _ _)
    · refine keeps_bind (keeps_lift _) fun basePlaintext => ?_
      split
      · exact keeps_then (keeps_copy _ _ _)
      · refine keeps_bind (keeps_lift _) fun outcome => ?_
        split
        · exact keeps_then (keeps_write _ _)
        · exact keeps_then (keeps_copy _ _ _)

theorem keeps_mergeDelete (dirty : Option SyncFileRecord) (path : Str) :
    Effect.Keeps SameRow (mergeRemoteDelete remote input header dirty path) := by
  unfold mergeRemoteDelete
  split
  · exact keeps_then (keeps_delete _)
  · split_ifs with gone
    · exact keeps_then (keeps_delete _)
    · refine keeps_bind (keeps_read _) fun _ => keeps_bind (keeps_copy _ _ _) fun _ => ?_
      exact keeps_then (keeps_delete _)

theorem keeps_actOn (tree : TreeEntries) (plaintext : Plaintext) (change : CommitBodyFileOp) :
    Effect.Keeps SameRow (actOn remote input mergeState header tree plaintext change) := by
  cases change with
  | upsertFile fileId path normalizedPath plaintextHash sizeBytes contentRef =>
    rw [actOn_upsert]
    split
    · exact keeps_mergeUpsert _ _ _ _
    · exact keeps_then (keeps_write _ _)
  | deleteFile fileId path normalizedPath => exact keeps_mergeDelete _ _

theorem keeps_changes (changes : List CommitBodyFileOp) (progress : Progress) :
    Effect.Keeps SameRow (applyChanges remote input mergeState commit changes progress) := by
  refine applyChanges_keeps sameRow_refl sameRow_trans (fun progress change => ?_) changes progress
  refine keeps_bind (keeps_lift _) fun plaintext => keeps_bind (keeps_actOn _ _ _) fun action => ?_
  exact fun _ => rfl

theorem keeps_scan : Effect.Keeps SameRow (refreshLocalScan remote) := by
  refine keeps_bind keeps_get fun device => keeps_bind (keeps_lift _) fun scanned => ?_
  exact keeps_bind (keeps_lift _) fun files _ => rfl

end Frame

/-! ## What moves both heads -/

section Replay

variable {remote : Remote} {input : PullInput} {mergeState : RemoteMergeState}
  {commit : DecryptedCommit} {header : SyncCommitHeader} {device after : Device}
  {tree : TreeEntries} {error : SyncError}

theorem persistAppliedCommit_row {progress : Progress}
    (ran : persistAppliedCommit remote commit progress device = (.ok (), after)) :
    Settled after.db.vault := by
  obtain ⟨⟨⟩, _, -, checked⟩ := Effect.bind_ok.mp ran
  obtain ⟨⟨⟩, _, -, cached⟩ := Effect.bind_ok.mp checked
  obtain ⟨⟨⟩, scanned, -, marked⟩ := Effect.bind_ok.mp cached
  rw [← (Prod.mk.inj marked).2]
  exact settled_afterPull

theorem persistAppliedCommit_error {progress : Progress}
    (failed : persistAppliedCommit remote commit progress device = (.error error, after)) :
    SameRow device after := by
  obtain unchecked | ⟨⟨⟩, _, isChecked, checked⟩ := Effect.bind_error.mp failed
  · rw [← (Prod.mk.inj unchecked).2]
    exact sameRow_refl device
  · rw [← (Prod.mk.inj isChecked).2, Effect.modify_bind] at checked
    obtain unscanned | ⟨⟨⟩, _, -, marked⟩ := Effect.bind_error.mp checked
    · have same := @keeps_scan remote { device with
        db := persistTreeCache device.db commit.header.commitId progress.tree.byPath }
      rw [unscanned] at same
      exact same
    · cases marked

theorem applyCommit_row {result : TreeEntries}
    (ran : applyCommit remote input mergeState tree header device = (.ok result, after)) :
    Settled after.db.vault := by
  obtain ⟨commit, _, -, applying⟩ := Effect.bind_ok.mp ran
  obtain ⟨progress, _, -, changed⟩ := Effect.bind_ok.mp applying
  obtain ⟨⟨⟩, _, persisted, ended⟩ := Effect.bind_ok.mp changed
  rw [← (Prod.mk.inj ended).2]
  exact persistAppliedCommit_row persisted

theorem applyCommit_error
    (failed : applyCommit remote input mergeState tree header device = (.error error, after)) :
    SameRow device after := by
  obtain undecrypted | ⟨commit, _, decrypted, applying⟩ := Effect.bind_error.mp failed
  · rw [← (Prod.mk.inj undecrypted).2]
    exact sameRow_refl device
  · rw [← (Prod.mk.inj decrypted).2] at applying
    have same : SameRow device (applyChanges remote input mergeState commit commit.body.changes
        { tree := startingTree commit tree } device).2 :=
      keeps_changes _ _ device
    obtain unchanged | ⟨progress, changed, isChanged, persisting⟩ := Effect.bind_error.mp applying
    · rw [unchanged] at same
      exact same
    · rw [isChanged] at same
      obtain unpersisted | ⟨_, _, -, ended⟩ := Effect.bind_error.mp persisting
      · exact sameRow_trans _ _ _ same (persistAppliedCommit_error unpersisted)
      · cases ended

/-- The row is the same, or its heads agree now. -/
def Settles (before after : Device) : Prop := SameRow before after ∨ Settled after.db.vault

theorem settles_trans (first second third : Device) (here : Settles first second)
    (there : Settles second third) : Settles first third := by
  obtain same | settled := there
  · obtain before | isSettled := here
    · exact .inl (sameRow_trans _ _ _ before same)
    · refine .inr ?_
      rw [same]
      exact isSettled
  · exact .inr settled

theorem settles_applyCommit : Effect.Keeps Settles
    (applyCommit remote input mergeState tree header) := by
  intro device
  match ran : applyCommit remote input mergeState tree header device with
  | (.ok result, after) => exact .inr (applyCommit_row ran)
  | (.error error, after) => exact .inl (applyCommit_error ran)

/-- A commit is decrypted when its turn comes. -/
theorem replayCommits_cons {headers : List SyncCommitHeader} :
    replayCommits remote input mergeState (header :: headers) tree device = (do
      let tree ← applyCommit remote input mergeState tree header
      let applied ← replayCommits remote input mergeState headers tree
      pure (header.commitId :: applied)) device := by
  unfold applyCommit
  rw [Effect.bind_assoc]
  rfl

theorem settles_replay (headers : List SyncCommitHeader) (tree : TreeEntries) :
    Effect.Keeps Settles (replayCommits remote input mergeState headers tree) := by
  induction headers generalizing tree with
  | nil => exact fun device => .inl (sameRow_refl device)
  | cons header headers ih =>
    intro device
    rw [replayCommits_cons]
    refine settles_applyCommit.bind settles_trans (fun next => ?_) device
    exact (ih next).bind settles_trans fun _ _ => .inl rfl

end Replay

/-! ## A pull -/

/-- What is left of a pull when the row is written and the head is not empty. -/
def replayListed (remote : Remote) (input : PullInput) (head : SyncHead)
    (listed : Except SyncError (List SyncCommitHeader)) (vault : SyncVaultRecord) :
    Pull (List String) := do
  let commits ← Effect.lift listed
  let selection ← Effect.lift
    (selectReplayCommits SyncCommitHeader.commitId vault.localHeadCommitId head commits)
  if selection = [] then pure []
  else do
    refreshLocalScan remote
    let device ← Effect.get
    let tree ← Effect.lift (initialOrRematerializedTreeEntries remote device.db vault commits)
    replayCommits remote input (listDirtyFiles device.db.files) selection tree

/-- The part of it that ends with its first commit, if there is one to apply. -/
def replayFirst (remote : Remote) (input : PullInput) (head : SyncHead)
    (listed : Except SyncError (List SyncCommitHeader)) (vault : SyncVaultRecord) :
    Pull Unit := do
  let commits ← Effect.lift listed
  let selection ← Effect.lift
    (selectReplayCommits SyncCommitHeader.commitId vault.localHeadCommitId head commits)
  match selection with
  | [] => pure ()
  | header :: _ => do
    refreshLocalScan remote
    let device ← Effect.get
    let tree ← Effect.lift (initialOrRematerializedTreeEntries remote device.db vault commits)
    let _ ← applyCommit remote input (listDirtyFiles device.db.files) tree header
    pure ()

section PullRow

variable {remote : Remote} {input : PullInput} {head : SyncHead}
  {listed : Except SyncError (List SyncCommitHeader)} {device : Device}

theorem pull_invalid {error : SyncError} (invalid : validatePullInput input = .error error) :
    (pull remote input head listed device).2 = device := by
  cases listed with
  | error other =>
    change ((Effect.lift (validatePullInput input) >>= _ : Pull (List String)) device).2 = device
    rw [invalid, Effect.lift_bind_error]
  | ok commits =>
    change ((Effect.lift (validatePullInput input) >>= _ : Pull (List String)) device).2 = device
    rw [invalid, Effect.lift_bind_error]

/-- The row a pull writes first. -/
abbrev pulledRow (input : PullInput) (head : SyncHead) (device : Device) : SyncVaultRecord :=
  ensurePullVaultRecord device.db.vault input.pipeline head

abbrev pulled (input : PullInput) (head : SyncHead) (device : Device) : Device :=
  withRow device (some (pulledRow input head device))

/-- Once the row is written, the pull gets past its first commit. -/
def GetsGoing (remote : Remote) (input : PullInput) (head : SyncHead)
    (listed : Except SyncError (List SyncCommitHeader)) (device : Device) : Prop :=
  ∃ after, replayFirst remote input head listed (pulledRow input head device)
    (pulled input head device) = (.ok (), after)

theorem pull_empty (valid : validatePullInput input = .ok ()) (isEmpty : head.currentHeadCommitId = "") :
    (pull remote input head listed device).2 = pulled input head device := by
  cases listed with
  | error other =>
    change ((Effect.lift (validatePullInput input) >>= _ : Pull (List String)) device).2 = _
    rw [valid, Effect.lift_bind_ok, Effect.modify_bind, if_pos isEmpty]
    rfl
  | ok commits =>
    change ((Effect.lift (validatePullInput input) >>= _ : Pull (List String)) device).2 = _
    rw [valid, Effect.lift_bind_ok, Effect.get_bind, Effect.modify_bind, if_pos isEmpty]
    rfl

theorem getsGoing_of_isOk (isOk : (replayFirst remote input head listed
    (pulledRow input head device) (pulled input head device)).1.isOk = true) :
    GetsGoing remote input head listed device := by
  match ran : replayFirst remote input head listed (pulledRow input head device)
      (pulled input head device) with
  | (.ok (), after) => exact ⟨after, ran⟩
  | (.error error, after) =>
    rw [ran] at isOk
    cases isOk

theorem pull_run (valid : validatePullInput input = .ok ())
    (nonempty : head.currentHeadCommitId ≠ "") :
    pull remote input head listed device =
      replayListed remote input head listed (pulledRow input head device)
        (pulled input head device) := by
  cases listed with
  | error other =>
    change (Effect.lift (validatePullInput input) >>= _ : Pull (List String)) device = _
    rw [valid, Effect.lift_bind_ok, Effect.modify_bind, if_neg nonempty]
    rfl
  | ok commits =>
    change (Effect.lift (validatePullInput input) >>= _ : Pull (List String)) device = _
    rw [valid, Effect.lift_bind_ok, Effect.get_bind, Effect.modify_bind, if_neg nonempty]
    rfl

theorem settled_pulled : Settled (pulled input head device).db.vault ↔
    head.currentHeadCommitId = "" ∨
      device.db.vault.bind SyncVaultRecord.localHeadCommitId = some head.currentHeadCommitId := by
  have isLocal : (ensurePullVaultRecord device.db.vault input.pipeline head).localHeadCommitId =
      device.db.vault.bind SyncVaultRecord.localHeadCommitId := by
    cases device.db.vault <;> rfl
  rw [← isLocal]
  exact settled_emptyToNone rfl

theorem selected_nil {localHead : Option String} {commits : List SyncCommitHeader}
    (nonempty : head.currentHeadCommitId ≠ "")
    (selected : selectReplayCommits SyncCommitHeader.commitId localHead head commits = .ok []) :
    localHead = some head.currentHeadCommitId := by
  simp only [selectReplayCommits, bind, Except.bind, pure, Except.pure, throw, throwThe,
    MonadExceptOf.throw] at selected
  split at selected
  · rename_i isHead
    cases localHead with
    | none => exact absurd isHead.symm nonempty
    | some localHead => exact congrArg some isHead
  · split at selected
    · cases selected
    · split at selected
      · rename_i last
        rw [Except.ok.inj selected] at last
        cases last
      · cases selected

/-- The whole settles the row where its start succeeds, and leaves it alone elsewhere. -/
inductive Tracks {α : Type} (device : Device) (start : Pull Unit) (whole : Pull α) : Prop where
  | passed (after : Device) (ran : start device = (.ok (), after))
      (settled : Settled (whole device).2.db.vault)
  | stopped (error : SyncError) (after : Device) (failed : start device = (.error error, after))
      (same : SameRow device (whole device).2)

theorem tracks_bind {α β : Type} {x : Pull β} {f : β → Pull Unit} {g : β → Pull α}
    (keeps : Effect.Keeps SameRow x)
    (each : ∀ b after, x device = (.ok b, after) → Tracks after (f b) (g b)) :
    Tracks device (x >>= f) (x >>= g) := by
  have same := keeps device
  match ran : x device with
  | (.error error, after) =>
    rw [ran] at same
    refine .stopped error after (Effect.bind_of_error ran) ?_
    rw [Effect.bind_of_error ran]
    exact same
  | (.ok b, after) =>
    rw [ran] at same
    cases each b after ran with
    | passed last isLast settled =>
      refine .passed last ((Effect.bind_of_ok ran).trans isLast) ?_
      rw [Effect.bind_of_ok ran]
      exact settled
    | stopped error last failed isSame =>
      refine .stopped error last ((Effect.bind_of_ok ran).trans failed) ?_
      rw [Effect.bind_of_ok ran]
      exact sameRow_trans _ _ _ same isSame

theorem tracks_replay {header : SyncCommitHeader} {headers : List SyncCommitHeader}
    {mergeState : RemoteMergeState} {tree : TreeEntries} :
    Tracks device (do let _ ← applyCommit remote input mergeState tree header; pure ())
      (replayCommits remote input mergeState (header :: headers) tree) := by
  match ran : applyCommit remote input mergeState tree header device with
  | (.error error, after) =>
    refine .stopped error after (Effect.bind_of_error ran) ?_
    rw [replayCommits_cons, Effect.bind_of_error ran]
    exact applyCommit_error ran
  | (.ok next, after) =>
    refine .passed after (Effect.bind_of_ok ran) ?_
    have settled := applyCommit_row ran
    have settles : Effect.Keeps Settles (do
        let applied ← replayCommits remote input mergeState headers next
        pure (header.commitId :: applied)) :=
      (settles_replay headers next).bind settles_trans fun _ _ => .inl rfl
    rw [replayCommits_cons, Effect.bind_of_ok ran]
    obtain same | isSettled := settles after
    · rw [same]
      exact settled
    · exact isSettled

theorem tracks_replayListed {vault : SyncVaultRecord} (nonempty : head.currentHeadCommitId ≠ "")
    (isRow : device.db.vault = some vault) (isRemote : vault.remoteHeadCommitId =
      emptyToNone head.currentHeadCommitId) :
    Tracks device (replayFirst remote input head listed vault)
      (replayListed remote input head listed vault) := by
  refine tracks_bind (keeps_lift listed) fun commits arrived isListed => ?_
  cases isListed
  refine tracks_bind (keeps_lift _) fun selection chosen isChosen => ?_
  obtain ⟨selected, rfl⟩ := Prod.mk.inj isChosen
  cases selection with
  | nil =>
    refine .passed device rfl ?_
    rw [if_pos rfl]
    change Settled device.db.vault
    rw [isRow]
    exact (settled_emptyToNone isRemote).mpr (.inr (selected_nil nonempty selected))
  | cons header headers =>
    rw [if_neg (List.cons_ne_nil _ _)]
    refine tracks_bind keeps_scan fun _ scanned _ => ?_
    refine tracks_bind keeps_get fun _ _ _ => ?_
    exact tracks_bind (keeps_lift _) fun tree _ _ => tracks_replay

/-- After a pull that wrote the answered head, the heads agree exactly when it got past its
first commit, or had that head already. -/
theorem pull_settled_iff (valid : validatePullInput input = .ok ())
    (nonempty : head.currentHeadCommitId ≠ "") :
    Settled (pull remote input head listed device).2.db.vault ↔
      GetsGoing remote input head listed device ∨
      device.db.vault.bind SyncVaultRecord.localHeadCommitId = some head.currentHeadCommitId := by
  have tracks : Tracks (pulled input head device)
      (replayFirst remote input head listed (pulledRow input head device))
      (replayListed remote input head listed (pulledRow input head device)) :=
    tracks_replayListed nonempty rfl rfl
  rw [pull_run valid nonempty]
  cases tracks with
  | passed after ran settled => exact iff_of_true settled (.inl ⟨after, ran⟩)
  | stopped error after failed same =>
    rw [same, settled_pulled]
    constructor
    · exact fun either => .inr (either.resolve_left nonempty)
    · rintro (⟨_, isOk⟩ | isLocal)
      · cases failed.symm.trans isOk
      · exact .inr isLocal

end PullRow

/-! ## A push -/

section PushRow

variable {push : Push} {row : Option SyncVaultRecord}

theorem settled_ensureRecord {input : PipelineInput} {head : SyncHead} (settled : Settled row) :
    Settled (some (ensureRecord row input head (emptyToNone head.currentHeadCommitId))) := by
  cases row with
  | none => exact settled_of_same rfl
  | some vault => exact settled

/-- A push leaves the heads of the row as they are, or moves both. -/
theorem push_settled (isPush : push.localParent = none) (settled : Settled row) :
    Settled (push.row row) := by
  have ensured : Settled (some (push.ensureRow row)) := by
    rw [Push.ensureRow, isPush]
    exact settled_ensureRecord settled
  unfold Push.row
  split
  · exact settled
  · dsimp only
    split
    · exact settled_afterPublish
    · exact ensured

theorem local_of_canPush {vault : SyncVaultRecord} {remoteHead localParent : String}
    (checked : Account.ensureMergeParentCanPush vault remoteHead localParent = .ok ()) :
    vault.localHeadCommitId = some remoteHead := by
  unfold Account.ensureMergeParentCanPush Account.ensureLocalHeadCanPush at checked
  split_ifs at checked with isEmpty isParent differs
  have isHead : vault.localHeadCommitId.getD "" = remoteHead := by
    by_contra other
    exact differs ⟨isEmpty, other⟩
  cases isLocal : vault.localHeadCommitId with
  | none =>
    rw [isLocal] at isHead
    exact absurd isHead.symm isEmpty
  | some localHead =>
    rw [isLocal] at isHead
    exact congrArg some isHead

/-- A merge push writes the answered head, and publishes nothing unless it is the local head. -/
theorem merge_settled_iff {localParent : String} (isMerge : push.localParent = some localParent)
    (valid : push.validate = .ok ()) :
    Settled (push.row row) ↔ push.head.currentHeadCommitId = "" ∨ row = none ∨
      row.bind SyncVaultRecord.localHeadCommitId = some push.head.currentHeadCommitId := by
  have isRow : push.ensureRow row = ensureMergeVaultRecord row push.input push.head := by
    rw [Push.ensureRow, isMerge]
  have ensured : Settled (some (push.ensureRow row)) ↔ push.head.currentHeadCommitId = "" ∨
      row = none ∨
        row.bind SyncVaultRecord.localHeadCommitId = some push.head.currentHeadCommitId := by
    rw [isRow, @settled_emptyToNone _ push.head rfl]
    cases row with
    | none =>
      refine iff_of_true ?_ (.inr (.inl rfl))
      by_cases isEmpty : push.head.currentHeadCommitId = ""
      · exact .inl isEmpty
      · exact .inr (if_neg isEmpty)
    | some vault => simp [ensureMergeVaultRecord, ensureRecord]
  unfold Push.row
  rw [valid]
  dsimp only
  split
  · rename_i checked published
    refine iff_of_true settled_afterPublish (ensured.mp ?_)
    -- the check has compared the local head with the answered one
    rw [Push.check, isMerge] at checked
    rw [isRow] at checked ⊢
    exact (settled_emptyToNone rfl).mpr (.inr (local_of_canPush checked))
  · exact ensured

end PushRow

/-! ## Runs -/

/-- A pull whose input is in order gets past its first commit, unless it has the answered head
already; a merge push has it. -/
def Careful (device : Device) : Label → Prop
  | .pull remote input head listed =>
    validatePullInput input = .ok () → head.currentHeadCommitId ≠ "" →
      GetsGoing remote input head listed device ∨
      device.db.vault.bind SyncVaultRecord.localHeadCommitId = some head.currentHeadCommitId
  | .push push _ => push.localParent ≠ none → push.validate = .ok () →
      push.head.currentHeadCommitId = "" ∨ device.db.vault = none ∨
        device.db.vault.bind SyncVaultRecord.localHeadCommitId = some push.head.currentHeadCommitId
  | .configure _ _ => True
  | .disconnect => True
  | .elsewhere _ => True

theorem validate_cases (result : Except SyncError Unit) :
    result = .ok () ∨ ∃ error, result = .error error := by
  cases result with
  | error error => exact .inr ⟨error, rfl⟩
  | ok => exact .inl rfl

/-- A step from agreeing heads ends with agreeing heads exactly when it is careful. -/
theorem next_settled_iff {device after : Device} {label : Label}
    (settled : Settled device.db.vault) (ran : next device label = some after) :
    Settled after.db.vault ↔ Careful device label := by
  cases label with
  | pull remote input head listed =>
    cases ran
    obtain valid | ⟨error, invalid⟩ := validate_cases (validatePullInput input)
    · by_cases isEmpty : head.currentHeadCommitId = ""
      · rw [pull_empty valid isEmpty]
        refine iff_of_true (settled_pulled.mpr (.inl isEmpty)) ?_
        exact fun _ nonempty => absurd isEmpty nonempty
      · rw [pull_settled_iff valid isEmpty]
        exact ⟨fun either _ _ => either, fun careful => careful valid isEmpty⟩
    · rw [pull_invalid invalid]
      refine iff_of_true settled fun valid => ?_
      cases invalid.symm.trans valid
  | push push others =>
    cases ran
    cases isMerge : push.localParent with
    | none => exact iff_of_true (push_settled isMerge settled) (absurd isMerge)
    | some localParent =>
      obtain valid | ⟨error, invalid⟩ := validate_cases push.validate
      · refine (merge_settled_iff isMerge valid).trans ?_
        refine ⟨fun either _ _ => either, fun careful => careful ?_ valid⟩
        rw [isMerge]
        exact Option.some_ne_none _
      · refine iff_of_true ?_ fun _ valid => ?_
        · change Settled (push.row device.db.vault)
          rw [Push.row, invalid]
          exact settled
        · cases invalid.symm.trans valid
  | configure config enabled =>
    cases ran
    refine iff_of_true ?_ trivial
    change Settled (some (persistConfiguredVault device.db.vault config enabled))
    cases isRow : device.db.vault with
    | none => exact settled_of_same rfl
    | some vault =>
      rw [isRow] at settled
      exact settled
  | disconnect =>
    cases ran
    exact iff_of_true settled_none trivial
  | elsewhere others =>
    cases ran
    exact iff_of_true settled trivial

/-- In every run of careful steps "no remote changes" means that the server's head is here. -/
theorem status_sound {device : Device} (reached : syncing.ReachableBy Careful device) :
    Sound device.db.vault := by
  refine sound_iff.mpr (reached.keeps (fun device => Settled device.db.vault) ?_ ?_)
  · intro device starts
    rw [starts]
    exact settled_none
  · intro device label after settled careful stepped
    exact (next_settled_iff settled stepped).mpr careful

/-- A vault that pulls a commit, and then publishes one. -/
theorem status_sound_pull_push : ∃ device : Device,
    device.db.vault.bind SyncVaultRecord.localHeadCommitId = some "c2" ∧ Sound device.db.vault := by
  let history := sampleHistory [("c1", [("a.md", some "one")])] []
  let commits := history.map DecryptedCommit.header
  let start : Device := { vault := sampleVault [] }
  have careful : Careful start (.pull (sampleRemote history) sampleInput ⟨"c1", ""⟩ (.ok commits)) :=
    fun _ _ => .inl (getsGoing_of_isOk (by decide +kernel))
  have started : syncing.ReachableBy Careful start := .start rfl
  have pulled := started.step careful rfl
  let push : Label := .push ⟨sampleInput.pipeline, none, ⟨"c1", ""⟩, some "c2"⟩ start
  have pushed := pulled.step (l := push) (fun isMerge : (none : Option String) ≠ none =>
    absurd rfl isMerge) rfl
  exact ⟨_, by decide +kernel, status_sound pushed⟩

/-- The objects of a server that goes offline once it has listed its commits. -/
def goneOffline (remote : Remote) : Remote :=
  { remote with downloadObjects := fun _ => .error (.transport "offline") }

/-- The first pull of a vault fails at its first download; then there are no remote changes, and
nothing has been pulled. -/
theorem failed_pull_looks_synced :
    ¬ ∀ device, syncing.Reachable device → Sound device.db.vault := by
  intro sound
  let history := sampleHistory [("c1", [("a.md", some "one")])] []
  let start : Device := { vault := sampleVault [] }
  let failed : Label := .pull (goneOffline (sampleRemote history)) sampleInput ⟨"c1", ""⟩
    (.ok (history.map DecryptedCommit.header))
  have reached : ∃ after, next start failed = some after ∧
      after.db.vault.bind SyncVaultRecord.remoteHeadCommitId = some "c1" ∧
      after.db.vault.bind SyncVaultRecord.localHeadCommitId = none :=
    ⟨_, rfl, by decide +kernel, by decide +kernel⟩
  obtain ⟨after, ran, isRemote, isLocal⟩ := reached
  have settled := sound_iff.mp (sound after (.step (.start (s := start) rfl) trivial ran))
  have isHead := settled "c1" (by decide) isRemote
  rw [isLocal] at isHead
  cases isHead

end Kuku.Sync.RemoteStatus
