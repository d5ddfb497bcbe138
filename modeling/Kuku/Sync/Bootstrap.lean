/-
# Sync.Bootstrap -- the objects that a first pull downloads

A device without a local head replays the history from the latest checkpoint on.  What it asks
the server for are the bodies of these commits, the packs of these bodies, and, for a file that
was changed here, the pack that holds its text in an earlier one of these commits.

`bootstrap_objects`: all of them are among the objects that `buildReachableObjectGraph` preserves.
-/
import Kuku.Server.Gc
import Kuku.Sync.IntegrityFailures
import Kuku.Sync.ListAllCommits

namespace Kuku.Sync.Bootstrap

open Kuku.Theory Kuku.Sync.Applier List Server
open Kuku.Server (KukuSyncCommit Uuid)

/-- Another answer to a request for any object outside. -/
def within (objects : Finset String)
    (answer : List String → Except SyncError (List DownloadedObject)) (remote : Remote) : Remote :=
  { remote with
    downloadObjects := fun objectIds =>
      if ∀ objectId ∈ objectIds, objectId ∈ objects then remote.downloadObjects objectIds
      else answer objectIds }

/-- Whatever the server answers to a request for any other object, the pull is the same. -/
def OnlyDownloads {α : Type} (objects : Finset String) (remote : Remote)
    (pull : Remote → Pull α) (device : Device) : Prop :=
  ∀ answer, pull (within objects answer remote) device = pull remote device

/-! ## A commit -/

section Commit

variable {objects : Finset String}
  {answer : List String → Except SyncError (List DownloadedObject)} {remote : Remote}
  {header : SyncCommitHeader} {commit : DecryptedCommit} {objectId : String}

/-- The objects a header names; a blank text names none. -/
structure HeaderWithin (objects : Finset String) (header : SyncCommitHeader) : Prop where
  body : header.bodyObjectId ∈ objects
  referenced : ∀ objectId ∈ header.referencedObjectIds, objectId ≠ "" → objectId ∈ objects

theorem downloadObjects_within {objectIds : List String}
    (inside : ∀ objectId ∈ objectIds, objectId ∈ objects) :
    (within objects answer remote).downloadObjects objectIds = remote.downloadObjects objectIds :=
  if_pos inside

theorem downloadOne_within (inside : objectId ∈ objects) :
    downloadOne (within objects answer remote) objectId = downloadOne remote objectId := by
  rw [downloadOne, downloadObjects_within fun _ isIt => mem_singleton.mp isIt ▸ inside]
  rfl

theorem validatePacks_ok {packs : List CommitBodyPackRef} {seen : List String}
    (valid : validatePacks packs seen = .ok ()) : ∀ pack ∈ packs, pack.objectId ≠ "" := by
  induction packs generalizing seen with
  | nil => nofun
  | cons pack packs ih =>
    rw [validatePacks] at valid
    obtain ⟨⟨⟩, required, rest⟩ := bind_ok.mp valid
    have named : pack.objectId ≠ "" := by
      intro isEmpty
      rw [isEmpty] at required
      cases required
    split_ifs at rest with duplicate
    · cases rest
    · obtain ⟨_, -, later⟩ := bind_ok.mp rest
      exact forall_mem_cons.mpr ⟨named, ih later⟩

theorem validateCommitBody_ok {kind : String} {body : CommitBody}
    (valid : validateCommitBody header kind body = .ok ()) :
    (body.packs.map CommitBodyPackRef.objectId).Perm header.referencedObjectIds ∧
      validatePacks body.packs [] = .ok () := by
  simp only [validateCommitBody, bind, Except.bind, throw, throwThe, MonadExceptOf.throw] at valid
  split_ifs at valid with _ _ _ _ _ differs
  exact ⟨differs, valid⟩

theorem decryptPacks_keys {downloads : List DownloadedObject} {packRefs : List CommitBodyPackRef}
    {packs : Assoc String UnpackedPack}
    (decrypted : decryptPacks remote header downloads packRefs = .ok packs) :
    packs.map Prod.fst = packRefs.map CommitBodyPackRef.objectId := by
  induction packRefs generalizing packs with
  | nil =>
    cases decrypted
    rfl
  | cons packRef packRefs ih =>
    rw [decryptPacks] at decrypted
    split at decrypted
    · obtain ⟨⟨⟩, -, validated⟩ := bind_ok.mp decrypted
      obtain ⟨unpacked, -, opened⟩ := bind_ok.mp validated
      split_ifs at opened with differs
      · cases opened
      · obtain ⟨rest, isRest, isPacks⟩ := bind_ok.mp opened
        cases isPacks
        rw [map_cons, ih isRest]
        rfl
    · cases decrypted

theorem decryptPacks_within {downloads : List DownloadedObject}
    (packRefs : List CommitBodyPackRef) :
    decryptPacks (within objects answer remote) header downloads packRefs =
      decryptPacks remote header downloads packRefs := by
  induction packRefs with
  | nil => rfl
  | cons packRef packRefs ih =>
    rw [decryptPacks, decryptPacks, ih]
    rfl

/-- The packs of a commit are named by its header. -/
theorem packs_within (inside : HeaderWithin objects header) {kind : String} {body : CommitBody}
    (valid : validateCommitBody header kind body = .ok ()) :
    ∀ objectId ∈ body.packs.map CommitBodyPackRef.objectId, objectId ∈ objects := by
  obtain ⟨sameIds, validPacks⟩ := validateCommitBody_ok valid
  intro objectId among
  obtain ⟨pack, isPack, rfl⟩ := mem_map.mp among
  exact inside.referenced _ (sameIds.mem_iff.mp among) (validatePacks_ok validPacks pack isPack)

theorem decryptCommit_within (inside : HeaderWithin objects header) :
    decryptCommit (within objects answer remote) header = decryptCommit remote header := by
  unfold decryptCommit
  rw [downloadOne_within inside.body]
  refine bind_congr_of_ok fun object _ => bind_congr_of_ok fun _ _ => ?_
  refine bind_congr_of_ok fun kind _ => bind_congr_of_ok fun body _ => ?_
  refine bind_congr_of_ok fun _ valid => ?_
  rw [downloadObjects_within (packs_within inside valid)]
  exact bind_congr_of_ok fun downloads _ => by rw [decryptPacks_within]

/-- The packs of a decrypted commit are inside. -/
def PacksWithin (objects : Finset String) (commit : DecryptedCommit) : Prop :=
  ∀ objectId ∈ commit.packs.map Prod.fst, objectId ∈ objects

theorem decryptCommit_packs (inside : HeaderWithin objects header)
    (decrypted : decryptCommit remote header = .ok commit) : PacksWithin objects commit := by
  obtain ⟨object, -, downloaded⟩ := bind_ok.mp decrypted
  obtain ⟨⟨⟩, -, checked⟩ := bind_ok.mp downloaded
  obtain ⟨kind, -, labelled⟩ := bind_ok.mp checked
  obtain ⟨body, -, opened⟩ := bind_ok.mp labelled
  obtain ⟨⟨⟩, valid, validated⟩ := bind_ok.mp opened
  obtain ⟨downloads, -, fetched⟩ := bind_ok.mp validated
  obtain ⟨packs, isPacks, isCommit⟩ := bind_ok.mp fetched
  cases isCommit
  intro objectId among
  rw [decryptPacks_keys isPacks] at among
  exact packs_within inside valid objectId among

end Commit

/-! ## The changes of a commit -/

section Changes

variable {objects : Finset String}
  {answer : List String → Except SyncError (List DownloadedObject)} {remote : Remote}
  {input : PullInput} {mergeState : RemoteMergeState} {header : SyncCommitHeader}
  {commit : DecryptedCommit} {tree : TreeEntries} {entry : SyncTreeEntryRecord}
  {device : Device} {text : Plaintext}

def EntryWithin (objects : Finset String) (entry : SyncTreeEntryRecord) : Prop :=
  ∀ objectId, entry.contentObjectId = some objectId → objectId ∈ objects

/-- The texts of the tree are in packs inside. -/
def TreeWithin (objects : Finset String) (tree : TreeEntries) : Prop :=
  ∀ entry ∈ tree, EntryWithin objects entry

theorem TreeWithin.nil : TreeWithin objects [] := nofun

theorem TreeWithin.insert (inside : TreeWithin objects tree) (isEntry : EntryWithin objects entry) :
    TreeWithin objects (tree.insert entry) := by
  intro other among
  obtain rfl | ⟨before, -⟩ := Table.mem_put (Table.mem_sorted.mp among)
  · exact isEntry
  · exact inside other before

theorem TreeWithin.remove (inside : TreeWithin objects tree) (fileId : Str) :
    TreeWithin objects (tree.remove fileId) :=
  fun other among => inside other (mem_of_mem_filter among)

theorem downloadTreeEntryContent_within (inside : EntryWithin objects entry) :
    downloadTreeEntryContent (within objects answer remote) entry =
      downloadTreeEntryContent remote entry := by
  unfold downloadTreeEntryContent
  cases isObject : entry.contentObjectId with
  | none => rfl
  | some objectId =>
    cases entry.packEntryId with
    | none => rfl
    | some entryId =>
      dsimp only
      rw [downloadOne_within (inside objectId isObject)]
      rfl

theorem mergeRemoteUpsert_within {baseEntry : Option SyncTreeEntryRecord} {dirty : SyncFileRecord}
    {path : Str} (inside : ∀ entry, baseEntry = some entry → EntryWithin objects entry) :
    mergeRemoteUpsert (within objects answer remote) input header baseEntry dirty path text =
      mergeRemoteUpsert remote input header baseEntry dirty path text := by
  cases baseEntry with
  | none => rfl
  | some entry =>
    unfold mergeRemoteUpsert
    dsimp only
    rw [downloadTreeEntryContent_within (inside entry rfl)]
    rfl

theorem actOn_within (inside : TreeWithin objects tree) (change : CommitBodyFileOp) :
    actOn (within objects answer remote) input mergeState header tree text change =
      actOn remote input mergeState header tree text change := by
  cases change with
  | upsertFile fileId path normalizedPath plaintextHash sizeBytes contentRef =>
    rw [actOn_upsert, actOn_upsert]
    cases mergeState.dirtyFile fileId with
    | none => rfl
    | some dirty =>
      exact mergeRemoteUpsert_within fun entry found => inside entry (Table.mem_of_get found)
  | deleteFile fileId path normalizedPath => rfl

theorem packEntryPlaintext_mem {packs : Assoc String UnpackedPack}
    {contentRef : CommitBodyContentRef} (found : packEntryPlaintext packs contentRef = .ok text) :
    contentRef.objectId ∈ packs.map Prod.fst := by
  unfold packEntryPlaintext at found
  split at found
  · cases found
  · rename_i pack isPack
    exact mem_map_of_mem (Assoc.mem_of_get isPack)

/-- A change that has passed its checks puts an entry inside into the tree. -/
theorem treeAfter_within (inside : TreeWithin objects tree) (packs : PacksWithin objects commit)
    {change : CommitBodyFileOp} (checked : checkChange remote commit.packs change = .ok text) :
    TreeWithin objects (treeAfter header tree change) := by
  cases change with
  | upsertFile fileId path normalizedPath plaintextHash sizeBytes contentRef =>
    obtain ⟨⟨⟩, -, identified⟩ := bind_ok.mp checked
    obtain ⟨plaintext, found, -⟩ := bind_ok.mp identified
    refine inside.insert ?_
    rintro objectId ⟨⟩
    exact packs _ (packEntryPlaintext_mem found)
  | deleteFile fileId path normalizedPath => exact inside.remove fileId

theorem applyChange_within {progress : Progress} (inside : TreeWithin objects progress.tree)
    (change : CommitBodyFileOp) :
    applyChange (within objects answer remote) input mergeState commit progress change =
      applyChange remote input mergeState commit progress change := by
  unfold applyChange
  simp only [actOn_within inside]
  rfl

theorem applyChanges_within (packs : PacksWithin objects commit) (changes : List CommitBodyFileOp)
    {progress : Progress} (inside : TreeWithin objects progress.tree) :
    applyChanges (within objects answer remote) input mergeState commit changes progress device =
      applyChanges remote input mergeState commit changes progress device := by
  induction changes generalizing progress device with
  | nil => rfl
  | cons change changes ih =>
    rw [applyChanges_cons, applyChanges_cons, applyChange_within inside]
    refine Effect.bind_congr_of_ok rfl fun next moved applied => ?_
    obtain ⟨text, action, checked, -, rfl⟩ := applyChange_ok.mp applied
    exact ih (treeAfter_within inside packs checked)

theorem applyChanges_tree (packs : PacksWithin objects commit) {changes : List CommitBodyFileOp}
    {progress progress' : Progress} {device' : Device} (inside : TreeWithin objects progress.tree)
    (ran : applyChanges remote input mergeState commit changes progress device =
      (.ok progress', device')) : TreeWithin objects progress'.tree := by
  induction changes generalizing progress device with
  | nil =>
    cases ran
    exact inside
  | cons change changes ih =>
    obtain ⟨next, moved, applied, rest⟩ := Effect.bind_ok.mp ran
    obtain ⟨text, action, checked, -, rfl⟩ := applyChange_ok.mp applied
    exact ih (treeAfter_within inside packs checked) rest

theorem startingTree_within (inside : TreeWithin objects tree) :
    TreeWithin objects (startingTree commit tree) := by
  unfold startingTree
  split_ifs
  · exact .nil
  · exact inside

theorem applyDecryptedCommit_within (packs : PacksWithin objects commit)
    (inside : TreeWithin objects (startingTree commit tree)) :
    applyDecryptedCommit (within objects answer remote) input mergeState commit tree device =
      applyDecryptedCommit remote input mergeState commit tree device := by
  exact Effect.bind_congr_of_ok (applyChanges_within packs _ inside) fun _ _ _ => rfl

theorem applyDecryptedCommit_tree (packs : PacksWithin objects commit)
    (inside : TreeWithin objects (startingTree commit tree)) {tree' : TreeEntries}
    {device' : Device}
    (ran : applyDecryptedCommit remote input mergeState commit tree device =
      (.ok tree', device')) : TreeWithin objects tree' := by
  obtain ⟨progress, _, changed, persisting⟩ := Effect.bind_ok.mp ran
  obtain ⟨⟨⟩, _, -, ended⟩ := Effect.bind_ok.mp persisting
  cases ended
  exact applyChanges_tree packs inside changed

theorem decryptCommit_header (decrypted : decryptCommit remote header = .ok commit) :
    commit.header = header := by
  obtain ⟨object, -, downloaded⟩ := bind_ok.mp decrypted
  obtain ⟨⟨⟩, -, checked⟩ := bind_ok.mp downloaded
  obtain ⟨kind, -, labelled⟩ := bind_ok.mp checked
  obtain ⟨body, -, opened⟩ := bind_ok.mp labelled
  obtain ⟨⟨⟩, -, validated⟩ := bind_ok.mp opened
  obtain ⟨downloads, -, fetched⟩ := bind_ok.mp validated
  obtain ⟨packs, -, isCommit⟩ := bind_ok.mp fetched
  cases isCommit
  rfl

/-- A replay needs no tree when it begins with a checkpoint. -/
theorem replayCommits_within {headers : List SyncCommitHeader}
    (named : ∀ header ∈ headers, HeaderWithin objects header)
    (inside : (∀ header ∈ headers.head?, header.commitKind = .checkpoint) ∨
      TreeWithin objects tree) :
    replayCommits (within objects answer remote) input mergeState headers tree device =
      replayCommits remote input mergeState headers tree device := by
  induction headers generalizing tree device with
  | nil => rfl
  | cons header headers ih =>
    obtain ⟨isNamed, named⟩ := forall_mem_cons.mp named
    refine Effect.bind_congr_of_ok ?_ fun commit _ decrypted => ?_
    · rw [decryptCommit_within isNamed]
    · have isCommit := (Prod.mk.inj decrypted).1
      have packs := decryptCommit_packs isNamed isCommit
      have start : TreeWithin objects (startingTree commit tree) := by
        obtain isCheckpoint | inside := inside
        · rw [startingTree, decryptCommit_header isCommit, if_pos (isCheckpoint header rfl)]
          exact .nil
        · exact startingTree_within inside
      refine Effect.bind_congr_of_ok (applyDecryptedCommit_within packs start) ?_
      intro tree' _ applied
      refine Effect.bind_congr_of_ok ?_ fun _ _ _ => rfl
      exact ih named (.inr (applyDecryptedCommit_tree packs start applied))

end Changes

/-! ## A first pull -/

/-- A device that has no local head. -/
def Bootstraps (device : Device) : Prop :=
  (device.db.vault.bind SyncVaultRecord.localHeadCommitId).getD "" = ""

section Pull

variable {objects : Finset String} {remote : Remote} {input : PullInput} {head : SyncHead}
  {commits : List SyncCommitHeader} {device : Device}

theorem ensured_localHead : (ensurePullVaultRecord device.db.vault input.pipeline head).localHeadCommitId =
    device.db.vault.bind SyncVaultRecord.localHeadCommitId := by
  cases device.db.vault <;> rfl

theorem pull_within (bootstraps : Bootstraps device)
    (selects : ∀ selection, selectReplayCommits SyncCommitHeader.commitId
        (device.db.vault.bind SyncVaultRecord.localHeadCommitId) head commits = .ok selection →
      (∀ header ∈ selection, HeaderWithin objects header) ∧
        ∀ header ∈ selection.head?, header.commitKind = .checkpoint) :
    OnlyDownloads objects remote
      (fun remote => pullRemoteChanges remote input head commits) device := by
  intro answer
  refine Effect.bind_congr_of_ok rfl fun _ started valid => ?_
  obtain ⟨-, rfl⟩ := Prod.mk.inj valid
  refine Effect.bind_congr_of_ok rfl fun found _ isFound => ?_
  obtain ⟨isDevice, rfl⟩ := Prod.mk.inj isFound
  cases isDevice
  refine Effect.bind_congr_of_ok rfl fun _ pulled _ => ?_
  split_ifs
  · rfl
  refine Effect.bind_congr_of_ok rfl fun selection _ isSelection => ?_
  have selected := (Prod.mk.inj isSelection).1
  rw [ensured_localHead] at selected
  obtain ⟨named, isCheckpoint⟩ := selects selection selected
  split_ifs
  · rfl
  refine Effect.bind_congr_of_ok rfl fun _ scanned _ => ?_
  refine Effect.bind_congr_of_ok rfl fun current _ _ => ?_
  refine Effect.bind_congr_of_ok ?_ fun tree _ _ => ?_
  · unfold initialOrRematerializedTreeEntries
    rw [ensured_localHead]
    dsimp only
    rw [if_pos (.inl bootstraps), if_pos (.inl bootstraps)]
  · exact replayCommits_within named (.inl isCheckpoint)

end Pull

/-! ## What the server preserves -/

/-- The headers of all commits of a workspace, as a client reads them. -/
def listedHeaders (db : Server.Db) (workspaceID : Uuid) :
    Except SyncError (List SyncCommitHeader) := do
  let headers ← (db.history workspaceID).mapM ListAllCommits.syncCommitHeaderFromProto
  return headers.map (·.toSyncCommitHeader)

def answeredHead (db : Server.Db) (workspace : Server.KukuSyncWorkspace) (workspaceID : Uuid) :
    SyncHead :=
  ⟨textValue workspace.currentHeadCommitID, db.getLatestSyncCheckpointCommitID workspaceID⟩

section Server

variable {db : Server.Db} {workspaceID : Uuid} {commit : KukuSyncCommit} {objects : Finset String}
  {headers : List SyncCommitHeader}

theorem requiredString_ne {value field result : String}
    (required : ListAllCommits.requiredString value field = .ok result) : value ≠ "" := by
  rintro rfl
  have isBlank : Text.trim "" = "" := by decide
  rw [ListAllCommits.requiredString, if_pos isBlank] at required
  cases required

theorem header_ok {header : ListAllCommits.SyncCommitHeader}
    (read : ListAllCommits.syncCommitHeaderFromProto commit = .ok header) :
    header = ListAllCommits.headerOf commit ∧ commit.commitID ≠ "" ∧ commit.bodyObjectID ≠ "" := by
  obtain ⟨_, isCommit, author⟩ := bind_ok.mp read
  obtain ⟨_, -, body⟩ := bind_ok.mp author
  obtain ⟨_, isBody, hash⟩ := bind_ok.mp body
  obtain ⟨_, -, isHeader⟩ := bind_ok.mp hash
  cases isHeader
  exact ⟨rfl, requiredString_ne isCommit, requiredString_ne isBody⟩

def replayHeader (commit : KukuSyncCommit) : SyncCommitHeader :=
  (ListAllCommits.headerOf commit).toSyncCommitHeader

theorem listedHeaders_ok (listed : listedHeaders db workspaceID = .ok headers) :
    headers = (db.history workspaceID).map replayHeader ∧
      ∀ commit ∈ db.history workspaceID, commit.commitID ≠ "" ∧ commit.bodyObjectID ≠ "" := by
  obtain ⟨read, isRead, isHeaders⟩ := bind_ok.mp listed
  cases isHeaders
  refine ⟨?_, fun commit among => ?_⟩
  · have rows := mapM_ok_iff.mp isRead
    clear isRead listed
    generalize db.history workspaceID = history at rows
    induction rows with
    | nil => rfl
    | cons first _ ih =>
      rw [map_cons, map_cons, ih, (header_ok first).1]
      rfl
  · obtain ⟨header, -, isHeader⟩ := mapM_ok_left isRead among
    exact (header_ok isHeader).2

theorem history_sorted : (db.history workspaceID).Pairwise fun a b => a.serverSeq ≤ b.serverSeq := by
  have total : Std.Total fun a b : KukuSyncCommit => a.serverSeq ≤ b.serverSeq :=
    ⟨fun a b => le_total a.serverSeq b.serverSeq⟩
  have trans : IsTrans KukuSyncCommit fun a b => a.serverSeq ≤ b.serverSeq :=
    ⟨fun _ _ _ => le_trans⟩
  exact pairwise_insertionSort _ _

/-- The header of a row names objects of its commit. -/
theorem replayHeader_within {commits : List KukuSyncCommit}
    {commitObjects : List Server.KukuSyncCommitObject} (among : commit ∈ commits)
    (named : commit.bodyObjectID ≠ "")
    (covers : ∀ objectID, Server.ObjectOf commits commitObjects commit.commitID objectID →
      objectID ∈ objects) : HeaderWithin objects (replayHeader commit) where
  body := covers _ (.inr ⟨commit, among, rfl, named, .inl rfl⟩)
  referenced _ isReferenced isNamed :=
    covers _ (.inr ⟨commit, among, rfl, isNamed, .inr isReferenced⟩)

/-- A replay from a checkpoint has the commits from there on. -/
theorem selected_late {history : List KukuSyncCommit} {checkpoint : KukuSyncCommit}
    (sorted : history.Pairwise fun a b => a.serverSeq ≤ b.serverSeq)
    (distinct : (history.map (·.commitID)).Nodup) (among : checkpoint ∈ history)
    (named : checkpoint.commitID ≠ "") {head : SyncHead}
    (isLatest : head.latestCheckpointCommitId = checkpoint.commitID) {localHead : Option String}
    (bootstraps : localHead.getD "" = "") {selection : List SyncCommitHeader}
    (selected : selectReplayCommits SyncCommitHeader.commitId localHead head
      (history.map replayHeader) = .ok selection) :
    selection = [] ∨ ∃ later, (∀ commit ∈ later, commit ∈ history ∧
        checkpoint.serverSeq ≤ commit.serverSeq) ∧
      selection = (checkpoint :: later).map replayHeader := by
  simp only [selectReplayCommits, replayStart, bootstraps, isLatest, if_neg named, bind,
    Except.bind, pure, Except.pure, throw, throwThe, MonadExceptOf.throw, if_true] at selected
  split_ifs at selected with isHead
  · cases selected
    exact .inl rfl
  · cases found : (history.map replayHeader).findIdx? fun commit =>
        commit.commitId = checkpoint.commitID with
    | none =>
      rw [found] at selected
      cases selected
    | some index =>
      rw [found] at selected
      dsimp only at selected
      split_ifs at selected with ends
      cases selected
      obtain ⟨inside, isIt, -⟩ := List.findIdx?_eq_some_iff_getElem.mp found
      rw [length_map] at inside
      rw [getElem_map] at isIt
      have isCheckpoint : history[index] = checkpoint :=
        inj_on_of_nodup_map distinct (getElem_mem inside) among (of_decide_eq_true isIt)
      have split : history.drop index = checkpoint :: history.drop (index + 1) := by
        rw [drop_eq_getElem_cons inside, isCheckpoint]
      refine .inr ⟨history.drop (index + 1), fun commit isLater => ?_, ?_⟩
      · have late := sorted.sublist (drop_sublist index history)
        rw [split] at late
        exact ⟨mem_of_mem_drop isLater, rel_of_pairwise_cons late isLater⟩
      · rw [← map_drop, split]

/-- **The graph of a workspace.** -/
theorem reachable_graph (db : Server.Db) (workspace : Server.KukuSyncWorkspace) (workspaceID : Uuid)
    (distinct : ((db.commitsOf workspaceID).map (·.commitID)).Nodup) :
    ∃ graph : Server.SyncReachableGraph,
      (∀ calls, (db.commitsOf workspaceID).length < calls →
        buildReachableObjectGraph calls workspace
          (db.listSyncCommitsByWorkspaceDesc workspaceID)
          (db.listSyncCommitObjectsByWorkspace workspaceID) = some graph) ∧
      (∀ commitID, commitID ∈ graph.commitIDs ↔
        Server.ReachableCommit (db.listSyncCommitsByWorkspaceDesc workspaceID)
          (textValue workspace.currentHeadCommitID) commitID) ∧
      (∀ objectID, objectID ∈ graph.objectIDs ↔ ∃ commitID ∈ graph.commitIDs,
        Server.ObjectOf (db.listSyncCommitsByWorkspaceDesc workspaceID)
          (db.listSyncCommitObjectsByWorkspace workspaceID) commitID objectID) ∧
      ((∃ commit ∈ db.commitsOf workspaceID, commit.commitKind = .checkpoint) →
        ∀ headers, listedHeaders db workspaceID = .ok headers →
          ∀ (remote : Remote) (input : PullInput) (device : Device), Bootstraps device →
            OnlyDownloads graph.preservedObjectIDs remote (fun remote =>
              pullRemoteChanges remote input (answeredHead db workspace workspaceID) headers)
              device) := by
  have sameRows : (db.history workspaceID).Perm (db.commitsOf workspaceID) := perm_insertionSort _ _
  have listed : (db.listSyncCommitsByWorkspaceDesc workspaceID).Perm (db.commitsOf workspaceID) :=
    (reverse_perm _).trans sameRows
  obtain ⟨graph, built, isGraph⟩ := buildReachableObjectGraph_spec workspace
    (db.listSyncCommitObjectsByWorkspace workspaceID)
    ((listed.map (·.commitID)).nodup_iff.mpr distinct)
  rw [listed.length_eq] at built
  refine ⟨graph, built, isGraph.commitIDs, isGraph.objectIDs, ?_⟩
  rintro ⟨first, isFirst, isKind⟩ headers isListed remote input device bootstraps
  obtain ⟨rfl, legible⟩ := listedHeaders_ok isListed
  obtain ⟨latest, isLatest⟩ : ∃ latest, latestCheckpointFromCommits
      (db.listSyncCommitsByWorkspaceDesc workspaceID) = some latest := by
    cases isLatest : latestCheckpointFromCommits
        (db.listSyncCommitsByWorkspaceDesc workspaceID) with
    | some latest => exact ⟨latest, rfl⟩
    | none =>
      have absent := List.find?_eq_none.mp (Option.map_eq_none_iff.mp isLatest) first
        (listed.mem_iff.mpr isFirst)
      exact absurd (decide_eq_true isKind) absent
  obtain ⟨answered, checkpoint, among, isCheckpoint, rfl⟩ := latestCheckpoint_answered isLatest
  have covers (commit : KukuSyncCommit) (isCommit : commit ∈ db.history workspaceID)
      (isLate : checkpoint.serverSeq ≤ commit.serverSeq) :
      HeaderWithin graph.preservedObjectIDs (replayHeader commit) := by
    have inRows : commit ∈ db.listSyncCommitsByWorkspaceDesc workspaceID := mem_reverse.mpr isCommit
    have preserved (objectID : String) (isObject : Server.ObjectOf
        (db.listSyncCommitsByWorkspaceDesc workspaceID)
        (db.listSyncCommitObjectsByWorkspace workspaceID) commit.commitID objectID) :
        objectID ∈ graph.preservedObjectIDs :=
      (isGraph.preserved _ isLatest objectID).mpr ⟨commit, inRows, isLate, isObject⟩
    exact replayHeader_within inRows (legible commit isCommit).2 preserved
  refine pull_within bootstraps fun selection selected => ?_
  obtain rfl | ⟨later, isLater, rfl⟩ := selected_late history_sorted
    ((sameRows.map (·.commitID)).nodup_iff.mpr distinct) among (legible checkpoint among).1
    answered bootstraps selected
  · exact ⟨nofun, nofun⟩
  · refine ⟨fun header isHeader => ?_, ?_⟩
    · obtain ⟨commit, isCommit, rfl⟩ := mem_map.mp isHeader
      obtain rfl | isCommit := mem_cons.mp isCommit
      · exact covers _ among le_rfl
      · exact covers _ (isLater commit isCommit).1 (isLater commit isCommit).2
    · rintro _ ⟨⟩
      change commitKindToProto checkpoint.commitKind = _
      rw [isCheckpoint]
      rfl

/-- A checkpoint, and a commit after it; each names the other as a parent. -/
def cyclic : Server.Db :=
  { Server.Db.empty with
    commits := [
      ⟨9, "c1", .checkpoint, none, 5, 1, ["c2", "lost"], "body_c1", "sha", 1, ["pack_c1"], [], 1⟩,
      ⟨9, "c2", .incremental, some "c1", 5, 2, ["c1"], "body_c2", "sha", 1, ["pack_c2"], [], 2⟩]
    commitObjects := [⟨9, "c2", "pack_large", .largeObject⟩] }

def cyclicWorkspace : Server.KukuSyncWorkspace where
  id := 9
  ownerUserID := 1
  currentHeadCommitID := some "c2"
  headVersion := 2
  deleted := false

theorem reachable_graph_cyclic : ∃ graph : Server.SyncReachableGraph,
    buildReachableObjectGraph 3 cyclicWorkspace (cyclic.listSyncCommitsByWorkspaceDesc 9)
        (cyclic.listSyncCommitObjectsByWorkspace 9) = some graph ∧
      graph.objectIDs = {"body_c1", "pack_c1", "body_c2", "pack_c2", "pack_large"} := by
  obtain ⟨graph, built, -⟩ := reachable_graph cyclic cyclicWorkspace 9 (by decide)
  have isBuilt := built 3 (by decide)
  refine ⟨graph, isBuilt, ?_⟩
  have objects : (buildReachableObjectGraph 3 cyclicWorkspace
      (cyclic.listSyncCommitsByWorkspaceDesc 9) (cyclic.listSyncCommitObjectsByWorkspace 9)).map
        (·.objectIDs) = some {"body_c1", "pack_c1", "body_c2", "pack_c2", "pack_large"} := by
    decide +kernel
  rw [isBuilt] at objects
  exact Option.some.inj objects

end Server

end Kuku.Sync.Bootstrap
