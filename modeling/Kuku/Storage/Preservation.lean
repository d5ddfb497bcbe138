/-
# Storage.Preservation -- published objects can be downloaded in every run

`RunWorkspaceGC` chooses what it deletes by state and expiry, and never looks at commits.
`published_preserved` says that this is enough: whatever requests cross each other and
whatever the clocks show, the objects of a published commit are available and stored, no
blob of an available object is about to be deleted, and `CreateObjectDownloadBatch` answers
for every one of them.

A blob may have been deleted before its object became available: the GC deletes it before its
transaction commits (`deleted_before_published`).
-/
import Kuku.Storage.Accounting

namespace Kuku.Storage

open Kuku.Theory List Prog Option
open Kuku.Server (Uuid)

/-! ## A download, alone -/

section Download

variable {ι : Type} [DecidableEq ι] {driver : ι → Provider} {session : ι} {how : How}
  {s : State ι} {workspaceID deviceID : Uuid}

/-- The calls of a session that all go the same way. -/
abbrev calling (driver : ι → Provider) (session : ι) (how : How) (call : Call) (s : State ι) :
    Except StorageError call.Res × State ι :=
  s.exec driver session call how

theorem calling_eq (works : how.fault = false) (call : Call) :
    calling driver session how call s = s.perform driver session how call := by
  simp [calling, State.exec, works]

/-- A session that has read and written nothing. -/
theorem view_closed : (s.close session).view session = s.db := idle_of_closed.view

theorem run_read {stmt : Stmt} {answer : stmt.Res} (works : how.fault = false)
    (reads : stmt.Reads) (answered : (stmt.query how s.db).1 = .ok answer) :
    (sql stmt).run (calling driver session how) (s.close session) =
      (.ok answer, s.close session) := by
  refine run_perform _ ?_
  rw [calling_eq works]
  refine Prod.ext ?_ (reads.statement how)
  show (stmt.query how ((s.close session).view session)).1 = .ok answer
  rw [view_closed]
  exact answered

/-- A transaction that makes no row version is committed. -/
theorem run_withTx_read {α : Type} {body : Program α} {value : α} (works : how.fault = false)
    (ran : body.run (calling driver session how) (s.close session) = (.ok value, s.close session)) :
    ((withTx body).run (calling driver session how) s).1 = .ok value := by
  have begins : (perform Call.begin : Program Unit).run (calling driver session how) s =
      (.ok (), s.close session) :=
    run_perform _ (calling_eq works _)
  have caught : body.catching.run (calling driver session how) (s.close session) =
      (.ok (.ok value), s.close session) := by
    rw [run_catching, ran]
  have commits : (s.close session).commit session =
      (.ok (), { (s.close session).close session with db := (s.close session).view session }) := by
    unfold State.commit
    rw [if_neg (by simp [State.close])]
  have committed : (perform Call.commit : Program Unit).run (calling driver session how)
      (s.close session) = _ := run_perform _ ((calling_eq works _).trans commits)
  unfold withTx
  rw [run_bind_ok _ _ begins, run_bind_ok _ _ caught, run_bind_ok _ _ committed]
  rfl

/-- An object that a download finds. -/
def Db.Downloadable (db : Db) (workspaceID : Uuid) (objectID : String) : Prop :=
  Text.trim objectID = objectID ∧ objectID ≠ "" ∧ ∃ row, db.object workspaceID objectID = some row ∧
    row.IsAvailable

theorem downloadTargets_run (driver : ι → Provider) (session : ι) (works : how.fault = false)
    (ids : List String) : ∀ seen : List String, (∀ id ∈ ids, s.db.Downloadable workspaceID id) → ids.Nodup →
      (∀ id ∈ ids, id ∉ seen) →
      ∃ targets, (downloadTargets workspaceID ids seen).run (calling driver session how)
          (s.close session) = (.ok targets, s.close session) ∧
        targets.map (fun target => target.object.objectID) = ids := by
  induction ids with
  | nil => exact fun _ _ _ _ => ⟨[], rfl, rfl⟩
  | cons id rest ih =>
    intro seen downloadable distinct unseen
    obtain ⟨trimmed, nonempty, row, found, isAvailable⟩ := downloadable id mem_cons_self
    obtain ⟨isNew, restDistinct⟩ := nodup_cons.mp distinct
    have restUnseen : ∀ other ∈ rest, other ∉ id :: seen := by
      intro other member isSeen
      rcases mem_cons.mp isSeen with rfl | old
      · exact isNew member
      · exact unseen other (mem_cons_of_mem _ member) old
    obtain ⟨targets, ran, names⟩ := ih (id :: seen)
      (fun other member => downloadable other (mem_cons_of_mem _ member)) restDistinct
      restUnseen
    have isKey : row.key = (workspaceID, id) := Table.key_of_get found
    have reads : (Stmt.getSyncObject workspaceID id).Reads := ⟨rfl, fun _ _ => ⟨_, rfl⟩⟩
    have answered : ((Stmt.getSyncObject workspaceID id).query how s.db).1 = .ok (some row) := by
      simp [Stmt.query, found, Option.filter, isAvailable.2]
    have signed : (perform (Call.presignGet row.storageKey) : Program String).run
        (calling driver session how) (s.close session) = (.ok how.url, s.close session) :=
      run_perform _ (calling_eq works _)
    refine ⟨⟨row, how.url⟩ :: targets, ?_, ?_⟩
    · unfold downloadTargets
      dsimp only
      rw [trimmed, if_neg nonempty, if_neg (unseen id mem_cons_self),
        run_bind_ok _ _ (run_read works reads answered)]
      dsimp only
      rw [if_neg (not_not.mpr isAvailable.1), run_bind_ok _ _ signed, run_bind_ok _ _ ran]
      rfl
    · rw [map_cons, names]
      have isName : row.objectID = id := congrArg Prod.snd isKey
      rw [isName]

/-- The device may download. -/
def Db.activeDevice (db : Db) (workspaceID deviceID : Uuid) : Bool :=
  db.devices.any fun row => row.workspaceID = workspaceID ∧ row.id = deviceID ∧ row.revoked = false

theorem authorizeWorkspace_run (driver : ι → Provider) (session : ι) (works : how.fault = false)
    (isLive : s.db.isLive workspaceID) :
    ∃ row, (authorizeWorkspace workspaceID).run (calling driver session how) (s.close session) =
      (.ok row, s.close session) := by
  have reads : (Stmt.getSyncWorkspaceByIDAndOwner workspaceID).Reads := ⟨rfl, fun _ _ => ⟨_, rfl⟩⟩
  unfold Db.isLive at isLive
  cases found : s.db.workspace workspaceID with
  | none =>
    rw [found] at isLive
    cases isLive
  | some row =>
    rw [found] at isLive
    have answered : ((Stmt.getSyncWorkspaceByIDAndOwner workspaceID).query how s.db).1 =
        .ok (some row) := by
      have kept : (!row.deleted) = true := isLive
      simp [Stmt.query, found, Option.filter, kept]
    refine ⟨row, ?_⟩
    unfold authorizeWorkspace
    rw [run_bind_ok _ _ (run_read works reads answered)]
    rfl

theorem requireActiveDevice_run (driver : ι → Provider) (session : ι) (works : how.fault = false)
    (isActive : s.db.activeDevice workspaceID deviceID) :
    ∃ row, (requireActiveDevice workspaceID deviceID).run (calling driver session how)
      (s.close session) = (.ok row, s.close session) := by
  have reads : (Stmt.getActiveSyncDevice workspaceID deviceID).Reads := ⟨rfl, fun _ _ => ⟨_, rfl⟩⟩
  have isFound := List.find?_isSome.mpr (List.any_eq_true.mp isActive)
  obtain ⟨row, isRow⟩ := isSome_iff_exists.mp isFound
  have answered : ((Stmt.getActiveSyncDevice workspaceID deviceID).query how s.db).1 =
      .ok (some row) := congrArg Except.ok isRow
  refine ⟨row, ?_⟩
  unfold requireActiveDevice
  rw [run_bind_ok _ _ (run_read works reads answered)]
  rfl

/-- **A download of objects that can be found succeeds.** -/
theorem createObjectDownloadBatch_run {ids : List String} (works : how.fault = false)
    (isLive : s.db.isLive workspaceID) (isActive : s.db.activeDevice workspaceID deviceID)
    (someIDs : ids ≠ []) (short : ids.length ≤ maxBatch) (distinct : ids.Nodup)
    (downloadable : ∀ id ∈ ids, s.db.Downloadable workspaceID id) :
    ∃ targets, ((createObjectDownloadBatch .s3Compatible workspaceID deviceID ids).run
        (calling driver session how) s).1 = .ok targets ∧
      targets.map (fun target => target.object.objectID) = ids := by
  obtain ⟨targets, ran, names⟩ := downloadTargets_run driver session works ids [] downloadable
    distinct (by simp)
  obtain ⟨workspace, authorized⟩ := authorizeWorkspace_run driver session works isLive
  obtain ⟨device, required⟩ := requireActiveDevice_run driver session works isActive
  have reads : (Stmt.touchSyncDeviceLastSeen workspaceID device.id).Reads :=
    ⟨rfl, fun _ _ => ⟨_, rfl⟩⟩
  have touched : (sql (.touchSyncDeviceLastSeen workspaceID device.id)).run
      (calling driver session how) (s.close session) = (.ok (), s.close session) :=
    run_read works reads rfl
  refine ⟨targets, ?_, names⟩
  unfold createObjectDownloadBatch
  have inRange : ¬ (ids.length = 0 ∨ maxBatch < ids.length) := by
    rintro (isEmpty | isLong)
    · exact someIDs (length_eq_zero_iff.mp isEmpty)
    · omega
  rw [if_neg inRange, if_neg (not_not.mpr rfl)]
  refine run_withTx_read works ?_
  rw [run_bind_ok _ _ authorized, run_bind_ok _ _ required, run_bind_ok _ _ ran,
    run_bind_ok _ _ touched]
  rfl

end Download

/-! ## Every run -/

section Runs

variable {ι : Type} [DecidableEq ι] {cfg : Config} {driver : ι → Provider}

/-- The objects of every commit are available and stored, no blob of an available object is
about to be deleted, and a download of any of them succeeds. -/
structure Preserved (driver : ι → Provider) (c : Servers ι) : Prop where
  stored : ∀ user, ∀ commit ∈ (c.shared user).db.commits, ∀ id ∈ needs commit,
    ∃ row, (c.shared user).db.object commit.workspaceID id = some row ∧
      row.uploadState = .available ∧ row.deleted = false ∧
      ((c.shared user).blobs row.storageProvider row.storageKey).isSome
  undeleted : ∀ session user storageKey rest,
    c.running session = some (.call (user, .deleteBlob storageKey) rest) →
      ∀ row ∈ (c.shared user).db.objects, row.uploadState = .available → row.deleted = false →
        row.storageKey ≠ storageKey
  downloads : ∀ session user workspaceID deviceID ids how, driver session = .s3Compatible →
    how.fault = false → (c.shared user).db.isLive workspaceID →
    (c.shared user).db.activeDevice workspaceID deviceID →
    ids ≠ [] → ids.length ≤ maxBatch → ids.Nodup →
    (∀ id ∈ ids, ∃ commit ∈ (c.shared user).db.commits,
      commit.workspaceID = workspaceID ∧ id ∈ needs commit) →
    ∃ targets, ((createObjectDownloadBatch (driver session) workspaceID deviceID ids).run
        (calling driver session how) (c.shared user)).1 = .ok targets ∧
      targets.map (fun target => target.object.objectID) = ids

/-- **Published data is never collected.** -/
theorem published_preserved {c : Servers ι}
    (reached : (storage cfg driver).ReachableBy (condition cfg .objects).family.meets c) :
    Preserved driver c := by
  have sized : Sized cfg .objects := by
    refine ⟨fun counts => absurd rfl counts, ?_, ?_, ?_, ?_⟩ <;> intro isQuota <;> cases isQuota
  obtain ⟨isInv, may⟩ := storage_safe sized reached
  have found : ∀ user, ∀ commit ∈ (c.shared user).db.commits, ∀ id ∈ needs commit,
      ∃ row, (c.shared user).db.object commit.workspaceID id = some row ∧
        row ∈ (c.shared user).db.objects ∧ row.IsAvailable := by
    intro user commit isCommit id isNeeded
    have good := (isInv user).good
    obtain ⟨-, -, row, member, isKey, isAvailable⟩ := good.published commit isCommit id isNeeded
    have isRow := Table.get_of_mem (good.tables 0).sound.objects member
    rw [isKey] at isRow
    exact ⟨row, isRow, member, isAvailable⟩
  refine ⟨?_, ?_, ?_⟩
  · intro user commit isCommit id isNeeded
    obtain ⟨row, isRow, member, isAvailable⟩ := found user commit isCommit id isNeeded
    exact ⟨row, isRow, isAvailable.1, isAvailable.2,
      ((isInv user).good.tables 0).stored row member isAvailable⟩
  · intro session user storageKey rest isNext row member isState isKept
    exact (may session user _ rest isNext).2 row member ⟨isState, isKept⟩
  · intro session user workspaceID deviceID ids how isS3 works isLive isActive someIDs short
      distinct needed
    rw [isS3]
    refine createObjectDownloadBatch_run works isLive isActive someIDs short distinct ?_
    intro id member
    obtain ⟨commit, isCommit, rfl, isNeeded⟩ := needed id member
    obtain ⟨trimmed, nonempty, -⟩ := (isInv user).good.published commit isCommit id isNeeded
    obtain ⟨row, isRow, -, isAvailable⟩ := found user commit isCommit id isNeeded
    exact ⟨trimmed, nonempty, row, isRow, isAvailable⟩

/-- **The rows stay sound, and every available object keeps its blob**, published or not. -/
theorem objects_stay_sound {c : Servers ι}
    (reached : (storage cfg driver).ReachableBy (condition cfg .objects).family.meets c) (user : Uuid) :
    (c.shared user).db.Sound ∧ ∀ row ∈ (c.shared user).db.objects, row.IsAvailable →
      ((c.shared user).blobs row.storageProvider row.storageKey).isSome := by
  have sized : Sized cfg .objects := by
    refine ⟨fun counts => absurd rfl counts, ?_, ?_, ?_, ?_⟩ <;> intro isQuota <;> cases isQuota
  have tables := ((storage_safe sized reached).1 user).good.tables 0
  exact ⟨tables.sound, tables.stored⟩

end Runs

/-! ## A collection that is rolled back -/

/-- The keys that a run has passed to the store's `Delete`. -/
def deletions (driver : Nat → Provider) :
    Servers Nat → List (Machine.Label Nat (Uuid × Command) How (Uuid × Event)) → List String
  | _, [] => []
  | c, label :: labels =>
    let deleted := match label with
      | .call session _ =>
        match c.running session with
        | some (.call (_, .deleteBlob storageKey) _) => [storageKey]
        | _ => []
      | _ => []
    match (machine limits driver).family.next c label with
    | some c' => deleted ++ deletions driver c' labels
    | none => deleted

theorem mem_deletions_append {driver : Nat → Provider} {storageKey : String}
    {first later : List (Machine.Label Nat (Uuid × Command) How (Uuid × Event))} {c : Servers Nat}
    (isDeleted : storageKey ∈ deletions driver c first) :
    storageKey ∈ deletions driver c (first ++ later) := by
  induction first generalizing c with
  | nil => cases isDeleted
  | cons label labels ih =>
    unfold deletions at isDeleted ⊢
    cases steps : (machine limits driver).family.next c label with
    | none => simpa only [cons_append, steps] using isDeleted
    | some c' =>
      simp only [cons_append, steps, mem_append] at isDeleted ⊢
      exact isDeleted.imp id ih

def storageKeyA : String := objectStorageKey limits 5 7 "a"

def publishing : Command :=
  .publishCommit
    { workspaceID := 7
      commitID := "c"
      commitKind := .incremental
      expectedHeadCommitID := ""
      parentCommitIDs := []
      authorDeviceID := 3
      deviceSeq := 1
      bodyObjectID := "a"
      bodyCiphertextSHA256 := zeroesDigest
      bodySizeBytes := 8
      referencedObjectIDs := []
      signature := List.replicate 64 0 }

/-- The GC deletes the blob of an expired reservation and cannot mark it, so it rolls back; the
object is then uploaded, completed and published. -/
def collectedAndPublished : List (Machine.Label Nat (Uuid × Command) How (Uuid × Event)) :=
  reserved ++
    request 0 (.runWorkspaceGC 7 ⟨false, some 100, 0⟩)
      (List.replicate 7 going ++ [{ going with fault := true }, going]) ++
    request 0 uploading (List.replicate 13 going) ++
    [.env (5, .put storageKeyA ⟨8, zeroesDigest⟩)] ++
    request 0 (.completeObjectUploadBatch 7 3 "attempt" [⟨"a", zeroesDigest, 8⟩])
      (List.replicate 13 going) ++
    request 0 publishing (List.replicate 5 going)

/-- The storage keys of the bodies of the commits of user `5`. -/
def bodyKeys (c : Servers Nat) : List (Option String) := (c.shared 5).db.commits.map fun commit =>
    ((c.shared 5).db.object commit.workspaceID commit.bodyObjectID).map ObjectRow.storageKey

theorem publishing_isNormal : Kuku.Server.PublishCommitParams.IsNormal
    { workspaceID := 7
      commitID := "c"
      commitKind := .incremental
      expectedHeadCommitID := ""
      parentCommitIDs := []
      authorDeviceID := 3
      deviceSeq := 1
      bodyObjectID := "a"
      bodyCiphertextSHA256 := zeroesDigest
      bodySizeBytes := 8
      referencedObjectIDs := []
      signature := List.replicate 64 0 } where
  commitID := by decide
  expectedHeadCommitID := by decide
  bodyObjectID := by decide
  bodyCiphertextSHA256 := isDigest_zeroesDigest
  named := by decide
  commitKind := rfl
  parentCommitIDs := rfl
  parentsDiffer := rfl
  referencedObjectIDs := rfl
  referencesDiffer := rfl
  bodyNotReferenced := by decide

theorem collectedAndPublished_runs : (System.runWhile (follows limits .objects)
    (machine limits fun _ => .s3Compatible).family.next noRequests collectedAndPublished).map
      bodyKeys = some [some storageKeyA] := by
  simp only [collectedAndPublished, request, uploading, publishing, commandProgram,
    createObjectUploadBatch, uploadCandidates, completeObjectUploadBatch, completeObjects,
    publishCommit, validate_zeroesDigest, publishing_isNormal.normalize_eq, System.runWhile,
    System.run_append, System.run_cons, next_start]
  decide +kernel

theorem preserved_after_publication :
    ∃ c, (storage limits fun _ : Nat => .s3Compatible).ReachableBy
        (condition limits .objects).family.meets c ∧
      Preserved (fun _ => .s3Compatible) c ∧ bodyKeys c = [some storageKeyA] := by
  obtain ⟨c, reached, isPublished⟩ := reached_of_run collectedAndPublished_runs
  exact ⟨c, reached, published_preserved reached, isPublished⟩

theorem sound_after_publication :
    ∃ c, (storage limits fun _ : Nat => .s3Compatible).ReachableBy
        (condition limits .objects).family.meets c ∧
      bodyKeys c = [some storageKeyA] ∧ (c.shared 5).db.Sound := by
  obtain ⟨c, reached, isPublished⟩ := reached_of_run collectedAndPublished_runs
  exact ⟨c, reached, isPublished, (objects_stay_sound reached 5).1⟩

/-- A published object whose blob has been passed to `Delete`. -/
theorem deleted_before_published :
    ∃ labels c, System.runWhile (follows limits .objects)
        (machine limits fun _ => .s3Compatible).family.next noRequests labels = some c ∧
      ∃ commit ∈ (c.shared 5).db.commits, ∃ row,
        (c.shared 5).db.object commit.workspaceID commit.bodyObjectID = some row ∧
        row.storageKey ∈ deletions (fun _ => .s3Compatible) noRequests labels := by
  have isDeleted : storageKeyA ∈
      deletions (fun _ => .s3Compatible) noRequests collectedAndPublished := by
    have collects : storageKeyA ∈ deletions (fun _ => .s3Compatible) noRequests
        (reserved ++ request 0 (.runWorkspaceGC 7 ⟨false, some 100, 0⟩)
          (List.replicate 7 going ++ [{ going with fault := true }, going])) := by
      decide +kernel
    rw [collectedAndPublished]
    exact mem_deletions_append (mem_deletions_append (mem_deletions_append
      (mem_deletions_append collects)))
  obtain ⟨c, isRun, isResult⟩ := map_eq_some_iff.mp collectedAndPublished_runs
  have listed : some storageKeyA ∈ bodyKeys c := by
    rw [isResult]
    exact mem_singleton_self _
  obtain ⟨commit, isCommit, isKey⟩ := List.mem_map.mp listed
  obtain ⟨row, isRow, isStorageKey⟩ := map_eq_some_iff.mp isKey
  exact ⟨collectedAndPublished, c, isRun, commit, isCommit, row, isRow, isStorageKey ▸ isDeleted⟩

end Kuku.Storage
