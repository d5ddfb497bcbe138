/-
# Storage.Uploads -- upload batches, completions and direct uploads are safe

The transactions that move bytes.  An upload batch charges the bytes of its reserved objects
and then marks them pending one by one; the bytes it still owes are its drift
(`owed`).  A completion makes one object available, or fails it, and charges it at once.  A
direct upload does both in one step.
-/
import Kuku.Storage.Charges
import Kuku.Theory.Except

namespace Kuku.Storage

open Kuku.Theory List ObjectRow Safely Table
open Kuku.Server (Bytes Uuid)

/-- The limits are small enough for `int64` sums: a batch's for exact counters, the quotas
beside a batch for the quotas. -/
structure Sized (cfg : Config) (scope : Scope) : Prop where
  batch : scope ≠ .objects → maxBatch * cfg.maxSingleBlobBytes < 2 ^ 63
  blob : scope = .quota → 0 ≤ cfg.maxSingleBlobBytes
  pending : scope = .quota → 0 ≤ cfg.maxPendingUploadBytes ∧
    cfg.maxPendingUploadBytes + maxBatch * cfg.maxSingleBlobBytes < 2 ^ 63
  workspace : scope = .quota → 0 ≤ cfg.maxStorageBytesPerWorkspace ∧
    cfg.maxStorageBytesPerWorkspace + maxBatch * cfg.maxSingleBlobBytes < 2 ^ 63
  account : scope = .quota → 0 ≤ cfg.maxTotalStorageBytesPerUser ∧
    cfg.maxTotalStorageBytesPerUser + maxBatch * cfg.maxSingleBlobBytes < 2 ^ 63

theorem int64_eq {n : Int} (low : -2 ^ 63 ≤ n) (high : n < 2 ^ 63) : int64 n = n := by
  unfold int64
  rw [Int.bmod_eq_of_le]
  · omega
  · omega

def anything : Fact := fun _ _ => True

theorem steady_anything : Steady anything := fun _ _ _ _ _ _ _ => trivial

theorem ofObjects_anything : OfObjects anything := fun _ _ _ _ _ => trivial

/-- The usage rows of a workspace, locked and read. -/
structure Locked (cfg : Config) (scope : Scope) (workspaceID : Uuid) (account : AccountRow)
    (usage : UsageRow) (db : Db) (blobs : Blobs) : Prop where
  work : Work cfg scope workspaceID .none anything db blobs
  account : db.account = some account
  usage : db.usage workspaceID = some usage

section Walk

variable {ι : Type} [DecidableEq ι] {cfg : Config} {scope : Scope} {driver : ι → Provider}
  {session : ι} {s : State ι} {workspaceID : Uuid}

variable {account : AccountRow} {usage : UsageRow}

theorem steady_locked : Steady (Locked cfg scope workspaceID account usage) := by
  intro db db' blobs blobs' more grows locked
  refine ⟨steady_work steady_anything db db' blobs blobs' more grows locked.work, ?_, ?_⟩
  · rw [more.account]
    exact locked.account
  · rw [more.usage]
    exact locked.usage

variable {β : Type} {post : β → State ι → Prop}

/-- The account and the usage row are read and locked. -/
theorem Idle.lockRows {known : List Uuid} {f : AccountRow → UsageRow → Program β}
    (idle : Idle session known s) (isKnown : workspaceID ∈ known)
    (continues : ∀ s' account usage,
      Holding session (Locked cfg scope workspaceID account usage) s' →
      Safely cfg scope driver session post (f account usage) s') :
    Safely cfg scope driver session post
      (sql .getSyncUsageAccountForUpdate >>= fun accountLocked =>
        orNoRows accountLocked >>= fun account =>
          sql (.getSyncUsageWorkspaceForUpdate workspaceID) >>= fun workspaceLocked =>
            orNoRows workspaceLocked >>= fun usage => f account usage) s := by
  refine idle.lock (Q := fun found db blobs => db.account = found ∧
    (db.workspace workspaceID).isSome ∧ Midway cfg scope workspaceID .none db blobs)
    locksAccount_get ?_ ?_
  · intro db blobs how found isThere tables answered
    exact ⟨Except.ok.inj answered, isThere _ isKnown, tables workspaceID⟩
  · intro s' found reached
    refine Safely.orNoRows ?_
    rintro account rfl
    have steady : Steady fun db blobs => db.account = some account ∧
        (db.workspace workspaceID).isSome ∧ Midway cfg scope workspaceID .none db blobs :=
      steady_account.and (steady_workspace.and steady_midway)
    refine reached.read (Q := fun found db _ => db.usage workspaceID = found) steady
      (fun _ _ => ⟨_, rfl⟩) (fun _ _ _ _ _ answered => Except.ok.inj answered) ?_
    intro s'' found locked
    refine Safely.orNoRows ?_
    rintro usage rfl
    refine continues s'' account usage (locked.mono ?_)
    rintro db blobs ⟨⟨isAccount, isKnown, midway⟩, isUsage⟩
    refine ⟨⟨midway, ?_, ?_, isKnown, trivial⟩, isAccount, isUsage⟩
    · rw [isUsage]
      rfl
    · rw [isAccount]
      rfl

theorem Holding.getObject {objectID : String} {f : Option ObjectRow → Program β} {P : Fact}
    (holding : Holding session P s) (steady : Steady P)
    (absent : ∀ s', Safely cfg scope driver session post (f none) s')
    (continues : ∀ s' row, row.deleted = false →
      Holding session (fun db blobs => P db blobs ∧ db.object workspaceID objectID = some row) s' →
      Safely cfg scope driver session post (f (some row)) s') :
    Safely cfg scope driver session post
      (sql (.getSyncObjectForUpdate workspaceID objectID) >>= f) s := by
  refine holding.read (Q := fun found db _ => ∀ row, found = some row →
    row.deleted = false ∧ db.object workspaceID objectID = some row) steady
    (fun _ _ => ⟨_, rfl⟩) ?_ ?_
  · rintro db blobs how found _ answered row rfl
    obtain ⟨isRow, live⟩ := Option.filter_eq_some_iff.mp (Except.ok.inj answered)
    exact ⟨by simpa using live, isRow⟩
  · intro s' found reached
    cases found with
    | none => exact absent s'
    | some row =>
      have isRow := (reached.fact.2 row rfl).1
      exact continues s' row isRow (reached.mono fun _ _ fact => ⟨fact.1, (fact.2 row rfl).2⟩)

/-! ## Upload batches -/

/-- The bytes a candidate has not been charged for: a pending object's have been. -/
def Candidate.owed (candidate : Candidate) : Int :=
  if candidate.object.uploadState = .reserved then candidate.sizeBytes else 0

def owed (candidates : List Candidate) : Int := Table.total Candidate.owed candidates

/-- The candidates of a batch are rows of the workspace that can be uploaded. -/
def Listed (workspaceID : Uuid) (candidates : List Candidate) : Fact := fun db _ =>
  ∀ candidate ∈ candidates,
    db.object workspaceID candidate.object.objectID = some candidate.object ∧
    candidate.object.deleted = false ∧ candidate.object.storageProvider = .s3Compatible ∧
    (candidate.object.uploadState = .reserved ∨ candidate.object.uploadState = .pending ∧
      candidate.object.sizeBytes = candidate.sizeBytes)

variable {candidates : List Candidate}

theorem steady_listed : Steady (Listed workspaceID candidates) := by
  intro db db' _ _ more _ listed candidate member
  obtain ⟨found, state⟩ := listed candidate member
  exact ⟨more.object found, state⟩

theorem ofObjects_listed : OfObjects (Listed workspaceID candidates) := by
  intro db db' _ same listed candidate member
  obtain ⟨found, state⟩ := listed candidate member
  refine ⟨?_, state⟩
  unfold Db.object at found ⊢
  rw [same]
  exact found

/-- What the first loop has added up. -/
structure Tally (cfg : Config) (scope : Scope) (candidates : List Candidate) (additional : Int) :
    Prop where
  distinct : (candidates.map fun candidate => candidate.object.objectID).Nodup
  sizes : ∀ candidate ∈ candidates, 0 < candidate.sizeBytes ∧
    candidate.sizeBytes ≤ cfg.maxSingleBlobBytes
  sum : scope ≠ .objects → additional = owed candidates

theorem owed_nonneg (sizes : ∀ candidate ∈ candidates, 0 < candidate.sizeBytes) :
    0 ≤ owed candidates := by
  apply total_nonneg
  intro candidate member
  have positive := sizes candidate member
  unfold Candidate.owed
  split <;> omega

/-- A batch owes at most its number of objects, each of the largest size. -/
theorem owed_le (bound : Int)
    (sizes : ∀ candidate ∈ candidates, 0 < candidate.sizeBytes ∧ candidate.sizeBytes ≤ bound) :
    owed candidates ≤ candidates.length * bound := by
  induction candidates with
  | nil => simp [owed, Table.total]
  | cons first rest ih =>
    have others := ih fun candidate member => sizes candidate (mem_cons_of_mem _ member)
    have own := sizes first mem_cons_self
    have share : first.owed ≤ bound := by
      unfold Candidate.owed
      split <;> omega
    have split : owed (first :: rest) = first.owed + owed rest := by simp [owed, Table.total]
    rw [split, length_cons]
    push_cast
    rw [Int.add_mul, Int.one_mul]
    omega

theorem owed_le_batch {additional : Int} (tally : Tally cfg scope candidates additional)
    (few : candidates.length ≤ maxBatch) (positive : 0 ≤ cfg.maxSingleBlobBytes) :
    owed candidates ≤ maxBatch * cfg.maxSingleBlobBytes := by
  have atMost := owed_le cfg.maxSingleBlobBytes tally.sizes
  have fewer : (candidates.length : Int) ≤ maxBatch := by exact_mod_cast few
  have scaled := Int.mul_le_mul_of_nonneg_right fewer positive
  omega

/-- One more candidate. -/
theorem Tally.append {additional total : Int} {candidate : Candidate}
    (tally : Tally cfg scope candidates additional)
    (fresh : ∀ other ∈ candidates, other.object.objectID ≠ candidate.object.objectID)
    (size : 0 < candidate.sizeBytes ∧ candidate.sizeBytes ≤ cfg.maxSingleBlobBytes)
    (sum : scope ≠ .objects → total = additional + candidate.owed) :
    Tally cfg scope (candidates ++ [candidate]) total := by
  refine ⟨?_, ?_, ?_⟩
  · rw [map_append, nodup_append]
    refine ⟨tally.distinct, by simp, ?_⟩
    intro a isOld b isNew
    obtain ⟨other, member, rfl⟩ := mem_map.mp isOld
    rw [mem_singleton.mp isNew]
    exact fresh other member
  · intro other member
    rcases mem_append.mp member with old | new
    · exact tally.sizes other old
    · rw [mem_singleton.mp new]
      exact size
  · intro counts
    rw [sum counts, tally.sum counts]
    simp [owed, Table.total]

/-- The sum of a batch does not wrap. -/
theorem Tally.int64_add {additional size : Int} (tally : Tally cfg scope candidates additional)
    (sized : Sized cfg scope) (counts : scope ≠ .objects) (few : candidates.length < maxBatch)
    (isSize : 0 < size ∧ size ≤ cfg.maxSingleBlobBytes) :
    int64 (additional + size) = additional + size := by
  have nonneg := owed_nonneg fun other member => (tally.sizes other member).1
  have atMost := owed_le cfg.maxSingleBlobBytes tally.sizes
  have fewer : (candidates.length : Int) + 1 ≤ maxBatch := by exact_mod_cast few
  have positive : 0 ≤ cfg.maxSingleBlobBytes := by omega
  have scaled := Int.mul_le_mul_of_nonneg_right fewer positive
  rw [Int.add_mul, Int.one_mul] at scaled
  have bound := sized.batch counts
  have sum := tally.sum counts
  apply int64_eq
  · omega
  · omega

variable {object : ObjectRow} {deviceID : Uuid}

theorem requireObjectReservedByDevice_safely {f : Unit → Program β}
    (continues : Safely cfg scope driver session post (f ()) s) :
    Safely cfg scope driver session post
      (requireObjectReservedByDevice object deviceID >>= f) s := by
  unfold requireObjectReservedByDevice
  split
  · exact fails
  · exact continues

theorem objectKindToSQL_safely {kind : Option Kuku.Server.KukuSyncObjectKind}
    {f : Kuku.Server.KukuSyncObjectKind → Program β}
    (continues : ∀ kind, Safely cfg scope driver session post (f kind) s) :
    Safely cfg scope driver session post (objectKindToSQL kind >>= f) s := by
  cases kind with
  | none => exact fails
  | some kind => exact continues kind

variable {size : Int}

theorem validateCiphertextDescriptor_ok {digest sha : String}
    (valid : validateCiphertextDescriptor digest size = .ok sha) : 0 < size := by
  unfold validateCiphertextDescriptor at valid
  simp only at valid
  split at valid
  · cases valid
  · split at valid
    · cases valid
    · split at valid
      · cases valid
      · omega

/-- The first loop of a batch only reads. -/
theorem uploadCandidates_safely {now : Int} (sized : Sized cfg scope)
    (requests : List UploadObjectRequest) :
    ∀ (seen : List String) (candidates : List Candidate) (additional : Int) (s : State ι),
      Holding session (fun db blobs => Locked cfg scope workspaceID account usage db blobs ∧
        Listed workspaceID candidates db blobs) s →
      Tally cfg scope candidates additional →
      (∀ candidate ∈ candidates, candidate.object.objectID ∈ seen) →
      candidates.length + requests.length ≤ maxBatch →
      Safely cfg scope driver session (fun batch s' =>
        Holding session (fun db blobs => Locked cfg scope workspaceID account usage db blobs ∧
          Listed workspaceID batch.1 db blobs) s' ∧
        Tally cfg scope batch.1 batch.2 ∧ batch.1.length ≤ maxBatch)
        (uploadCandidates cfg .s3Compatible workspaceID deviceID now requests seen candidates
          additional) s := by
  induction requests with
  | nil =>
    intro seen candidates additional s holding tally _ few
    exact returns ⟨holding, tally, by simpa using few⟩
  | cons request rest ih =>
    intro seen candidates additional s holding tally inSeen few
    have fewer : candidates.length + (rest.length + 1) ≤ maxBatch := few
    unfold uploadCandidates
    simp only
    split
    · exact fails
    split
    · exact fails
    rename_i unseen
    refine objectKindToSQL_safely fun kind => ?_
    refine ofExcept fun sha valid => ?_
    have positive := validateCiphertextDescriptor_ok valid
    split
    · exact fails
    rename_i notLarge
    refine holding.getObject (steady_locked.and steady_listed) (fun _ => fails) ?_
    intro s' object notDeleted reached
    refine requireObjectReservedByDevice_safely ?_
    split
    · exact fails
    split
    · exact fails
    rename_i sameProvider
    have isS3 : object.storageProvider = .s3Compatible := not_not.mp sameProvider
    have isKey : object.objectID = Text.trim request.objectID :=
      congrArg Prod.snd (key_of_get reached.fact.2)
    have fresh : ∀ other ∈ candidates, other.object.objectID ≠ object.objectID := by
      intro other member same
      apply unseen
      rw [← isKey, ← same]
      exact inSeen other member
    -- the loop goes on with one more candidate, reserved or pending
    have goesOn : ∀ (candidate : Candidate) (total : Int), candidate.object = object →
        candidate.sizeBytes = request.sizeBytes →
        (object.uploadState = .reserved ∨ object.uploadState = .pending ∧
          object.sizeBytes = request.sizeBytes) →
        (scope ≠ .objects → total = additional + candidate.owed) →
        Safely cfg scope driver session (fun batch s' =>
          Holding session (fun db blobs => Locked cfg scope workspaceID account usage db blobs ∧
            Listed workspaceID batch.1 db blobs) s' ∧
          Tally cfg scope batch.1 batch.2 ∧ batch.1.length ≤ maxBatch)
          (uploadCandidates cfg .s3Compatible workspaceID deviceID now rest
            (Text.trim request.objectID :: seen) (candidates ++ [candidate]) total) s' := by
      intro candidate total isObject isSize state sum
      apply ih
      · refine reached.mono ?_
        rintro db blobs ⟨⟨locked, listed⟩, found⟩
        refine ⟨locked, ?_⟩
        intro other member
        rcases mem_append.mp member with old | new
        · exact listed other old
        · rw [mem_singleton.mp new, isObject, isSize]
          rw [← isKey] at found
          exact ⟨found, notDeleted, isS3, state⟩
      · refine tally.append ?_ (by omega) sum
        rw [isObject]
        exact fresh
      · intro other member
        rcases mem_append.mp member with old | new
        · exact mem_cons_of_mem _ (inSeen other old)
        · rw [mem_singleton.mp new, isObject, isKey]
          exact mem_cons_self
      · rw [length_append, length_singleton]
        omega
    split
    · rename_i isReserved
      refine goesOn ⟨object, sha, request.sizeBytes⟩ _ rfl rfl (.inl isReserved) ?_
      intro counts
      rw [tally.int64_add sized counts (by omega) ⟨positive, not_lt.mp notLarge⟩]
      simp [Candidate.owed, isReserved]
    · rename_i isPending
      split
      · exact fails
      rename_i same
      split
      · exact fails
      have sameSize : object.sizeBytes = request.sizeBytes := by
        by_contra differ
        exact same (.inr differ)
      refine goesOn ⟨object, sha, request.sizeBytes⟩ _ rfl rfl (.inr ⟨isPending, sameSize⟩) ?_
      intro _
      simp [Candidate.owed, isPending]
    · exact fails

/-- The row of a candidate once it is pending. -/
def Candidate.marked (candidate : Candidate) (expiresAt : Int) (row : ObjectRow) : ObjectRow :=
  { row with
    uploadState := .pending
    ciphertextSha256 := candidate.ciphertextSHA256
    sizeBytes := candidate.sizeBytes
    expiresAt := some expiresAt
    errorReason := none }

/-- A pending candidate pays what it owes. -/
theorem Candidate.marked_drift {candidate : Candidate} {expiresAt debt : Int}
    (notDeleted : candidate.object.deleted = false)
    (state : candidate.object.uploadState = .reserved ∨
      candidate.object.uploadState = .pending ∧ candidate.object.sizeBytes = candidate.sizeBytes) :
    (Drift.at 0 0 (candidate.owed + debt)).marked candidate.object
      (candidate.marked expiresAt candidate.object) = .at 0 0 debt := by
  rcases state with isReserved | ⟨isPending, sameSize⟩
  · simp [Drift.marked, Drift.at, Candidate.owed, Candidate.marked, ObjectRow.bytesIn,
      ObjectRow.available, isReserved, notDeleted]
  · simp [Drift.marked, Drift.at, Candidate.owed, Candidate.marked, ObjectRow.bytesIn,
      ObjectRow.available, isPending, notDeleted, sameSize]

/-- A call that changes nothing. -/
theorem Holding.skip {call : Call} {f : call.Res → Program β} {P : Fact}
    (holding : Holding session P s) (steady : Steady P) (may : ∀ s', May cfg scope session s' call)
    (nothing : ∀ s' how, (State.perform driver session how s' call).2 = s')
    (continues : ∀ s' how value, Holding session P s' →
      (State.perform driver session how s' call).1 = .ok value →
      Safely cfg scope driver session post (f value) s') :
    Safely cfg scope driver session post (Prog.perform call >>= f) s := by
  refine Safely.call (fun s' _ _ => may s') ?_
  intro s' how value relied _ _ answered
  rw [nothing]
  exact continues s' how value (holding.rely steady relied) answered

/-- The second loop marks the candidates, and pays what they owe. -/
theorem markCandidates_safely {expiresAt : Int} (candidates : List Candidate) :
    ∀ s : State ι, Holding session (Work cfg scope workspaceID (.at 0 0 (owed candidates))
        (Listed workspaceID candidates)) s →
      (candidates.map fun candidate => candidate.object.objectID).Nodup →
      (∀ candidate ∈ candidates, 0 < candidate.sizeBytes) →
      Safely cfg scope driver session
        (fun _ => Holding session (Work cfg scope workspaceID .none anything))
        (markCandidates workspaceID expiresAt candidates) s := by
  induction candidates with
  | nil =>
    intro s holding _ _
    refine returns (holding.mono ?_)
    intro db blobs work
    exact work.to trivial
  | cons candidate rest ih =>
    intro s holding distinct sizes
    obtain ⟨fresh, restDistinct⟩ := nodup_cons.mp distinct
    have restSizes := fun other member => sizes other (mem_cons_of_mem _ member)
    have debt : owed (candidate :: rest) = candidate.owed + owed rest := by
      simp [owed, Table.total]
    have positive := sizes candidate mem_cons_self
    have steady : Steady (Work cfg scope workspaceID (.at 0 0 (owed (candidate :: rest)))
        (Listed workspaceID (candidate :: rest))) := steady_work steady_listed
    unfold markCandidates
    refine holding.statement (Q := fun marked db blobs => ∀ row, marked = some row →
      row = candidate.marked expiresAt candidate.object ∧
        Work cfg scope workspaceID (.at 0 0 (owed rest)) (Listed workspaceID rest) db blobs)
      steady ?_ ?_ ?_
    · intro db blobs how work
      obtain ⟨found, -⟩ := work.rest candidate mem_cons_self
      exact ⟨marked_revises _ (candidate.marked expiresAt) found rfl rfl,
        fun _ isIt => by cases isIt⟩
    · intro db blobs how marked work _ answered
      obtain ⟨found, notDeleted, provider, state⟩ := work.rest candidate mem_cons_self
      have oldKey : candidate.object.key = (workspaceID, candidate.object.objectID) :=
        key_of_get found
      have isKey : (candidate.marked expiresAt candidate.object).key =
          (workspaceID, candidate.object.objectID) := oldKey
      have unavailable : ¬ candidate.object.IsAvailable := by
        rcases state with isReserved | ⟨isPending, -⟩
        · exact not_isAvailable isReserved (by decide)
        · exact not_isAvailable isPending (by decide)
      have others : Listed workspaceID rest
          (db.apply (.object (candidate.marked expiresAt candidate.object))) blobs := by
        intro other member
        obtain ⟨otherFound, otherState⟩ := work.rest other (mem_cons_of_mem _ member)
        have differ : other.object.objectID ≠ candidate.object.objectID := by
          exact fun same => fresh (mem_map.mpr ⟨other, member, same⟩)
        refine ⟨?_, otherState⟩
        rw [object_mark_of_ne isKey differ]
        exact otherFound
      have step := marked_step (fun state => state = .reserved ∨ state = .pending)
        (candidate.marked expiresAt) work found unavailable rfl rfl (le_of_lt positive)
        (fun _ => provider) (fun isAvailable => by cases isAvailable.1) others
      rw [debt, Candidate.marked_drift notDeleted state] at step
      have isMarked := Except.ok.inj answered
      refine ⟨step.1, ?_⟩
      intro row isRow
      exact step.2 row (isMarked.trans isRow)
    · intro s' marked reached
      refine Safely.orNoRows ?_
      rintro row rfl
      have goesOn : Holding session (Work cfg scope workspaceID (.at 0 0 (owed rest))
          (Listed workspaceID rest)) s' := reached.mono fun _ _ fact => (fact row rfl).2
      refine goesOn.skip (steady_work steady_listed) (fun _ => trivial) (fun _ _ => rfl) ?_
      intro s'' how url still _
      refine (ih s'' still restDistinct restSizes).andThen ?_
      intro targets s''' done
      exact returns done

variable {blobs : Blobs} {db : Db}

/-- The usage rows of a transaction that has done nothing yet are not negative. -/
theorem Locked.nonneg (locked : Locked cfg scope workspaceID account usage db blobs)
    (counts : scope ≠ .objects) :
    (0 ≤ usage.storageBytes ∧ 0 ≤ usage.pendingUploadBytes) ∧
      0 ≤ account.totalStorageBytes ∧ 0 ≤ account.pendingUploadBytes := by
  have midway := locked.work.midway
  obtain ⟨storage, -, pending⟩ := Db.counted_nonneg workspaceID midway.sound
  have rows := midway.nonneg counts ⟨by simpa [Drift.none] using storage,
    by simpa [Drift.none] using pending⟩
  have accounted := Db.accounted_nonneg rows
  have isAccounted := (midway.drifts counts).account account locked.account
  simp only [Drift.none, AccountRow.add_zero] at isAccounted
  rw [isAccounted]
  exact ⟨rows workspaceID usage locked.usage, accounted.2⟩

theorem checkUploadBatchQuota_ok {additional : Int} (sized : Sized cfg scope)
    (isQuota : scope = .quota) (locked : Locked cfg scope workspaceID account usage db blobs)
    (batch : 0 ≤ additional ∧ additional ≤ maxBatch * cfg.maxSingleBlobBytes)
    (passed : checkUploadBatchQuota cfg account usage additional = .ok ()) :
    usage.storageBytes + usage.pendingUploadBytes + additional ≤ cfg.maxStorageBytesPerWorkspace ∧
      usage.pendingUploadBytes + additional ≤ cfg.maxPendingUploadBytes ∧
      account.totalStorageBytes + account.pendingUploadBytes + additional ≤
        cfg.maxTotalStorageBytesPerUser := by
  have counts : scope ≠ .objects := by
    rw [isQuota]
    decide
  have within := locked.work.midway.within isQuota
  have workspaceAtMost := within.workspace workspaceID usage locked.usage
  have pendingAtMost := within.pending workspaceID usage locked.usage
  have accountAtMost := within.account account locked.account
  obtain ⟨⟨storage, pending⟩, total, accountPending⟩ := locked.nonneg counts
  have pendingSized := sized.pending isQuota
  have workspaceSized := sized.workspace isQuota
  have accountSized := sized.account isQuota
  have pendingSum : int64 (usage.pendingUploadBytes + additional) =
      usage.pendingUploadBytes + additional := int64_eq (by omega) (by omega)
  have accountSum : int64 (account.totalStorageBytes + account.pendingUploadBytes) =
      account.totalStorageBytes + account.pendingUploadBytes := int64_eq (by omega) (by omega)
  have accountSum' : int64 (account.totalStorageBytes + account.pendingUploadBytes + additional) =
      account.totalStorageBytes + account.pendingUploadBytes + additional :=
    int64_eq (by omega) (by omega)
  have workspaceSum : int64 (usage.storageBytes + usage.pendingUploadBytes) =
      usage.storageBytes + usage.pendingUploadBytes := int64_eq (by omega) (by omega)
  have workspaceSum' : int64 (usage.storageBytes + usage.pendingUploadBytes + additional) =
      usage.storageBytes + usage.pendingUploadBytes + additional := int64_eq (by omega) (by omega)
  unfold checkUploadBatchQuota at passed
  rw [pendingSum, accountSum, accountSum', workspaceSum, workspaceSum'] at passed
  split at passed
  · cases passed
  split at passed
  · cases passed
  split at passed
  · cases passed
  omega

/-- What the batch does once its candidates are charged. -/
theorem markBatch_safely {expiresAt additional : Int}
    (tally : Tally cfg scope candidates additional)
    (holding : Holding session (Work cfg scope workspaceID (.at 0 0 (owed candidates))
      (Listed workspaceID candidates)) s) :
    Safely cfg scope driver session (fun _ => Committable cfg scope session)
      (do
        let targets ← markCandidates workspaceID expiresAt candidates
        let _ : Unit ← sql (.touchSyncDeviceLastSeen workspaceID deviceID)
        pure targets) s := by
  have sizes := fun candidate member => (tally.sizes candidate member).1
  refine (markCandidates_safely candidates s holding tally.distinct sizes).andThen ?_
  intro targets s' marked
  refine marked.read (Q := fun _ => anything) (steady_work steady_anything)
    (fun _ _ => ⟨_, rfl⟩) (fun _ _ _ _ _ _ => trivial) ?_
  intro s'' _ done
  refine returns ?_
  exact done.committable ((steady_work steady_anything).and steady_anything)
    fun _ _ fact => ⟨workspaceID, fact.1.midway⟩

theorem chargeBatch_safely {expiresAt additional : Int} (sized : Sized cfg scope)
    (listed : Holding session (fun db blobs => Locked cfg scope workspaceID account usage db blobs ∧
      Listed workspaceID candidates db blobs) s) (tally : Tally cfg scope candidates additional)
    (few : candidates.length ≤ maxBatch) :
    Safely cfg scope driver session (fun _ => Committable cfg scope session)
      (do
        Prog.ofExcept (checkUploadBatchQuota cfg account usage additional)
        if 0 < additional then
          let _ : Unit ← sql (.addSyncUsagePendingBytes workspaceID additional)
          let _ : Unit ← sql (.addSyncUsageAccountPendingBytes additional)
          let targets ← markCandidates workspaceID expiresAt candidates
          let _ : Unit ← sql (.touchSyncDeviceLastSeen workspaceID deviceID)
          pure targets
        else do
          let targets ← markCandidates workspaceID expiresAt candidates
          let _ : Unit ← sql (.touchSyncDeviceLastSeen workspaceID deviceID)
          pure targets) s := by
  refine ofExcept fun _ passed => ?_
  have owedNonneg := owed_nonneg fun candidate member => (tally.sizes candidate member).1
  have steady : Steady fun db blobs => Locked cfg scope workspaceID account usage db blobs ∧
      Listed workspaceID candidates db blobs := steady_locked.and steady_listed
  have work : ∀ db blobs, Locked cfg scope workspaceID account usage db blobs ∧
      Listed workspaceID candidates db blobs →
      Work cfg scope workspaceID (.at 0 0 0) (Listed workspaceID candidates) db blobs :=
    fun _ _ fact => fact.1.work.to fact.2
  split
  · -- the bytes are charged before the objects are marked
    refine listed.charge 0 0 additional steady steady_listed ofObjects_listed work ?_ ?_ ?_
    · rintro counts db blobs ⟨isLocked, -⟩
      obtain ⟨storage, count, pending⟩ := Db.counted_nonneg workspaceID isLocked.work.midway.sound
      have sum := tally.sum counts
      omega
    · rintro isQuota db blobs usage' account' ⟨isLocked, -⟩ _ isUsage isAccount
      have counts : scope ≠ .objects := by
        rw [isQuota]
        decide
      have sum := tally.sum counts
      have owedSmall := owed_le_batch tally few (sized.blob isQuota)
      rw [show usage' = usage from Option.some.inj (isUsage.symm.trans isLocked.usage),
        show account' = account from Option.some.inj (isAccount.symm.trans isLocked.account)]
      have fits := checkUploadBatchQuota_ok sized isQuota isLocked (by omega) passed
      omega
    · intro s' charged
      refine markBatch_safely tally (charged.mono ?_)
      intro db blobs work
      refine work.redrift ?_
      intro counts
      simp only [Int.add_zero, Int.zero_add]
      rw [tally.sum counts]
  · rename_i noMore
    refine markBatch_safely tally (listed.mono ?_)
    intro db blobs fact
    refine (work db blobs fact).redrift ?_
    intro counts
    have sum := tally.sum counts
    have nothingOwed : owed candidates = 0 := by omega
    rw [nothingOwed]

theorem createObjectUploadBatch_safely {attempt : String} {requests : List UploadObjectRequest}
    {provider : Provider} (sized : Sized cfg scope) :
    Safely cfg scope driver session (fun _ _ => True)
      (createObjectUploadBatch cfg provider workspaceID deviceID attempt requests) s := by
  unfold createObjectUploadBatch
  split
  · exact fails
  split
  · exact fails
  rename_i count
  split
  · exact fails
  rename_i isS3
  rw [not_not.mp isS3]
  refine withTx_safely fun s₀ idle => ?_
  refine authorizeWorkspace_safely idle ?_
  intro s₁ _ _ authorized
  refine requireActiveDevice_safely authorized ?_
  intro s₂ device ready
  refine ready.lockRows mem_cons_self ?_
  intro s₃ account usage locked
  refine locked.now steady_locked ?_
  intro s₄ now stillLocked
  have none : Holding session (fun db blobs => Locked cfg scope workspaceID account usage db blobs ∧
      Listed workspaceID [] db blobs) s₄ :=
    stillLocked.mono fun _ _ fact => ⟨fact, fun _ member => by cases member⟩
  have nothing : Tally cfg scope [] 0 := ⟨by simp, by simp, fun _ => rfl⟩
  have few : ([] : List Candidate).length + requests.length ≤ maxBatch := by
    simp only [length_nil, Nat.zero_add]
    omega
  refine (uploadCandidates_safely sized requests [] [] 0 s₄ none nothing (by simp) few).andThen ?_
  rintro batch s₅ ⟨listed, tally, few⟩
  exact chargeBatch_safely sized listed tally few

/-! ## Completions -/

/-- An object of the workspace that is pending. -/
def Pending (workspaceID : Uuid) (object : ObjectRow) : Fact := fun db _ =>
  db.object workspaceID object.objectID = some object ∧ object.deleted = false ∧
    object.uploadState = .pending

theorem steady_pending : Steady (Pending workspaceID object) :=
  fun _ _ _ _ more _ fact => ⟨more.object fact.1, fact.2⟩

theorem ofObjects_pending : OfObjects (Pending workspaceID object) := by
  intro db db' _ same fact
  refine ⟨?_, fact.2⟩
  unfold Pending Db.object at fact
  unfold Db.object
  rw [same]
  exact fact.1

theorem Pending.bytesIn (pending : Pending workspaceID object db blobs) :
    object.bytesIn .pending = object.sizeBytes ∧ object.bytesIn .available = 0 ∧
      object.available = 0 := by
  simp [ObjectRow.bytesIn, ObjectRow.available, pending.2.1, pending.2.2]

theorem Pending.size_nonneg (pending : Pending workspaceID object db blobs) (sound : db.Sound) :
    0 ≤ object.sizeBytes :=
  sound.sizes object (mem_of_get pending.1)

def failedRow (reason : ObjectErrorReason) (row : ObjectRow) : ObjectRow :=
  { row with uploadState := .failed, errorReason := some reason }

/-- A pending object fails: it counts nothing any more. -/
theorem markFailed_safely {reason : ObjectErrorReason} {d : Int}
    (isSize : scope ≠ .objects → d = -object.sizeBytes)
    (holding : Holding session (Work cfg scope workspaceID (.at 0 0 d)
      (Pending workspaceID object)) s) :
    Safely cfg scope driver session
      (fun _ => Holding session (Work cfg scope workspaceID .none anything))
      (do
        let failed : Option ObjectRow ← sql (.markSyncObjectFailed workspaceID object.objectID
          reason)
        orNoRows failed) s := by
  refine holding.statement (Q := fun marked db blobs => ∀ row, marked = some row →
    row = failedRow reason object ∧ Work cfg scope workspaceID .none anything db blobs)
    (steady_work steady_pending) ?_ ?_ ?_
  · intro db blobs how work
    exact ⟨marked_revises _ (failedRow reason) work.rest.1 rfl rfl, fun _ isIt => by cases isIt⟩
  · intro db blobs how marked work _ answered
    have pending := work.rest
    have bytes := pending.bytesIn
    have rest : anything (db.apply (.object (failedRow reason object))) blobs := trivial
    have step := marked_step (fun _ => true) (failedRow reason) work pending.1
      (not_isAvailable pending.2.2 (by decide)) rfl rfl
      (pending.size_nonneg work.midway.sound) (fun isPending => by cases isPending)
      (fun isAvailable => by cases isAvailable.1) rest
    refine ⟨step.1, ?_⟩
    intro row isRow
    obtain ⟨isIt, done⟩ := step.2 row ((Except.ok.inj answered).trans isRow)
    refine ⟨isIt, done.redrift ?_⟩
    intro counts
    have failed : (failedRow reason object).bytesIn .available = 0 ∧
        (failedRow reason object).available = 0 ∧
        (failedRow reason object).bytesIn .pending = 0 := by
      simp [failedRow, ObjectRow.bytesIn, ObjectRow.available]
    simp [Drift.marked, Drift.at, Drift.none, bytes, failed, isSize counts]
  · intro s' marked reached
    cases marked with
    | none => exact fails
    | some row => exact returns (reached.mono fun _ _ fact => (fact row rfl).2)

theorem failPendingObject_safely {reason : ObjectErrorReason}
    (holding : Holding session (Work cfg scope workspaceID .none (Pending workspaceID object)) s) :
    Safely cfg scope driver session
      (fun _ => Holding session (Work cfg scope workspaceID .none anything))
      (failPendingObject workspaceID object reason) s := by
  unfold failPendingObject
  have steady : Steady (Work cfg scope workspaceID .none (Pending workspaceID object)) :=
    steady_work steady_pending
  have work : ∀ db blobs, Work cfg scope workspaceID .none (Pending workspaceID object) db blobs →
      Work cfg scope workspaceID (.at 0 0 0) (Pending workspaceID object) db blobs :=
    fun _ _ fact => fact
  split
  · refine holding.charge 0 0 (-object.sizeBytes) steady steady_pending ofObjects_pending work
      ?_ ?_ ?_
    · intro counts db blobs isWork
      have counted := Db.pending_le_counted isWork.midway.sound isWork.rest.1
      rw [isWork.rest.bytesIn.1] at counted
      obtain ⟨storage, count, -⟩ := Db.counted_nonneg workspaceID isWork.midway.sound
      omega
    · intro isQuota db blobs usage account isWork _ isUsage isAccount
      have within := isWork.midway.within isQuota
      have workspaceAtMost := within.workspace workspaceID usage isUsage
      have pendingAtMost := within.pending workspaceID usage isUsage
      have accountAtMost := within.account account isAccount
      omega
    · intro s' charged
      refine markFailed_safely (fun _ => ?_) charged
      omega
  · rename_i notPositive
    refine markFailed_safely (d := 0) (fun _ => ?_) holding
    have nonneg := holding.fact.rest.size_nonneg holding.fact.midway.sound
    omega

def availableRow (object : ObjectRow) (row : ObjectRow) : ObjectRow :=
  { row with
    uploadState := .available
    ciphertextSha256 := object.ciphertextSha256
    sizeBytes := object.sizeBytes
    expiresAt := none
    errorReason := none }

/-- A pending object whose blob is there becomes available. -/
theorem completePendingObject_safely (holding : Holding session (fun db blobs =>
      Work cfg scope workspaceID .none (Pending workspaceID object) db blobs ∧
        (blobs .s3Compatible object.storageKey).isSome) s) :
    Safely cfg scope driver session
      (fun _ => Holding session (Work cfg scope workspaceID .none anything))
      (completePendingObject workspaceID object) s := by
  unfold completePendingObject
  have size := holding.fact.1.rest.size_nonneg holding.fact.1.midway.sound
  refine holding.statement (Q := fun marked db blobs => ∀ row, marked = some row →
    Work cfg scope workspaceID (.at (-object.sizeBytes) (-1) object.sizeBytes) anything db blobs)
    ((steady_work steady_pending).and steady_blob) ?_ ?_ ?_
  · rintro db blobs how ⟨work, -⟩
    exact ⟨marked_revises _ (availableRow object) work.rest.1 rfl rfl, fun _ isIt => by cases isIt⟩
  · rintro db blobs how marked ⟨work, isStored⟩ _ answered
    have pending := work.rest
    have bytes := pending.bytesIn
    have provider : object.storageProvider = .s3Compatible :=
      work.midway.sound.pending object (mem_of_get pending.1) pending.2.2
    have rest : anything (db.apply (.object (availableRow object object))) blobs := trivial
    have stored : (blobs object.storageProvider object.storageKey).isSome := by
      rw [provider]
      exact isStored
    have step := marked_step
      (fun state => state = .reserved ∨ state = .pending ∨ state = .available)
      (availableRow object) work pending.1 (not_isAvailable pending.2.2 (by decide)) rfl
      rfl size (fun isPending => by cases isPending) (fun _ => stored) rest
    refine ⟨step.1, ?_⟩
    intro row isRow
    obtain ⟨-, done⟩ := step.2 row ((Except.ok.inj answered).trans isRow)
    refine done.redrift ?_
    intro counts
    have available : (availableRow object object).bytesIn .available = object.sizeBytes ∧
        (availableRow object object).available = 1 ∧
        (availableRow object object).bytesIn .pending = 0 := by
      simp [availableRow, ObjectRow.bytesIn, ObjectRow.available, pending.2.1]
    simp [Drift.marked, Drift.at, Drift.none, bytes, available]
  · intro s' marked reached
    refine Safely.orNoRows ?_
    rintro row rfl
    have marked := reached.mono fun _ _ fact => fact row rfl
    refine marked.charge object.sizeBytes 1 (-object.sizeBytes) (steady_work steady_anything)
      steady_anything ofObjects_anything (fun _ _ fact => fact) ?_ ?_ ?_
    · intro counts db blobs isWork
      have counted := Db.counted_nonneg workspaceID isWork.midway.sound
      omega
    · intro isQuota db blobs usage account isWork _ isUsage isAccount
      have within := isWork.midway.within isQuota
      have workspaceAtMost := within.workspace workspaceID usage isUsage
      have pendingAtMost := within.pending workspaceID usage isUsage
      have accountAtMost := within.account account isAccount
      omega
    · intro s'' charged
      refine returns (charged.mono ?_)
      intro db blobs isWork
      refine isWork.redrift ?_
      intro _
      simp [Drift.at, Drift.none]

/-- One turn of the loop of a completion. -/
theorem completeObject_safely {now : Int} {sha : String} (isS3 : driver session = .s3Compatible)
    (notDeleted : object.deleted = false)
    (holding : Holding session (fun db blobs =>
      Work cfg scope workspaceID .none anything db blobs ∧
        db.object workspaceID object.objectID = some object) s) :
    Safely cfg scope driver session
      (fun _ => Holding session (Work cfg scope workspaceID .none anything))
      (completeObject workspaceID object now sha size) s := by
  unfold completeObject
  split
  · exact fails
  rename_i isPending
  have pending : Holding session
      (Work cfg scope workspaceID .none (Pending workspaceID object)) s :=
    holding.mono fun _ _ fact => fact.1.to ⟨fact.2, notDeleted, not_not.mp isPending⟩
  have fails : ∀ s' reason, Holding session
      (Work cfg scope workspaceID .none (Pending workspaceID object)) s' →
      Safely cfg scope driver session
        (fun _ => Holding session (Work cfg scope workspaceID .none anything))
        (do
          let failed ← failPendingObject workspaceID object reason
          pure (⟨failed, some reason⟩ : ObjectUploadResult)) s' := by
    intro s' reason still
    refine (failPendingObject_safely still).andThen ?_
    intro failed s'' done
    exact returns done
  split
  · exact fails s _ pending
  · refine Safely.call (fun _ _ _ => trivial) ?_
    intro s' how metadata relied _ _ answered
    have still := pending.rely (steady_work steady_pending) relied
    split
    · exact fails s' _ still
    · rename_i matching
      have isStored : (s'.blobs .s3Compatible object.storageKey).isSome := by
        have isBlob : s'.blobs (driver session) object.storageKey = metadata :=
          Except.ok.inj answered
        rw [isS3] at isBlob
        rw [isBlob]
        cases metadata with
        | none => cases matching
        | some _ => rfl
      have ready : Holding session (fun db blobs =>
          Work cfg scope workspaceID .none (Pending workspaceID object) db blobs ∧
            (blobs .s3Compatible object.storageKey).isSome) s' :=
        ⟨still.lock, still.revises, still.keeps, still.fact, isStored⟩
      refine (completePendingObject_safely ready).andThen ?_
      intro available s'' done
      exact returns done

theorem completeObjects_safely {now : Int} (isS3 : driver session = .s3Compatible)
    (requests : List CompletedObjectUploadRequest) :
    ∀ (seen : List String) (s : State ι),
      Holding session (Work cfg scope workspaceID .none anything) s →
      Safely cfg scope driver session
        (fun _ => Holding session (Work cfg scope workspaceID .none anything))
        (completeObjects workspaceID deviceID now requests seen) s := by
  induction requests with
  | nil => exact fun _ _ holding => returns holding
  | cons request rest ih =>
    intro seen s holding
    unfold completeObjects
    simp only
    split
    · exact fails
    split
    · exact fails
    refine ofExcept fun sha _ => ?_
    refine holding.getObject (steady_work steady_anything) (fun _ => fails) ?_
    intro s' object notDeleted reached
    refine requireObjectReservedByDevice_safely ?_
    split
    · split
      · refine (ih _ s' (reached.mono fun _ _ fact => fact.1)).andThen ?_
        intro others s'' done
        exact returns done
      · exact fails
    · have found : Holding session (fun db blobs =>
          Work cfg scope workspaceID .none anything db blobs ∧
            db.object workspaceID object.objectID = some object) s' := by
        refine reached.mono ?_
        rintro db blobs ⟨work, isFound⟩
        have isKey : object.objectID = Text.trim request.objectID :=
          congrArg Prod.snd (key_of_get isFound)
        rw [isKey]
        exact ⟨work, isFound⟩
      refine (completeObject_safely isS3 notDeleted found).andThen ?_
      intro result s'' completed
      refine (ih _ s'' completed).andThen ?_
      intro others s''' done
      exact returns done

theorem completeObjectUploadBatch_safely {attempt : String}
    {requests : List CompletedObjectUploadRequest} :
    Safely cfg scope driver session (fun _ _ => True)
      (completeObjectUploadBatch (driver session) workspaceID deviceID attempt requests) s := by
  unfold completeObjectUploadBatch
  split
  · exact fails
  split
  · exact fails
  split
  · exact fails
  rename_i isS3
  refine withTx_safely fun s₀ idle => ?_
  refine authorizeWorkspace_safely idle ?_
  intro s₁ _ _ authorized
  refine requireActiveDevice_safely authorized ?_
  intro s₂ device ready
  refine ready.lockRows mem_cons_self ?_
  intro s₃ account usage locked
  refine locked.now steady_locked ?_
  intro s₄ now stillLocked
  have work := stillLocked.mono fun _ _ fact => fact.work
  refine (completeObjects_safely (not_not.mp isS3) requests [] s₄ work).andThen ?_
  intro results s₅ completed
  refine completed.read (Q := fun _ => anything) (steady_work steady_anything)
    (fun _ _ => ⟨_, rfl⟩) (fun _ _ _ _ _ _ => trivial) ?_
  intro s₆ _ done
  refine returns ?_
  exact done.committable ((steady_work steady_anything).and steady_anything)
    fun _ _ fact => ⟨workspaceID, fact.1.midway⟩

/-! ## Direct uploads -/

/-- A reserved object of local storage whose blob has been written. -/
def Written (workspaceID : Uuid) (object : ObjectRow) : Fact := fun db blobs =>
  db.object workspaceID object.objectID = some object ∧ object.deleted = false ∧
    object.uploadState = .reserved ∧ (blobs object.storageProvider object.storageKey).isSome

theorem steady_written : Steady (Written workspaceID object) :=
  fun _ _ _ _ more grows fact =>
    ⟨more.object fact.1, fact.2.1, fact.2.2.1, grows _ _ fact.2.2.2⟩

def directRow (sha : String) (size : Int) (row : ObjectRow) : ObjectRow :=
  { row with
    uploadState := .available
    ciphertextSha256 := sha
    sizeBytes := size
    expiresAt := none
    errorReason := none }

/-- Local storage takes the bytes, S3 does not. -/
theorem Holding.putBlob {storageKey : String} {metadata : BlobMetadata} {f : Unit → Program β}
    {P : Fact} (holding : Holding session P s) (steady : Steady P)
    (sound : ∀ db blobs, P db blobs → db.Sound)
    (continues : ∀ s', Holding session (fun db blobs =>
        P db blobs ∧ (blobs .localStore storageKey).isSome) s' →
      Safely cfg scope driver session post (f ()) s') :
    Safely cfg scope driver session post
      ((Prog.perform (Call.putBlob storageKey metadata) : Program Unit) >>= f) s := by
  refine Safely.call (fun _ _ _ => trivial) ?_
  intro s' how _ relied _ _ answered
  have still := holding.rely steady relied
  cases isDriver : driver session with
  | s3Compatible => simp [State.perform, isDriver] at answered
  | localStore =>
    have written : State.perform driver session how s' (.putBlob storageKey metadata) =
        (.ok (), s'.setBlob .localStore storageKey (some metadata)) := by
      simp [State.perform, isDriver]
    have grows : Grows s'.blobs
        (s'.setBlob .localStore storageKey (some metadata)).blobs := grows_setBlob rfl
    have kept := steady _ _ _ _ (Extends.refl (sound _ _ still.fact)) grows still.fact
    rw [written]
    refine continues _ ⟨still.lock, still.revises, still.keeps, kept, ?_⟩
    rw [blobs_setBlob_self]
    rfl

/-- A written object becomes available, and is charged. -/
theorem markWritten_safely {objectID sha : String} (isKey : object.objectID = objectID)
    (positive : 0 < size)
    (holding : Holding session (Work cfg scope workspaceID .none (Written workspaceID object)) s) :
    Safely cfg scope driver session (fun _ => Committable cfg scope session)
      (do
        let marked : Option ObjectRow ← sql (.markSyncObjectAvailable workspaceID objectID sha size)
        let object ← orNoRows marked
        let _ : Unit ← sql (.addSyncUsageAvailableObjectBytes workspaceID size)
        let _ : Unit ← sql (.addSyncUsageAccountAvailableObjectBytes size)
        pure object) s := by
  subst isKey
  refine holding.statement (Q := fun marked db blobs => ∀ row, marked = some row →
    Work cfg scope workspaceID (.at (-size) (-1) 0) anything db blobs)
    (steady_work steady_written) ?_ ?_ ?_
  · intro db blobs how work
    exact ⟨marked_revises _ (directRow sha size) work.rest.1 rfl rfl, fun _ isIt => by cases isIt⟩
  · intro db blobs how marked work _ answered
    obtain ⟨found, notDeleted, isReserved, isStored⟩ := work.rest
    have rest : anything (db.apply (.object (directRow sha size object))) blobs := trivial
    have step := marked_step
      (fun state => state = .reserved ∨ state = .pending ∨ state = .available)
      (directRow sha size) work found (not_isAvailable isReserved (by decide)) rfl
      rfl (le_of_lt positive) (fun isPending => by cases isPending) (fun _ => isStored) rest
    refine ⟨step.1, ?_⟩
    intro row isRow
    obtain ⟨-, done⟩ := step.2 row ((Except.ok.inj answered).trans isRow)
    refine done.redrift ?_
    intro counts
    have available : (directRow sha size object).bytesIn .available = size ∧
        (directRow sha size object).available = 1 ∧
        (directRow sha size object).bytesIn .pending = 0 := by
      simp [directRow, ObjectRow.bytesIn, ObjectRow.available, notDeleted]
    have reserved : object.bytesIn .available = 0 ∧ object.available = 0 ∧
        object.bytesIn .pending = 0 := by
      simp [ObjectRow.bytesIn, ObjectRow.available, isReserved]
    simp [Drift.marked, Drift.at, Drift.none, reserved, available]
  · intro s' marked reached
    refine Safely.orNoRows ?_
    rintro row rfl
    have marked := reached.mono fun _ _ fact => fact row rfl
    refine marked.charge size 1 0 (steady_work steady_anything) steady_anything
      ofObjects_anything (fun _ _ fact => fact) ?_ ?_ ?_
    · intro counts db blobs isWork
      have counted := Db.counted_nonneg workspaceID isWork.midway.sound
      omega
    · intro isQuota db blobs usage account isWork lawful isUsage isAccount
      have pendingAtMost := (isWork.midway.within isQuota).pending workspaceID usage isUsage
      obtain ⟨workspaceFits, accountFits⟩ := lawful.2 isQuota rfl rfl
      have workspaceAtMost := workspaceFits usage isUsage
      have accountAtMost := accountFits account isAccount
      omega
    · intro s'' charged
      refine returns ?_
      refine charged.committable (steady_work steady_anything) ?_
      intro db blobs isWork
      refine ⟨workspaceID, (isWork.redrift ?_).midway⟩
      intro _
      simp [Drift.at, Drift.none]

theorem uploadObjectBytesDev_safely {objectID sha : String} {blob : Bytes} :
    Safely cfg scope driver session (fun _ _ => True)
      (uploadObjectBytesDev cfg workspaceID deviceID objectID sha size blob) s := by
  unfold uploadObjectBytesDev
  split
  · exact fails
  refine ofExcept fun _ valid => ?_
  have positive : 0 < size := by
    unfold validateCiphertextMetadata at valid
    obtain ⟨_, isOk, -⟩ := bind_ok.mp valid
    exact validateCiphertextDescriptor_ok isOk
  split
  · exact fails
  refine withTx_safely fun s₀ idle => ?_
  refine authorizeWorkspace_safely idle ?_
  intro s₁ _ _ authorized
  refine requireActiveDevice_safely authorized ?_
  intro s₂ device ready
  refine ready.lockRows mem_cons_self ?_
  intro s₃ account usage locked
  refine ofExcept fun _ _ => ?_
  refine (locked.mono fun _ _ fact => fact.work).getObject (steady_work steady_anything)
    (fun _ => fails) ?_
  intro s₄ object notDeleted reached
  have isKey : object.objectID = objectID := congrArg Prod.snd (key_of_get reached.fact.2)
  simp only
  split
  · exact fails
  rename_i isLocal
  split
  · split
    · refine returns ?_
      exact reached.committable ((steady_work steady_anything).and steady_object)
        fun _ _ fact => ⟨workspaceID, fact.1.midway⟩
    · exact fails
  split
  · exact fails
  rename_i state
  -- only objects of S3 are ever pending
  have isReserved : object.uploadState = .reserved := by
    by_contra notReserved
    have isPending : object.uploadState = .pending := by
      by_contra notPending
      exact state ⟨notReserved, notPending⟩
    have isS3 := reached.fact.1.midway.sound.pending object (mem_of_get reached.fact.2) isPending
    rw [isS3] at isLocal
    exact isLocal (by decide)
  refine reached.putBlob ((steady_work steady_anything).and steady_object)
    (fun _ _ fact => fact.1.midway.sound) ?_
  intro s₅ written
  refine markWritten_safely isKey positive (written.mono ?_)
  rintro db blobs ⟨⟨work, found⟩, isStored⟩
  refine work.to ⟨?_, notDeleted, isReserved, ?_⟩
  · rw [isKey]
    exact found
  · rw [not_not.mp isLocal]
    exact isStored

end Walk

end Kuku.Storage
