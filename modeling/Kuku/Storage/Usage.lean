/-
# Storage.Usage -- what one row version does to the counters

The usage rows are meant to be sums over object rows, and the account row a sum over
usage rows.  In the middle of a transaction they are not: bytes have been added to a
counter and the objects not yet marked.  `Db.Drifts` says by how much the rows of one
workspace and of the account are ahead of what they count (`Drift`), and there is one
lemma for each row version that says what it does to the drift.  `Db.Exact` is no drift
at all.

`Db.Sound` is what the constraints of the tables and the state of an object give, and
`Db.Within` is the quotas.
-/
import Kuku.Storage.Transactions

namespace Kuku.Storage

open Kuku.Theory Option Table List
open Kuku.Server (Uuid KukuSyncObjectState)

/-- An object that can be published and downloaded. -/
def ObjectRow.IsAvailable (row : ObjectRow) : Prop :=
  row.uploadState = .available ∧ row.deleted = false

theorem ObjectRow.not_isAvailable {row : ObjectRow} {state : KukuSyncObjectState}
    (isState : row.uploadState = state) (differ : state ≠ .available) : ¬ row.IsAvailable :=
  fun isAvailable => differ (isState.symm.trans isAvailable.1)

/-- The keys, and what every object row satisfies. -/
structure Db.Sound (db : Db) : Prop where
  workspaces : Table.Keyed WorkspaceRow.id db.workspaces
  objects : Table.Keyed ObjectRow.key db.objects
  storageKeys : Table.Keyed ObjectRow.storageKey db.objects
  usages : Table.Keyed UsageRow.workspaceID db.usages
  owned : ∀ row ∈ db.objects, (db.workspace row.workspaceID).isSome
  sizes : ∀ row ∈ db.objects, 0 ≤ row.sizeBytes
  /-- Only a presigning store has uploads under way. -/
  pending : ∀ row ∈ db.objects, row.uploadState = .pending → row.storageProvider = .s3Compatible

/-- How far the counters of a workspace and of the account are ahead of what they count. -/
structure Drift where
  storageBytes : Int
  objectCount : Int
  pendingUploadBytes : Int
  workspaceCount : Int
  totalStorageBytes : Int
  accountPendingBytes : Int

def Drift.none : Drift := ⟨0, 0, 0, 0, 0, 0⟩

/-- What a new version of an object row does to the drift of its workspace. -/
def Drift.marked (δ : Drift) (old new : ObjectRow) : Drift :=
  { δ with
    storageBytes := δ.storageBytes + old.bytesIn .available - new.bytesIn .available
    objectCount := δ.objectCount + old.available - new.available
    pendingUploadBytes := δ.pendingUploadBytes + old.bytesIn .pending - new.bytesIn .pending }

/-- The counters are exact but for the drift of one workspace and of the account. -/
structure Db.Drifts (db : Db) (workspaceID : Uuid) (δ : Drift) : Prop where
  usage : ∀ row, db.usage workspaceID = some row →
    row = (db.counted workspaceID).add δ.storageBytes δ.objectCount δ.pendingUploadBytes
  others : ∀ id row, id ≠ workspaceID → db.usage id = some row → row = db.counted id
  account : ∀ row, db.account = some row →
    row = db.accounted.add δ.workspaceCount δ.totalStorageBytes δ.accountPendingBytes
  listed : ∀ row ∈ db.workspaces, (db.usage row.id).isSome
  owner : db.workspaces ≠ [] → db.account.isSome

/-- **Exact accounting.** -/
structure Db.Exact (db : Db) : Prop where
  usage : ∀ id row, db.usage id = some row → row = db.counted id
  account : ∀ row, db.account = some row → row = db.accounted
  listed : ∀ row ∈ db.workspaces, (db.usage row.id).isSome
  owner : db.workspaces ≠ [] → db.account.isSome

/-- The quotas of a configuration. -/
structure Db.Within (db : Db) (cfg : Config) : Prop where
  workspace : ∀ id row, db.usage id = some row →
    row.storageBytes + row.pendingUploadBytes ≤ cfg.maxStorageBytesPerWorkspace
  pending : ∀ id row, db.usage id = some row → row.pendingUploadBytes ≤ cfg.maxPendingUploadBytes
  account : ∀ row, db.account = some row →
    row.totalStorageBytes + row.pendingUploadBytes ≤ cfg.maxTotalStorageBytesPerUser

/-! ## Counters -/

@[simp] theorem UsageRow.add_zero (row : UsageRow) : row.add 0 0 0 = row := by
  simp [UsageRow.add]

@[simp] theorem AccountRow.add_zero (row : AccountRow) : row.add 0 0 0 = row := by
  simp [AccountRow.add]

@[simp] theorem UsageRow.add_add (row : UsageRow) (a b c a' b' c' : Int) :
    (row.add a b c).add a' b' c' = row.add (a + a') (b + b') (c + c') := by
  simp only [UsageRow.add, Int.add_assoc]

@[simp] theorem AccountRow.add_add (row : AccountRow) (a b c a' b' c' : Int) :
    (row.add a b c).add a' b' c' = row.add (a + a') (b + b') (c + c') := by
  simp only [AccountRow.add, Int.add_assoc]

theorem ObjectRow.bytesIn_nonneg {state : KukuSyncObjectState} {row : ObjectRow}
    (nonneg : 0 ≤ row.sizeBytes) : 0 ≤ row.bytesIn state := by
  unfold ObjectRow.bytesIn
  split
  · exact nonneg
  · exact le_refl 0

theorem ObjectRow.available_nonneg (row : ObjectRow) : 0 ≤ row.available := by
  unfold ObjectRow.available
  split <;> decide

namespace Db

variable {db : Db} {workspaceID : Uuid} {objectID : String} {δ : Drift}

theorem drifts_none : db.Drifts workspaceID .none ↔ db.Exact := by
  constructor
  · intro drifts
    refine ⟨?_, ?_, drifts.listed, drifts.owner⟩
    · intro id row found
      by_cases same : id = workspaceID
      · subst same
        simpa [Drift.none] using drifts.usage row found
      · exact drifts.others id row same found
    · intro row found
      simpa [Drift.none] using drifts.account row found
  · intro exact
    refine ⟨?_, fun id row _ => exact.usage id row, ?_, exact.listed, exact.owner⟩
    · intro row found
      simpa [Drift.none] using exact.usage workspaceID row found
    · intro row found
      simpa [Drift.none] using exact.account row found

/-- What the usage row of a workspace counts is never negative. -/
theorem counted_nonneg (workspaceID : Uuid) (sound : db.Sound) :
    0 ≤ (db.counted workspaceID).storageBytes ∧
    0 ≤ (db.counted workspaceID).objectCount ∧
    0 ≤ (db.counted workspaceID).pendingUploadBytes := by
  have sizes : ∀ row ∈ db.objectsOf workspaceID, 0 ≤ row.sizeBytes :=
    fun row member => sound.sizes row (mem_filter.mp member).1
  refine ⟨total_nonneg ?_, total_nonneg ?_, total_nonneg ?_⟩
  · exact fun row member => ObjectRow.bytesIn_nonneg (sizes row member)
  · exact fun row _ => ObjectRow.available_nonneg row
  · exact fun row member => ObjectRow.bytesIn_nonneg (sizes row member)

theorem pending_le_counted (sound : db.Sound) {row : ObjectRow}
    (found : db.object workspaceID objectID = some row) :
    row.bytesIn .pending ≤ (db.counted workspaceID).pendingUploadBytes := by
  have keyEq : row.key = (workspaceID, objectID) := key_of_get found
  have member : row ∈ db.objectsOf workspaceID := by
    refine mem_filter.mpr ⟨mem_of_get found, ?_⟩
    have inside : row.workspaceID = workspaceID := congrArg Prod.fst keyEq
    simpa using inside
  apply le_total _ member
  intro row inside
  exact ObjectRow.bytesIn_nonneg (sound.sizes row (mem_filter.mp inside).1)

/-! ## Object rows -/

section Object

variable {old new : ObjectRow}

/-- A new version of an object row, in a sum over the rows of its workspace. -/
theorem total_objectsOf_object (sound : db.Sound)
    (found : db.object workspaceID objectID = some old) (sameKey : new.key = old.key)
    (f : ObjectRow → Int) : total f ((db.apply (.object new)).objectsOf workspaceID) =
      total f (db.objectsOf workspaceID) - f old + f new := by
  have keyEq : old.key = (workspaceID, objectID) := key_of_get found
  have inOld : old.workspaceID = workspaceID := congrArg Prod.fst keyEq
  have inNew : new.workspaceID = workspaceID := congrArg Prod.fst (sameKey.trans keyEq)
  have isFound : get ObjectRow.key db.objects new.key = some old := by
    rw [sameKey, keyEq]
    exact found
  simp only [objectsOf, apply, total_filter]
  rw [total_put sound.objects, isFound]
  simp [inOld, inNew]

theorem total_objectsOf_object_of_ne (sound : db.Sound)
    (found : db.object workspaceID objectID = some old) (sameKey : new.key = old.key)
    {id : Uuid} (differ : id ≠ workspaceID) (f : ObjectRow → Int) :
    total f ((db.apply (.object new)).objectsOf id) = total f (db.objectsOf id) := by
  have keyEq : old.key = (workspaceID, objectID) := key_of_get found
  have inOld : old.workspaceID = workspaceID := congrArg Prod.fst keyEq
  have inNew : new.workspaceID = workspaceID := congrArg Prod.fst (sameKey.trans keyEq)
  have isFound : get ObjectRow.key db.objects new.key = some old := by
    rw [sameKey, keyEq]
    exact found
  simp only [objectsOf, apply, total_filter]
  rw [total_put sound.objects, isFound]
  simp [inOld, inNew, differ.symm]

theorem Drifts.object (drifts : db.Drifts workspaceID δ) (sound : db.Sound)
    (found : db.object workspaceID objectID = some old) (sameKey : new.key = old.key) :
    (db.apply (.object new)).Drifts workspaceID (δ.marked old new) := by
  have sums := total_objectsOf_object sound found sameKey
  have otherSums := fun id (differ : id ≠ workspaceID) =>
    total_objectsOf_object_of_ne sound found sameKey differ
  refine ⟨?_, ?_, ?_, drifts.listed, drifts.owner⟩
  · intro row isRow
    rw [drifts.usage row isRow]
    ext
    · rfl
    · simp only [UsageRow.add, counted, sums, Drift.marked]
      omega
    · simp only [UsageRow.add, counted, sums, Drift.marked]
      omega
    · simp only [UsageRow.add, counted, sums, Drift.marked]
      omega
  · intro id row differ isRow
    rw [drifts.others id row differ isRow]
    simp only [counted, otherSums id differ]
  · intro row isRow
    exact drifts.account row isRow

theorem Sound.object (sound : db.Sound) (found : db.object workspaceID objectID = some old)
    (sameKey : new.key = old.key) (sameStorageKey : new.storageKey = old.storageKey)
    (size : 0 ≤ new.sizeBytes)
    (pending : new.uploadState = .pending → new.storageProvider = .s3Compatible) :
    (db.apply (.object new)).Sound := by
  have keyEq : old.key = (workspaceID, objectID) := key_of_get found
  have isFound : get ObjectRow.key db.objects new.key = some old := by
    rw [sameKey, keyEq]
    exact found
  have isOwned : (db.workspace new.workspaceID).isSome := by
    rw [show new.workspaceID = old.workspaceID from congrArg Prod.fst sameKey]
    exact sound.owned old (mem_of_get found)
  refine ⟨sound.workspaces, keyed_put sound.objects, ?_, sound.usages, ?_, ?_, ?_⟩
  · unfold Table.Keyed apply
    rw [map_put sound.objects isFound sameStorageKey]
    exact sound.storageKeys
  · intro row member
    rcases mem_put member with rfl | ⟨inside, -⟩
    · exact isOwned
    · exact sound.owned row inside
  · intro row member
    rcases mem_put member with rfl | ⟨inside, -⟩
    · exact size
    · exact sound.sizes row inside
  · intro row member
    rcases mem_put member with rfl | ⟨inside, -⟩
    · exact pending
    · exact sound.pending row inside

end Object

/-! ## Usage rows -/

section Usage

variable {old new : UsageRow}

/-- The workspace is there and not deleted. -/
def isLive (db : Db) (workspaceID : Uuid) : Bool :=
  (db.workspace workspaceID).any fun row => !row.deleted

theorem usage_usage_self (isNew : new.workspaceID = workspaceID) :
    (db.apply (.usage new)).usage workspaceID = some new := by
  subst isNew
  exact get_put_self

theorem usage_usage_of_ne (isNew : new.workspaceID = workspaceID) {id : Uuid}
    (differ : id ≠ workspaceID) : (db.apply (.usage new)).usage id = db.usage id :=
  get_put_of_ne (by rw [isNew]; exact differ.symm)

/-- A new version of a usage row, in a sum over the live workspaces. -/
theorem total_share_usage (sound : db.Sound) (found : db.usage workspaceID = some old)
    (isNew : new.workspaceID = workspaceID) (f : UsageRow → Int) :
    total ((db.apply (.usage new)).share f) db.workspaces =
      total (db.share f) db.workspaces +
        if db.isLive workspaceID then f new - f old else 0 := by
  have elsewhere : ∀ row ∈ db.workspaces, row.id ≠ workspaceID →
      (db.apply (.usage new)).share f row = db.share f row := by
    intro row _ differ
    simp only [share, usage_usage_of_ne isNew differ]
  unfold isLive
  cases isThere : db.workspace workspaceID with
  | none =>
    have absent := Table.get_eq_none.mp isThere
    rw [total_congr fun row member => elsewhere row member (absent row member)]
    simp
  | some row =>
    have isIt : row.id = workspaceID := key_of_get isThere
    rw [total_change sound.workspaces isThere elsewhere]
    simp only [share, isIt, usage_usage_self isNew, found, elim_some, any_some]
    by_cases isDeleted : row.deleted = true
    · simp [isDeleted]
    · rw [if_neg isDeleted, if_neg isDeleted, if_pos (by simp [isDeleted])]
      omega

/-- What a new version of a usage row does to the drift. -/
def driftUsage (db : Db) (workspaceID : Uuid) (δ : Drift) (old new : UsageRow) : Drift where
  storageBytes := new.storageBytes - (db.counted workspaceID).storageBytes
  objectCount := new.objectCount - (db.counted workspaceID).objectCount
  pendingUploadBytes := new.pendingUploadBytes - (db.counted workspaceID).pendingUploadBytes
  workspaceCount := δ.workspaceCount
  totalStorageBytes := δ.totalStorageBytes -
    if db.isLive workspaceID then new.storageBytes - old.storageBytes else 0
  accountPendingBytes := δ.accountPendingBytes -
    if db.isLive workspaceID then new.pendingUploadBytes - old.pendingUploadBytes else 0

theorem Drifts.ofUsage (drifts : db.Drifts workspaceID δ) (sound : db.Sound)
    (found : db.usage workspaceID = some old) (isNew : new.workspaceID = workspaceID) :
    (db.apply (.usage new)).Drifts workspaceID (db.driftUsage workspaceID δ old new) := by
  refine ⟨?_, ?_, ?_, ?_, drifts.owner⟩
  · intro row isRow
    rw [usage_usage_self isNew] at isRow
    cases isRow
    apply UsageRow.ext
    · exact isNew
    · show new.storageBytes = (db.counted workspaceID).storageBytes + _
      simp only [driftUsage]
      omega
    · show new.objectCount = (db.counted workspaceID).objectCount + _
      simp only [driftUsage]
      omega
    · show new.pendingUploadBytes = (db.counted workspaceID).pendingUploadBytes + _
      simp only [driftUsage]
      omega
  · intro id row differ isRow
    rw [usage_usage_of_ne isNew differ] at isRow
    exact drifts.others id row differ isRow
  · intro row isRow
    rw [drifts.account row isRow]
    ext
    · rfl
    · show _ = total ((db.apply (.usage new)).share UsageRow.storageBytes) db.workspaces + _
      rw [total_share_usage sound found isNew]
      simp only [AccountRow.add, accounted, driftUsage]
      omega
    · show _ = total ((db.apply (.usage new)).share UsageRow.pendingUploadBytes) db.workspaces + _
      rw [total_share_usage sound found isNew]
      simp only [AccountRow.add, accounted, driftUsage]
      omega
  · intro row member
    by_cases same : row.id = workspaceID
    · rw [same, usage_usage_self isNew]
      rfl
    · rw [usage_usage_of_ne isNew same]
      exact drifts.listed row member

/-- `addUsage` at a live workspace: the workspace gets ahead, the account falls behind. -/
theorem Drifts.addUsage (drifts : db.Drifts workspaceID δ) (sound : db.Sound)
    (found : db.usage workspaceID = some old) (live : db.isLive workspaceID) (a b c : Int) :
    (db.apply (.usage (old.add a b c))).Drifts workspaceID
      ⟨δ.storageBytes + a, δ.objectCount + b, δ.pendingUploadBytes + c, δ.workspaceCount,
        δ.totalStorageBytes - a, δ.accountPendingBytes - c⟩ := by
  have isOld : old.workspaceID = workspaceID := key_of_get found
  have isNew : (old.add a b c).workspaceID = workspaceID := isOld
  have moved := drifts.ofUsage sound found isNew
  have isCounted := drifts.usage old found
  have drift : db.driftUsage workspaceID δ old (old.add a b c) =
      ⟨δ.storageBytes + a, δ.objectCount + b, δ.pendingUploadBytes + c, δ.workspaceCount,
        δ.totalStorageBytes - a, δ.accountPendingBytes - c⟩ := by
    have storage := congrArg UsageRow.storageBytes isCounted
    have count := congrArg UsageRow.objectCount isCounted
    have pending := congrArg UsageRow.pendingUploadBytes isCounted
    simp only [UsageRow.add] at storage count pending
    simp only [driftUsage, UsageRow.add, live, if_true, Drift.mk.injEq]
    refine ⟨?_, ?_, ?_, trivial, ?_, ?_⟩ <;> omega
  rw [drift] at moved
  exact moved

/-- `RecalculateSyncUsageWorkspace`: the workspace's drift becomes the account's. -/
theorem Drifts.recount (drifts : db.Drifts workspaceID δ) (sound : db.Sound)
    (found : db.usage workspaceID = some old) :
    (db.apply (.usage (db.counted workspaceID))).Drifts workspaceID
      ⟨0, 0, 0, δ.workspaceCount,
        δ.totalStorageBytes + if db.isLive workspaceID then δ.storageBytes else 0,
        δ.accountPendingBytes + if db.isLive workspaceID then δ.pendingUploadBytes else 0⟩ := by
  have isNew : (db.counted workspaceID).workspaceID = workspaceID := rfl
  have moved := drifts.ofUsage sound found isNew
  have isCounted := drifts.usage old found
  have drift : db.driftUsage workspaceID δ old (db.counted workspaceID) =
      ⟨0, 0, 0, δ.workspaceCount,
        δ.totalStorageBytes + if db.isLive workspaceID then δ.storageBytes else 0,
        δ.accountPendingBytes + if db.isLive workspaceID then δ.pendingUploadBytes else 0⟩ := by
    have storage := congrArg UsageRow.storageBytes isCounted
    have pending := congrArg UsageRow.pendingUploadBytes isCounted
    simp only [UsageRow.add] at storage pending
    simp only [driftUsage, Drift.mk.injEq]
    refine ⟨?_, ?_, ?_, trivial, ?_, ?_⟩
    · omega
    · omega
    · omega
    · split <;> omega
    · split <;> omega
  rw [drift] at moved
  exact moved

theorem Sound.usage (sound : db.Sound) : (db.apply (.usage new)).Sound :=
  { sound with usages := keyed_put sound.usages }

end Usage

/-! ## The account row -/

section Account

variable {row : AccountRow}

theorem Sound.account (sound : db.Sound) : (db.apply (.account row)).Sound := { sound with }

/-- The account row becomes one that is so far ahead. -/
theorem Drifts.ofAccount (drifts : db.Drifts workspaceID δ) (a b c : Int) :
    (db.apply (.account (db.accounted.add a b c))).Drifts workspaceID
      { δ with workspaceCount := a, totalStorageBytes := b, accountPendingBytes := c } where
  usage := drifts.usage
  others := drifts.others
  account := by
    intro row isRow
    cases isRow
    rfl
  listed := drifts.listed
  owner := fun _ => rfl

theorem Drifts.addAccount (drifts : db.Drifts workspaceID δ) (found : db.account = some row)
    (b c : Int) :
    (db.apply (.account (row.add 0 b c))).Drifts workspaceID
      { δ with
        totalStorageBytes := δ.totalStorageBytes + b
        accountPendingBytes := δ.accountPendingBytes + c } := by
  rw [drifts.account row found, AccountRow.add_add, Int.add_zero]
  exact drifts.ofAccount _ _ _

/-- `RecalculateSyncUsageAccount`. -/
theorem Drifts.reaccount (drifts : db.Drifts workspaceID δ) :
    (db.apply (.account db.accounted)).Drifts workspaceID
      { δ with workspaceCount := 0, totalStorageBytes := 0, accountPendingBytes := 0 } := by
  have moved := drifts.ofAccount 0 0 0
  rw [AccountRow.add_zero] at moved
  exact moved

/-- What the account row counts is never negative. -/
theorem accounted_nonneg (nonneg : ∀ id row, db.usage id = some row →
      0 ≤ row.storageBytes ∧ 0 ≤ row.pendingUploadBytes) :
    0 ≤ db.accounted.workspaceCount ∧ 0 ≤ db.accounted.totalStorageBytes ∧
      0 ≤ db.accounted.pendingUploadBytes := by
  refine ⟨total_nonneg ?_, total_nonneg ?_, total_nonneg ?_⟩
  · intro row _
    split <;> decide
  · intro row _
    unfold share
    split
    · exact le_refl 0
    · cases found : db.usage row.id with
      | none => exact le_refl 0
      | some usage => exact (nonneg row.id usage found).1
  · intro row _
    unfold share
    split
    · exact le_refl 0
    · cases found : db.usage row.id with
      | none => exact le_refl 0
      | some usage => exact (nonneg row.id usage found).2

/-- The row `EnsureSyncUsageAccount` makes sure of. -/
def ensured (db : Db) : AccountRow := db.account.getD ⟨0, 0, 0⟩

theorem Drifts.ensured_eq (drifts : db.Drifts workspaceID δ)
    (none : δ.workspaceCount = 0 ∧ δ.totalStorageBytes = 0 ∧ δ.accountPendingBytes = 0) :
    db.ensured = db.accounted := by
  obtain ⟨a, b, c⟩ := none
  unfold ensured
  cases found : db.account with
  | some row => simpa [a, b, c] using drifts.account row found
  | none =>
    have empty : db.workspaces = [] := by
      by_contra nonempty
      have isThere := drifts.owner nonempty
      rw [found] at isThere
      cases isThere
    simp [accounted, empty, total]

theorem Drifts.ofEnsured (drifts : db.Drifts workspaceID .none) :
    (db.apply (.account db.ensured)).Drifts workspaceID .none := by
  rw [drifts.ensured_eq ⟨rfl, rfl, rfl⟩]
  exact drifts.reaccount

end Account

/-! ## Workspace rows -/

section Workspace

variable {row : WorkspaceRow}

theorem Sound.softDelete (sound : db.Sound) (found : db.workspace workspaceID = some row) :
    (db.apply (.workspace { row with deleted := true })).Sound := by
  have isThere : get WorkspaceRow.id db.workspaces row.id = some row :=
    get_of_mem sound.workspaces (mem_of_get found)
  refine ⟨keyed_put sound.workspaces, sound.objects, sound.storageKeys, sound.usages, ?_,
    sound.sizes, sound.pending⟩
  intro object member
  by_cases same : row.id = object.workspaceID
  · have itself : (db.apply (.workspace { row with deleted := true })).workspace row.id =
        some { row with deleted := true } := by
      exact get_put_self
    rw [← same, itself]
    rfl
  · have kept : (db.apply (.workspace { row with deleted := true })).workspace object.workspaceID =
        db.workspace object.workspaceID := get_put_of_ne same
    rw [kept]
    exact sound.owned object member

/-- A deleted workspace leaves the account with some drift, and no usage row. -/
theorem Drifts.softDelete (drifts : db.Drifts workspaceID δ) {id : Uuid}
    (found : db.workspace id = some row) :
    ∃ a b c, (db.apply (.workspace { row with deleted := true })).Drifts workspaceID
      { δ with workspaceCount := a, totalStorageBytes := b, accountPendingBytes := c } := by
  have listed : ∀ other ∈ (db.apply (.workspace { row with deleted := true })).workspaces,
      (db.usage other.id).isSome := by
    intro other member
    rcases mem_put member with rfl | ⟨inside, -⟩
    · exact drifts.listed row (mem_of_get found)
    · exact drifts.listed other inside
  have nonempty : db.workspaces ≠ [] := ne_nil_of_mem (mem_of_get found)
  obtain ⟨account, isAccount⟩ := isSome_iff_exists.mp (drifts.owner nonempty)
  let after := (db.apply (.workspace { row with deleted := true })).accounted
  refine ⟨account.workspaceCount - after.workspaceCount,
    account.totalStorageBytes - after.totalStorageBytes,
    account.pendingUploadBytes - after.pendingUploadBytes,
    drifts.usage, drifts.others, ?_, listed, fun _ => drifts.owner nonempty⟩
  intro row isRow
  rw [show row = account from Option.some.inj (isRow.symm.trans isAccount)]
  apply AccountRow.ext
  · show _ = after.workspaceCount + _
    simp only
    omega
  · show _ = after.totalStorageBytes + _
    simp only
    omega
  · show _ = after.pendingUploadBytes + _
    simp only
    omega

def created (db : Db) (id : Uuid) : Db :=
  db.view [.account db.ensured, .newWorkspace ⟨id, false⟩, .usage ⟨id, 0, 0, 0⟩,
    .account (db.ensured.add 1 0 0)]

variable {id : Uuid}

theorem created_workspaces (fresh : db.workspace id = none) :
    (db.created id).workspaces = db.workspaces ++ [⟨id, false⟩] := by
  show put WorkspaceRow.id db.workspaces ⟨id, false⟩ = _
  exact put_fresh fresh

theorem Sound.created (sound : db.Sound) (fresh : db.workspace id = none) :
    (db.created id).Sound where
  workspaces := keyed_put sound.workspaces
  objects := sound.objects
  storageKeys := sound.storageKeys
  usages := keyed_put sound.usages
  owned := by
    intro row member
    obtain ⟨workspace, isThere⟩ := isSome_iff_exists.mp (sound.owned row member)
    have still : (db.created id).workspace row.workspaceID = some workspace := by
      unfold Db.workspace
      rw [created_workspaces fresh, get_append, show
        get WorkspaceRow.id db.workspaces row.workspaceID = some workspace from isThere]
      rfl
    exact isSome_iff_exists.mpr ⟨workspace, still⟩
  sizes := sound.sizes
  pending := sound.pending

/-- A new workspace has nothing to count. -/
theorem counted_fresh (sound : db.Sound) (fresh : db.workspace id = none) :
    db.counted id = ⟨id, 0, 0, 0⟩ := by
  have empty : db.objectsOf id = [] := by
    refine filter_eq_nil_iff.mpr ?_
    intro row member isIts
    have owner := sound.owned row member
    rw [of_decide_eq_true isIts, fresh] at owner
    cases owner
  simp [counted, empty, total]

theorem Exact.created (exact : db.Exact) (sound : db.Sound) (fresh : db.workspace id = none) :
    (db.created id).Exact := by
  have usages : ∀ other, other ≠ id → (db.created id).usage other = db.usage other :=
    fun other differ => usage_usage_of_ne rfl differ
  have itsUsage : (db.created id).usage id = some ⟨id, 0, 0, 0⟩ := usage_usage_self rfl
  have absent := Table.get_eq_none.mp fresh
  -- the old workspaces have the share they had, the new one has no bytes
  have shares : ∀ f : UsageRow → Int, f ⟨id, 0, 0, 0⟩ = 0 →
      total ((db.created id).share f) (db.created id).workspaces =
        total (db.share f) db.workspaces := by
    intro f zero
    have old : total ((db.created id).share f) db.workspaces =
        total (db.share f) db.workspaces := by
      apply total_congr
      intro row member
      simp only [share, usages row.id (absent row member)]
    rw [created_workspaces fresh, total_append, old]
    simp [total, share, itsUsage, zero]
  refine ⟨?_, ?_, ?_, fun _ => rfl⟩
  · intro other row isRow
    by_cases same : other = id
    · rw [same, itsUsage] at isRow
      cases isRow
      rw [same]
      exact (counted_fresh sound fresh).symm
    · rw [usages other same] at isRow
      exact exact.usage other row isRow
  · intro row isRow
    have isIt : row = db.ensured.add 1 0 0 := (Option.some.inj isRow).symm
    have nothing : db.Drifts id .none := drifts_none.mpr exact
    rw [isIt, nothing.ensured_eq ⟨rfl, rfl, rfl⟩]
    apply AccountRow.ext
    · show total _ db.workspaces + 1 = total _ (db.created id).workspaces
      rw [created_workspaces fresh, total_append]
      simp [total]
    · show total _ db.workspaces + 0 = _
      rw [Int.add_zero]
      exact (shares UsageRow.storageBytes rfl).symm
    · show total _ db.workspaces + 0 = _
      rw [Int.add_zero]
      exact (shares UsageRow.pendingUploadBytes rfl).symm
  · intro row member
    rw [created_workspaces fresh] at member
    rcases mem_append.mp member with inside | isNew
    · rw [usages row.id (absent row inside)]
      exact exact.listed row inside
    · rw [mem_singleton.mp isNew, itsUsage]
      rfl

end Workspace

end Db

end Kuku.Storage
