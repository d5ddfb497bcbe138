/-
# Storage.Publication -- the transactions that only insert

`ReserveObjectIDs` and `PublishCommit` do not take the lock of the account row.  Between their
calls anything can be committed, but no workspace goes away and no available object does
(`Rely.keeps`).  So what `validateCommitObjects` has seen available is available when the
commit is inserted, and when it is committed.
-/
import Kuku.Storage.Maintenance

namespace Kuku.Storage

open Kuku.Theory List Safely
open Kuku.Server (Uuid PublishCommitParams KukuSyncObject)

/-! ## What a request names -/

theorem mem_normalizeIDsSorted {id : String} {values : List String}
    (member : id ∈ Kuku.Server.normalizeIDsSorted values) : Text.trim id = id ∧ id ≠ "" := by
  have inside := (mem_insertionSort _).mp member
  obtain ⟨trimmed, nonempty⟩ := mem_filter.mp inside
  obtain ⟨value, -, rfl⟩ := mem_map.mp trimmed
  exact ⟨Text.trim_trim value, of_decide_eq_true nonempty⟩

theorem normalizePublishCommitParams_ids {params normalized : PublishCommitParams}
    (ok : Kuku.Server.normalizePublishCommitParams params = .ok normalized) :
    ∀ id ∈ normalized.bodyObjectID :: normalized.referencedObjectIDs,
      Text.trim id = id ∧ id ≠ "" := by
  have shape : normalized.bodyObjectID = Text.trim params.bodyObjectID ∧
      normalized.bodyObjectID ≠ "" ∧
      normalized.referencedObjectIDs =
        Kuku.Server.normalizeIDsSorted params.referencedObjectIDs := by
    unfold Kuku.Server.normalizePublishCommitParams at ok
    simp only [bind, Except.bind, pure, Except.pure, throw, throwThe, MonadExceptOf.throw] at ok
    repeat' split at ok
    all_goals cases ok
    rename_i valid _ _ _ _ _ _ _ _
    simp only [not_or] at valid
    exact ⟨rfl, valid.2.2.2.1, rfl⟩
  obtain ⟨isBody, nonempty, isReferenced⟩ := shape
  intro id member
  rcases mem_cons.mp member with rfl | referenced
  · refine ⟨?_, nonempty⟩
    rw [isBody, Text.trim_trim]
  · rw [isReferenced] at referenced
    exact mem_normalizeIDsSorted referenced

/-! ## Available objects -/

def AvailableAt (db : Db) (workspaceID : Uuid) (objectID : String) : Prop :=
  ∃ row ∈ db.objects, row.key = (workspaceID, objectID) ∧ row.IsAvailable

theorem AvailableAt.keeps {db db' : Db} {workspaceID : Uuid} {objectID : String}
    (isThere : AvailableAt db workspaceID objectID) (keeps : Keeps db db') :
    AvailableAt db' workspaceID objectID := by
  obtain ⟨row, member, isKey, isAvailable⟩ := isThere
  exact ⟨row, keeps.available row member isAvailable, isKey, isAvailable⟩

theorem checkReferences_ok {objects : List KukuSyncObject}
    (ok : Kuku.Server.checkReferences objects = .ok ()) :
    ∀ object ∈ objects, object.uploadState = .available := by
  induction objects with
  | nil => simp
  | cons first rest ih =>
    unfold Kuku.Server.checkReferences at ok
    split at ok
    · cases ok
    · rename_i isAvailable
      split at ok
      · cases ok
      · intro object member
        rcases mem_cons.mp member with rfl | later
        · exact not_not.mp isAvailable
        · exact ih ok object later

/-- As many rows as ids have been found, so every id has been. -/
theorem listed_available {db : Db} {workspaceID : Uuid} {ids : List String} {rows : List ObjectRow}
    (keyed : Table.Keyed ObjectRow.key rows)
    (listed : ∀ row ∈ rows, row ∈ db.objects ∧ row.workspaceID = workspaceID ∧
      row.objectID ∈ ids ∧ row.deleted = false)
    (asMany : rows.length = ids.length)
    (available : ∀ row ∈ rows, row.uploadState = .available) :
    ∀ id ∈ ids, AvailableAt db workspaceID id := by
  have distinct : (rows.map ObjectRow.objectID).Nodup := by
    have same : rows.map ObjectRow.key =
        (rows.map ObjectRow.objectID).map fun id => (workspaceID, id) := by
      rw [map_map]
      apply map_congr_left
      intro row member
      simp only [Function.comp_apply, ObjectRow.key, (listed row member).2.1]
    rw [Table.Keyed, same] at keyed
    exact List.Nodup.of_map _ keyed
  have inside : rows.map ObjectRow.objectID ⊆ ids := by
    intro id member
    obtain ⟨row, isRow, rfl⟩ := mem_map.mp member
    exact (listed row isRow).2.2.1
  have permuted : (rows.map ObjectRow.objectID).Perm ids := by
    refine (subperm_of_subset distinct inside).perm_of_length_le ?_
    rw [length_map, asMany]
  intro id member
  obtain ⟨row, isRow, rfl⟩ := mem_map.mp (permuted.mem_iff.mpr member)
  obtain ⟨isMember, isIts, -, kept⟩ := listed row isRow
  exact ⟨row, isMember, by rw [ObjectRow.key, isIts], available row isRow, kept⟩

section Walk

variable {ι : Type} {cfg : Config} {scope : Scope} {driver : ι → Provider} {session : ι}
  {s s' : State ι} {known : List Uuid} {workspaceID : Uuid}

/-! ## Reservations -/

/-- A transaction that inserts without the lock. -/
structure Inserting (session : ι) (known : List Uuid) (s : State ι) : Prop where
  free : s.accountLock ≠ some session
  known : ∀ id ∈ known, (s.db.workspace id).isSome

theorem Idle.inserting (idle : Idle session known s) : Inserting session known s :=
  ⟨idle.free, idle.known⟩

theorem Inserting.rely (inserting : Inserting session known s) (relied : Rely session s s') :
    Inserting session known s' where
  free held := inserting.free (relied.lock.mp held)
  known id member := relied.keeps.workspaces id (inserting.known id member)

/-- The objects of a commit that have been seen available. -/
def Seen (params : PublishCommitParams) (ids : List String) (s : State ι) : Prop :=
  ∀ id ∈ ids, AvailableAt s.db params.workspaceID id

variable {params : PublishCommitParams}

theorem Seen.rely {ids : List String} (seen : Seen params ids s) (relied : Rely session s s') :
    Seen params ids s' :=
  fun id member => (seen id member).keeps relied.keeps

variable [DecidableEq ι]

/-- An insert, by a transaction without the lock. -/
theorem Inserting.insert {β : Type} {post : β → State ι → Prop} {stmt : Stmt}
    {f : stmt.Res → Program β} (inserting : Inserting session known s)
    (noLock : stmt.locks = false)
    (inserts : ∀ s' how, Rely session s s' → Inserting session known s' →
      Inserts s'.db (s'.writes session) →
      Inserts s'.db (s'.writes session ++ (stmt.query how (s'.view session)).2))
    (noViolation : ∀ how db, (stmt.query how db).1 ≠ .error .checkViolation)
    (continues : ∀ s' value, Inserting session known s' →
      Safely cfg scope driver session post (f value) s') :
    Safely cfg scope driver session post (sql stmt >>= f) s := by
  have sameLock : ∀ (s' : State ι) how,
      (s'.statement session how stmt).2.accountLock = s'.accountLock := by
    intro s' how
    simp [State.statement, noLock]
  refine call ?_ ?_
  · intro s' relied isInv
    have still := inserting.rely relied
    refine ⟨?_, fun _ how => noViolation how _⟩
    intro how
    refine ⟨?_, ?_⟩
    · intro held
      rw [sameLock] at held
      exact absurd held still.free
    · intro _
      have added := inserts s' how relied still ((isInv.shape session).2 still.free)
      simpa [State.statement] using added
  · intro s' how value relied _ _ _
    have still := inserting.rely relied
    apply continues
    refine ⟨?_, still.known⟩
    show (s'.statement session how stmt).2.accountLock ≠ some session
    rw [sameLock]
    exact still.free

theorem touch_safely {β : Type} {deviceID : Uuid} {value : β}
    (inserting : Inserting session known s) :
    Safely cfg scope driver session (fun _ => Committable cfg scope session)
      (do
        let _ : Unit ← sql (.touchSyncDeviceLastSeen workspaceID deviceID)
        pure value) s := by
  have reads : (Stmt.touchSyncDeviceLastSeen workspaceID deviceID).Reads :=
    ⟨rfl, fun _ _ => ⟨_, rfl⟩⟩
  refine read reads ?_
  intro s' _ _ relied _ _
  exact returns (committable_of_free (inserting.rely relied).free)

theorem reserveObjects_safely {provider : Provider} {userID deviceID : Uuid} {expiresAt : Int}
    (requests : List ObjectReservationRequest) :
    ∀ s : State ι, Inserting session (workspaceID :: known) s →
      Safely cfg scope driver session (fun _ => Inserting session (workspaceID :: known))
        (reserveObjects cfg provider userID workspaceID deviceID expiresAt requests) s := by
  induction requests with
  | nil => exact fun _ inserting => returns inserting
  | cons request rest ih =>
    intro s inserting
    unfold reserveObjects
    split
    · exact fails
    cases request.kind with
    | none => exact fails
    | some kind =>
      refine inserting.insert rfl ?_ ?_ ?_
      · intro s' how _ still inserts
        have owned := still.known workspaceID mem_cons_self
        simp only [Stmt.query]
        split
        · simpa using inserts
        · rename_i fresh
          exact inserts.newObject rfl (le_refl 0) owned (Bool.eq_false_iff.mpr fresh)
      · intro how db
        simp only [Stmt.query]
        split <;> exact fun isIt => by cases isIt
      · intro s' object inserted
        refine (ih s' inserted).andThen ?_
        intro others s'' done
        exact returns done

theorem reserveObjectIDs_safely {provider : Provider} {userID deviceID : Uuid}
    {requests : List ObjectReservationRequest} :
    Safely cfg scope driver session (fun _ _ => True)
      (reserveObjectIDs cfg provider userID workspaceID deviceID requests) s := by
  unfold reserveObjectIDs
  split
  · exact fails
  refine withTx_safely fun s₀ idle => ?_
  refine authorizeWorkspace_safely idle ?_
  intro s₁ _ _ authorized
  refine requireActiveDevice_safely authorized ?_
  intro s₂ device active
  refine now ?_
  intro s₃ now relied _
  have inserting := (active.rely relied).inserting
  refine (reserveObjects_safely requests s₃ inserting).andThen ?_
  intro reserved s₄ done
  exact touch_safely done

/-! ## Publication -/

theorem checkBody_safely {found : Option ObjectRow} {db : Db}
    (isFound : found = (db.object params.workspaceID params.bodyObjectID).filter
      fun row => !row.deleted) :
    Safely cfg scope driver session
      (fun _ s' => s' = s ∧ AvailableAt db params.workspaceID params.bodyObjectID)
      (checkBody params found) s := by
  unfold checkBody
  cases found with
  | none => exact fails
  | some body =>
    simp only
    split
    · exact fails
    split
    · exact fails
    rename_i isBody _
    obtain ⟨isRow, kept⟩ := Option.filter_eq_some_iff.mp isFound.symm
    have isKey : body.key = (params.workspaceID, params.bodyObjectID) := Table.key_of_get isRow
    have isAvailable : body.IsAvailable := by
      simp only [not_or, not_not] at isBody
      exact ⟨isBody.1, by simpa using kept⟩
    exact returns ⟨rfl, body, Table.mem_of_get isRow, isKey, isAvailable⟩

theorem checkListed_safely {rows : List ObjectRow} {db : Db}
    (keyed : Table.Keyed ObjectRow.key rows)
    (listed : ∀ row ∈ rows, row ∈ db.objects ∧ row.workspaceID = params.workspaceID ∧
      row.objectID ∈ params.referencedObjectIDs ∧ row.deleted = false) :
    Safely cfg scope driver session
      (fun _ s' => s' = s ∧ ∀ id ∈ params.referencedObjectIDs, AvailableAt db params.workspaceID id)
      (checkListed params rows) s := by
  unfold checkListed
  split
  · exact fails
  rename_i asMany
  split
  · exact fails
  rename_i checked
  have available : ∀ row ∈ rows, row.uploadState = .available := by
    intro row member
    have mapped : row.toKukuSyncObject ∈ rows.map ObjectRow.toKukuSyncObject :=
      mem_map_of_mem member
    exact checkReferences_ok checked row.toKukuSyncObject mapped
  split
  · exact fails
  · exact returns ⟨rfl, listed_available keyed listed (not_not.mp asMany) available⟩

theorem validateCommitObjects_safely (idle : Idle session known s) :
    Safely cfg scope driver session
      (fun _ s' => Idle session known s' ∧
        Seen params (params.bodyObjectID :: params.referencedObjectIDs) s')
      (validateCommitObjects params) s := by
  unfold validateCommitObjects
  have readsBody : (Stmt.getSyncObjectForUpdate params.workspaceID params.bodyObjectID).Reads :=
    ⟨rfl, fun _ _ => ⟨_, rfl⟩⟩
  refine idle.read readsBody ?_
  intro s₁ how found still isInv answered
  refine (checkBody_safely (Except.ok.inj answered).symm).andThen ?_
  rintro _ s₁ ⟨rfl, body⟩
  split
  · rename_i noReferences
    split
    · exact fails
    · refine returns ⟨still, ?_⟩
      rw [length_eq_zero_iff.mp noReferences]
      intro id member
      rw [mem_singleton.mp member]
      exact body
  · have readsListed : (Stmt.listSyncObjectsByIDs params.workspaceID
        params.referencedObjectIDs).Reads := ⟨rfl, fun _ _ => ⟨_, rfl⟩⟩
    refine read readsListed ?_
    intro s₂ how₂ rows relied isInv₂ answered₂
    have still₂ := still.rely relied
    rw [still₂.view] at answered₂
    have isRows := (Except.ok.inj answered₂).symm
    have keyed : Table.Keyed ObjectRow.key rows := by
      rw [isRows]
      refine (perm_insertionSort _ _).map ObjectRow.key |>.nodup_iff.mpr ?_
      exact (isInv₂.good.tables 0).sound.objects.sublist (List.filter_sublist.map _)
    have listed : ∀ row ∈ rows, row ∈ s₂.db.objects ∧ row.workspaceID = params.workspaceID ∧
        row.objectID ∈ params.referencedObjectIDs ∧ row.deleted = false := by
      intro row member
      rw [isRows] at member
      obtain ⟨inside, passes⟩ := mem_filter.mp ((mem_insertionSort _).mp member)
      exact ⟨inside, of_decide_eq_true passes⟩
    refine (checkListed_safely keyed listed).mono ?_
    rintro _ s₂ ⟨rfl, referenced⟩
    refine ⟨still₂, ?_⟩
    intro id member
    rcases mem_cons.mp member with rfl | isReferenced
    · exact body.keeps relied.keeps
    · exact referenced id isReferenced

/-- What is inserted names objects that are available. -/
theorem createSyncCommit_safely {kind : Kuku.Server.KukuSyncCommitKind}
    (idle : Idle session known s)
    (seen : Seen params (params.bodyObjectID :: params.referencedObjectIDs) s)
    (ids : ∀ id ∈ params.bodyObjectID :: params.referencedObjectIDs, Text.trim id = id ∧ id ≠ "") :
    Safely cfg scope driver session (fun _ => Committable cfg scope session)
      (sql (.createSyncCommit params kind)) s := by
  rw [← Prog.bind_pure (sql (.createSyncCommit params kind))]
  refine idle.inserting.insert rfl ?_ ?_ ?_
  · intro s' how relied still inserts
    refine inserts.syncCommit ?_
    intro id member
    have available := (seen.rely relied) id member
    exact ⟨(ids id member).1, (ids id member).2, available⟩
  · intro how db isIt
    cases isIt
  · intro s' commit inserted
    exact returns (committable_of_free inserted.free)

theorem publishCommit_safely :
    Safely cfg scope driver session (fun _ _ => True) (publishCommit params) s := by
  unfold publishCommit
  split
  · exact fails
  rename_i normalized ok
  refine withTx_safely fun s₀ idle => ?_
  refine authorizeWorkspace_safely idle ?_
  intro s₁ _ _ authorized
  refine (validateCommitObjects_safely authorized).andThen ?_
  rintro _ s₂ ⟨still, seen⟩
  split
  · exact fails
  · exact createSyncCommit_safely still seen (normalizePublishCommitParams_ids ok)

/-! ## Every request -/

theorem ignoring_safely {α : Type} {p : Program α}
    (safely : Safely cfg scope driver session (fun _ _ => True) p s) :
    Safely cfg scope driver session (fun _ _ => True) (ignoring p) s :=
  safely.andThen fun _ _ _ => returns trivial

/-- **Every request is safe** in the runs of its scope. -/
theorem commands_safely {userID : Uuid} {command : Command} (sized : Sized cfg scope)
    (isIn : scope = .quota → ∀ workspaceID, command ≠ .deleteWorkspace workspaceID) :
    Safely cfg scope driver session (fun _ _ => True)
      (commandProgram cfg (driver session) userID command) s := by
  cases command with
  | createWorkspace cryptoVersion => exact ignoring_safely (createWorkspace_safely sized)
  | deleteWorkspace workspaceID =>
    have notQuota : scope ≠ .quota := fun isQuota => isIn isQuota workspaceID rfl
    exact ignoring_safely (deleteWorkspace_safely sized notQuota)
  | reserveObjectIDs workspaceID deviceID requests => exact ignoring_safely reserveObjectIDs_safely
  | createObjectUploadBatch workspaceID deviceID attempt requests =>
    exact ignoring_safely (createObjectUploadBatch_safely sized)
  | completeObjectUploadBatch workspaceID deviceID attempt requests =>
    exact ignoring_safely completeObjectUploadBatch_safely
  | uploadObjectBytesDev workspaceID deviceID objectID sha size blob =>
    exact ignoring_safely uploadObjectBytesDev_safely
  | runWorkspaceGC workspaceID options => exact ignoring_safely (runWorkspaceGC_safely sized)
  | recalculateSyncUsage workspaceID => exact ignoring_safely (recalculateSyncUsage_safely sized)
  | publishCommit params => exact ignoring_safely publishCommit_safely

end Walk

end Kuku.Storage
