/-
# Storage.Maintenance -- recalculation, collection and workspaces are safe

The other transactions that take the lock.  `RecalculateSyncUsage` and `RunWorkspaceGC` count
again, the latter after it has deleted expired objects that nothing refers to;
`CreateWorkspace` and `DeleteWorkspace` change what the account counts.
-/
import Kuku.Storage.Uploads

namespace Kuku.Storage

open Kuku.Theory List Function Safely Table
open Kuku.Server (Uuid)

section Walk

variable {ι : Type} [DecidableEq ι] {cfg : Config} {scope : Scope} {driver : ι → Provider}
  {session : ι} {s : State ι} {workspaceID : Uuid}

/-! ## Recalculation -/

variable {blobs : Blobs}

/-- The account row is made sure of. -/
theorem Midway.ensured {db : Db} (sized : Sized cfg scope)
    (midway : Midway cfg scope workspaceID .none db blobs) :
    Midway cfg scope workspaceID .none (db.apply (.account db.ensured)) blobs := by
  refine midway.ofAccount (fun counts => (midway.drifts counts).ofEnsured) ?_
  intro isQuota
  have within := midway.within isQuota
  have positive := (sized.account isQuota).1
  refine within.ofAccount ?_
  unfold Db.ensured
  cases found : db.account with
  | none => simpa using positive
  | some row => exact within.account row found

variable {β : Type} {post : β → State ι → Prop}

theorem Idle.ensure {known : List Uuid} {f : AccountRow → Program β} (idle : Idle session known s)
    (sized : Sized cfg scope)
    (continues : ∀ s' row, Holding session (fun db blobs =>
        db.account = some row ∧ (∀ id ∈ known, (db.workspace id).isSome) ∧
          ∀ workspaceID, Midway cfg scope workspaceID .none db blobs) s' →
      Safely cfg scope driver session post (f row) s') :
    Safely cfg scope driver session post (sql .ensureSyncUsageAccount >>= f) s := by
  refine idle.lock (Q := fun row db blobs => db.account = some row ∧
    (∀ id ∈ known, (db.workspace id).isSome) ∧
      ∀ workspaceID, Midway cfg scope workspaceID .none db blobs) locksAccount_ensure ?_ continues
  intro db blobs how row isThere tables answered
  rw [query_ensure] at answered ⊢
  have isRow : db.ensured = row := Except.ok.inj answered
  refine ⟨?_, isThere, fun id => (tables id).ensured sized⟩
  rw [← isRow]
  rfl

theorem lockUsage_safely {known : List Uuid} (sized : Sized cfg scope)
    (idle : Idle session known s) (isKnown : workspaceID ∈ known) :
    Safely cfg scope driver session
      (fun _ => Holding session (Work cfg scope workspaceID .none anything))
      (lockUsage workspaceID) s := by
  unfold lockUsage
  refine idle.ensure sized ?_
  intro s₁ row ensured
  have start : Holding session (fun db blobs => db.account.isSome ∧
      (db.workspace workspaceID).isSome ∧ Midway cfg scope workspaceID .none db blobs) s₁ := by
    refine ensured.mono ?_
    rintro db blobs ⟨isAccount, isThere, tables⟩
    refine ⟨?_, isThere _ isKnown, tables workspaceID⟩
    rw [isAccount]
    rfl
  have steadyAccount : Steady fun db _ => db.account.isSome := by
    intro db db' _ _ more _ isThere
    rw [more.account]
    exact isThere
  have steady : Steady fun db blobs => db.account.isSome ∧
      (db.workspace workspaceID).isSome ∧ Midway cfg scope workspaceID .none db blobs :=
    steadyAccount.and (steady_workspace.and steady_midway)
  refine start.read (Q := fun _ => anything) steady (fun _ _ => ⟨_, rfl⟩)
    (fun _ _ _ _ _ _ => trivial) ?_
  intro s₂ account locked
  refine Safely.orNoRows ?_
  rintro account rfl
  refine (locked.mono fun _ _ fact => fact.1).read
    (Q := fun found db _ => db.usage workspaceID = found) steady (fun _ _ => ⟨_, rfl⟩)
    (fun _ _ _ _ _ answered => Except.ok.inj answered) ?_
  intro s₃ usage found
  refine Safely.orNoRows ?_
  rintro usage rfl
  refine returns (found.mono ?_)
  rintro db blobs ⟨⟨isAccount, known, midway⟩, isUsage⟩
  refine ⟨midway, ?_, isAccount, known, trivial⟩
  rw [isUsage]
  rfl

theorem committable_of_midway (holding : Holding session (Midway cfg scope workspaceID .none) s) :
    Committable cfg scope session s :=
  holding.committable steady_midway fun _ _ midway => ⟨workspaceID, midway⟩

theorem recalculateSyncUsage_safely (sized : Sized cfg scope) :
    Safely cfg scope driver session (fun _ _ => True) (recalculateSyncUsage workspaceID) s := by
  unfold recalculateSyncUsage
  refine withTx_safely fun s₀ idle => ?_
  refine authorizeWorkspace_safely idle ?_
  rintro s₁ row rfl authorized
  refine (lockUsage_safely sized authorized mem_cons_self).andThen ?_
  intro _ s₂ locked
  have uncounted : Holding session (Uncounted cfg scope row.id) s₂ :=
    locked.mono fun _ _ work => ⟨0, le_refl 0, work.midway⟩
  exact (recalculate_safely uncounted).mono fun _ _ done => committable_of_midway done

/-! ## Collection -/

/-- Rows of the workspace that are not available. -/
def Orphans (workspaceID : Uuid) (orphans : List ObjectRow) : Fact := fun db _ =>
  ∀ orphan ∈ orphans, db.object workspaceID orphan.objectID = some orphan ∧ ¬ orphan.IsAvailable ∧
    orphan.uploadState ≠ .available

theorem steady_orphans {orphans : List ObjectRow} : Steady (Orphans workspaceID orphans) := by
  intro db db' _ _ more _ fact orphan member
  exact ⟨more.object (fact orphan member).1, (fact orphan member).2⟩

/-- The garbage that is left, and what has been deleted but not been taken from the
counters. -/
def Collecting (cfg : Config) (scope : Scope) (workspaceID : Uuid) (orphans : List ObjectRow) :
    Fact := fun db blobs =>
  ∃ d, 0 ≤ d ∧ Work cfg scope workspaceID (.at 0 0 d) (Orphans workspaceID orphans) db blobs

theorem steady_collecting {orphans : List ObjectRow} :
    Steady (Collecting cfg scope workspaceID orphans) := by
  intro db db' blobs blobs' more grows fact
  obtain ⟨d, ahead, work⟩ := fact
  exact ⟨d, ahead, steady_work steady_orphans db db' blobs blobs' more grows work⟩

theorem Holding.deleteBlob {storageKey : String} {f : Unit → Program β} {P : Fact}
    (holding : Holding session P s) (steady : Steady P)
    (unused : ∀ db blobs, P db blobs → ∀ row ∈ db.objects, row.IsAvailable →
      row.storageKey ≠ storageKey)
    (kept : ∀ db blobs blobs', P db blobs →
      (∀ provider key, key ≠ storageKey → blobs' provider key = blobs provider key) →
      P db blobs')
    (continues : ∀ s', Holding session P s' → Safely cfg scope driver session post (f ()) s') :
    Safely cfg scope driver session post
      ((Prog.perform (Call.deleteBlob storageKey) : Program Unit) >>= f) s := by
  refine call ?_ ?_
  · intro s' relied _
    have still := holding.rely steady relied
    refine ⟨still.lock, ?_⟩
    intro row member isAvailable
    exact unused _ _ still.fact row (still.keeps.available row member isAvailable) isAvailable
  · intro s' how _ relied _ _ _
    have still := holding.rely steady relied
    refine continues _ ⟨still.lock, still.revises, still.keeps, ?_⟩
    refine kept _ _ _ still.fact ?_
    intro provider key differ
    exact blobs_setBlob fun same => differ same.2

def deletedRow (row : ObjectRow) : ObjectRow :=
  { row with uploadState := .deleted, expiresAt := none, deleted := true }

theorem markDeleted_safely {orphan : ObjectRow} {rest : List ObjectRow} {f : ObjectRow → Program β}
    (fresh : orphan.objectID ∉ rest.map ObjectRow.objectID)
    (holding : Holding session (Collecting cfg scope workspaceID (orphan :: rest)) s)
    (continues : ∀ s' row, Holding session (Collecting cfg scope workspaceID rest) s' →
      Safely cfg scope driver session post (f row) s') :
    Safely cfg scope driver session post
      (sql (.markSyncObjectDeleted workspaceID orphan.objectID) >>= fun marked =>
        orNoRows marked >>= f) s := by
  refine holding.statement (Q := fun marked db blobs => ∀ row, marked = some row →
    Collecting cfg scope workspaceID rest db blobs) steady_collecting ?_ ?_ ?_
  · rintro db blobs how ⟨d, -, work⟩
    obtain ⟨found, -⟩ := work.rest orphan mem_cons_self
    exact ⟨marked_revises _ deletedRow found rfl rfl, fun _ isIt => by cases isIt⟩
  · rintro db blobs how marked ⟨d, ahead, work⟩ _ answered
    obtain ⟨found, unavailable, notAvailable⟩ := work.rest orphan mem_cons_self
    have size := work.midway.sound.sizes orphan (mem_of_get found)
    have isKey : orphan.key = (workspaceID, orphan.objectID) := key_of_get found
    have isKey' : (deletedRow orphan).key = (workspaceID, orphan.objectID) := isKey
    have others : Orphans workspaceID rest (db.apply (.object (deletedRow orphan))) blobs := by
      intro other member
      obtain ⟨otherFound, otherState⟩ := work.rest other (mem_cons_of_mem _ member)
      have differ : other.objectID ≠ orphan.objectID :=
        fun same => fresh (mem_map.mpr ⟨other, member, same⟩)
      refine ⟨?_, otherState⟩
      rw [object_mark_of_ne isKey' differ]
      exact otherFound
    have step := marked_step (fun _ => true) deletedRow work found unavailable rfl rfl size
      (fun isPending => by cases isPending) (fun isAvailable => by cases isAvailable.1) others
    refine ⟨step.1, ?_⟩
    intro row isRow
    obtain ⟨-, done⟩ := step.2 row ((Except.ok.inj answered).trans isRow)
    have bytes : 0 ≤ orphan.bytesIn .pending := ObjectRow.bytesIn_nonneg size
    refine ⟨d + orphan.bytesIn .pending, by omega, done.redrift ?_⟩
    intro _
    have gone : (deletedRow orphan).bytesIn .available = 0 ∧ (deletedRow orphan).available = 0 ∧
        (deletedRow orphan).bytesIn .pending = 0 := by
      simp [deletedRow, ObjectRow.bytesIn, ObjectRow.available]
    have before : orphan.bytesIn .available = 0 ∧ orphan.available = 0 := by
      simp [ObjectRow.bytesIn, ObjectRow.available, notAvailable]
    simp [Drift.marked, Drift.at, gone, before]
  · intro s' marked reached
    refine Safely.orNoRows ?_
    rintro row rfl
    exact continues s' row (reached.mono fun _ _ fact => fact row rfl)

/-- Storage keys are unique, so an orphan's blob is no available object's. -/
theorem orphan_unused {orphan : ObjectRow} {rest : List ObjectRow} {δ : Drift} {db : Db}
    (work : Work cfg scope workspaceID δ (Orphans workspaceID (orphan :: rest)) db blobs)
    {row : ObjectRow} (member : row ∈ db.objects) (isAvailable : row.IsAvailable) :
    row.storageKey ≠ orphan.storageKey := by
  intro same
  obtain ⟨found, unavailable, -⟩ := work.rest orphan mem_cons_self
  have isRow := get_of_mem work.midway.sound.storageKeys member
  have isOrphan := get_of_mem work.midway.sound.storageKeys (mem_of_get found)
  rw [same, isOrphan] at isRow
  exact unavailable (Option.some.inj isRow ▸ isAvailable)

theorem deleteOrphans_safely (orphans : List ObjectRow) :
    ∀ s : State ι, (orphans.map ObjectRow.objectID).Nodup →
      Holding session (Collecting cfg scope workspaceID orphans) s →
      Safely cfg scope driver session
        (fun _ => Holding session (Collecting cfg scope workspaceID []))
        (deleteOrphans workspaceID orphans) s := by
  induction orphans with
  | nil => exact fun _ _ holding => returns holding
  | cons orphan rest ih =>
    intro s distinct holding
    obtain ⟨fresh, restDistinct⟩ := nodup_cons.mp distinct
    have marks : ∀ s', Holding session (Collecting cfg scope workspaceID (orphan :: rest)) s' →
        Safely cfg scope driver session
          (fun _ => Holding session (Collecting cfg scope workspaceID []))
          (do
            let marked : Option ObjectRow ← sql (.markSyncObjectDeleted workspaceID orphan.objectID)
            let deleted ← orNoRows marked
            let others ← deleteOrphans workspaceID rest
            pure (deleted :: others)) s' := by
      intro s' still
      refine markDeleted_safely fresh still ?_
      intro s'' deleted marked
      refine (ih s'' restDistinct marked).andThen ?_
      intro others s''' done
      exact returns done
    unfold deleteOrphans deleteObjectBlob
    split
    · exact marks s holding
    · refine holding.deleteBlob steady_collecting ?_ ?_ marks
      · rintro db blobs ⟨d, -, work⟩ row member isAvailable
        exact orphan_unused work member isAvailable
      · rintro db blobs blobs' ⟨d, ahead, work⟩ same
        refine ⟨d, ahead, ?_, work.usage, work.account, work.known, work.rest⟩
        refine { work.midway with stored := ?_ }
        intro row member isAvailable
        rw [same _ _ (orphan_unused work member isAvailable)]
        exact work.midway.stored row member isAvailable

/-- The expired orphans are rows of the workspace that are not available, each once. -/
theorem expiredOrphans_orphans {db : Db} {now limit : Int} {skipped : List String}
    (sound : db.Sound) :
    Orphans workspaceID (db.expiredOrphans workspaceID now limit skipped) db blobs ∧
      ((db.expiredOrphans workspaceID now limit skipped).map ObjectRow.objectID).Nodup := by
  let listed := db.expiredOrphans workspaceID now limit skipped
  have isListed : ∀ row ∈ listed, row ∈ db.objects ∧ row.workspaceID = workspaceID ∧
      (row.uploadState = .reserved ∨ row.uploadState = .pending ∨ row.uploadState = .failed) := by
    intro row member
    have sorted := (mem_insertionSort _).mp (mem_of_mem_take member)
    obtain ⟨inside, passes⟩ := mem_filter.mp sorted
    have conditions := of_decide_eq_true passes
    exact ⟨inside, conditions.1, conditions.2.1⟩
  have keys : (listed.map ObjectRow.key).Nodup := keyed_page sound.objects
  refine ⟨?_, ?_⟩
  · intro row member
    obtain ⟨inside, isIts, state⟩ := isListed row member
    have notAvailable : row.uploadState ≠ .available := by
      rcases state with state | state | state
      · rw [state]
        decide
      · rw [state]
        decide
      · rw [state]
        decide
    refine ⟨?_, fun isAvailable => notAvailable isAvailable.1, notAvailable⟩
    have found := get_of_mem sound.objects inside
    unfold Db.object
    rw [← isIts]
    exact found
  · have same : listed.map ObjectRow.key =
        (listed.map ObjectRow.objectID).map fun id => (workspaceID, id) := by
      rw [map_map]
      apply map_congr_left
      intro row member
      simp only [comp_apply, ObjectRow.key, (isListed row member).2.1]
    rw [same] at keys
    exact List.Nodup.of_map _ keys

theorem collectGarbage_safely {dryRun : Bool} {now limit : Int} (sized : Sized cfg scope) :
    Safely cfg scope driver session (fun _ _ => True)
      (collectGarbage workspaceID dryRun now limit) s := by
  unfold collectGarbage
  refine withTx_safely fun s₀ idle => ?_
  refine authorizeWorkspace_safely idle ?_
  intro s₁ _ _ authorized
  refine (lockUsage_safely sized authorized mem_cons_self).andThen ?_
  intro before s₂ locked
  refine locked.read (Q := fun orphans db blobs => Orphans workspaceID orphans db blobs ∧
    (orphans.map ObjectRow.objectID).Nodup) (steady_work steady_anything) (fun _ _ => ⟨_, rfl⟩)
    ?_ ?_
  · intro db blobs how orphans work answered
    rw [← Except.ok.inj answered]
    exact expiredOrphans_orphans work.midway.sound
  intro s₃ orphans listed
  split
  · have nothing : Holding session (Midway cfg scope workspaceID .none) s₃ :=
      listed.mono fun _ _ fact => fact.1.midway
    exact returns (committable_of_midway nothing)
  · have collecting : Holding session (Collecting cfg scope workspaceID orphans) s₃ :=
      listed.mono fun _ _ fact => ⟨0, le_refl 0, fact.1.to fact.2.1⟩
    refine (deleteOrphans_safely orphans s₃ listed.fact.2.2 collecting).andThen ?_
    intro deleted s₄ collected
    have uncounted : Holding session (Uncounted cfg scope workspaceID) s₄ := by
      refine collected.mono ?_
      rintro db blobs ⟨d, ahead, work⟩
      exact ⟨d, ahead, work.midway⟩
    refine (recalculate_safely uncounted).andThen ?_
    intro after s₅ done
    exact returns (committable_of_midway done)

theorem runWorkspaceGC_safely {options : SyncGCOptions} (sized : Sized cfg scope) :
    Safely cfg scope driver session (fun _ _ => True) (runWorkspaceGC workspaceID options) s := by
  unfold runWorkspaceGC
  cases options.now with
  | some now => exact collectGarbage_safely sized
  | none => exact now fun _ _ _ _ => collectGarbage_safely sized

/-! ## Workspaces -/

theorem softDelete_safely {f : Unit → Program β} {id : Uuid} (notQuota : scope ≠ .quota)
    (holding : Holding session (Midway cfg scope workspaceID .none) s)
    (continues : ∀ s', Holding session (Unaccounted cfg scope workspaceID) s' →
      Safely cfg scope driver session post (f ()) s') :
    Safely cfg scope driver session post (sql (.softDeleteSyncWorkspace id) >>= f) s := by
  refine holding.statement (Q := fun _ => Unaccounted cfg scope workspaceID) steady_midway ?_ ?_
    (fun s' _ reached => continues s' reached)
  · intro db blobs how _
    rcases query_softDelete how db id with ⟨row, -, isDeleted⟩ | isNothing
    · exact may_one isDeleted trivial
    · exact may_none isNothing fun _ isIt => by cases isIt
  · intro db blobs how _ midway _ _
    rcases query_softDelete how db id with ⟨row, found, isDeleted⟩ | isNothing
    · have keeps : Keeps db (db.apply (.workspace { row with deleted := true })) :=
        ⟨fun _ isThere => workspace_put _ _ isThere, fun _ member _ => member⟩
      rw [view_one isDeleted]
      refine ⟨keeps, ?_⟩
      have sound := midway.sound.softDelete found
      by_cases counts : scope = .objects
      · exact ⟨0, 0, 0, fun isQuota => absurd isQuota notQuota, sound,
          fun counting => absurd counts counting, fun isQuota => absurd isQuota notQuota,
          fun isQuota => absurd isQuota notQuota, midway.stored⟩
      · obtain ⟨a, b, c, drifts⟩ := (midway.drifts counts).softDelete found
        exact ⟨a, b, c, fun isQuota => absurd isQuota notQuota, sound, fun _ => drifts,
          fun isQuota => absurd isQuota notQuota, fun isQuota => absurd isQuota notQuota,
          midway.stored⟩
    · rw [view_none isNothing]
      exact ⟨Keeps.refl, 0, 0, 0, fun _ => le_refl 0, midway⟩

theorem deleteWorkspace_safely (sized : Sized cfg scope) (notQuota : scope ≠ .quota) :
    Safely cfg scope driver session (fun _ _ => True) (deleteWorkspace workspaceID) s := by
  unfold deleteWorkspace
  refine withTx_safely fun s₀ idle => ?_
  refine idle.ensure sized ?_
  intro s₁ row ensured
  have start : Holding session (Midway cfg scope workspaceID .none) s₁ :=
    ensured.mono fun _ _ fact => fact.2.2 workspaceID
  refine start.read (Q := fun _ => anything) steady_midway (fun _ _ => ⟨_, rfl⟩)
    (fun _ _ _ _ _ _ => trivial) ?_
  intro s₂ found locked
  refine Safely.orNoRows ?_
  intro account _
  refine softDelete_safely notQuota (locked.mono fun _ _ fact => fact.1) ?_
  intro s₃ deleted
  refine deleted.recalculateAccount ?_ (fun _ => fails)
  intro s₄ counted done
  refine Safely.orNoRows ?_
  intro account _
  exact returns (committable_of_midway done)

/-- A new workspace: the row versions so far, on tables that do not have it. -/
structure Creating (session : ι) (new : List Uuid) (more : List Write) (s : State ι) : Prop where
  lock : s.accountLock = some session
  writes : s.writes session = .account s.db.ensured :: more
  fresh : ∀ id ∈ new, s.db.workspace id = none

end Walk

section Create

variable {ι : Type} {session : ι} {new : List Uuid} {more : List Write} {s s' : State ι}

theorem Creating.rely (creating : Creating session new more s) (relied : Rely session s s') :
    Creating session new more s' := by
  have extended := (relied.held creating.lock).1
  refine ⟨relied.lock.mpr creating.lock, ?_, ?_⟩
  · rw [relied.writes, creating.writes]
    unfold Db.ensured
    rw [extended.account]
  · intro id member
    rw [extended.workspace]
    exact creating.fresh id member

theorem Creating.view (creating : Creating session new more s) :
    s.view session = (s.db.apply (.account s.db.ensured)).view more := by
  unfold State.view
  rw [creating.writes]
  rfl

variable [DecidableEq ι] {cfg : Config} {scope : Scope} {driver : ι → Provider}

/-- A row version that any transaction with the lock can make. -/
def Plain (write : Write) : Prop := ∀ db, Revises db write

theorem Creating.step {β : Type} {post : β → State ι → Prop} {stmt : Stmt}
    {f : stmt.Res → Program β} (creating : Creating session new more s)
    (plain : ∀ write ∈ more, Plain write)
    (may : ∀ s' how, Creating session new more s' → Inv cfg scope s' →
      (∀ write ∈ (stmt.query how (s'.view session)).2, Plain write) ∧
      (scope ≠ .objects → (stmt.query how (s'.view session)).1 ≠ .error .checkViolation))
    (continues : ∀ s' how value, Creating session new more s' → Inv cfg scope s' →
      (stmt.query how (s'.view session)).1 = .ok value →
      (∀ (new' : List Uuid), (∀ id ∈ new', s'.db.workspace id = none) →
        Creating session new' (more ++ (stmt.query how (s'.view session)).2)
          (s'.statement session how stmt).2) →
      Safely cfg scope driver session post (f value) (s'.statement session how stmt).2) :
    Safely cfg scope driver session post (sql stmt >>= f) s := by
  have written : ∀ (s' : State ι) how, Creating session new more s' →
      (s'.statement session how stmt).2.writes session =
        .account s'.db.ensured :: (more ++ (stmt.query how (s'.view session)).2) := by
    intro s' how still
    simp [State.statement, still.writes]
  have locked : ∀ (s' : State ι) how, Creating session new more s' →
      (s'.statement session how stmt).2.accountLock = some session := by
    intro s' how still
    simp [State.statement, still.lock]
  refine call ?_ ?_
  · intro s' relied isInv
    have still := creating.rely relied
    refine ⟨?_, fun counts how => (may s' how still isInv).2 counts⟩
    intro how
    refine ⟨?_, fun free => absurd (locked s' how still) free⟩
    intro _ write member
    rw [written s' how still] at member
    rcases mem_cons.mp member with rfl | later
    · trivial
    · rcases mem_append.mp later with old | new
      · exact plain write old _
      · exact (may s' how still isInv).1 write new _
  · intro s' how value relied isInv _ answered
    have still := creating.rely relied
    refine continues s' how value still isInv answered ?_
    intro new' fresh
    exact ⟨locked s' how still, written s' how still, fresh⟩

theorem Creating.committable {id : Uuid} (sized : Sized cfg scope)
    (creating : Creating session [id] [.newWorkspace ⟨id, false⟩, .usage ⟨id, 0, 0, 0⟩,
      .account (s.db.ensured.add 1 0 0)] s) : Committable cfg scope session s := by
  intro s' relied isInv _
  have still := creating.rely relied
  have fresh := still.fresh id mem_cons_self
  have extended := (relied.held creating.lock).1
  have sameEnsured : s.db.ensured = s'.db.ensured := by
    unfold Db.ensured
    rw [extended.account]
  have isView : s'.view session = s'.db.created id := by
    rw [still.view, sameEnsured]
    rfl
  have tables := isInv.good.tables 0
  have sound := tables.sound
  have within : scope = .quota → (s'.db.created id).Within cfg := by
    intro isQuota
    have ensured := ((isInv.good.tables id).ensured sized).within isQuota
    let unused : UsageRow := ⟨id, 0, 0, 0⟩
    have isUnused : unused.workspaceID = id := rfl
    have usageFits := ensured.usage isUnused (by simpa [unused] using (sized.workspace isQuota).1)
      (sized.pending isQuota).1
    refine ⟨usageFits.workspace, usageFits.pending, ?_⟩
    intro row isRow
    have isIt : row = s'.db.ensured.add 1 0 0 := (Option.some.inj isRow).symm
    have before := ensured.account s'.db.ensured rfl
    rw [isIt]
    simpa [AccountRow.add] using before
  refine ⟨?_, ?_⟩
  · rw [isView]
    refine ⟨?_, fun _ member _ => member⟩
    intro other isThere
    unfold Db.workspace
    rw [Db.created_workspaces fresh, get_append]
    obtain ⟨row, isRow⟩ := Option.isSome_iff_exists.mp isThere
    rw [show get WorkspaceRow.id s'.db.workspaces other = some row from isRow]
    rfl
  · intro workspaceID
    rw [isView]
    refine ⟨sound.created fresh, ?_, within, ?_, tables.stored⟩
    · intro counts
      exact Db.drifts_none.mpr ((Db.drifts_none.mp (tables.drifts counts)).created sound fresh)
    · intro isQuota row member
      rw [Db.created_workspaces fresh] at member
      rcases mem_append.mp member with old | isNew
      · exact tables.live isQuota row old
      · rw [mem_singleton.mp isNew]

theorem plain_newWorkspace {row : WorkspaceRow} : Plain (.newWorkspace row) := fun _ => trivial

theorem plain_usage {row : UsageRow} : Plain (.usage row) := fun _ => trivial

theorem plain_account {row : AccountRow} : Plain (.account row) := fun _ => trivial

/-- One more workspace does not make the account invalid. -/
theorem Midway.ensured_valid {db : Db} {blobs : Blobs} {workspaceID : Uuid}
    (midway : Midway cfg scope workspaceID .none db blobs) (counts : scope ≠ .objects) :
    (db.ensured.add 1 0 0).valid = true := by
  have drifts := midway.drifts counts
  obtain ⟨storage, -, pending⟩ := Db.counted_nonneg workspaceID midway.sound
  have own : 0 ≤ (db.counted workspaceID).storageBytes + Drift.none.storageBytes ∧
      0 ≤ (db.counted workspaceID).pendingUploadBytes + Drift.none.pendingUploadBytes := by
    simp only [Drift.none]
    omega
  have nonneg := Db.accounted_nonneg (midway.nonneg counts own)
  rw [drifts.ensured_eq ⟨rfl, rfl, rfl⟩, AccountRow.valid_iff]
  simp only [AccountRow.add]
  omega

theorem countWorkspace_safely {id : Uuid} {row : WorkspaceRow} (sized : Sized cfg scope)
    (creating : Creating session [id] [.newWorkspace ⟨id, false⟩, .usage ⟨id, 0, 0, 0⟩] s) :
    Safely cfg scope driver session (fun _ => Committable cfg scope session)
      (do
        let _ : Unit ← sql (.incrementSyncUsageWorkspaceCount 1)
        pure row) s := by
  have isAccount : ∀ s' : State ι,
      Creating session [id] [.newWorkspace ⟨id, false⟩, .usage ⟨id, 0, 0, 0⟩] s' →
      (s'.view session).account = some s'.db.ensured := by
    intro s' still
    rw [still.view]
    rfl
  refine creating.step ?_ ?_ ?_
  · simp [plain_newWorkspace, plain_usage]
  · intro s' how still isInv
    rcases query_addAccount how _ (isAccount s' still) 1 0 0 with isOk | ⟨error, isError, invalid⟩
    · have isQuery : (Stmt.incrementSyncUsageWorkspaceCount 1).query how (s'.view session) = _ :=
        isOk
      rw [isQuery]
      exact ⟨by simp [plain_account], fun _ isIt => by cases isIt⟩
    · have isQuery : (Stmt.incrementSyncUsageWorkspaceCount 1).query how (s'.view session) = _ :=
        isError
      rw [isQuery]
      refine ⟨by simp, ?_⟩
      intro counts isIt
      have isValid := (isInv.good.tables 0).ensured_valid counts
      rw [invalid (Except.error.inj isIt)] at isValid
      cases isValid
  · intro s' how value still isInv answered continues
    have reached := continues [id] still.fresh
    rcases query_addAccount how _ (isAccount s' still) 1 0 0 with isOk | ⟨error, isError, -⟩
    · have isQuery : (Stmt.incrementSyncUsageWorkspaceCount 1).query how (s'.view session) = _ :=
        isOk
      rw [isQuery] at reached
      exact returns (reached.committable sized)
    · have isQuery : (Stmt.incrementSyncUsageWorkspaceCount 1).query how (s'.view session) = _ :=
        isError
      rw [isQuery] at answered
      cases answered

theorem insertWorkspace_safely (sized : Sized cfg scope) (creating : Creating session [] [] s) :
    Safely cfg scope driver session (fun _ => Committable cfg scope session)
      (do
        let workspace : WorkspaceRow ← sql .createSyncWorkspace
        let _ : UsageRow ← sql (.createSyncUsageWorkspace workspace.id)
        let _ : Unit ← sql (.incrementSyncUsageWorkspaceCount 1)
        pure workspace) s := by
  refine creating.step (by simp) ?_ ?_
  · intro s' how still _
    rcases query_createWorkspace how (s'.view session) with ⟨-, isQuery⟩ | isQuery
    · rw [isQuery]
      exact ⟨by simp [plain_newWorkspace], fun _ isIt => by cases isIt⟩
    · rw [isQuery]
      exact ⟨by simp, fun _ isIt => by cases isIt⟩
  intro s' how workspace still _ answered continues
  rcases query_createWorkspace how (s'.view session) with ⟨fresh, isQuery⟩ | isQuery
  swap
  · rw [isQuery] at answered
    cases answered
  rw [isQuery] at answered continues
  have isWorkspace : ⟨how.fresh, false⟩ = workspace := Except.ok.inj answered
  subst isWorkspace
  rw [still.view] at fresh
  have absent : ∀ id ∈ [how.fresh], s'.db.workspace id = none := by
    intro id member
    rw [mem_singleton.mp member]
    exact fresh
  have inserted := continues [how.fresh] absent
  refine inserted.step (by simp [plain_newWorkspace]) ?_ ?_
  · intro s'' how' still' _
    rcases query_createUsage how' (s''.view session) how.fresh with isQuery | isQuery
    · rw [isQuery]
      exact ⟨by simp [plain_usage], fun _ isIt => by cases isIt⟩
    · rw [isQuery]
      exact ⟨by simp, fun _ isIt => by cases isIt⟩
  intro s'' how' usage still' _ answered' continues'
  rcases query_createUsage how' (s''.view session) how.fresh with isQuery | isQuery
  swap
  · rw [isQuery] at answered'
    cases answered'
  have counted := continues' [how.fresh] still'.fresh
  rw [isQuery] at counted
  exact countWorkspace_safely sized counted

theorem createWorkspace_safely {cryptoVersion : String} (sized : Sized cfg scope) :
    Safely cfg scope driver session (fun _ _ => True) (createWorkspace cfg cryptoVersion) s := by
  unfold createWorkspace
  split
  · exact fails
  refine withTx_safely fun s₀ idle => ?_
  refine call ?_ ?_
  · intro s' relied isInv
    have still := idle.rely relied
    refine ⟨?_, ?_⟩
    · intro how
      refine ⟨?_, fun free => absurd rfl free⟩
      intro _ write member
      simp only [State.statement, query_ensure, still.writes, update_self,
        nil_append, mem_singleton] at member
      subst member
      trivial
    · intro _ how isError
      rw [query_ensure] at isError
      cases isError
  intro s₁ how row relied _ _ _
  have still := idle.rely relied
  have creating : Creating session [] [] (s₁.statement session how .ensureSyncUsageAccount).2 := by
    refine ⟨rfl, ?_, by simp⟩
    simp [State.statement, query_ensure, still.writes, still.view]
  refine creating.step (by simp) ?_ ?_
  · intro s' how' _ _
    exact ⟨by simp [Stmt.query], fun _ isIt => by cases isIt⟩
  intro s₂ how' found _ _ _ continues
  refine Safely.orNoRows ?_
  intro usage _
  have locked := continues [] (by simp)
  split
  · exact fails
  · exact insertWorkspace_safely sized locked

end Create

end Kuku.Storage
