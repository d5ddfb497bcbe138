/-
# Storage.Charges -- the statements that change counters and objects

Rules for what the transactions with the lock have in common: an object gets a new state
(`Holding.mark`), bytes are added to or taken from a workspace and its account
(`Holding.charge`), and both are counted again (`recalculate_safely`).  Each says what it
does to the drift, so a transaction is right if its drifts add up to none.
-/
import Kuku.Storage.Rules

namespace Kuku.Storage

open Kuku.Theory Table Option
open Kuku.Server (Uuid KukuSyncObjectState)

/-- A drift of the workspace alone. -/
def Drift.at (storageBytes objectCount pendingUploadBytes : Int) : Drift :=
  ⟨storageBytes, objectCount, pendingUploadBytes, 0, 0, 0⟩

theorem Drift.at_zero : Drift.at 0 0 0 = Drift.none := rfl

theorem UsageRow.valid_iff {row : UsageRow} : row.valid = true ↔
    0 ≤ row.storageBytes ∧ 0 ≤ row.objectCount ∧ 0 ≤ row.pendingUploadBytes := by
  simp [UsageRow.valid, and_assoc]

theorem AccountRow.valid_iff {row : AccountRow} : row.valid = true ↔
    0 ≤ row.workspaceCount ∧ 0 ≤ row.totalStorageBytes ∧ 0 ≤ row.pendingUploadBytes := by
  simp [AccountRow.valid, and_assoc]

section Midway

variable {cfg : Config} {scope : Scope} {workspaceID : Uuid} {objectID : String} {δ : Drift}
  {db : Db} {blobs : Blobs} {old new : ObjectRow}

theorem Midway.mark (midway : Midway cfg scope workspaceID δ db blobs)
    (found : db.object workspaceID objectID = some old) (sameKey : new.key = old.key)
    (sameStorageKey : new.storageKey = old.storageKey) (size : 0 ≤ new.sizeBytes)
    (pending : new.uploadState = .pending → new.storageProvider = .s3Compatible)
    (stored : new.IsAvailable → (blobs new.storageProvider new.storageKey).isSome) :
    Midway cfg scope workspaceID (δ.marked old new) (db.apply (.object new)) blobs where
  sound := midway.sound.object found sameKey sameStorageKey size pending
  drifts counts := (midway.drifts counts).object midway.sound found sameKey
  within isQuota :=
    ⟨(midway.within isQuota).workspace, (midway.within isQuota).pending,
      (midway.within isQuota).account⟩
  live := midway.live
  stored row member isAvailable := by
    rcases mem_put member with rfl | ⟨inside, -⟩
    · exact stored isAvailable
    · exact midway.stored row inside isAvailable

theorem keeps_mark (sound : db.Sound) (found : db.object workspaceID objectID = some old)
    (unavailable : ¬ old.IsAvailable) (sameKey : new.key = old.key) :
    Keeps db (db.apply (.object new)) where
  workspaces _ isThere := isThere
  available row member isAvailable := by
    refine mem_put_of_ne member ?_
    intro same
    have isFound := get_of_mem sound.objects member
    rw [same, sameKey, key_of_get found] at isFound
    have isOld : row = old := Option.some.inj (isFound.symm.trans found)
    exact unavailable (isOld ▸ isAvailable)

/-- An object looked up after another one has been marked. -/
theorem object_mark_of_ne {id : String} (sameKey : new.key = (workspaceID, objectID))
    (differ : id ≠ objectID) : (db.apply (.object new)).object workspaceID id =
      db.object workspaceID id := by
  refine get_put_of_ne ?_
  rw [sameKey]
  exact fun same => differ (congrArg Prod.snd same).symm

/-- The counters that a usage row of a transaction stands for. -/
theorem Midway.usage_eq (midway : Midway cfg scope workspaceID δ db blobs)
    (counts : scope ≠ .objects) {row : UsageRow} (found : db.usage workspaceID = some row) :
    row.storageBytes = (db.counted workspaceID).storageBytes + δ.storageBytes ∧
    row.objectCount = (db.counted workspaceID).objectCount + δ.objectCount ∧
    row.pendingUploadBytes =
      (db.counted workspaceID).pendingUploadBytes + δ.pendingUploadBytes := by
  have isRow := (midway.drifts counts).usage row found
  exact ⟨congrArg UsageRow.storageBytes isRow, congrArg UsageRow.objectCount isRow,
    congrArg UsageRow.pendingUploadBytes isRow⟩

/-- Every usage row is non-negative, if the one of the workspace under work is. -/
theorem Midway.nonneg (midway : Midway cfg scope workspaceID δ db blobs) (counts : scope ≠ .objects)
    (own : 0 ≤ (db.counted workspaceID).storageBytes + δ.storageBytes ∧
      0 ≤ (db.counted workspaceID).pendingUploadBytes + δ.pendingUploadBytes) :
    ∀ id row, db.usage id = some row → 0 ≤ row.storageBytes ∧ 0 ≤ row.pendingUploadBytes := by
  intro id row found
  by_cases same : id = workspaceID
  · subst same
    obtain ⟨storage, -, pending⟩ := midway.usage_eq counts found
    omega
  · rw [(midway.drifts counts).others id row same found]
    obtain ⟨storage, -, pending⟩ := Db.counted_nonneg id midway.sound
    exact ⟨storage, pending⟩

theorem Db.Within.usage {row : UsageRow} (within : db.Within cfg)
    (isRow : row.workspaceID = workspaceID)
    (workspace : row.storageBytes + row.pendingUploadBytes ≤ cfg.maxStorageBytesPerWorkspace)
    (pending : row.pendingUploadBytes ≤ cfg.maxPendingUploadBytes) :
    (db.apply (.usage row)).Within cfg := by
  have rows : ∀ id other, (db.apply (.usage row)).usage id = some other →
      other = row ∨ db.usage id = some other := by
    intro id other found
    by_cases same : id = workspaceID
    · rw [same, Db.usage_usage_self isRow] at found
      exact .inl (Option.some.inj found).symm
    · rw [Db.usage_usage_of_ne isRow same] at found
      exact .inr found
  refine ⟨?_, ?_, within.account⟩
  · intro id other found
    rcases rows id other found with rfl | old
    · exact workspace
    · exact within.workspace id other old
  · intro id other found
    rcases rows id other found with rfl | old
    · exact pending
    · exact within.pending id other old

theorem Db.Within.ofAccount {row : AccountRow} (within : db.Within cfg)
    (account : row.totalStorageBytes + row.pendingUploadBytes ≤ cfg.maxTotalStorageBytesPerUser) :
    (db.apply (.account row)).Within cfg := by
  refine ⟨within.workspace, within.pending, ?_⟩
  intro other isRow
  cases isRow
  exact account

variable (midway : Midway cfg scope workspaceID δ db blobs)

include midway

theorem Midway.ofUsage {δ' : Drift} {row : UsageRow}
    (drifts : scope ≠ .objects → (db.apply (.usage row)).Drifts workspaceID δ')
    (within : scope = .quota → (db.apply (.usage row)).Within cfg) :
    Midway cfg scope workspaceID δ' (db.apply (.usage row)) blobs :=
  ⟨midway.sound.usage, drifts, within, midway.live, midway.stored⟩

theorem Midway.ofAccount {δ' : Drift} {row : AccountRow}
    (drifts : scope ≠ .objects → (db.apply (.account row)).Drifts workspaceID δ')
    (within : scope = .quota → (db.apply (.account row)).Within cfg) :
    Midway cfg scope workspaceID δ' (db.apply (.account row)) blobs :=
  ⟨midway.sound.account, drifts, within, midway.live, midway.stored⟩

/-- A known workspace is live where the scope says so. -/
theorem Midway.isLive (counts : scope ≠ .objects) (known : (db.workspace workspaceID).isSome)
    {a b c : Int} (lawful : Lawful cfg scope db (.sql (.addUsage workspaceID a b c))) :
    db.isLive workspaceID := by
  cases scope with
  | objects => exact absurd rfl counts
  | usage => exact lawful.1 rfl
  | quota =>
    obtain ⟨row, found⟩ := isSome_iff_exists.mp known
    have isLive := midway.live rfl row (mem_of_get found)
    simp [Db.isLive, found, isLive]

end Midway

/-! ## Charging a workspace and its account -/

/-- A fact about the objects of a transaction's tables. -/
def OfObjects (R : Fact) : Prop :=
  ∀ (db db' : Db) blobs, db'.objects = db.objects → R db blobs → R db' blobs

/-- A transaction at work on a workspace. -/
structure Work (cfg : Config) (scope : Scope) (workspaceID : Uuid) (δ : Drift) (R : Fact)
    (db : Db) (blobs : Blobs) : Prop where
  midway : Midway cfg scope workspaceID δ db blobs
  usage : (db.usage workspaceID).isSome
  account : db.account.isSome
  known : (db.workspace workspaceID).isSome
  rest : R db blobs

theorem steady_work {cfg : Config} {scope : Scope} {workspaceID : Uuid} {δ : Drift} {R : Fact}
    (steady : Steady R) : Steady (Work cfg scope workspaceID δ R) := by
  intro db db' blobs blobs' more grows work
  refine ⟨work.midway.extends more grows, ?_, ?_, ?_, steady db db' blobs blobs' more grows work.rest⟩
  · rw [more.usage]
    exact work.usage
  · rw [more.account]
    exact work.account
  · rw [more.workspace]
    exact work.known

/-- Where nothing is counted, any drift will do. -/
theorem Work.redrift {cfg : Config} {scope : Scope} {workspaceID : Uuid} {δ δ' : Drift}
    {R : Fact} {db : Db} {blobs : Blobs} (work : Work cfg scope workspaceID δ R db blobs)
    (same : scope ≠ .objects → δ = δ') : Work cfg scope workspaceID δ' R db blobs :=
  { work with
    midway := { work.midway with drifts := fun counts => same counts ▸ work.midway.drifts counts } }

theorem Work.to {cfg : Config} {scope : Scope} {workspaceID : Uuid} {δ : Drift} {R R' : Fact}
    {db : Db} {blobs : Blobs} (work : Work cfg scope workspaceID δ R db blobs)
    (rest : R' db blobs) : Work cfg scope workspaceID δ R' db blobs :=
  { work with rest }

section Charge

variable {ι : Type} [DecidableEq ι] {cfg : Config} {scope : Scope} {driver : ι → Provider}
  {session : ι} {s : State ι} {P R : Fact} {workspaceID : Uuid}

/-- A workspace has been charged, and its account not yet. -/
structure HalfCharged (cfg : Config) (scope : Scope) (workspaceID : Uuid) (σ ο π a c : Int)
    (R : Fact) (db : Db) (blobs : Blobs) : Prop where
  work : Work cfg scope workspaceID ⟨σ, ο, π, 0, -a, -c⟩ R db blobs
  room : scope = .quota → ∀ row, db.account = some row →
    row.totalStorageBytes + row.pendingUploadBytes + (a + c) ≤ cfg.maxTotalStorageBytesPerUser
  nonneg : scope ≠ .objects → 0 ≤ (db.counted workspaceID).storageBytes + σ ∧
    0 ≤ (db.counted workspaceID).pendingUploadBytes + π

theorem steady_halfCharged {σ ο π a c : Int} (steady : Steady R) :
    Steady (HalfCharged cfg scope workspaceID σ ο π a c R) := by
  intro db db' blobs blobs' more grows half
  refine ⟨steady_work steady db db' blobs blobs' more grows half.work, ?_, ?_⟩
  · intro isQuota row found
    rw [more.account] at found
    exact half.room isQuota row found
  · intro counts
    rw [more.counted]
    exact half.nonneg counts

theorem Holding.addAccountUsage {β : Type} {post : β → State ι → Prop} {f : Unit → Program β}
    {σ ο π a c : Int}
    (holding : Holding session (HalfCharged cfg scope workspaceID σ ο π a c R) s)
    (steady : Steady R) (ofObjects : OfObjects R)
    (continues : ∀ s', Holding session (Work cfg scope workspaceID (.at σ ο π) R) s' →
      Safely cfg scope driver session post (f ()) s') :
    Safely cfg scope driver session post (sql (.addAccountUsage 0 a c) >>= f) s := by
  refine holding.statement (Q := fun _ => Work cfg scope workspaceID (.at σ ο π) R)
    (steady_halfCharged steady) ?_ ?_ (fun s' _ reached => continues s' reached)
  · intro db blobs how half
    obtain ⟨row, isRow⟩ := isSome_iff_exists.mp half.work.account
    rcases query_addAccount how db isRow 0 a c with isOk | ⟨error, isError, invalid⟩
    · exact may_one isOk trivial
    · refine may_none isError ?_
      intro counts isIt
      -- the account will be what it counts, which is not negative
      have drifts := half.work.midway.drifts counts
      have account := drifts.account row isRow
      have nonneg := Db.accounted_nonneg (half.work.midway.nonneg counts (half.nonneg counts))
      have isValid : (row.add 0 a c).valid = true := by
        rw [account, AccountRow.valid_iff]
        simp only [AccountRow.add]
        omega
      rw [invalid (Except.error.inj isIt)] at isValid
      cases isValid
  · intro db blobs how value half _ answered
    obtain ⟨row, isRow⟩ := isSome_iff_exists.mp half.work.account
    rcases query_addAccount how db isRow 0 a c with isOk | ⟨error, isError, -⟩
    · rw [view_one isOk]
      refine ⟨⟨fun _ => id, fun _ member _ => member⟩, ?_, half.work.usage, rfl, half.work.known,
        ofObjects db _ blobs rfl half.work.rest⟩
      refine half.work.midway.ofAccount ?_ ?_
      · intro counts
        have moved := (half.work.midway.drifts counts).addAccount isRow a c
        simp only [Int.add_left_neg] at moved
        exact moved
      · intro isQuota
        refine (half.work.midway.within isQuota).ofAccount ?_
        have room := half.room isQuota row isRow
        simp only [AccountRow.add]
        omega
    · rw [isError] at answered
      cases answered

/-- **Bytes are added** to a workspace and to its account: the workspace's drift grows by
them, the account's does not change. -/
theorem Holding.charge {β : Type} {post : β → State ι → Prop} {f : Unit → Program β}
    {σ ο π : Int} (a b c : Int) (holding : Holding session P s) (steadyP : Steady P)
    (steady : Steady R) (ofObjects : OfObjects R)
    (work : ∀ db blobs, P db blobs → Work cfg scope workspaceID (.at σ ο π) R db blobs)
    (nonneg : scope ≠ .objects → ∀ db blobs, P db blobs →
      0 ≤ (db.counted workspaceID).storageBytes + (σ + a) ∧
      0 ≤ (db.counted workspaceID).objectCount + (ο + b) ∧
      0 ≤ (db.counted workspaceID).pendingUploadBytes + (π + c))
    (room : scope = .quota → ∀ db blobs usage account, P db blobs →
      Lawful cfg scope db (.sql (.addUsage workspaceID a b c)) →
      db.usage workspaceID = some usage → db.account = some account →
      usage.storageBytes + usage.pendingUploadBytes + (a + c) ≤ cfg.maxStorageBytesPerWorkspace ∧
      usage.pendingUploadBytes + c ≤ cfg.maxPendingUploadBytes ∧
      account.totalStorageBytes + account.pendingUploadBytes + (a + c) ≤
        cfg.maxTotalStorageBytesPerUser)
    (continues : ∀ s',
      Holding session (Work cfg scope workspaceID (.at (σ + a) (ο + b) (π + c)) R) s' →
      Safely cfg scope driver session post (f ()) s') :
    Safely cfg scope driver session post
      (sql (.addUsage workspaceID a b c) >>= fun _ => sql (.addAccountUsage 0 a c) >>= f) s := by
  have charged : ∀ s', Holding session
      (HalfCharged cfg scope workspaceID (σ + a) (ο + b) (π + c) a c R) s' →
      Safely cfg scope driver session post (sql (.addAccountUsage 0 a c) >>= f) s' :=
    fun s' reached => reached.addAccountUsage steady ofObjects continues
  refine holding.statement steadyP ?_ ?_ (fun s' _ reached => charged s' reached)
  · intro db blobs how fact
    obtain ⟨row, isRow⟩ := isSome_iff_exists.mp (work db blobs fact).usage
    rcases query_addUsage how db isRow a b c with isOk | ⟨error, isError, invalid⟩
    · exact may_one isOk trivial
    · refine may_none isError ?_
      intro counts isIt
      obtain ⟨storage, count, pending⟩ := (work db blobs fact).midway.usage_eq counts isRow
      have own := nonneg counts db blobs fact
      have isValid : (row.add a b c).valid = true := by
        rw [UsageRow.valid_iff]
        simp only [UsageRow.add, Drift.at] at storage count pending ⊢
        omega
      rw [invalid (Except.error.inj isIt)] at isValid
      cases isValid
  · intro db blobs how value fact lawful answered
    have isWork := work db blobs fact
    have midway := isWork.midway
    obtain ⟨row, isRow⟩ := isSome_iff_exists.mp isWork.usage
    rcases query_addUsage how db isRow a b c with isOk | ⟨error, isError, -⟩
    · have isOwn : row.workspaceID = workspaceID := key_of_get isRow
      have isIts : (row.add a b c).workspaceID = workspaceID := isOwn
      rw [view_one isOk]
      refine ⟨⟨fun _ => id, fun _ member _ => member⟩, ⟨?_, ?_, isWork.account, isWork.known,
        ofObjects db _ blobs rfl isWork.rest⟩, ?_, ?_⟩
      · refine midway.ofUsage ?_ ?_
        · intro counts
          have live := midway.isLive counts isWork.known lawful
          have moved := (midway.drifts counts).addUsage midway.sound isRow live a b c
          simp only [Drift.at, Int.zero_sub] at moved
          exact moved
        · intro isQuota
          obtain ⟨account, isAccount⟩ := isSome_iff_exists.mp isWork.account
          have fits := room isQuota db blobs row account fact lawful isRow isAccount
          refine (midway.within isQuota).usage isIts ?_ ?_
          · simp only [UsageRow.add]
            omega
          · exact fits.2.1
      · rw [Db.usage_usage_self isIts]
        rfl
      · intro isQuota account isAccount
        exact (room isQuota db blobs row account fact lawful isRow isAccount).2.2
      · intro counts
        have own := nonneg counts db blobs fact
        exact ⟨own.1, own.2.2⟩
    · rw [isError] at answered
      cases answered

/-! ## Marking objects -/

section Mark

variable {objectID : String} (from_ : KukuSyncObjectState → Bool) (change : ObjectRow → ObjectRow)
  {db : Db} {blobs : Blobs} {old : ObjectRow} {δ : Drift}

/-- A mark statement finds the row it is about, or nothing. -/
theorem marked_cases (found : db.object workspaceID objectID = some old) :
    db.marked workspaceID objectID from_ change = none ∨
      db.marked workspaceID objectID from_ change = some (change old) := by
  unfold Db.marked
  rw [found]
  cases isIt : from_ old.uploadState && !old.deleted with
  | false => exact .inl (by simp [Option.filter, isIt])
  | true => exact .inr (by simp [Option.filter, isIt])

theorem marked_revises (found : db.object workspaceID objectID = some old)
    (sameKey : (change old).key = old.key)
    (sameStorageKey : (change old).storageKey = old.storageKey) :
    ∀ write ∈ (db.marked workspaceID objectID from_ change).toList.map Write.object,
      Revises db write := by
  intro write member
  rcases marked_cases from_ change found with isNone | isSome
  · rw [isNone] at member
    cases member
  · rw [isSome] at member
    rw [List.mem_singleton.mp member]
    refine ⟨old, ?_, sameStorageKey⟩
    have isKey : (change old).key = (workspaceID, objectID) := sameKey.trans (key_of_get found)
    unfold Db.object at found ⊢
    rw [show ((change old).workspaceID, (change old).objectID) = (workspaceID, objectID) from isKey]
    exact found

/-- The state of an unavailable object changes. -/
theorem marked_step {R' : Fact} (work : Work cfg scope workspaceID δ R db blobs)
    (found : db.object workspaceID objectID = some old) (unavailable : ¬ old.IsAvailable)
    (sameKey : (change old).key = old.key)
    (sameStorageKey : (change old).storageKey = old.storageKey) (size : 0 ≤ (change old).sizeBytes)
    (pending : (change old).uploadState = .pending → (change old).storageProvider = .s3Compatible)
    (stored : (change old).IsAvailable →
      (blobs (change old).storageProvider (change old).storageKey).isSome)
    (rest : R' (db.apply (.object (change old))) blobs) :
    Keeps db (db.view ((db.marked workspaceID objectID from_ change).toList.map Write.object)) ∧
      ∀ row, db.marked workspaceID objectID from_ change = some row →
        row = change old ∧ Work cfg scope workspaceID (δ.marked old (change old)) R'
          (db.view ((db.marked workspaceID objectID from_ change).toList.map Write.object))
          blobs := by
  rcases marked_cases from_ change found with isNone | isSome
  · rw [isNone]
    refine ⟨Keeps.refl, ?_⟩
    intro row isRow
    cases isRow
  · rw [isSome]
    refine ⟨keeps_mark work.midway.sound found unavailable sameKey, ?_⟩
    intro row isRow
    refine ⟨(Option.some.inj isRow).symm, ?_⟩
    exact ⟨work.midway.mark found sameKey sameStorageKey size pending stored, work.usage,
      work.account, work.known, rest⟩

end Mark

/-! ## Counting again -/

/-- The account is not yet what it counts; it does not count more than it says. -/
def Unaccounted (cfg : Config) (scope : Scope) (workspaceID : Uuid) (db : Db) (blobs : Blobs) :
    Prop :=
  ∃ a b c, (scope = .quota → 0 ≤ b + c) ∧ Midway cfg scope workspaceID ⟨0, 0, 0, a, b, c⟩ db blobs

theorem steady_unaccounted : Steady (Unaccounted cfg scope workspaceID) := by
  intro db db' blobs blobs' more grows reached
  obtain ⟨a, b, c, ahead, midway⟩ := reached
  exact ⟨a, b, c, ahead, midway.extends more grows⟩

theorem Holding.recalculateAccount {β : Type} {post : β → State ι → Prop}
    {f : Option AccountRow → Program β}
    (holding : Holding session (Unaccounted cfg scope workspaceID) s)
    (continues : ∀ s' found, Holding session (Midway cfg scope workspaceID .none) s' →
      Safely cfg scope driver session post (f found) s')
    (stops : ∀ s', Safely cfg scope driver session post (f none) s') :
    Safely cfg scope driver session post (sql .recalculateSyncUsageAccount >>= f) s := by
  refine holding.statement (Q := fun found db blobs => found.isSome →
    Midway cfg scope workspaceID .none db blobs) steady_unaccounted ?_ ?_ ?_
  · intro db blobs how _
    rcases query_recalculateAccount how db with ⟨row, -, isOk⟩ | isNone | isError
    · exact may_one isOk trivial
    · exact may_none isNone fun _ isIt => by cases isIt
    · exact may_none isError fun _ isIt => by cases isIt
  · intro db blobs how found reached _ answered
    obtain ⟨a, b, c, ahead, midway⟩ := reached
    rcases query_recalculateAccount how db with ⟨row, isRow, isOk⟩ | isNone | isError
    · rw [view_one isOk]
      refine ⟨⟨fun _ => id, fun _ member _ => member⟩, ?_⟩
      intro _
      refine midway.ofAccount (fun counts => (midway.drifts counts).reaccount) ?_
      intro isQuota
      have counts : scope ≠ .objects := by
        rw [isQuota]
        decide
      have isAccounted := (midway.drifts counts).account row isRow
      have within := (midway.within isQuota).account row isRow
      have enough := ahead isQuota
      refine (midway.within isQuota).ofAccount ?_
      rw [isAccounted] at within
      simp only [AccountRow.add] at within
      omega
    · have isFound : found = none := by
        rw [isNone] at answered
        exact (Except.ok.inj answered).symm
      rw [view_none isNone, isFound]
      exact ⟨Keeps.refl, fun isIt => by cases isIt⟩
    · rw [isError] at answered
      cases answered
  · intro s' found reached
    cases found with
    | none => exact stops s'
    | some row => exact continues s' _ (reached.mono fun _ _ fact => fact rfl)

/-- A workspace that counts less than it says. -/
def Uncounted (cfg : Config) (scope : Scope) (workspaceID : Uuid) (db : Db) (blobs : Blobs) :
    Prop :=
  ∃ d, 0 ≤ d ∧ Midway cfg scope workspaceID (.at 0 0 d) db blobs

theorem steady_uncounted : Steady (Uncounted cfg scope workspaceID) := by
  intro db db' blobs blobs' more grows reached
  obtain ⟨d, ahead, midway⟩ := reached
  exact ⟨d, ahead, midway.extends more grows⟩

theorem Holding.recalculateWorkspace {β : Type} {post : β → State ι → Prop}
    {f : Option UsageRow → Program β}
    (holding : Holding session (Uncounted cfg scope workspaceID) s)
    (continues : ∀ s' found, Holding session (Unaccounted cfg scope workspaceID) s' →
      Safely cfg scope driver session post (f found) s')
    (stops : ∀ s', Safely cfg scope driver session post (f none) s') :
    Safely cfg scope driver session post (sql (.recalculateSyncUsageWorkspace workspaceID) >>= f)
      s := by
  refine holding.statement (Q := fun found db blobs => found.isSome →
    Unaccounted cfg scope workspaceID db blobs) steady_uncounted ?_ ?_ ?_
  · intro db blobs how _
    rcases query_recalculateWorkspace how db workspaceID with ⟨row, -, isOk⟩ | isNone | isError
    · exact may_one isOk trivial
    · exact may_none isNone fun _ isIt => by cases isIt
    · exact may_none isError fun _ isIt => by cases isIt
  · intro db blobs how found reached _ answered
    obtain ⟨d, ahead, midway⟩ := reached
    rcases query_recalculateWorkspace how db workspaceID with ⟨row, isRow, isOk⟩ | isNone | isError
    · rw [view_one isOk]
      refine ⟨⟨fun _ => id, fun _ member _ => member⟩, ?_⟩
      intro _
      refine ⟨0, 0 + if db.isLive workspaceID then 0 else 0,
        0 + if db.isLive workspaceID then d else 0, ?_, ?_⟩
      · intro _
        split <;> omega
      · refine midway.ofUsage (fun counts => (midway.drifts counts).recount midway.sound isRow) ?_
        intro isQuota
        have counts : scope ≠ .objects := by
          rw [isQuota]
          decide
        obtain ⟨storage, -, pending⟩ := midway.usage_eq counts isRow
        have within := midway.within isQuota
        have atMost := within.workspace workspaceID row isRow
        have pendingAtMost := within.pending workspaceID row isRow
        simp only [Drift.at] at storage pending
        refine within.usage rfl ?_ ?_
        · omega
        · omega
    · have isFound : found = none := by
        rw [isNone] at answered
        exact (Except.ok.inj answered).symm
      rw [view_none isNone, isFound]
      exact ⟨Keeps.refl, fun isIt => by cases isIt⟩
    · rw [isError] at answered
      cases answered
  · intro s' found reached
    cases found with
    | none => exact stops s'
    | some row => exact continues s' _ (reached.mono fun _ _ fact => fact rfl)

theorem recalculate_safely (holding : Holding session (Uncounted cfg scope workspaceID) s) :
    Safely cfg scope driver session
      (fun _ => Holding session (Midway cfg scope workspaceID .none))
      (recalculate workspaceID) s := by
  refine holding.recalculateWorkspace ?_ (fun _ => Safely.fails)
  intro s' counted reached
  refine Safely.orNoRows ?_
  intro usage _
  refine reached.recalculateAccount ?_ (fun _ => Safely.fails)
  intro s'' accounted done
  refine Safely.orNoRows ?_
  intro account _
  exact Safely.returns done

end Charge

end Kuku.Storage
