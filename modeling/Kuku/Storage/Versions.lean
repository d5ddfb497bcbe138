/-
# Storage.Versions -- the row versions of two transactions at once

A transaction that has the lock of the account row revises rows (`Revises`), and its tables
may be wrong until it commits: `Midway` is what is right about them meanwhile.  A
transaction without the lock only inserts reserved objects and commits (`Inserts`), so that
is all that can happen to the tables under the one with the lock (`Extends`).

`Extends.view` and `Midway.extends` say that the two do not disturb each other.
-/
import Kuku.Storage.Usage

namespace Kuku.Storage

open Kuku.Theory List Table Option
open Kuku.Server (Uuid KukuSyncCommit)

/-- Three sets of runs: all of them, those in which no counter of a deleted workspace is
changed, and those without `DeleteWorkspace` in which a direct upload fits beside the
uploads under way.  How much is invariant depends on the set. -/
inductive Scope where
  | objects
  | usage
  | quota
  deriving DecidableEq

abbrev Blobs := Provider → String → Option BlobMetadata

/-- Every blob that was there is there. -/
def Grows (blobs blobs' : Blobs) : Prop :=
  ∀ provider storageKey, (blobs provider storageKey).isSome → (blobs' provider storageKey).isSome

/-- The tables of a transaction that has the lock, with a drift at one workspace. -/
structure Midway (cfg : Config) (scope : Scope) (workspaceID : Uuid) (δ : Drift) (db : Db)
    (blobs : Blobs) : Prop where
  sound : db.Sound
  drifts : scope ≠ .objects → db.Drifts workspaceID δ
  within : scope = .quota → db.Within cfg
  live : scope = .quota → ∀ row ∈ db.workspaces, row.deleted = false
  stored : ∀ row ∈ db.objects, row.IsAvailable → (blobs row.storageProvider row.storageKey).isSome

/-- The objects a commit needs. -/
def needs (commit : KukuSyncCommit) : List String :=
  commit.bodyObjectID :: commit.referencedObjectIds

/-- A commit names objects by trimmed ids, and they are available. -/
def Published (db : Db) (commit : KukuSyncCommit) : Prop :=
  ∀ objectID ∈ needs commit, Text.trim objectID = objectID ∧ objectID ≠ "" ∧
    ∃ row ∈ db.objects, row.key = (commit.workspaceID, objectID) ∧ row.IsAvailable

/-- What is committed. -/
structure Good (cfg : Config) (scope : Scope) (db : Db) (blobs : Blobs) : Prop where
  tables : ∀ workspaceID, Midway cfg scope workspaceID .none db blobs
  published : ∀ commit ∈ db.commits, Published db commit

/-! ## Inserts -/

/-- The same tables but for new reserved objects, devices and commits. -/
structure Extends (db db' : Db) : Prop where
  workspaces : db'.workspaces = db.workspaces
  usages : db'.usages = db.usages
  account : db'.account = db.account
  objects : ∃ rows, db'.objects = db.objects ++ rows ∧ ∀ row ∈ rows,
    row.uploadState = .reserved ∧ 0 ≤ row.sizeBytes ∧ (db.workspace row.workspaceID).isSome
  keyed : Table.Keyed ObjectRow.key db'.objects
  storageKeys : Table.Keyed ObjectRow.storageKey db'.objects

namespace Extends

variable {db db' db'' : Db}

theorem refl (sound : db.Sound) : Extends db db :=
  ⟨rfl, rfl, rfl, ⟨[], by simp, by simp⟩, sound.objects, sound.storageKeys⟩

theorem workspace (more : Extends db db') (id : Uuid) : db'.workspace id = db.workspace id := by
  unfold Db.workspace
  rw [more.workspaces]

theorem usage (more : Extends db db') (id : Uuid) : db'.usage id = db.usage id := by
  unfold Db.usage
  rw [more.usages]

theorem trans (first : Extends db db') (second : Extends db' db'') : Extends db db'' := by
  obtain ⟨rows, isRows, good⟩ := first.objects
  obtain ⟨rows', isRows', good'⟩ := second.objects
  refine ⟨second.workspaces.trans first.workspaces, second.usages.trans first.usages,
    second.account.trans first.account, ⟨rows ++ rows', ?_, ?_⟩, second.keyed,
    second.storageKeys⟩
  · rw [isRows', isRows, append_assoc]
  · intro row member
    rcases mem_append.mp member with early | late
    · exact good row early
    · obtain ⟨reserved, size, owned⟩ := good' row late
      rw [first.workspace] at owned
      exact ⟨reserved, size, owned⟩

variable {row : ObjectRow}

variable (more : Extends db db')

include more

theorem object {workspaceID : Uuid} {objectID : String}
    (found : db.object workspaceID objectID = some row) :
    db'.object workspaceID objectID = some row := by
  obtain ⟨rows, isRows, -⟩ := more.objects
  have isFound : get ObjectRow.key db.objects (workspaceID, objectID) = some row := found
  unfold Db.object
  rw [isRows, get_append, isFound]
  rfl

theorem mem_objects (member : row ∈ db'.objects) :
    row ∈ db.objects ∨ row.uploadState = .reserved ∧ 0 ≤ row.sizeBytes ∧
      (db.workspace row.workspaceID).isSome := by
  obtain ⟨rows, isRows, good⟩ := more.objects
  rw [isRows] at member
  rcases mem_append.mp member with old | new
  · exact .inl old
  · exact .inr (good row new)

theorem mem (member : row ∈ db.objects) : row ∈ db'.objects := by
  obtain ⟨rows, isRows, -⟩ := more.objects
  rw [isRows]
  exact mem_append_left _ member

/-- Reserved objects count nothing. -/
theorem counted (id : Uuid) : db'.counted id = db.counted id := by
  obtain ⟨rows, isRows, good⟩ := more.objects
  have sums : ∀ f : ObjectRow → Int, (∀ row, row.uploadState = .reserved → f row = 0) →
      total f (db'.objectsOf id) = total f (db.objectsOf id) := by
    intro f zero
    unfold Db.objectsOf
    have nothing : total f (rows.filter fun row => row.workspaceID = id) = 0 := by
      apply total_eq_zero
      intro row member
      exact zero row (good row (mem_filter.mp member).1).1
    rw [isRows, filter_append, total_append, nothing, Int.add_zero]
  have bytes : ∀ state, state ≠ .reserved → ∀ row : ObjectRow, row.uploadState = .reserved →
      row.bytesIn state = 0 := by
    intro state differ row reserved
    simp [ObjectRow.bytesIn, reserved, differ.symm]
  have count : ∀ row : ObjectRow, row.uploadState = .reserved → row.available = 0 := by
    intro row reserved
    simp [ObjectRow.available, reserved]
  simp only [Db.counted, sums _ (bytes .available (by decide)), sums _ count,
    sums _ (bytes .pending (by decide))]

theorem accounted : db'.accounted = db.accounted := by
  have share : ∀ f : UsageRow → Int, db'.share f = db.share f := by
    intro f
    funext row
    simp only [Db.share, more.usage]
  simp only [Db.accounted, more.workspaces, share]

end Extends

section Midway

variable {cfg : Config} {scope : Scope} {workspaceID : Uuid} {δ : Drift} {db db' : Db}
  {blobs blobs' : Blobs}

/-- What a transaction has done to its tables is not touched by the inserts of others. -/
theorem Midway.extends (midway : Midway cfg scope workspaceID δ db blobs)
    (more : Extends db db') (grows : Grows blobs blobs') :
    Midway cfg scope workspaceID δ db' blobs' := by
  refine ⟨⟨?_, more.keyed, more.storageKeys, ?_, ?_, ?_, ?_⟩, ?_, ?_, ?_, ?_⟩
  · rw [more.workspaces]
    exact midway.sound.workspaces
  · rw [more.usages]
    exact midway.sound.usages
  · intro row member
    rw [more.workspace]
    rcases more.mem_objects member with old | ⟨-, -, owned⟩
    · exact midway.sound.owned row old
    · exact owned
  · intro row member
    rcases more.mem_objects member with old | ⟨-, size, -⟩
    · exact midway.sound.sizes row old
    · exact size
  · intro row member isPending
    rcases more.mem_objects member with old | ⟨reserved, -, -⟩
    · exact midway.sound.pending row old isPending
    · rw [reserved] at isPending
      cases isPending
  · intro counts
    have drifts := midway.drifts counts
    refine ⟨?_, ?_, ?_, ?_, ?_⟩
    · intro row found
      rw [more.usage] at found
      rw [more.counted]
      exact drifts.usage row found
    · intro id row differ found
      rw [more.usage] at found
      rw [more.counted]
      exact drifts.others id row differ found
    · intro row found
      rw [more.account] at found
      rw [more.accounted]
      exact drifts.account row found
    · intro row member
      rw [more.workspaces] at member
      rw [more.usage]
      exact drifts.listed row member
    · intro nonempty
      rw [more.workspaces] at nonempty
      rw [more.account]
      exact drifts.owner nonempty
  · intro isQuota
    have within := midway.within isQuota
    refine ⟨?_, ?_, ?_⟩
    · intro id row found
      rw [more.usage] at found
      exact within.workspace id row found
    · intro id row found
      rw [more.usage] at found
      exact within.pending id row found
    · intro row found
      rw [more.account] at found
      exact within.account row found
  · intro isQuota row member
    rw [more.workspaces] at member
    exact midway.live isQuota row member
  · intro row member isAvailable
    rcases more.mem_objects member with old | ⟨reserved, -, -⟩
    · exact grows _ _ (midway.stored row old isAvailable)
    · rw [isAvailable.1] at reserved
      cases reserved

/-- No drift is no drift at any workspace. -/
theorem Midway.anywhere (midway : Midway cfg scope workspaceID .none db blobs) (id : Uuid) :
    Midway cfg scope id .none db blobs :=
  { midway with
    drifts := fun counts => Db.drifts_none.mpr (Db.drifts_none.mp (midway.drifts counts)) }

end Midway

/-! ## Row versions -/

/-- A row version that replaces a row: an object's has the storage key it had. -/
def Revises (db : Db) : Write → Prop
  | .newObject _ => False
  | .syncCommit _ => False
  | .object row => ∃ old, db.object row.workspaceID row.objectID = some old ∧
      row.storageKey = old.storageKey
  | .newWorkspace _ => True
  | .workspace _ => True
  | .usage _ => True
  | .account _ => True

section Revises

variable {db db' : Db} {write later : Write}

theorem workspace_put (row : WorkspaceRow) (workspaces : List WorkspaceRow) {id : Uuid}
    (isThere : (get WorkspaceRow.id workspaces id).isSome) :
    (get WorkspaceRow.id (put WorkspaceRow.id workspaces row) id).isSome := by
  by_cases same : row.id = id
  · subst same
    rw [get_put_self]
    rfl
  · rw [get_put_of_ne same]
    exact isThere

theorem Extends.apply (more : Extends db db') (revises : Revises db write) :
    Extends (db.apply write) (db'.apply write) := by
  obtain ⟨rows, isRows, good⟩ := more.objects
  cases write with
  | newObject row => exact revises.elim
  | syncCommit row => exact revises.elim
  | newWorkspace row =>
    refine ⟨congrArg (put _ · row) more.workspaces, more.usages, more.account,
      ⟨rows, isRows, ?_⟩, more.keyed, more.storageKeys⟩
    intro object member
    obtain ⟨reserved, size, owned⟩ := good object member
    exact ⟨reserved, size, workspace_put row db.workspaces owned⟩
  | workspace row =>
    refine ⟨congrArg (put _ · row) more.workspaces, more.usages, more.account,
      ⟨rows, isRows, ?_⟩, more.keyed, more.storageKeys⟩
    intro object member
    obtain ⟨reserved, size, owned⟩ := good object member
    exact ⟨reserved, size, workspace_put row db.workspaces owned⟩
  | usage row =>
    exact ⟨more.workspaces, congrArg (put _ · row) more.usages, more.account,
      ⟨rows, isRows, good⟩, more.keyed, more.storageKeys⟩
  | account row =>
    exact ⟨more.workspaces, more.usages, rfl, ⟨rows, isRows, good⟩, more.keyed, more.storageKeys⟩
  | object row =>
    obtain ⟨old, found, sameStorageKey⟩ := revises
    have isFound : get ObjectRow.key db.objects row.key = some old := found
    have isFound' : get ObjectRow.key db'.objects row.key = some old := more.object found
    have fresh : ∀ r ∈ rows, r.key ≠ row.key := by
      intro r member same
      have keyed := more.keyed
      rw [isRows, Table.Keyed, map_append, nodup_append] at keyed
      have isOld : old.key ∈ db.objects.map ObjectRow.key := mem_map_of_mem (mem_of_get isFound)
      have isNew : r.key ∈ rows.map ObjectRow.key := mem_map_of_mem member
      exact keyed.2.2 _ isOld _ isNew ((key_of_get isFound).trans same.symm)
    refine ⟨more.workspaces, more.usages, more.account, ⟨rows, ?_, good⟩, keyed_put more.keyed, ?_⟩
    · show put ObjectRow.key db'.objects row = put ObjectRow.key db.objects row ++ rows
      rw [isRows]
      exact put_append isFound fresh
    · show (put ObjectRow.key db'.objects row |>.map ObjectRow.storageKey).Nodup
      rw [map_put more.keyed isFound' sameStorageKey]
      exact more.storageKeys

theorem Revises.extends (revises : Revises db write) (more : Extends db db') :
    Revises db' write := by
  cases write with
  | object row =>
    obtain ⟨old, found, same⟩ := revises
    exact ⟨old, more.object found, same⟩
  | newObject row => exact revises
  | syncCommit row => exact revises
  | newWorkspace row => trivial
  | workspace row => trivial
  | usage row => trivial
  | account row => trivial

/-- A storage key is the same before and after a row version. -/
theorem object_apply (revises : Revises db write) (workspaceID : Uuid) (objectID : String) :
    ((db.apply write).object workspaceID objectID).map ObjectRow.storageKey =
      (db.object workspaceID objectID).map ObjectRow.storageKey := by
  cases write with
  | object row =>
    obtain ⟨old, found, same⟩ := revises
    by_cases isIt : row.key = (workspaceID, objectID)
    · have found' : db.object workspaceID objectID = some old := by
        unfold Db.object at found ⊢
        rw [← isIt]
        exact found
      have isNew : (db.apply (.object row)).object workspaceID objectID = some row := by
        unfold Db.object
        rw [← isIt]
        exact get_put_self
      rw [isNew, found']
      exact congrArg some same
    · have kept : (db.apply (.object row)).object workspaceID objectID =
          db.object workspaceID objectID := get_put_of_ne isIt
      rw [kept]
  | newObject row => exact revises.elim
  | syncCommit row => exact revises.elim
  | newWorkspace row => rfl
  | workspace row => rfl
  | usage row => rfl
  | account row => rfl

theorem revises_apply (revises : Revises db write) :
    Revises (db.apply write) later ↔ Revises db later := by
  cases later with
  | object row =>
    have same := object_apply revises row.workspaceID row.objectID
    constructor
    · rintro ⟨old, found, isKey⟩
      rw [found] at same
      obtain ⟨older, isOlder, older_eq⟩ := map_eq_some_iff.mp same.symm
      exact ⟨older, isOlder, isKey.trans older_eq.symm⟩
    · rintro ⟨old, found, isKey⟩
      rw [found] at same
      obtain ⟨newer, isNewer, newer_eq⟩ := map_eq_some_iff.mp same
      exact ⟨newer, isNewer, isKey.trans newer_eq.symm⟩
  | newObject row => exact Iff.rfl
  | syncCommit row => exact Iff.rfl
  | newWorkspace row => exact Iff.rfl
  | workspace row => exact Iff.rfl
  | usage row => exact Iff.rfl
  | account row => exact Iff.rfl

variable {writes : List Write}

theorem revises_view (revises : ∀ write ∈ writes, Revises db write) :
    Revises (db.view writes) later ↔ Revises db later := by
  induction writes generalizing db with
  | nil => exact Iff.rfl
  | cons first rest ih =>
    have isFirst := revises first mem_cons_self
    have isRest : ∀ write ∈ rest, Revises (db.apply first) write :=
      fun write member =>
        (revises_apply isFirst).mpr (revises write (mem_cons_of_mem _ member))
    exact (ih isRest).trans (revises_apply isFirst)

theorem commits_apply (revises : Revises db write) : (db.apply write).commits = db.commits := by
  cases write with
  | syncCommit row => exact revises.elim
  | newObject row => rfl
  | object row => rfl
  | newWorkspace row => rfl
  | workspace row => rfl
  | usage row => rfl
  | account row => rfl

/-- Revisions publish nothing. -/
theorem commits_view (revises : ∀ write ∈ writes, Revises db write) :
    (db.view writes).commits = db.commits := by
  induction writes generalizing db with
  | nil => rfl
  | cons first rest ih =>
    have isFirst := revises first mem_cons_self
    have isRest : ∀ write ∈ rest, Revises (db.apply first) write :=
      fun write member =>
        (revises_apply isFirst).mpr (revises write (mem_cons_of_mem _ member))
    exact (ih isRest).trans (commits_apply isFirst)

theorem Extends.view (more : Extends db db') (revises : ∀ write ∈ writes, Revises db write) :
    Extends (db.view writes) (db'.view writes) := by
  induction writes generalizing db db' with
  | nil => exact more
  | cons first rest ih =>
    have isFirst := revises first mem_cons_self
    have isRest : ∀ write ∈ rest, Revises (db.apply first) write :=
      fun write member =>
        (revises_apply isFirst).mpr (revises write (mem_cons_of_mem _ member))
    exact ih (more.apply isFirst) isRest

end Revises

def newRows (writes : List Write) : List ObjectRow :=
  writes.filterMap fun
    | .newObject row => some row
    | _ => none

def newCommits (writes : List Write) : List KukuSyncCommit :=
  writes.filterMap fun
    | .syncCommit row => some row
    | _ => none

/-- The row versions of a transaction without the lock: reserved objects and commits. -/
structure Inserts (db : Db) (writes : List Write) : Prop where
  only : ∀ write ∈ writes, (∃ row, write = .newObject row) ∨ ∃ row, write = .syncCommit row
  rows : ∀ row ∈ newRows writes, row.uploadState = .reserved ∧ 0 ≤ row.sizeBytes ∧
    (db.workspace row.workspaceID).isSome
  keyed : Table.Keyed ObjectRow.key (newRows writes)
  storageKeys : Table.Keyed ObjectRow.storageKey (newRows writes)
  published : ∀ commit ∈ newCommits writes, Published db commit

/-- No workspace and no available object is lost. -/
structure Keeps (db db' : Db) : Prop where
  workspaces : ∀ id, (db.workspace id).isSome → (db'.workspace id).isSome
  available : ∀ row ∈ db.objects, row.IsAvailable → row ∈ db'.objects

section Inserts

variable {db db' : Db} {writes : List Write}

theorem Keeps.refl : Keeps db db := ⟨fun _ => id, fun _ member _ => member⟩

theorem Keeps.trans {db'' : Db} (first : Keeps db db') (second : Keeps db' db'') :
    Keeps db db'' where
  workspaces id isThere := second.workspaces id (first.workspaces id isThere)
  available row member isAvailable :=
    second.available row (first.available row member isAvailable) isAvailable

theorem Extends.keeps (more : Extends db db') : Keeps db db' where
  workspaces id isThere := by
    rw [more.workspace]
    exact isThere
  available _ member _ := more.mem member

theorem Published.keeps {commit : KukuSyncCommit} (published : Published db commit)
    (keeps : Keeps db db') : Published db' commit := by
  intro objectID needed
  obtain ⟨trimmed, nonempty, row, member, isKey, isAvailable⟩ := published objectID needed
  exact ⟨trimmed, nonempty, row, keeps.available row member isAvailable, isKey, isAvailable⟩

theorem Inserts.nil : Inserts db [] :=
  ⟨by simp, by simp [newRows], by simp [newRows, Table.Keyed], by simp [newRows, Table.Keyed],
    by simp [newCommits]⟩

theorem Inserts.keeps (inserts : Inserts db writes) (keeps : Keeps db db') :
    Inserts db' writes where
  only := inserts.only
  rows row member := by
    obtain ⟨reserved, size, owned⟩ := inserts.rows row member
    exact ⟨reserved, size, keeps.workspaces _ owned⟩
  keyed := inserts.keyed
  storageKeys := inserts.storageKeys
  published commit member := (inserts.published commit member).keeps keeps

variable {row : ObjectRow}

theorem taken_eq_false : db.taken row = false ↔
    ∀ old ∈ db.objects, old.key ≠ row.key ∧ old.storageKey ≠ row.storageKey := by
  simp [Db.taken]

/-- Inserts that do not collide with what is committed. -/
theorem view_inserts
    (only : ∀ write ∈ writes, (∃ row, write = .newObject row) ∨ ∃ row, write = .syncCommit row)
    (keyed : Table.Keyed ObjectRow.key (newRows writes))
    (fresh : ∀ row ∈ newRows writes, ∀ old ∈ db.objects, old.key ≠ row.key) :
    db.view writes = { db with
      objects := db.objects ++ newRows writes
      commits := db.commits ++ newCommits writes } := by
  induction writes generalizing db with
  | nil => simp [newRows, newCommits]
  | cons first rest ih =>
    have restOnly := fun write member => only write (mem_cons_of_mem _ member)
    rcases only first mem_cons_self with ⟨row, rfl⟩ | ⟨row, rfl⟩
    · obtain ⟨isNew, restKeyed⟩ := nodup_cons.mp keyed
      have absent : get ObjectRow.key db.objects row.key = none :=
        Table.get_eq_none.mpr (fresh row mem_cons_self)
      have inserted : db.apply (.newObject row) = { db with objects := db.objects ++ [row] } := by
        show { db with objects := put ObjectRow.key db.objects row } = _
        rw [put_fresh absent]
      show (db.apply (.newObject row)).view rest = _
      rw [inserted, ih restOnly restKeyed]
      · simp [newRows, newCommits]
      · intro later member old isOld
        rcases mem_append.mp isOld with isOld | isRow
        · exact fresh later (mem_cons_of_mem _ member) old isOld
        · rw [mem_singleton.mp isRow]
          intro same
          exact isNew (same ▸ mem_map_of_mem member)
    · have isFresh : ∀ later ∈ newRows rest, ∀ old ∈ (db.apply (.syncCommit row)).objects,
          old.key ≠ later.key := fresh
      show (db.apply (.syncCommit row)).view rest = _
      rw [ih restOnly keyed isFresh]
      simp [Db.apply, newRows, newCommits]

/-- A transaction without the lock only adds to the tables. -/
theorem Inserts.extends (inserts : Inserts db writes) (sound : db.Sound)
    (fresh : ∀ row ∈ newRows writes, db.taken row = false) :
    Extends db (db.view writes) ∧ (db.view writes).commits = db.commits ++ newCommits writes := by
  have isFresh := fun row member => taken_eq_false.mp (fresh row member)
  have isView := view_inserts inserts.only inserts.keyed
    fun row member old isOld => (isFresh row member old isOld).1
  rw [isView]
  refine ⟨⟨rfl, rfl, rfl, ⟨newRows writes, rfl, inserts.rows⟩, ?_, ?_⟩, rfl⟩
  · show (List.map _ (_ ++ _)).Nodup
    rw [map_append, nodup_append]
    refine ⟨sound.objects, inserts.keyed, ?_⟩
    intro a isOld b isNew
    obtain ⟨old, inOld, rfl⟩ := List.mem_map.mp isOld
    obtain ⟨new, inNew, rfl⟩ := List.mem_map.mp isNew
    exact (isFresh new inNew old inOld).1
  · show (List.map _ (_ ++ _)).Nodup
    rw [map_append, nodup_append]
    refine ⟨sound.storageKeys, inserts.storageKeys, ?_⟩
    intro a isOld b isNew
    obtain ⟨old, inOld, rfl⟩ := List.mem_map.mp isOld
    obtain ⟨new, inNew, rfl⟩ := List.mem_map.mp isNew
    exact (isFresh new inNew old inOld).2

theorem mem_newRows : row ∈ newRows writes ↔ .newObject row ∈ writes := by
  unfold newRows
  rw [mem_filterMap]
  constructor
  · rintro ⟨write, isWrite, isRow⟩
    cases write with
    | newObject inserted =>
      cases isRow
      exact isWrite
    | object _ => cases isRow
    | syncCommit _ => cases isRow
    | newWorkspace _ => cases isRow
    | workspace _ => cases isRow
    | usage _ => cases isRow
    | account _ => cases isRow
  · intro isWrite
    exact ⟨_, isWrite, rfl⟩

/-- What a transaction has inserted, it sees. -/
theorem mem_view_inserts
    (only : ∀ write ∈ writes, (∃ row, write = .newObject row) ∨ ∃ row, write = .syncCommit row)
    (keyed : Table.Keyed ObjectRow.key (newRows writes))
    (isIn : row ∈ newRows writes ∨ row ∈ db.objects ∧ row.key ∉ (newRows writes).map ObjectRow.key) :
    row ∈ (db.view writes).objects := by
  induction writes generalizing db with
  | nil =>
    rcases isIn with isNew | ⟨isOld, -⟩
    · cases isNew
    · exact isOld
  | cons first rest ih =>
    have restOnly := fun write member => only write (mem_cons_of_mem _ member)
    rcases only first mem_cons_self with ⟨inserted, rfl⟩ | ⟨commit, rfl⟩
    · obtain ⟨isNew, restKeyed⟩ := nodup_cons.mp keyed
      have still : row ∈ ((db.apply (.newObject inserted)).view rest).objects := by
        apply ih restOnly restKeyed
        rcases isIn with isNewRow | ⟨isOld, absent⟩
        · rcases mem_cons.mp isNewRow with rfl | later
          · exact .inr ⟨mem_put_self, isNew⟩
          · exact .inl later
        · refine .inr ⟨mem_put_of_ne isOld ?_, ?_⟩
          · exact fun same => absent (same ▸ mem_cons_self)
          · exact fun later => absent (mem_cons_of_mem _ later)
      exact still
    · have still : row ∈ ((db.apply (.syncCommit commit)).view rest).objects :=
        ih restOnly keyed isIn
      exact still

/-- One more reserved object. -/
theorem Inserts.newObject (inserts : Inserts db writes) (reserved : row.uploadState = .reserved)
    (size : 0 ≤ row.sizeBytes) (owned : (db.workspace row.workspaceID).isSome)
    (fresh : (db.view writes).taken row = false) :
    Inserts db (writes ++ [.newObject row]) := by
  have isFresh := taken_eq_false.mp fresh
  have own : ∀ r ∈ newRows writes, r.key ≠ row.key ∧ r.storageKey ≠ row.storageKey :=
    fun r member => isFresh r (mem_view_inserts inserts.only inserts.keyed (.inl member))
  have rowsEq : newRows (writes ++ [.newObject row]) = newRows writes ++ [row] := by
    simp [newRows]
  have commitsEq : newCommits (writes ++ [.newObject row]) = newCommits writes := by
    simp [newCommits]
  refine ⟨?_, ?_, ?_, ?_, ?_⟩
  · intro write member
    rcases mem_append.mp member with old | new
    · exact inserts.only write old
    · exact .inl ⟨row, mem_singleton.mp new⟩
  · rw [rowsEq]
    intro r member
    rcases mem_append.mp member with old | new
    · exact inserts.rows r old
    · rw [mem_singleton.mp new]
      exact ⟨reserved, size, owned⟩
  · rw [rowsEq, Table.Keyed, map_append, nodup_append]
    refine ⟨inserts.keyed, by simp, ?_⟩
    intro a isOld b isNew
    obtain ⟨old, inOld, rfl⟩ := List.mem_map.mp isOld
    rw [mem_singleton.mp isNew]
    exact (own old inOld).1
  · rw [rowsEq, Table.Keyed, map_append, nodup_append]
    refine ⟨inserts.storageKeys, by simp, ?_⟩
    intro a isOld b isNew
    obtain ⟨old, inOld, rfl⟩ := List.mem_map.mp isOld
    rw [mem_singleton.mp isNew]
    exact (own old inOld).2
  · rw [commitsEq]
    exact inserts.published

theorem Inserts.syncCommit (inserts : Inserts db writes) {commit : KukuSyncCommit}
    (published : Published db commit) : Inserts db (writes ++ [.syncCommit commit]) := by
  have rowsEq : newRows (writes ++ [.syncCommit commit]) = newRows writes := by
    simp [newRows]
  have commitsEq : newCommits (writes ++ [.syncCommit commit]) = newCommits writes ++ [commit] := by
    simp [newCommits]
  refine ⟨?_, ?_, ?_, ?_, ?_⟩
  · intro write member
    rcases mem_append.mp member with old | new
    · exact inserts.only write old
    · exact .inr ⟨commit, mem_singleton.mp new⟩
  · rw [rowsEq]
    exact inserts.rows
  · rw [rowsEq]
    exact inserts.keyed
  · rw [rowsEq]
    exact inserts.storageKeys
  · rw [commitsEq]
    intro other member
    rcases mem_append.mp member with old | new
    · exact inserts.published other old
    · rw [mem_singleton.mp new]
      exact published

end Inserts

end Kuku.Storage
