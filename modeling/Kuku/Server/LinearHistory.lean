/-
# Server.LinearHistory -- one chain of commits per workspace

Over every interleaving of `Server.PublishInterleaving`:

* `LinearHistory` says what the history of a workspace is: its commits in the order
  of `server_seq` form a chain, the workspace row names the last of them and counts
  them, and each device numbers its own with increasing sequence numbers.
* `Session.Knows` is what a transaction knows at each statement: which row locks it
  holds, which checks it has passed and which rows it has written.
* `Linear.publish` is the commit of one transaction; `Knows.frame` says that no
  other transaction can take that knowledge away.
* `linearHistory_of_reachable` is the result for every reachable state.
-/
import Kuku.Server.NormalParams

namespace Kuku.Server

open Kuku.Theory List Function

/-! ## The history of a workspace -/

namespace Db

def commitsOf (db : Db) (w : Uuid) : List KukuSyncCommit :=
  db.commits.filter fun c => c.workspaceID = w

/-- The commits of a workspace in the order of `server_seq`. -/
def history (db : Db) (w : Uuid) : List KukuSyncCommit :=
  (db.commitsOf w).insertionSort fun a b => a.serverSeq ≤ b.serverSeq

end Db

/-- `c` may follow `head`: the first commit is a checkpoint on no head, a later one
names the head as its expected head and among its parents. -/
def Links : Option String → KukuSyncCommit → Prop
  | none, c => c.commitKind = .checkpoint ∧ c.expectedHeadCommitID = none
  | some head, c => c.expectedHeadCommitID = some head ∧ head ∈ c.parentCommitIds

/-- The commits form a chain on top of `head`. -/
def ChainOn : Option String → List KukuSyncCommit → Prop
  | _, [] => True
  | head, c :: rest => Links head c ∧ ChainOn (some c.commitID) rest

/-- The head a list of commits leaves behind. -/
def headAfter : Option String → List KukuSyncCommit → Option String
  | head, [] => head
  | _, c :: rest => headAfter (some c.commitID) rest

variable {cs : List KukuSyncCommit} {c : KukuSyncCommit} {head : Option String}

theorem chainOn_append :
    ChainOn head (cs ++ [c]) ↔ ChainOn head cs ∧ Links (headAfter head cs) c := by
  induction cs generalizing head with
  | nil => simp [ChainOn, headAfter]
  | cons a rest ih =>
    simp only [cons_append, ChainOn, headAfter, ih, and_assoc]

theorem headAfter_append : headAfter head (cs ++ [c]) = some c.commitID := by
  induction cs generalizing head with
  | nil => rfl
  | cons a rest ih => simp only [cons_append, headAfter, ih]

def byDevice (d : Uuid) (cs : List KukuSyncCommit) : List KukuSyncCommit :=
  cs.filter fun c => c.authorDeviceID = d

/-- The largest sequence number a device has used, `0` if it has used none. -/
def lastSeq (d : Uuid) (cs : List KukuSyncCommit) : Int :=
  ((byDevice d cs).map (·.deviceSeq)).foldr max 0

/-- The commits `cs` of workspace `w` agree with its row and its devices. -/
structure HistoryOf (db : Db) (w : Uuid) (workspace : KukuSyncWorkspace)
    (cs : List KukuSyncCommit) : Prop where
  ordered : cs.Pairwise fun a b => a.serverSeq < b.serverSeq
  chain : ChainOn none cs
  head : workspace.currentHeadCommitID = headAfter none cs
  version : workspace.headVersion = cs.length
  increasing : ∀ d, (byDevice d cs).Pairwise fun a b => a.deviceSeq < b.deviceSeq
  last : ∀ d device, db.devices w d = some device → device.lastDeviceSeq = lastSeq d cs

/-- **One linear history**: the commits of `w` in the order of `server_seq`. -/
def LinearHistory (db : Db) (w : Uuid) (workspace : KukuSyncWorkspace) : Prop :=
  HistoryOf db w workspace (db.history w)

variable {w : Uuid} {db : Db}

theorem history_eq_commitsOf
    (ordered : (db.commitsOf w).Pairwise fun a b => a.serverSeq < b.serverSeq) :
    db.history w = db.commitsOf w := by
  apply List.Pairwise.insertionSort_eq
  exact ordered.imp fun less => Nat.le_of_lt less

theorem byDevice_append (d : Uuid) (cs : List KukuSyncCommit) (c : KukuSyncCommit) :
    byDevice d (cs ++ [c]) =
      if c.authorDeviceID = d then byDevice d cs ++ [c] else byDevice d cs := by
  unfold byDevice
  rw [filter_append]
  split <;> simp_all

theorem le_foldr_max {x : Int} {xs : List Int} (member : x ∈ xs) : x ≤ xs.foldr max 0 := by
  induction xs with
  | nil => simp at member
  | cons y ys ih =>
    simp only [foldr_cons]
    rcases mem_cons.mp member with rfl | later
    · exact le_max_left _ _
    · exact le_trans (ih later) (le_max_right _ _)

theorem foldr_max_append {xs : List Int} {x : Int} (nonneg : 0 ≤ x)
    (greater : xs.foldr max 0 ≤ x) : (xs ++ [x]).foldr max 0 = x := by
  induction xs with
  | nil => simp [nonneg]
  | cons y ys ih =>
    simp only [foldr_cons, cons_append] at greater ⊢
    rw [ih (le_trans (le_max_right _ _) greater)]
    exact max_eq_right (le_trans (le_max_left _ _) greater)

theorem deviceSeq_le_lastSeq {d : Uuid} (member : c ∈ byDevice d cs) : c.deviceSeq ≤ lastSeq d cs :=
  le_foldr_max (mem_map_of_mem member)

theorem lastSeq_append_self {d : Uuid} (author : c.authorDeviceID = d) (nonneg : 0 ≤ c.deviceSeq)
    (fresh : lastSeq d cs < c.deviceSeq) : lastSeq d (cs ++ [c]) = c.deviceSeq := by
  unfold lastSeq
  rw [byDevice_append, if_pos author, map_append]
  exact foldr_max_append nonneg (le_of_lt fresh)

theorem lastSeq_append_other {d : Uuid} (author : c.authorDeviceID ≠ d) :
    lastSeq d (cs ++ [c]) = lastSeq d cs := by
  unfold lastSeq
  rw [byDevice_append, if_neg author]

variable {workspace : KukuSyncWorkspace}

/-- A commit that passed the checks of `PublishCommit` extends the history. -/
theorem HistoryOf.publish {db db' : Db} {device : KukuSyncDevice}
    (history : HistoryOf db w workspace cs) (later : ∀ b ∈ cs, b.serverSeq < c.serverSeq)
    (links : Links workspace.currentHeadCommitID c)
    (author : db.devices w c.authorDeviceID = some device) (positive : 0 < c.deviceSeq)
    (fresh : device.lastDeviceSeq < c.deviceSeq)
    (devices : db'.devices w = Function.update (db.devices w) c.authorDeviceID
      (some { device with lastDeviceSeq := c.deviceSeq })) :
    HistoryOf db' w (workspace.withHead (some c.commitID)) (cs ++ [c]) := by
  have seqFresh : lastSeq c.authorDeviceID cs < c.deviceSeq := by
    rw [← history.last _ _ author]
    exact fresh
  refine ⟨?_, ?_, ?_, ?_, ?_, ?_⟩
  · exact pairwise_append.mpr ⟨history.ordered, pairwise_singleton _ _,
      fun b member c' isNew => by simpa [mem_singleton.mp isNew] using later b member⟩
  · exact chainOn_append.mpr ⟨history.chain, history.head ▸ links⟩
  · rw [headAfter_append]
    rfl
  · simp [KukuSyncWorkspace.withHead, history.version]
  · intro d
    rw [byDevice_append]
    split
    · rename_i same
      refine pairwise_append.mpr ⟨history.increasing d, pairwise_singleton _ _, ?_⟩
      intro b member c' isNew
      rw [mem_singleton.mp isNew]
      exact lt_of_le_of_lt (deviceSeq_le_lastSeq member) (same ▸ seqFresh)
    · exact history.increasing d
  · intro d row found
    rw [devices] at found
    by_cases same : d = c.authorDeviceID
    · subst same
      rw [update_self, Option.some.injEq] at found
      rw [lastSeq_append_self rfl (le_of_lt positive) seqFresh, ← found]
    · rw [update_of_ne same] at found
      rw [lastSeq_append_other (Ne.symm same)]
      exact history.last d row found

/-! ## What a transaction knows -/

/-- What `normalizePublishCommitParams` leaves behind that the history rests on. -/
theorem normalizePublishCommitParams_ok {params normalized : PublishCommitParams}
    (ok : normalizePublishCommitParams params = .ok normalized) :
    normalized.commitID ≠ "" ∧ 0 < normalized.deviceSeq := by
  unfold normalizePublishCommitParams at ok
  simp only [bind, Except.bind, pure, Except.pure, throw, throwThe, MonadExceptOf.throw] at ok
  repeat' split at ok
  all_goals cases ok
  rename_i valid _ _ _ _ _ _ _ _
  simp only [not_or, not_le] at valid
  exact ⟨valid.2.1, valid.2.2.2.2.1⟩

namespace Session

variable (s : State) (sid : Nat) (userID : Uuid) (params : PublishCommitParams)

/-- The transaction holds the lock of the workspace row it has read. -/
structure HoldsWorkspace (workspace : KukuSyncWorkspace) : Prop where
  lock : s.workspaceLock params.workspaceID = some sid
  row : s.db.getSyncWorkspace params.workspaceID userID = some workspace

/-- It holds the lock of its author's row, whose sequence number is below its own. -/
structure HoldsDevice (device : KukuSyncDevice) : Prop where
  lock : s.deviceLock params.workspaceID params.authorDeviceID = some sid
  row : s.db.getActiveSyncDevice params.workspaceID params.authorDeviceID userID = some device
  fresh : device.lastDeviceSeq < params.deviceSeq

/-- The workspace row it has locked is at the head it expects. -/
def AtHead : Prop :=
  ∃ workspace, HoldsWorkspace s sid userID params workspace ∧
    textValue workspace.currentHeadCommitID = params.expectedHeadCommitID

/-- Every check on rows it has locked is passed. -/
structure Admitted : Prop where
  atHead : AtHead s sid userID params
  device : ∃ device, HoldsDevice s sid userID params device
  kind : checkParentKind params = .ok ()

/-- It has inserted `commit` under a `server_seq` above every commit of its
workspace. -/
structure Inserted (commit : KukuSyncCommit) : Prop where
  admitted : Admitted s sid userID params
  row : ∃ kind, commitKindToSQL params.commitKind = .ok kind ∧
    commit = newSyncCommit params kind commit.serverSeq
  drawn : commit.serverSeq < s.db.nextServerSeq
  later : ∀ c ∈ s.db.commitsOf params.workspaceID, c.serverSeq < commit.serverSeq

variable (session : Session)

/-- The writes up to and with the commit's object rows. -/
def insertWrites (commit : KukuSyncCommit) (rows : List KukuSyncCommitObject) : List Write :=
  .createSyncCommit commit :: rows.map .createSyncCommitObject

def sequenceWrite : Write :=
  .updateSyncDeviceSequence session.params.workspaceID session.params.authorDeviceID
    session.userID session.params.deviceSeq

def headWrite : Write :=
  .updateSyncWorkspaceHead session.params.workspaceID session.userID (text session.params.commitID)

/-- What the transaction knows before each of its statements. -/
def Knows : Prop :=
  match session.stage with
  | .authorize | .lookup _ | .lockWorkspace => session.writes = []
  | .relookup workspace => session.writes = [] ∧ HoldsWorkspace s sid session.userID session.params workspace
  | .lockDevice => session.writes = [] ∧ AtHead s sid session.userID session.params
  | .parents _ | .body | .references _ | .createCommit _ _ =>
    session.writes = [] ∧ Admitted s sid session.userID session.params
  | .commitObjects commit _ =>
    Inserted s sid session.userID session.params commit ∧ ∃ rows, session.writes = insertWrites commit rows
  | .deviceCursor commit =>
    Inserted s sid session.userID session.params commit ∧
      ∃ rows, session.writes = insertWrites commit rows ++ [sequenceWrite session]
  | .workspaceHead commit =>
    Inserted s sid session.userID session.params commit ∧
      ∃ rows, session.writes = insertWrites commit rows ++
        [sequenceWrite session, cursorWrite session.params]
  | .commit result =>
    Inserted s sid session.userID session.params result.commit ∧
      ∃ rows, session.writes = insertWrites result.commit rows ++
        [sequenceWrite session, cursorWrite session.params, headWrite session]

/-- What holds of a session between steps. -/
structure Inv : Prop where
  named : session.params.commitID ≠ ""
  positive : 0 < session.params.deviceSeq
  knows : Knows s sid session

end Session

/-- The rows session `sid` has locked are the same in `s'`, and so are its locks. -/
structure Keeps (s s' : State) (sid : Nat) : Prop where
  workspaceLock : ∀ w, s.workspaceLock w = some sid → s'.workspaceLock w = some sid
  workspace : ∀ w row, s.workspaceLock w = some sid → s.db.workspaces w = some row →
    s'.db.workspaces w = some row
  commits : ∀ w, s.workspaceLock w = some sid → s'.db.commitsOf w = s.db.commitsOf w
  deviceLock : ∀ w d, s.deviceLock w d = some sid → s'.deviceLock w d = some sid
  device : ∀ w d row, s.deviceLock w d = some sid → s.db.devices w d = some row →
    s'.db.devices w d = some row
  drawn : s.db.nextServerSeq ≤ s'.db.nextServerSeq

namespace Session

variable {s s' : State} {sid : Nat} {userID : Uuid} {params : PublishCommitParams}
  {session : Session}

variable (keeps : Keeps s s' sid)

include keeps

theorem HoldsWorkspace.frame {workspace : KukuSyncWorkspace}
    (holds : HoldsWorkspace s sid userID params workspace) :
    HoldsWorkspace s' sid userID params workspace := by
  refine ⟨keeps.workspaceLock _ holds.lock, ?_⟩
  obtain ⟨stored, owned⟩ := Option.filter_eq_some_iff.mp holds.row
  exact Option.filter_eq_some_iff.mpr ⟨keeps.workspace _ _ holds.lock stored, owned⟩

theorem HoldsDevice.frame {device : KukuSyncDevice} (holds : HoldsDevice s sid userID params device) : HoldsDevice s' sid userID params device := by
  refine ⟨keeps.deviceLock _ _ holds.lock, ?_, holds.fresh⟩
  obtain ⟨stored, active⟩ := Option.filter_eq_some_iff.mp holds.row
  exact Option.filter_eq_some_iff.mpr ⟨keeps.device _ _ _ holds.lock stored, active⟩

theorem AtHead.frame (atHead : AtHead s sid userID params) : AtHead s' sid userID params := by
  obtain ⟨workspace, holds, expected⟩ := atHead
  exact ⟨workspace, holds.frame keeps, expected⟩

theorem Admitted.frame (admitted : Admitted s sid userID params) :
    Admitted s' sid userID params := by
  obtain ⟨device, holds⟩ := admitted.device
  exact ⟨admitted.atHead.frame keeps, ⟨device, holds.frame keeps⟩, admitted.kind⟩

theorem Inserted.frame {commit : KukuSyncCommit} (inserted : Inserted s sid userID params commit) :
    Inserted s' sid userID params commit := by
  obtain ⟨workspace, holds, _⟩ := inserted.admitted.atHead
  refine ⟨inserted.admitted.frame keeps, inserted.row,
    lt_of_lt_of_le inserted.drawn keeps.drawn, ?_⟩
  rw [keeps.commits _ holds.lock]
  exact inserted.later

/-- **Nobody else's step takes a transaction's knowledge away.** -/
theorem Knows.frame (knows : Knows s sid session) : Knows s' sid session := by
  unfold Knows at knows ⊢
  split at knows
  all_goals first
    | exact knows
    | exact ⟨knows.1, knows.2.frame keeps⟩
    | exact ⟨knows.1.frame keeps, knows.2⟩

theorem Inv.frame (inv : Inv s sid session) : Inv s' sid session :=
  ⟨inv.named, inv.positive, inv.knows.frame keeps⟩

end Session

/-! ## Commit -/

theorem applyWrites_commitObjects (db : Db) (rows : List KukuSyncCommitObject) :
    ∃ commitObjects, db.applyWrites (rows.map .createSyncCommitObject) =
      { db with commitObjects := commitObjects } := by
  induction rows generalizing db with
  | nil => exact ⟨db.commitObjects, rfl⟩
  | cons row rest ih =>
    simp only [Db.applyWrites, map_cons, foldl_cons, Db.applyWrite]
    split
    · exact ih db
    · obtain ⟨commitObjects, same⟩ := ih { db with commitObjects := db.commitObjects ++ [row] }
      exact ⟨commitObjects, same⟩

/-- The tables after the commit of a transaction that holds its rows. -/
theorem applyWrites_publish {s : State} {sid : Nat} {session : Session} {device : KukuSyncDevice}
    (commit : KukuSyncCommit) (rows : List KukuSyncCommitObject)
    (holdsWorkspace : Session.HoldsWorkspace s sid session.userID session.params workspace)
    (holdsDevice : Session.HoldsDevice s sid session.userID session.params device) :
    let db := s.db.applyWrites (Session.insertWrites commit rows ++
      [session.sequenceWrite, cursorWrite session.params, session.headWrite])
    let w := session.params.workspaceID
    let d := session.params.authorDeviceID
    let sequenced := { device with lastDeviceSeq := session.params.deviceSeq }
    db.commits = s.db.commits ++ [commit] ∧ db.nextServerSeq = s.db.nextServerSeq ∧
      db.devices = Function.update s.db.devices w
        (Function.update (s.db.devices w) d (some sequenced)) ∧
      db.workspaces = Function.update s.db.workspaces w
        (some (workspace.withHead (text session.params.commitID))) := by
  intro db w d sequenced
  have rowW := holdsWorkspace.row
  have rowD := holdsDevice.row
  unfold Db.getSyncWorkspace at rowW
  unfold Db.getActiveSyncDevice at rowD
  obtain ⟨commitObjects, objectRows⟩ :=
    applyWrites_commitObjects (s.db.applyWrite (.createSyncCommit commit)) rows
  have computed : db = ((((s.db.applyWrite (.createSyncCommit commit)).applyWrites
      (rows.map .createSyncCommitObject)).applyWrite session.sequenceWrite).applyWrite
        (cursorWrite session.params)).applyWrite session.headWrite := by
    simp only [db, Session.insertWrites, Db.applyWrites, foldl_append, foldl_cons, foldl_nil]
  rw [computed, objectRows]
  simp only [Db.applyWrite, Session.sequenceWrite, cursorWrite, Session.headWrite,
    Db.getActiveSyncDevice, Db.getSyncWorkspace, rowW, rowD]
  exact ⟨trivial, trivial, rfl, rfl⟩

/-- The insert is a legal link on the head the transaction has checked. -/
theorem links_of_checked {params : PublishCommitParams} {kind : KukuSyncCommitKind} {seq : Nat}
    (kindOk : commitKindToSQL params.commitKind = .ok kind)
    (atHead : textValue workspace.currentHeadCommitID = params.expectedHeadCommitID)
    (named : ∀ head, workspace.currentHeadCommitID = some head → head ≠ "")
    (parentKind : checkParentKind params = .ok ()) :
    Links workspace.currentHeadCommitID (newSyncCommit params kind seq) := by
  cases current : workspace.currentHeadCommitID with
  | none =>
    have expected : params.expectedHeadCommitID = "" := by
      rw [← atHead, current]
      rfl
    have isCheckpoint : params.commitKind = .checkpoint := by
      cases declared : params.commitKind <;>
        simp [checkParentKind, declared, expected] at parentKind ⊢
    rw [isCheckpoint] at kindOk
    cases kindOk
    exact ⟨rfl, by simp [newSyncCommit, expected, text]⟩
  | some head =>
    have expected : params.expectedHeadCommitID = head := by
      rw [← atHead, current]
      rfl
    have nonempty : head ≠ "" := named head current
    refine ⟨by simp [newSyncCommit, expected, text, nonempty], ?_⟩
    show head ∈ params.parentCommitIDs
    cases declared : params.commitKind <;>
      simp only [checkParentKind, declared, expected, nonempty, if_false, false_or,
        ite_eq_right_iff, reduceCtorEq, imp_false, not_or, not_not] at parentKind
    · exact mem_of_mem_head? parentKind.2
    · exact parentKind.2
    · exact mem_of_mem_head? parentKind.2

/-! ## The invariant -/

/-- What holds of the committed tables. -/
structure Db.Inv (db : Db) : Prop where
  drawn : ∀ c ∈ db.commits, c.serverSeq < db.nextServerSeq
  named : ∀ c ∈ db.commits, c.commitID ≠ ""
  owned : ∀ c ∈ db.commits, db.workspaces c.workspaceID ≠ none
  authored : ∀ c ∈ db.commits, db.devices c.workspaceID c.authorDeviceID ≠ none
  housed : ∀ w d, db.devices w d ≠ none → db.workspaces w ≠ none
  linear : ∀ w workspace, db.workspaces w = some workspace →
    HistoryOf db w workspace (db.commitsOf w)

structure State.Inv (s : State) : Prop where
  tables : s.db.Inv
  sessions : ∀ sid session, s.sessions sid = some session → session.Inv s sid

theorem headAfter_named {last : String} (named : ∀ c ∈ cs, c.commitID ≠ "")
    (headNamed : ∀ h, head = some h → h ≠ "") (isLast : headAfter head cs = some last) :
    last ≠ "" := by
  induction cs generalizing head with
  | nil => exact headNamed last isLast
  | cons c rest ih =>
    refine ih (fun b member => named b (mem_cons_of_mem c member)) ?_ isLast
    intro h same
    cases same
    exact named c mem_cons_self

theorem commitsOf_append (db : Db) (c : KukuSyncCommit) (w : Uuid) (db' : Db)
    (commits : db'.commits = db.commits ++ [c]) :
    db'.commitsOf w =
      if c.workspaceID = w then db.commitsOf w ++ [c] else db.commitsOf w := by
  unfold Db.commitsOf
  rw [commits, filter_append]
  split <;> simp_all

theorem update_ne_none {α β : Type} [DecidableEq α] {f : α → Option β} {a b : α} {y : β}
    (present : f b ≠ none) : Function.update f a (some y) b ≠ none := by
  by_cases same : b = a
  · subst same
    simp
  · rwa [update_of_ne same]

/-- **Commit.**  The tables after a transaction that was inserted on its checked head
are again one linear history per workspace. -/
theorem Db.Inv.publish {s : State} {sid : Nat} {session : Session} {commit : KukuSyncCommit}
    {rows : List KukuSyncCommitObject} (tables : s.db.Inv) (inv : session.Inv s sid)
    (inserted : Session.Inserted s sid session.userID session.params commit)
    (writes : session.writes = Session.insertWrites commit rows ++
      [session.sequenceWrite, cursorWrite session.params, session.headWrite]) :
    (s.db.applyWrites session.writes).Inv := by
  obtain ⟨workspace, holdsWorkspace, atHead⟩ := inserted.admitted.atHead
  obtain ⟨device, holdsDevice⟩ := inserted.admitted.device
  obtain ⟨kind, kindOk, isRow⟩ := inserted.row
  obtain ⟨commits, nextServerSeq, devices, workspaces⟩ :=
    applyWrites_publish commit rows holdsWorkspace holdsDevice
  rw [← writes] at commits nextServerSeq devices workspaces
  have rowW : s.db.workspaces session.params.workspaceID = some workspace :=
    (Option.filter_eq_some_iff.mp holdsWorkspace.row).1
  have rowD : s.db.devices session.params.workspaceID session.params.authorDeviceID =
      some device := (Option.filter_eq_some_iff.mp holdsDevice.row).1
  have ofWorkspace : commit.workspaceID = session.params.workspaceID := by rw [isRow]; rfl
  have ofAuthor : commit.authorDeviceID = session.params.authorDeviceID := by rw [isRow]; rfl
  have ofSeq : commit.deviceSeq = session.params.deviceSeq := by rw [isRow]; rfl
  have ofID : commit.commitID = session.params.commitID := by rw [isRow]; rfl
  have headText : text session.params.commitID = some commit.commitID := by
    rw [text, if_neg inv.named, ofID]
  have links : Links workspace.currentHeadCommitID commit := by
    rw [isRow]
    refine links_of_checked kindOk atHead ?_ inserted.admitted.kind
    intro head isHead
    rw [(tables.linear _ _ rowW).head] at isHead
    refine headAfter_named ?_ (by simp) isHead
    intro c member
    exact tables.named c (mem_of_mem_filter member)
  refine ⟨?_, ?_, ?_, ?_, ?_, ?_⟩
  · intro c member
    rw [nextServerSeq]
    rcases mem_append.mp (commits ▸ member) with old | new
    · exact tables.drawn c old
    · rw [mem_singleton.mp new]
      exact inserted.drawn
  · intro c member
    rcases mem_append.mp (commits ▸ member) with old | new
    · exact tables.named c old
    · rw [mem_singleton.mp new, ofID]
      exact inv.named
  · intro c member
    rw [workspaces]
    rcases mem_append.mp (commits ▸ member) with old | new
    · exact update_ne_none (tables.owned c old)
    · rw [mem_singleton.mp new, ofWorkspace, update_self]
      simp
  · intro c member
    rw [devices]
    rcases mem_append.mp (commits ▸ member) with old | new
    · by_cases same : c.workspaceID = session.params.workspaceID
      · rw [same, update_self]
        exact update_ne_none (same ▸ tables.authored c old)
      · rw [update_of_ne same]
        exact tables.authored c old
    · rw [mem_singleton.mp new, ofWorkspace, ofAuthor, update_self, update_self]
      simp
  · intro w d present
    rw [workspaces]
    by_cases same : w = session.params.workspaceID
    · rw [same, update_self]
      simp
    · rw [devices, update_of_ne same] at present
      exact update_ne_none (tables.housed w d present)
  · intro w row found
    rw [workspaces] at found
    rw [commitsOf_append s.db commit w _ commits, ofWorkspace]
    by_cases same : session.params.workspaceID = w
    · subst same
      rw [update_self, Option.some.injEq, headText] at found
      rw [if_pos rfl, ← found]
      refine (tables.linear _ _ rowW).publish inserted.later links (ofAuthor ▸ rowD)
        (ofSeq ▸ inv.positive) (ofSeq ▸ holdsDevice.fresh) ?_
      rw [devices, update_self, ofAuthor, ofSeq]
    · rw [update_of_ne (Ne.symm same)] at found
      rw [if_neg same]
      obtain ⟨ordered, chain, head, version, increasing, last⟩ := tables.linear w row found
      refine ⟨ordered, chain, head, version, increasing, ?_⟩
      rw [devices, update_of_ne (Ne.symm same)]
      exact last

/-! ## Steps -/

namespace State

variable {s s' : State} {sid : Nat} {session : Session}

/-- A step of session `sid`, or of no session, that keeps what the others hold. -/
theorem Inv.advance (sid : Nat) (inv : s.Inv) (tables : s'.db.Inv)
    (others : ∀ other, other ≠ sid → s'.sessions other = s.sessions other)
    (keeps : ∀ other, other ≠ sid → Keeps s s' other)
    (own : ∀ session, s'.sessions sid = some session → session.Inv s' sid) : s'.Inv := by
  refine ⟨tables, ?_⟩
  intro other session found
  by_cases same : other = sid
  · subst same
    exact own session found
  · rw [others other same] at found
    exact (inv.sessions other session found).frame (keeps other same)

/-- Sessions change, the tables and the locks do not. -/
theorem keeps_of_same (db : s'.db = s.db) (workspaceLock : s'.workspaceLock = s.workspaceLock)
    (deviceLock : s'.deviceLock = s.deviceLock) (other : Nat) : Keeps s s' other := by
  refine ⟨?_, ?_, ?_, ?_, ?_, ?_⟩ <;> simp_all

variable {other : Nat}

theorem keeps_finish {result : Except SyncError PublishCommitResult} (ne : other ≠ sid) :
    Keeps s (s.finish sid result) other := by
  have differ : some other ≠ some sid := fun same => ne (Option.some.inj same)
  refine ⟨?_, fun _ _ _ row => row, fun _ _ => rfl, ?_, fun _ _ _ _ row => row, le_refl _⟩
  · intro w held
    simp only [finish, held, if_neg differ]
  · intro w d held
    simp only [finish, held, if_neg differ]

theorem Inv.finish (inv : s.Inv) (sid : Nat) (result : Except SyncError PublishCommitResult) :
    (s.finish sid result).Inv := by
  refine inv.advance sid inv.tables ?_ (fun other ne => keeps_finish ne) ?_
  · intro other ne
    exact update_of_ne ne _ _
  · intro session found
    simp [State.finish] at found

/-- A session goes on with what it knows; nothing else changes. -/
theorem Inv.put (inv : s.Inv) (owned : session.Inv s sid) :
    Inv { s with sessions := Function.update s.sessions sid (some session) } := by
  have keeps : ∀ other, Keeps s
      { s with sessions := Function.update s.sessions sid (some session) } other := by
    intro other
    apply keeps_of_same <;> rfl
  refine inv.advance sid inv.tables ?_ (fun other _ => keeps other) ?_
  · intro other ne
    exact update_of_ne ne _ _
  · intro session' found
    simp only [update_self, Option.some.injEq] at found
    subst found
    exact owned.frame (keeps sid)

theorem Inv.goto (inv : s.Inv) (owned : session.Inv s sid) {stage : Stage}
    (knows : Session.Knows s sid { session with stage := stage }) :
    (s.goto sid session stage).Inv :=
  inv.put ⟨owned.named, owned.positive, knows⟩

theorem Inv.wrote (inv : s.Inv) (owned : session.Inv s sid) {write : Write} {stage : Stage}
    (knows : Session.Knows s sid
      { session with writes := session.writes ++ [write], stage }) :
    (s.wrote sid session write stage).Inv :=
  inv.put ⟨owned.named, owned.positive, knows⟩

theorem keeps_lockWorkspace {w : Uuid} (free : granted (s.workspaceLock w) sid) (ne : other ≠ sid) :
    Keeps s (s.lockWorkspace sid w) other := by
  refine ⟨?_, fun _ _ _ row => row, fun _ _ => rfl, fun _ _ held => held,
    fun _ _ _ _ row => row, le_refl _⟩
  intro v held
  have differ : v ≠ w := by
    rintro rfl
    simp only [granted, held, reduceCtorEq, Option.some.injEq, ne, or_self, decide_false,
      Bool.false_eq_true] at free
  simp only [State.lockWorkspace, update_of_ne differ, held]

theorem keeps_lockDevice {w d : Uuid} (free : granted (s.deviceLock w d) sid) (ne : other ≠ sid) :
    Keeps s (s.lockDevice sid w d) other := by
  refine ⟨fun _ held => held, fun _ _ _ row => row, fun _ _ => rfl, ?_,
    fun _ _ _ _ row => row, le_refl _⟩
  intro v e held
  by_cases sameW : v = w
  · subst sameW
    have differ : e ≠ d := by
      rintro rfl
      simp only [granted, held, reduceCtorEq, Option.some.injEq, ne, or_self, decide_false,
        Bool.false_eq_true] at free
    simp only [State.lockDevice, update_self, update_of_ne differ, held]
  · simp only [State.lockDevice, update_of_ne sameW, held]

theorem keeps_drawServerSeq (other : Nat) : Keeps s s.drawServerSeq other :=
  ⟨fun _ held => held, fun _ _ _ row => row, fun _ _ => rfl, fun _ _ held => held,
    fun _ _ _ _ row => row, Nat.le_succ _⟩

theorem Inv.drawServerSeq (inv : s.Inv) : s.drawServerSeq.Inv := by
  obtain ⟨drawn, named, owned, authored, housed, linear⟩ := inv.tables
  refine ⟨⟨fun c member => Nat.lt_succ_of_lt (drawn c member), named, owned, authored, housed,
    ?_⟩, ?_⟩
  · intro w workspace found
    obtain ⟨ordered, chain, head, version, increasing, last⟩ := linear w workspace found
    exact ⟨ordered, chain, head, version, increasing, last⟩
  · intro other session found
    exact (inv.sessions other session found).frame (keeps_drawServerSeq other)

theorem Inv.lockWorkspace (inv : s.Inv) {w : Uuid} (free : granted (s.workspaceLock w) sid)
    (owned : session.Inv s sid) (isOwn : s.sessions sid = some session)
    (before : session.writes = [] ∧ session.stage = .lockWorkspace) :
    (s.lockWorkspace sid w).Inv := by
  refine inv.advance sid inv.tables (fun _ _ => rfl) (fun other ne => keeps_lockWorkspace free ne) ?_
  intro session' found
  obtain rfl : session = session' := Option.some.inj (isOwn.symm.trans found)
  refine ⟨owned.named, owned.positive, ?_⟩
  simp only [Session.Knows, before.2, before.1]

theorem Inv.lockDevice (inv : s.Inv) {w d : Uuid} (free : granted (s.deviceLock w d) sid)
    (owned : session.Inv s sid) (isOwn : s.sessions sid = some session)
    (before : session.stage = .lockDevice) :
    (s.lockDevice sid w d).Inv := by
  refine inv.advance sid inv.tables (fun _ _ => rfl) (fun other ne => keeps_lockDevice free ne) ?_
  intro session' found
  obtain rfl : session = session' := Option.some.inj (isOwn.symm.trans found)
  refine ⟨owned.named, owned.positive, ?_⟩
  have knows := owned.knows
  simp only [Session.Knows, before] at knows ⊢
  obtain ⟨none, workspace, holds, atHead⟩ := knows
  exact ⟨none, workspace, ⟨holds.lock, holds.row⟩, atHead⟩

theorem keeps_commit {commit : KukuSyncCommit} {rows : List KukuSyncCommitObject}
    {result : Except SyncError PublishCommitResult}
    (inserted : Session.Inserted s sid session.userID session.params commit)
    (writes : session.writes = Session.insertWrites commit rows ++
      [session.sequenceWrite, cursorWrite session.params, session.headWrite]) (ne : other ≠ sid) :
    Keeps s { s.finish sid result with db := s.db.applyWrites session.writes } other := by
  obtain ⟨workspace, holdsWorkspace, _⟩ := inserted.admitted.atHead
  obtain ⟨device, holdsDevice⟩ := inserted.admitted.device
  obtain ⟨kind, _, isRow⟩ := inserted.row
  obtain ⟨commits, nextServerSeq, devices, workspaces⟩ :=
    applyWrites_publish commit rows holdsWorkspace holdsDevice
  rw [← writes] at commits nextServerSeq devices workspaces
  have finished : Keeps s (s.finish sid result) other := keeps_finish ne
  -- a row another session has locked is neither of the two rows this one has locked
  have otherWorkspace : ∀ w, s.workspaceLock w = some other → w ≠ session.params.workspaceID := by
    rintro w held rfl
    exact ne (Option.some.inj (held.symm.trans holdsWorkspace.lock))
  refine ⟨finished.workspaceLock, ?_, ?_, finished.deviceLock, ?_, ?_⟩
  · intro w row held stored
    simp only [workspaces, update_of_ne (otherWorkspace w held), stored]
  · intro w held
    have ofWorkspace : commit.workspaceID = session.params.workspaceID := by rw [isRow]; rfl
    rw [commitsOf_append s.db commit w _ commits, ofWorkspace,
      if_neg (Ne.symm (otherWorkspace w held))]
  · intro w d row held stored
    simp only [devices]
    by_cases same : w = session.params.workspaceID
    · subst same
      have otherDevice : d ≠ session.params.authorDeviceID := by
        rintro rfl
        exact ne (Option.some.inj (held.symm.trans holdsDevice.lock))
      rw [update_self, update_of_ne otherDevice, stored]
    · rw [update_of_ne same, stored]
  · exact le_of_eq nextServerSeq.symm

theorem checkDevice_fresh {svc : Service} {device : KukuSyncDevice}
    {params : PublishCommitParams} {payload : Bytes}
    (ok : checkDevice svc device params payload = .ok ()) :
    device.lastDeviceSeq < params.deviceSeq := by
  by_contra stale
  simp [checkDevice, not_lt.mp stale, bind, Except.bind, throw, throwThe, MonadExceptOf.throw] at ok

theorem checkHead_atHead {workspace : KukuSyncWorkspace} {params : PublishCommitParams}
    (ok : checkHead workspace params = .ok ()) :
    textValue workspace.currentHeadCommitID = params.expectedHeadCommitID := by
  simp only [checkHead, ne_eq, ite_not] at ok
  split at ok
  · assumption
  · cases ok

/-- **One statement of one transaction keeps the invariant.** -/
theorem Inv.exec (svc : Service) (inv : s.Inv) (isOwn : s.sessions sid = some session)
    (steps : s.exec svc sid session = some s') : s'.Inv := by
  have owned := inv.sessions sid session isOwn
  have knows := owned.knows
  unfold State.exec at steps
  unfold Session.Knows at knows
  cases stage : session.stage with
  | authorize =>
    simp only [stage] at steps knows
    split at steps <;> cases steps
    · exact inv.finish _ _
    · exact inv.goto owned (by simpa [Session.Knows] using knows)
  | lookup workspace =>
    simp only [stage] at steps knows
    split at steps <;> cases steps
    · exact inv.finish _ _
    · exact inv.finish _ _
    · exact inv.goto owned (by simpa [Session.Knows] using knows)
  | lockWorkspace =>
    simp only [stage] at steps knows
    split at steps
    · cases steps
      exact inv.finish _ _
    · rename_i workspace found
      split at steps <;> cases steps
      rename_i free
      have locked := inv.lockWorkspace free owned isOwn ⟨knows, stage⟩
      refine locked.goto (locked.sessions sid session isOwn) ?_
      exact ⟨knows, by simp [State.lockWorkspace], found⟩
  | relookup workspace =>
    simp only [stage] at steps knows
    split at steps
    · cases steps
      exact inv.finish _ _
    · cases steps
      exact inv.finish _ _
    · split at steps <;> cases steps
      · exact inv.finish _ _
      · rename_i headOk
        exact inv.goto owned
          ⟨knows.1, workspace, ⟨knows.2.lock, knows.2.row⟩, checkHead_atHead headOk⟩
  | lockDevice =>
    simp only [stage] at steps knows
    split at steps
    · cases steps
      exact inv.finish _ _
    · rename_i device found
      split at steps
      · rename_i free
        split at steps
        · cases steps
          exact inv.finish _ _
        · rename_i deviceOk
          split at steps <;> cases steps
          · exact inv.finish _ _
          · rename_i kindOk
            have locked := inv.lockDevice free owned isOwn stage
            obtain ⟨none, workspace, holds, atHead⟩ := knows
            refine locked.goto (locked.sessions sid session isOwn) ⟨none, ?_, ?_, kindOk⟩
            · exact ⟨workspace, ⟨holds.lock, holds.row⟩, atHead⟩
            · exact ⟨device, by simp [State.lockDevice], found, checkDevice_fresh deviceOk⟩
      · cases steps
  | parents remaining =>
    simp only [stage] at knows
    cases remaining with
    | nil =>
      simp only [stage] at steps
      cases steps
      exact inv.goto owned knows
    | cons parentID remaining =>
      simp only [stage] at steps
      split at steps <;> cases steps
      · exact inv.finish _ _
      · exact inv.goto owned knows
  | body =>
    simp only [stage] at steps knows
    split at steps <;> cases steps
    · exact inv.finish _ _
    · exact inv.goto owned knows
  | references bodyObject =>
    simp only [stage] at steps knows
    split at steps <;> cases steps
    · exact inv.finish _ _
    · exact inv.goto owned knows
  | createCommit bodyObject objects =>
    simp only [stage] at steps knows
    split at steps
    · cases steps
      exact inv.finish _ _
    · rename_i kind kindOk
      split at steps <;> cases steps
      · exact inv.drawServerSeq.finish _ _
      · have drew := inv.drawServerSeq
        refine drew.wrote (drew.sessions sid session isOwn) ⟨⟨?_, ⟨kind, kindOk, rfl⟩, ?_, ?_⟩, ?_⟩
        · exact knows.2.frame (keeps_drawServerSeq sid)
        · exact Nat.lt_succ_self _
        · intro c member
          exact inv.tables.drawn c (mem_of_mem_filter member)
        · exact ⟨[], by simp [knows.1, Session.insertWrites]⟩
  | commitObjects commit remaining =>
    simp only [stage] at knows
    obtain ⟨inserted, rows, writes⟩ := knows
    cases remaining with
    | nil =>
      simp only [stage] at steps
      cases steps
      refine inv.wrote owned ⟨inserted, rows, ?_⟩
      simp [writes, Session.sequenceWrite]
    | cons row remaining =>
      simp only [stage] at steps
      cases steps
      refine inv.wrote owned ⟨inserted, rows ++ [row], ?_⟩
      simp [writes, Session.insertWrites]
  | deviceCursor commit =>
    simp only [stage] at steps knows
    cases steps
    obtain ⟨inserted, rows, writes⟩ := knows
    refine inv.wrote owned ⟨inserted, rows, ?_⟩
    simp [writes, Session.sequenceWrite]
  | workspaceHead commit =>
    simp only [stage] at steps knows
    obtain ⟨inserted, rows, writes⟩ := knows
    split at steps <;> cases steps
    · exact inv.finish _ _
    · refine inv.wrote owned ⟨inserted, rows, ?_⟩
      simp [writes, Session.sequenceWrite, Session.headWrite]
  | commit result =>
    simp only [stage] at steps knows
    cases steps
    obtain ⟨inserted, rows, writes⟩ := knows
    refine inv.advance sid (inv.tables.publish owned inserted writes) ?_
      (fun other ne => keeps_commit inserted writes ne) ?_
    · intro other ne
      exact update_of_ne ne _ _
    · intro session' found
      simp [State.finish] at found

theorem Inv.begin (svc : Service) (inv : s.Inv) (userID : Uuid) (params : PublishCommitParams) :
    (s.begin svc sid userID params).Inv := by
  simp only [State.begin]
  split
  · refine ⟨inv.tables, fun other session found => ?_⟩
    exact (inv.sessions other session found).frame (by apply keeps_of_same <;> rfl)
  · rename_i session opened
    apply inv.put
    simp only [bind, Except.bind, pure, Except.pure] at opened
    split at opened
    · cases opened
    · rename_i normalized normal
      split at opened <;> cases opened
      obtain ⟨named, positive⟩ := normalizePublishCommitParams_ok normal
      exact ⟨named, positive, rfl⟩

/-- A step of another handler: locked rows, commits and the identity stay. -/
theorem Inv.elsewhere (inv : s.Inv) {db : Db} (tables : db.Inv)
    (workspaces : ∀ w row, s.workspaceLock w ≠ none → s.db.workspaces w = some row →
      db.workspaces w = some row)
    (devices : ∀ w d row, s.deviceLock w d ≠ none → s.db.devices w d = some row →
      db.devices w d = some row)
    (commits : db.commits = s.db.commits) (drawn : db.nextServerSeq = s.db.nextServerSeq) :
    Inv { s with db := db } := by
  have keeps : ∀ other, Keeps s { s with db := db } other := by
    intro other
    refine ⟨fun _ held => held, ?_, ?_, fun _ _ held => held, ?_, le_of_eq drawn.symm⟩
    · intro w row held stored
      exact workspaces w row (by simp [held]) stored
    · intro w _
      simp only [Db.commitsOf, commits]
    · intro w d row held stored
      exact devices w d row (by simp [held]) stored
  exact ⟨tables, fun other session found => (inv.sessions other session found).frame (keeps other)⟩

end State

theorem commitsOf_eq_nil (tables : db.Inv) (absent : db.workspaces w = none) :
    db.commitsOf w = [] := by
  apply filter_eq_nil_iff.mpr
  intro c member ofWorkspace
  apply tables.owned c member
  rw [of_decide_eq_true ofWorkspace]
  exact absent

/-- A workspace row is added or changed outside its head. -/
theorem Db.Inv.putWorkspace {row : KukuSyncWorkspace} (tables : db.Inv)
    (history : HistoryOf db w row (db.commitsOf w)) :
    Inv { db with workspaces := Function.update db.workspaces w (some row) } := by
  refine ⟨tables.drawn, tables.named, ?_, tables.authored, ?_, ?_⟩
  · intro c member
    exact update_ne_none (tables.owned c member)
  · intro v d present
    exact update_ne_none (tables.housed v d present)
  · intro v found isRow
    by_cases same : v = w
    · subst same
      simp only [update_self, Option.some.injEq] at isRow
      subst isRow
      obtain ⟨ordered, chain, head, version, increasing, last⟩ := history
      exact ⟨ordered, chain, head, version, increasing, last⟩
    · simp only [update_of_ne same] at isRow
      obtain ⟨ordered, chain, head, version, increasing, last⟩ := tables.linear v found isRow
      exact ⟨ordered, chain, head, version, increasing, last⟩

/-- A device row is added or changed outside its sequence number. -/
theorem Db.Inv.putDevice {w d : Uuid} {row : KukuSyncDevice} (tables : db.Inv)
    (house : db.workspaces w ≠ none) (last : row.lastDeviceSeq = lastSeq d (db.commitsOf w)) :
    Inv { db with
      devices := Function.update db.devices w (Function.update (db.devices w) d (some row)) } := by
  refine ⟨tables.drawn, tables.named, tables.owned, ?_, ?_, ?_⟩
  · intro c member
    by_cases same : c.workspaceID = w
    · subst same
      simp only [update_self]
      exact update_ne_none (tables.authored c member)
    · simp only [update_of_ne same]
      exact tables.authored c member
  · intro v e present
    by_cases same : v = w
    · exact same ▸ house
    · simp only [update_of_ne same] at present
      exact tables.housed v e present
  · intro v found isRow
    obtain ⟨ordered, chain, head, version, increasing, lastOf⟩ := tables.linear v found isRow
    refine ⟨ordered, chain, head, version, increasing, ?_⟩
    intro e device isDevice
    by_cases sameW : v = w
    · subst sameW
      simp only [update_self] at isDevice
      by_cases sameD : e = d
      · subst sameD
        simp only [update_self, Option.some.injEq] at isDevice
        subst isDevice
        exact last
      · rw [update_of_ne sameD] at isDevice
        exact lastOf e device isDevice
    · simp only [update_of_ne sameW] at isDevice
      exact lastOf e device isDevice

/-- A device without a row has published nothing. -/
theorem lastSeq_of_absent {w d : Uuid} (tables : db.Inv) (absent : db.devices w d = none) :
    lastSeq d (db.commitsOf w) = 0 := by
  have none : byDevice d (db.commitsOf w) = [] := by
    apply filter_eq_nil_iff.mpr
    intro c member ofDevice
    obtain ⟨stored, ofWorkspace⟩ := mem_filter.mp member
    apply tables.authored c stored
    rw [of_decide_eq_true ofWorkspace, of_decide_eq_true ofDevice]
    exact absent
  rw [lastSeq, none]
  rfl

theorem historyOf_new (tables : db.Inv) (absent : db.workspaces w = none) (ownerUserID : Uuid) :
    HistoryOf db w ⟨w, ownerUserID, none, 0, false⟩ (db.commitsOf w) := by
  rw [commitsOf_eq_nil tables absent]
  refine ⟨List.Pairwise.nil, trivial, rfl, rfl, fun _ => List.Pairwise.nil, ?_⟩
  intro d device found
  exact absurd absent (tables.housed w d (by simp [found]))

theorem update_row {α β : Type} [DecidableEq α] {f : α → Option β} {a b : α} {x : β}
    {y : Option β} (stored : f b = some x) (differ : b ≠ a) :
    Function.update f a y b = some x := by
  rwa [update_of_ne differ]

theorem update₂_row {α β : Type} [DecidableEq α] {f : α → α → Option β} {a b c d : α} {x : β}
    {y : Option β} (stored : f c d = some x) (differ : ¬ (c = a ∧ d = b)) :
    Function.update f a (Function.update (f a) b y) c d = some x := by
  by_cases same : c = a
  · subst same
    rw [update_self]
    exact update_row stored fun eq => differ ⟨rfl, eq⟩
  · rwa [update_of_ne same]

/-- **Every step keeps the invariant.** -/
theorem State.Inv.next {svc : Service} {s s' : State} {label : Label} (inv : s.Inv)
    (steps : s.next svc label = some s') : s'.Inv := by
  cases label with
  | begin sid userID params =>
    simp only [State.next] at steps
    split at steps <;> cases steps
    exact inv.begin svc userID params
  | exec sid =>
    simp only [State.next, Option.bind_eq_some_iff] at steps
    obtain ⟨session, isOwn, executed⟩ := steps
    exact inv.exec svc isOwn executed
  | rollback sid =>
    simp only [State.next] at steps
    split at steps <;> cases steps
    exact inv.finish sid _
  | createWorkspace id ownerUserID =>
    simp only [State.next] at steps
    split at steps <;> cases steps
    rename_i absent
    have isNone : s.db.workspaces id = none := by simpa using absent
    refine inv.elsewhere
      (inv.tables.putWorkspace (historyOf_new inv.tables isNone ownerUserID)) ?_
      (fun _ _ _ _ stored => stored) rfl rfl
    intro w row _ stored
    exact update_row stored (by rintro rfl; simp [isNone] at stored)
  | registerDevice workspaceID id userID signingPublicKey =>
    simp only [State.next] at steps
    split at steps <;> cases steps
    rename_i absent
    simp only [not_or, Bool.not_eq_true, Option.isSome_eq_false_iff,
      Option.isNone_iff_eq_none] at absent
    have house : s.db.workspaces workspaceID ≠ none := by
      intro missing
      exact absent.2 (by simp [Db.getSyncWorkspace, missing])
    refine inv.elsewhere
      (inv.tables.putDevice house (lastSeq_of_absent inv.tables absent.1).symm)
      (fun _ _ _ stored => stored) ?_ rfl rfl
    intro w d row _ stored
    refine update₂_row stored ?_
    rintro ⟨rfl, rfl⟩
    simp [absent.1] at stored
  | softDeleteWorkspace id =>
    simp only [State.next] at steps
    split at steps <;> cases steps
    rename_i row found free
    obtain ⟨ordered, chain, head, version, increasing, last⟩ := inv.tables.linear id row found
    refine inv.elsewhere
      (inv.tables.putWorkspace ⟨ordered, chain, head, version, increasing, last⟩) ?_
      (fun _ _ _ _ stored => stored) rfl rfl
    intro w other held stored
    exact update_row stored (by rintro rfl; exact held free)
  | revokeDevice workspaceID id =>
    simp only [State.next] at steps
    split at steps <;> cases steps
    rename_i device found free
    have house : s.db.workspaces workspaceID ≠ none :=
      inv.tables.housed workspaceID id (by simp [found])
    obtain ⟨workspace, isWorkspace⟩ := Option.ne_none_iff_exists'.mp house
    refine inv.elsewhere
      (inv.tables.putDevice house ((inv.tables.linear _ _ isWorkspace).last id device found))
      (fun _ _ _ stored => stored) ?_ rfl rfl
    intro w d row held stored
    refine update₂_row stored ?_
    rintro ⟨rfl, rfl⟩
    exact held free
  | changeObjects objects =>
    simp only [State.next] at steps
    cases steps
    obtain ⟨drawn, named, owned, authored, housed, linear⟩ := inv.tables
    refine inv.elsewhere ⟨drawn, named, owned, authored, housed, ?_⟩
      (fun _ _ _ stored => stored) (fun _ _ _ _ stored => stored) rfl rfl
    intro w workspace found
    obtain ⟨ordered, chain, head, version, increasing, last⟩ := linear w workspace found
    exact ⟨ordered, chain, head, version, increasing, last⟩

theorem State.Inv.initial : State.initial.Inv := by
  refine ⟨⟨?_, ?_, ?_, ?_, ?_, ?_⟩, ?_⟩ <;> simp [State.initial, Db.empty]

/-- **The server keeps one linear history per workspace**, in every state any
interleaving of publishes and other handlers can reach. -/
theorem linearHistory_of_reachable {svc : Service} {s : State}
    (reached : (publishing svc).Reachable s) {w : Uuid} {workspace : KukuSyncWorkspace}
    (found : s.db.workspaces w = some workspace) : LinearHistory s.db w workspace := by
  have inv : s.Inv := by
    refine reached.invariant ?_ ?_
    · rintro _ rfl
      exact State.Inv.initial
    · intro before label after inv _ steps
      exact inv.next steps
  have history := inv.tables.linear w workspace found
  unfold LinearHistory
  rw [history_eq_commitsOf history.ordered]
  exact history

/-! ## A run

Two publishes of one device overlap: the second starts before the first commits, and
waits for the workspace row. -/

namespace Example

def signingPublicKey : Bytes :=
  [215, 90, 152, 1, 130, 177, 10, 183, 213, 75, 254, 211, 201, 100, 7, 58, 14, 225, 114,
   243, 218, 166, 35, 37, 175, 2, 26, 104, 247, 7, 81, 26]

def bodyDigest : String :=
  "abababababababababababababababab" ++
  "abababababababababababababababab"

def first : PublishCommitParams where
  workspaceID := 1
  commitID := "c1"
  commitKind := .checkpoint
  expectedHeadCommitID := ""
  parentCommitIDs := []
  authorDeviceID := 2
  deviceSeq := 1
  bodyObjectID := "body1"
  bodyCiphertextSHA256 := bodyDigest
  bodySizeBytes := 7
  referencedObjectIDs := ["pack1"]
  signature :=
    [224, 244, 6, 212, 157, 17, 99, 105, 24, 12, 93, 146, 216, 79, 52, 126, 29, 58, 147,
     179, 29, 117, 127, 125, 81, 163, 199, 111, 113, 163, 87, 129, 104, 86, 158, 226, 32,
     143, 84, 37, 195, 210, 136, 212, 150, 227, 1, 116, 60, 252, 76, 189, 246, 131, 139, 68,
     114, 249, 179, 212, 210, 110, 37, 11]

/-- An incremental commit on top of it. -/
def second : PublishCommitParams where
  workspaceID := 1
  commitID := "c2"
  commitKind := .incremental
  expectedHeadCommitID := "c1"
  parentCommitIDs := ["c1"]
  authorDeviceID := 2
  deviceSeq := 2
  bodyObjectID := "body2"
  bodyCiphertextSHA256 := bodyDigest
  bodySizeBytes := 7
  referencedObjectIDs := []
  signature :=
    [110, 136, 136, 200, 68, 234, 181, 58, 190, 197, 89, 52, 22, 104, 13, 49, 233, 155, 68,
     132, 41, 189, 146, 215, 123, 2, 212, 83, 165, 255, 50, 97, 56, 221, 78, 226, 218, 164,
     215, 217, 189, 113, 39, 170, 167, 181, 3, 162, 145, 245, 210, 195, 30, 3, 229, 197, 77,
     45, 192, 248, 45, 76, 221, 4]

/-- The canonical payload of `first`, as JSON text in UTF-8. -/
def firstJSON : Bytes :=
  [123, 34, 119, 111, 114, 107, 115, 112, 97, 99, 101, 95, 105, 100, 34, 58, 34, 48, 48, 48,
   48, 48, 48, 48, 48, 45, 48, 48, 48, 48, 45, 48, 48, 48, 48, 45, 48, 48, 48, 48, 45, 48,
   48, 48, 48, 48, 48, 48, 48, 48, 48, 48, 49, 34, 44, 34, 99, 111, 109, 109, 105, 116, 95,
   105, 100, 34, 58, 34, 99, 49, 34, 44, 34, 99, 111, 109, 109, 105, 116, 95, 107, 105, 110,
   100, 34, 58, 34, 99, 104, 101, 99, 107, 112, 111, 105, 110, 116, 34, 44, 34, 101, 120,
   112, 101, 99, 116, 101, 100, 95, 104, 101, 97, 100, 95, 99, 111, 109, 109, 105, 116, 95,
   105, 100, 34, 58, 34, 34, 44, 34, 112, 97, 114, 101, 110, 116, 95, 99, 111, 109, 109,
   105, 116, 95, 105, 100, 115, 34, 58, 91, 93, 44, 34, 97, 117, 116, 104, 111, 114, 95,
   100, 101, 118, 105, 99, 101, 95, 105, 100, 34, 58, 34, 48, 48, 48, 48, 48, 48, 48, 48,
   45, 48, 48, 48, 48, 45, 48, 48, 48, 48, 45, 48, 48, 48, 48, 45, 48, 48, 48, 48, 48, 48,
   48, 48, 48, 48, 48, 50, 34, 44, 34, 100, 101, 118, 105, 99, 101, 95, 115, 101, 113, 34,
   58, 49, 44, 34, 98, 111, 100, 121, 95, 111, 98, 106, 101, 99, 116, 95, 105, 100, 34, 58,
   34, 98, 111, 100, 121, 49, 34, 44, 34, 98, 111, 100, 121, 95, 99, 105, 112, 104, 101,
   114, 116, 101, 120, 116, 95, 115, 104, 97, 50, 53, 54, 34, 58, 34, 97, 98, 97, 98, 97,
   98, 97, 98, 97, 98, 97, 98, 97, 98, 97, 98, 97, 98, 97, 98, 97, 98, 97, 98, 97, 98, 97,
   98, 97, 98, 97, 98, 97, 98, 97, 98, 97, 98, 97, 98, 97, 98, 97, 98, 97, 98, 97, 98, 97,
   98, 97, 98, 97, 98, 97, 98, 97, 98, 97, 98, 97, 98, 97, 98, 34, 44, 34, 98, 111, 100,
   121, 95, 115, 105, 122, 101, 95, 98, 121, 116, 101, 115, 34, 58, 55, 44, 34, 114, 101,
   102, 101, 114, 101, 110, 99, 101, 100, 95, 111, 98, 106, 101, 99, 116, 95, 105, 100, 115,
   34, 58, 91, 34, 112, 97, 99, 107, 49, 34, 93, 125]

def secondJSON : Bytes :=
  [123, 34, 119, 111, 114, 107, 115, 112, 97, 99, 101, 95, 105, 100, 34, 58, 34, 48, 48, 48,
   48, 48, 48, 48, 48, 45, 48, 48, 48, 48, 45, 48, 48, 48, 48, 45, 48, 48, 48, 48, 45, 48,
   48, 48, 48, 48, 48, 48, 48, 48, 48, 48, 49, 34, 44, 34, 99, 111, 109, 109, 105, 116, 95,
   105, 100, 34, 58, 34, 99, 50, 34, 44, 34, 99, 111, 109, 109, 105, 116, 95, 107, 105, 110,
   100, 34, 58, 34, 105, 110, 99, 114, 101, 109, 101, 110, 116, 97, 108, 34, 44, 34, 101,
   120, 112, 101, 99, 116, 101, 100, 95, 104, 101, 97, 100, 95, 99, 111, 109, 109, 105, 116,
   95, 105, 100, 34, 58, 34, 99, 49, 34, 44, 34, 112, 97, 114, 101, 110, 116, 95, 99, 111,
   109, 109, 105, 116, 95, 105, 100, 115, 34, 58, 91, 34, 99, 49, 34, 93, 44, 34, 97, 117,
   116, 104, 111, 114, 95, 100, 101, 118, 105, 99, 101, 95, 105, 100, 34, 58, 34, 48, 48,
   48, 48, 48, 48, 48, 48, 45, 48, 48, 48, 48, 45, 48, 48, 48, 48, 45, 48, 48, 48, 48, 45,
   48, 48, 48, 48, 48, 48, 48, 48, 48, 48, 48, 50, 34, 44, 34, 100, 101, 118, 105, 99, 101,
   95, 115, 101, 113, 34, 58, 50, 44, 34, 98, 111, 100, 121, 95, 111, 98, 106, 101, 99, 116,
   95, 105, 100, 34, 58, 34, 98, 111, 100, 121, 50, 34, 44, 34, 98, 111, 100, 121, 95, 99,
   105, 112, 104, 101, 114, 116, 101, 120, 116, 95, 115, 104, 97, 50, 53, 54, 34, 58, 34,
   97, 98, 97, 98, 97, 98, 97, 98, 97, 98, 97, 98, 97, 98, 97, 98, 97, 98, 97, 98, 97, 98,
   97, 98, 97, 98, 97, 98, 97, 98, 97, 98, 97, 98, 97, 98, 97, 98, 97, 98, 97, 98, 97, 98,
   97, 98, 97, 98, 97, 98, 97, 98, 97, 98, 97, 98, 97, 98, 97, 98, 97, 98, 97, 98, 34, 44,
   34, 98, 111, 100, 121, 95, 115, 105, 122, 101, 95, 98, 121, 116, 101, 115, 34, 58, 55,
   44, 34, 114, 101, 102, 101, 114, 101, 110, 99, 101, 100, 95, 111, 98, 106, 101, 99, 116,
   95, 105, 100, 115, 34, 58, 91, 93, 125]

/-- The two payloads and their signatures under the device's key. -/
def service : Service where
  marshal payload := if payload.commitID = "c1" then firstJSON else secondJSON
  verify key message signature :=
    key = signingPublicKey ∧ ((message = firstJSON ∧ signature = first.signature) ∨
      (message = secondJSON ∧ signature = second.signature))

def stored (objectID : String) (kind : KukuSyncObjectKind) : KukuSyncObject where
  workspaceID := 1
  objectID
  objectKind := kind
  ciphertextSha256 := bodyDigest
  sizeBytes := 7
  uploadState := .available
  deleted := false

def objects (w : Uuid) (objectID : String) : Option KukuSyncObject :=
  if w ≠ 1 then none
  else if objectID = "pack1" then some (stored objectID .checkpointPack)
  else if objectID = "body1" ∨ objectID = "body2" then some (stored objectID .commitBody)
  else none

def labels : List Label :=
  [.createWorkspace 1 9, .registerDevice 1 2 9 signingPublicKey, .changeObjects objects,
    .begin 0 9 first, .begin 1 9 second] ++ List.replicate 4 (.exec 0) ++
  List.replicate 2 (.exec 1) ++ List.replicate 11 (.exec 0) ++ List.replicate 13 (.exec 1)

theorem isDigest_bodyDigest : IsDigest bodyDigest := isDigest_of_halves rfl rfl (by decide) rfl

theorem first_isNormal : first.IsNormal where
  commitID := by decide
  expectedHeadCommitID := by decide
  bodyObjectID := by decide
  bodyCiphertextSHA256 := isDigest_bodyDigest
  named := by decide
  commitKind := rfl
  parentCommitIDs := rfl
  parentsDiffer := rfl
  referencedObjectIDs := by decide
  referencesDiffer := by decide
  bodyNotReferenced := by decide

theorem second_isNormal : second.IsNormal where
  commitID := by decide
  expectedHeadCommitID := by decide
  bodyObjectID := by decide
  bodyCiphertextSHA256 := isDigest_bodyDigest
  named := by decide
  commitKind := rfl
  parentCommitIDs := by decide
  parentsDiffer := by decide
  referencedObjectIDs := rfl
  referencesDiffer := rfl
  bodyNotReferenced := by decide

theorem run_labels :
    (System.run (State.next service) State.initial labels).map
      (fun s => (s.db.workspaces 1, (s.db.history 1).map (·.commitID))) =
        some (some ⟨1, 9, some "c2", 2, false⟩, ["c1", "c2"]) := by
  have split : labels =
      [.createWorkspace 1 9, .registerDevice 1 2 9 signingPublicKey, .changeObjects objects] ++
        .begin 0 9 first :: .begin 1 9 second :: (List.replicate 4 (.exec 0) ++
          List.replicate 2 (.exec 1) ++ List.replicate 11 (.exec 0) ++
          List.replicate 13 (.exec 1)) := rfl
  rw [split, System.run_append]
  simp only [first_isNormal.run_begin, second_isNormal.run_begin]
  decide +kernel

end Example

theorem linearHistory_of_overlapping_publishes :
    ∃ s, (publishing Example.service).Reachable s ∧
      LinearHistory s.db 1 ⟨1, 9, some "c2", 2, false⟩ ∧
      (s.db.history 1).map (·.commitID) = ["c1", "c2"] := by
  obtain ⟨s, ran, left⟩ := Option.map_eq_some_iff.mp Example.run_labels
  obtain ⟨row, ids⟩ := Prod.mk.inj left
  have reached : (publishing Example.service).Reachable s :=
    System.reachable_of_run (.start rfl) ran
  exact ⟨s, reached, linearHistory_of_reachable reached row, ids⟩

end Kuku.Server
