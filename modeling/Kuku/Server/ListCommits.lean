/-
# Server.ListCommits -- the history of a workspace, read in pages while it grows

`GetHead` and `ListCommits` are two statements each: the owner's workspace row first, then the
commits.  Publishes go on between any two statements (`Timeline`).

* `Appends` is what one step of `Server.PublishInterleaving` does to the commits: it appends
  commits of transactions that are open, and an open transaction has drawn its `server_seq`
  from the identity and its texts from a normalised request.
* `history_grows`: so every later history of a workspace begins with the earlier one.
-/
import Kuku.Server.LinearHistory
import Kuku.Theory.Except

namespace Kuku.Server

open Kuku.Theory List Function Text

/-! ## The handlers -/

def defaultListCommitsPageSize : Int := 100
def maxListCommitsPageSize : Int := 500

namespace Db

def listSyncCommitsAfterServerSeq (db : Db) (workspaceID : Uuid) (serverSeq limit : Int) :
    List KukuSyncCommit :=
  ((db.history workspaceID).filter fun c => serverSeq < c.serverSeq).take limit.toNat

/-- `GetLatestSyncCheckpointCommitID`; no row is the empty id. -/
def getLatestSyncCheckpointCommitID (db : Db) (workspaceID : Uuid) : String :=
  (((db.history workspaceID).filter fun c => c.commitKind = .checkpoint).getLast?.map
    (·.commitID)).getD ""

end Db

structure ListedCommits where
  rows : List KukuSyncCommit
  hasMore : Bool
  next : Int

def clampPageSize (pageSize : Int) : Int :=
  let pageSize := if pageSize ≤ 0 then defaultListCommitsPageSize else pageSize
  if maxListCommitsPageSize < pageSize then maxListCommitsPageSize else pageSize

/-- One row more than the page tells whether there is more. -/
def pageOf (pageSize : Int) (rows : List KukuSyncCommit) : ListedCommits :=
  let hasMore : Bool := pageSize < rows.length
  let rows := if hasMore then rows.take pageSize.toNat else rows
  { rows
    hasMore
    next := (rows.getLast?.map fun c => (c.serverSeq : Int)).getD 0 }

/-- `atWorkspace` and `atCommits` are the tables at the two statements. -/
def listCommits (atWorkspace atCommits : Db) (userID workspaceID : Uuid)
    (afterServerSeq pageSize : Int) : Except SyncError ListedCommits := do
  let _ ← authorizeWorkspace atWorkspace userID workspaceID
  let pageSize := clampPageSize pageSize
  return pageOf pageSize
    (atCommits.listSyncCommitsAfterServerSeq workspaceID afterServerSeq (pageSize + 1))

/-- The workspace row and the latest checkpoint. -/
def getHead (atWorkspace atCommits : Db) (userID workspaceID : Uuid) :
    Except SyncError (KukuSyncWorkspace × String) := do
  let workspace ← authorizeWorkspace atWorkspace userID workspaceID
  return (workspace, atCommits.getLatestSyncCheckpointCommitID workspaceID)

theorem clampPageSize_pos (pageSize : Int) : 0 < clampPageSize pageSize := by
  simp only [clampPageSize, defaultListCommitsPageSize, maxListCommitsPageSize]
  split_ifs <;> omega

/-- The row beyond the page is not lost: it is not on the page. -/
theorem pageOf_take {pageSize : Int} (positive : 0 < pageSize) (later : List KukuSyncCommit) :
    pageOf pageSize (later.take (pageSize + 1).toNat) =
      { rows := later.take pageSize.toNat
        hasMore := pageSize < later.length
        next := ((later.take pageSize.toNat).getLast?.map fun c => (c.serverSeq : Int)).getD 0 } := by
  have more : (pageSize < ((later.take (pageSize + 1).toNat).length : Int)) ↔
      pageSize < later.length := by
    rw [length_take]
    omega
  have taken : (if pageSize < (later.length : Int) then
      (later.take (pageSize + 1).toNat).take pageSize.toNat else
        later.take (pageSize + 1).toNat) = later.take pageSize.toNat := by
    split_ifs with isMore
    · rw [take_take, min_eq_left (by omega)]
    · rw [take_of_length_le (by omega), take_of_length_le (by omega)]
  simp only [pageOf, decide_eq_true_eq, more, taken]

/-! ## What a step appends -/

/-- What the texts of a stored commit are good for: none of them is blank. -/
structure KukuSyncCommit.Legible (commit : KukuSyncCommit) : Prop where
  commitID : trim commit.commitID ≠ ""
  bodyObjectID : trim commit.bodyObjectID ≠ ""
  bodyCiphertextSha256 : trim commit.bodyCiphertextSha256 ≠ ""

structure PublishCommitParams.Legible (params : PublishCommitParams) : Prop where
  commitID : trim params.commitID ≠ ""
  bodyObjectID : trim params.bodyObjectID ≠ ""
  bodyCiphertextSHA256 : trim params.bodyCiphertextSHA256 ≠ ""

/-- An open transaction will insert the commit. -/
def State.Pending (s : State) (commit : KukuSyncCommit) : Prop :=
  ∃ sid session, s.sessions sid = some session ∧ .createSyncCommit commit ∈ session.writes

/-- An open transaction has just drawn the commit's `server_seq`. -/
def State.Drawn (s : State) (commit : KukuSyncCommit) : Prop :=
  s.db.nextServerSeq ≤ commit.serverSeq ∧ ∃ sid session kind, s.sessions sid = some session ∧
    commit = newSyncCommit session.params kind commit.serverSeq

structure Appends (s s' : State) : Prop where
  commits : ∃ added, s'.db.commits = s.db.commits ++ added ∧ ∀ c ∈ added, s.Pending c
  drawn : s.db.nextServerSeq ≤ s'.db.nextServerSeq
  pending : ∀ c, s'.Pending c → s.Pending c ∨ s.Drawn c
  params : ∀ sid session, s'.sessions sid = some session →
    (∃ sid session', s.sessions sid = some session' ∧ session'.params = session.params) ∨
      ∃ raw, normalizePublishCommitParams raw = .ok session.params

variable {s s' : State} {sid : Nat} {session session' : Session}

theorem appends_of_sessions (commits : s'.db.commits = s.db.commits)
    (drawn : s'.db.nextServerSeq = s.db.nextServerSeq) (sessions : s'.sessions = s.sessions) :
    Appends s s' where
  commits := ⟨[], by rw [commits, append_nil], nofun⟩
  drawn := drawn.ge
  pending c pending := by
    obtain ⟨sid, session, isOpen, among⟩ := pending
    exact .inl ⟨sid, session, sessions ▸ isOpen, among⟩
  params sid session isOpen := .inl ⟨sid, session, sessions ▸ isOpen, rfl⟩

/-- A session ends, and its writes may be applied. -/
theorem appends_of_end (isOpen : s.sessions sid = some session)
    (commits : ∃ added, s'.db.commits = s.db.commits ++ added ∧
      ∀ c ∈ added, .createSyncCommit c ∈ session.writes)
    (drawn : s.db.nextServerSeq ≤ s'.db.nextServerSeq)
    (sessions : s'.sessions = Function.update s.sessions sid none) : Appends s s' := by
  have before : ∀ other session', s'.sessions other = some session' →
      s.sessions other = some session' := by
    intro other session' found
    rw [sessions] at found
    by_cases same : other = sid
    · rw [same, update_self] at found
      cases found
    · rwa [update_of_ne same] at found
  obtain ⟨added, appended, pending⟩ := commits
  refine ⟨⟨added, appended, fun c among => ⟨sid, session, isOpen, pending c among⟩⟩, drawn, ?_, ?_⟩
  · rintro c ⟨other, session', found, among⟩
    exact .inl ⟨other, session', before other session' found, among⟩
  · intro other session' found
    exact .inl ⟨other, session', before other session' found, rfl⟩

/-- A session goes on; it may have drawn a `server_seq`. -/
theorem appends_of_put (isOpen : s.sessions sid = some session)
    (commits : s'.db.commits = s.db.commits) (drawn : s.db.nextServerSeq ≤ s'.db.nextServerSeq)
    (sessions : s'.sessions = Function.update s.sessions sid (some session'))
    (params : session'.params = session.params)
    (writes : ∀ c, .createSyncCommit c ∈ session'.writes →
      .createSyncCommit c ∈ session.writes ∨ s.Drawn c) : Appends s s' := by
  have before : ∀ other found, s'.sessions other = some found →
      s.sessions other = some found ∨ found = session' := by
    intro other found isFound
    rw [sessions] at isFound
    by_cases same : other = sid
    · rw [same, update_self] at isFound
      exact .inr (Option.some.inj isFound).symm
    · rw [update_of_ne same] at isFound
      exact .inl isFound
  refine ⟨⟨[], by rw [commits, append_nil], nofun⟩, drawn, ?_, ?_⟩
  · rintro c ⟨other, found, isFound, among⟩
    rcases before other found isFound with held | rfl
    · exact .inl ⟨other, found, held, among⟩
    · exact (writes c among).imp (fun already => ⟨sid, session, isOpen, already⟩) id
  · intro other found isFound
    rcases before other found isFound with held | rfl
    · exact .inl ⟨other, found, held, rfl⟩
    · exact .inl ⟨sid, session, isOpen, params.symm⟩

theorem applyWrite_commits (db : Db) (write : Write) :
    ∃ added, (db.applyWrite write).commits = db.commits ++ added ∧
      ∀ c ∈ added, write = .createSyncCommit c := by
  cases write with
  | createSyncCommit row =>
    refine ⟨[row], rfl, fun c among => ?_⟩
    rw [mem_singleton.mp among]
  | createSyncCommitObject row =>
    refine ⟨[], ?_, nofun⟩
    simp only [Db.applyWrite]
    split_ifs <;> exact (append_nil _).symm
  | updateSyncDeviceSequence w d u seq =>
    refine ⟨[], ?_, nofun⟩
    simp only [Db.applyWrite]
    split <;> exact (append_nil _).symm
  | upsertSyncDeviceCursor w d c k => exact ⟨[], (append_nil _).symm, nofun⟩
  | updateSyncWorkspaceHead w u c =>
    refine ⟨[], ?_, nofun⟩
    simp only [Db.applyWrite]
    split <;> exact (append_nil _).symm

theorem applyWrites_commits (db : Db) (writes : List Write) :
    ∃ added, (db.applyWrites writes).commits = db.commits ++ added ∧
      ∀ c ∈ added, .createSyncCommit c ∈ writes := by
  induction writes generalizing db with
  | nil => exact ⟨[], (append_nil _).symm, nofun⟩
  | cons write writes ih =>
    obtain ⟨first, isFirst, ofFirst⟩ := applyWrite_commits db write
    obtain ⟨later, isLater, ofLater⟩ := ih (db.applyWrite write)
    refine ⟨first ++ later, ?_, ?_⟩
    · rw [← append_assoc, ← isFirst]
      exact isLater
    · intro c among
      rcases mem_append.mp among with here | there
      · exact ofFirst c here ▸ mem_cons_self
      · exact mem_cons_of_mem _ (ofLater c there)

theorem applyWrite_nextServerSeq (db : Db) (write : Write) :
    (db.applyWrite write).nextServerSeq = db.nextServerSeq := by
  cases write with
  | createSyncCommit row => rfl
  | createSyncCommitObject row =>
    simp only [Db.applyWrite]
    split_ifs <;> rfl
  | updateSyncDeviceSequence w d u seq =>
    simp only [Db.applyWrite]
    split <;> rfl
  | upsertSyncDeviceCursor w d c k => rfl
  | updateSyncWorkspaceHead w u c =>
    simp only [Db.applyWrite]
    split <;> rfl

theorem applyWrites_nextServerSeq (db : Db) (writes : List Write) :
    (db.applyWrites writes).nextServerSeq = db.nextServerSeq := by
  induction writes generalizing db with
  | nil => rfl
  | cons write writes ih => exact (ih (db.applyWrite write)).trans (applyWrite_nextServerSeq db write)

theorem appends_finish (isOpen : s.sessions sid = some session)
    (result : Except SyncError PublishCommitResult) : Appends s (s.finish sid result) :=
  appends_of_end isOpen ⟨[], (append_nil _).symm, nofun⟩ le_rfl rfl

theorem appends_goto (isOpen : s.sessions sid = some session) (stage : Stage) :
    Appends s (s.goto sid session stage) :=
  appends_of_put isOpen rfl le_rfl rfl rfl fun _ among => .inl among

/-- A write that is no commit. -/
theorem appends_wrote (isOpen : s.sessions sid = some session) {write : Write} (stage : Stage)
    (other : ∀ c, write ≠ .createSyncCommit c) : Appends s (s.wrote sid session write stage) := by
  refine appends_of_put isOpen rfl le_rfl rfl rfl fun c among => .inl ?_
  rcases mem_append.mp among with already | last
  · exact already
  · exact absurd (mem_singleton.mp last).symm (other c)

variable {svc : Service}

/-- **One statement of one transaction.** -/
theorem appends_exec (isOpen : s.sessions sid = some session)
    (steps : s.exec svc sid session = some s') : Appends s s' := by
  unfold State.exec at steps
  cases stage : session.stage with
  | authorize =>
    simp only [stage] at steps
    split at steps <;> cases steps
    · exact appends_finish isOpen _
    · exact appends_goto isOpen _
  | lookup workspace =>
    simp only [stage] at steps
    split at steps <;> cases steps
    · exact appends_finish isOpen _
    · exact appends_finish isOpen _
    · exact appends_goto isOpen _
  | lockWorkspace =>
    simp only [stage] at steps
    split at steps
    · cases steps
      exact appends_finish isOpen _
    · split at steps <;> cases steps
      exact appends_of_put isOpen rfl le_rfl rfl rfl fun _ among => .inl among
  | relookup workspace =>
    simp only [stage] at steps
    split at steps
    · cases steps
      exact appends_finish isOpen _
    · cases steps
      exact appends_finish isOpen _
    · split at steps <;> cases steps
      · exact appends_finish isOpen _
      · exact appends_goto isOpen _
  | lockDevice =>
    simp only [stage] at steps
    split at steps
    · cases steps
      exact appends_finish isOpen _
    · split at steps
      · split at steps
        · cases steps
          exact appends_finish isOpen _
        · split at steps <;> cases steps
          · exact appends_finish isOpen _
          · exact appends_of_put isOpen rfl le_rfl rfl rfl fun _ among => .inl among
      · cases steps
  | parents remaining =>
    cases remaining with
    | nil =>
      simp only [stage] at steps
      cases steps
      exact appends_goto isOpen _
    | cons parentID remaining =>
      simp only [stage] at steps
      split at steps <;> cases steps
      · exact appends_finish isOpen _
      · exact appends_goto isOpen _
  | body =>
    simp only [stage] at steps
    split at steps <;> cases steps
    · exact appends_finish isOpen _
    · exact appends_goto isOpen _
  | references bodyObject =>
    simp only [stage] at steps
    split at steps <;> cases steps
    · exact appends_finish isOpen _
    · exact appends_goto isOpen _
  | createCommit bodyObject objects =>
    simp only [stage] at steps
    split at steps
    · cases steps
      exact appends_finish isOpen _
    · rename_i kind _
      split at steps <;> cases steps
      · exact appends_of_end isOpen ⟨[], (append_nil _).symm, nofun⟩ (Nat.le_succ _) rfl
      · refine appends_of_put isOpen rfl (Nat.le_succ _) rfl rfl fun c among => ?_
        rcases mem_append.mp among with already | last
        · exact .inl already
        · cases mem_singleton.mp last
          exact .inr ⟨le_rfl, sid, session, kind, isOpen, rfl⟩
  | commitObjects commit remaining =>
    cases remaining with
    | nil =>
      simp only [stage] at steps
      cases steps
      exact appends_wrote isOpen _ nofun
    | cons row remaining =>
      simp only [stage] at steps
      cases steps
      exact appends_wrote isOpen _ nofun
  | deviceCursor commit =>
    simp only [stage] at steps
    cases steps
    exact appends_wrote isOpen _ nofun
  | workspaceHead commit =>
    simp only [stage] at steps
    split at steps <;> cases steps
    · exact appends_finish isOpen _
    · exact appends_wrote isOpen _ nofun
  | commit result =>
    simp only [stage] at steps
    cases steps
    exact appends_of_end isOpen (applyWrites_commits s.db session.writes)
      (applyWrites_nextServerSeq s.db session.writes).ge rfl

theorem appends_begin (svc : Service) (sid : Nat) (userID : Uuid) (params : PublishCommitParams) :
    Appends s (s.begin svc sid userID params) := by
  simp only [State.begin]
  split
  · exact appends_of_sessions rfl rfl rfl
  · rename_i session opened
    obtain ⟨normalized, normal, rest⟩ := bind_ok.mp opened
    obtain ⟨payload, _, isSession⟩ := bind_ok.mp rest
    cases isSession
    have before : ∀ other found, Function.update s.sessions sid (some
        { userID, params := normalized, canonicalPayload := payload, stage := .authorize,
          writes := [] : Session }) other = some found →
        s.sessions other = some found ∨ (found.params = normalized ∧ found.writes = []) := by
      intro other found isFound
      by_cases same : other = sid
      · rw [same, update_self] at isFound
        exact .inr (Option.some.inj isFound ▸ ⟨rfl, rfl⟩)
      · rw [update_of_ne same] at isFound
        exact .inl isFound
    refine ⟨⟨[], (append_nil _).symm, by simp⟩, le_rfl, ?_, ?_⟩
    · rintro c ⟨other, found, isFound, among⟩
      rcases before other found isFound with held | ⟨_, isEmpty⟩
      · exact .inl ⟨other, found, held, among⟩
      · rw [isEmpty] at among
        cases among
    · intro other found isFound
      rcases before other found isFound with held | ⟨isNormal, _⟩
      · exact .inl ⟨other, found, held, rfl⟩
      · exact .inr ⟨params, isNormal ▸ normal⟩

/-- **A step appends.** -/
theorem appends_next {label : Label} (steps : s.next svc label = some s') : Appends s s' := by
  cases label with
  | begin sid userID params =>
    simp only [State.next] at steps
    split at steps <;> cases steps
    exact appends_begin svc sid userID params
  | exec sid =>
    simp only [State.next, Option.bind_eq_some_iff] at steps
    obtain ⟨session, isOpen, executed⟩ := steps
    exact appends_exec isOpen executed
  | rollback sid =>
    simp only [State.next] at steps
    split at steps <;> cases steps
    rename_i isSome
    obtain ⟨session, isOpen⟩ := Option.isSome_iff_exists.mp isSome
    exact appends_finish isOpen _
  | createWorkspace id ownerUserID =>
    simp only [State.next] at steps
    split at steps <;> cases steps
    exact appends_of_sessions rfl rfl rfl
  | registerDevice workspaceID id userID signingPublicKey =>
    simp only [State.next] at steps
    split at steps <;> cases steps
    exact appends_of_sessions rfl rfl rfl
  | softDeleteWorkspace id =>
    simp only [State.next] at steps
    split at steps <;> cases steps
    exact appends_of_sessions rfl rfl rfl
  | revokeDevice workspaceID id =>
    simp only [State.next] at steps
    split at steps <;> cases steps
    exact appends_of_sessions rfl rfl rfl
  | changeObjects objects =>
    simp only [State.next] at steps
    cases steps
    exact appends_of_sessions rfl rfl rfl

/-! ## What is stored -/

theorem isSpace_of_isHexDigit {c : Char} (digit : isHexDigit c = true) : isSpace c = false := by
  have lt : ∀ a b : Char, a ≤ b → a.toNat ≤ b.toNat := fun _ _ le => UInt32.le_iff_toNat_le.mp le
  have range : 48 ≤ c.toNat ∧ c.toNat ≤ 102 := by
    simp only [isHexDigit, Bool.or_eq_true, Bool.and_eq_true, decide_eq_true_eq] at digit
    rcases digit with (⟨low, high⟩ | ⟨low, high⟩) | ⟨low, high⟩
    · exact ⟨lt _ _ low, (lt _ _ high).trans (by decide)⟩
    · exact ⟨le_trans (by decide) (lt _ _ low), lt _ _ high⟩
    · exact ⟨le_trans (by decide) (lt _ _ low), (lt _ _ high).trans (by decide)⟩
  simp only [isSpace, Bool.or_eq_false_iff, Bool.and_eq_false_iff, decide_eq_false_iff_not,
    beq_eq_false_iff_ne]
  omega

theorem trim_hex_ne {value : String} (isHexText : isHex value = true)
    (long : (utf8 value).length = 64) : trim value ≠ "" := by
  have digits := (Bool.and_eq_true_iff.mp isHexText).2
  rw [trim_eq_self fun c among =>
    isSpace_of_isHexDigit (all_eq_true.mp digits c among)]
  rintro rfl
  cases long

theorem legible_of_normal {raw params : PublishCommitParams}
    (normal : normalizePublishCommitParams raw = .ok params) : params.Legible := by
  unfold normalizePublishCommitParams at normal
  simp only [bind, Except.bind, pure, Except.pure, throw, throwThe, MonadExceptOf.throw] at normal
  repeat' split at normal
  all_goals cases normal
  rename_i valid _ _ _ long isHexText _ _ _
  simp only [not_or] at valid
  refine ⟨?_, ?_, trim_hex_ne (by simpa using isHexText) (by simpa using long)⟩
  · simpa using valid.2.1
  · simpa using valid.2.2.2.1

/-- The rows, and those that open transactions will insert. -/
structure State.Listed (s : State) : Prop where
  next : 0 < s.db.nextServerSeq
  commits : ∀ c ∈ s.db.commits, 0 < c.serverSeq ∧ c.Legible
  pending : ∀ c, s.Pending c → 0 < c.serverSeq ∧ c.Legible
  params : ∀ sid session, s.sessions sid = some session → session.params.Legible

theorem Appends.listed (appends : Appends s s') (listed : s.Listed) : s'.Listed where
  next := lt_of_lt_of_le listed.next appends.drawn
  commits c among := by
    obtain ⟨added, isAppended, pending⟩ := appends.commits
    rw [isAppended] at among
    rcases mem_append.mp among with before | isNew
    · exact listed.commits c before
    · exact listed.pending c (pending c isNew)
  pending c pending := by
    rcases appends.pending c pending with before | ⟨drawn, sid, session, kind, isOpen, isRow⟩
    · exact listed.pending c before
    · obtain ⟨commitID, bodyObjectID, digest⟩ := listed.params sid session isOpen
      refine ⟨lt_of_lt_of_le listed.next drawn, ?_⟩
      rw [isRow]
      exact ⟨commitID, bodyObjectID, digest⟩
  params sid session isOpen := by
    rcases appends.params sid session isOpen with ⟨other, before, wasOpen, same⟩ | ⟨raw, normal⟩
    · exact same ▸ listed.params other before wasOpen
    · exact legible_of_normal normal

theorem State.Listed.initial : State.initial.Listed where
  next := Nat.one_pos
  commits c among := by cases among
  pending c pending := by
    obtain ⟨sid, session, isOpen, _⟩ := pending
    cases isOpen
  params sid session isOpen := by cases isOpen

theorem listed_of_reachable (reached : (publishing svc).Reachable s) : s.Listed := by
  refine reached.invariant ?_ ?_
  · rintro _ rfl
    exact State.Listed.initial
  · intro before label after listed _ steps
    exact (appends_next steps).listed listed

theorem inv_of_reachable (reached : (publishing svc).Reachable s) : s.Inv := by
  refine reached.invariant ?_ ?_
  · rintro _ rfl
    exact State.Inv.initial
  · intro before label after inv _ steps
    exact inv.next steps

section History

variable {svc : Service} {w : Uuid}

variable (reached : (publishing svc).Reachable s)

include reached

theorem commitsOf_ordered (w : Uuid) :
    (s.db.commitsOf w).Pairwise fun a b => a.serverSeq < b.serverSeq := by
  have tables := (inv_of_reachable reached).tables
  cases found : s.db.workspaces w with
  | none =>
    rw [commitsOf_eq_nil tables found]
    exact .nil
  | some workspace => exact (tables.linear w workspace found).ordered

theorem history_of_reachable (w : Uuid) : s.db.history w = s.db.commitsOf w :=
  history_eq_commitsOf (commitsOf_ordered reached w)

theorem mem_history {c : KukuSyncCommit} (among : c ∈ s.db.history w) : c ∈ s.db.commits := by
  rw [history_of_reachable reached] at among
  exact mem_of_mem_filter among

/-- **A later history begins with the earlier one.** -/
theorem history_grows {labels : List Label} (ran : System.run (State.next svc) s labels = some s')
    (w : Uuid) :
    s.db.history w <+: s'.db.history w := by
  rw [history_of_reachable reached, history_of_reachable (System.reachable_of_run reached ran)]
  clear reached
  induction labels generalizing s with
  | nil =>
    cases ran
    exact prefix_rfl
  | cons label labels ih =>
    simp only [System.run, Option.bind_eq_some_iff] at ran
    obtain ⟨middle, stepped, rest⟩ := ran
    refine .trans ?_ (ih rest)
    obtain ⟨added, isAppended, _⟩ := (appends_next stepped).commits
    exact ⟨added.filter fun c => c.workspaceID = w, by
      rw [Db.commitsOf, Db.commitsOf, isAppended, filter_append]⟩

end History

theorem lastSeq_mono {cs cs' : List KukuSyncCommit} (earlier : cs <+: cs') (d : Uuid) :
    lastSeq d cs ≤ lastSeq d cs' := by
  have nonneg : ∀ xs : List Int, 0 ≤ xs.foldr max 0 := by
    intro xs
    induction xs <;> simp_all
  have below : ∀ {bound : Int} {xs : List Int}, 0 ≤ bound → (∀ x ∈ xs, x ≤ bound) →
      xs.foldr max 0 ≤ bound := by
    intro bound xs
    induction xs <;> simp_all
  refine below (nonneg _) fun x among => le_foldr_max ?_
  exact ((earlier.sublist.filter _).map _).subset among

theorem lastDeviceSeq_eq (reached : (publishing svc).Reachable s) (w d : Uuid) :
    ((s.db.devices w d).map (·.lastDeviceSeq)).getD 0 = lastSeq d (s.db.commitsOf w) := by
  have tables := (inv_of_reachable reached).tables
  cases isDevice : s.db.devices w d with
  | none => exact (lastSeq_of_absent tables isDevice).symm
  | some device =>
    obtain ⟨workspace, isWorkspace⟩ :=
      Option.ne_none_iff_exists'.mp (tables.housed w d (by simp [isDevice]))
    exact (tables.linear w workspace isWorkspace).last d device isDevice

/-- The server's states at the statements of a client's requests. -/
structure Timeline (svc : Service) where
  states : Nat → State
  reached : (publishing svc).Reachable (states 0)
  moves : ∀ n, ∃ labels, System.run (State.next svc) (states n) labels = some (states (n + 1))

namespace Timeline

variable {svc : Service} (timeline : Timeline svc)

/-- The tables at a statement. -/
def db (n : Nat) : Db := (timeline.states n).db

theorem reachable (n : Nat) : (publishing svc).Reachable (timeline.states n) := by
  induction n with
  | zero => exact timeline.reached
  | succ n ih =>
    obtain ⟨labels, ran⟩ := timeline.moves n
    exact System.reachable_of_run ih ran

theorem grows {m n : Nat} (before : m ≤ n) (w : Uuid) :
    (timeline.db m).history w <+: (timeline.db n).history w := by
  induction n, before using Nat.le_induction with
  | base => exact prefix_rfl
  | succ n _ ih =>
    obtain ⟨labels, ran⟩ := timeline.moves n
    exact ih.trans (history_grows (timeline.reachable n) ran w)

theorem ordered (n : Nat) (w : Uuid) :
    ((timeline.db n).history w).Pairwise fun a b => a.serverSeq < b.serverSeq := by
  rw [db, history_of_reachable (timeline.reachable n)]
  exact commitsOf_ordered (timeline.reachable n) w

end Timeline

/-! ## A publish between two pages -/

namespace Example

/-- An incremental commit on top of the second. -/
def third : PublishCommitParams where
  workspaceID := 1
  commitID := "c3"
  commitKind := .incremental
  expectedHeadCommitID := "c2"
  parentCommitIDs := ["c2"]
  authorDeviceID := 2
  deviceSeq := 3
  bodyObjectID := "body3"
  bodyCiphertextSHA256 := bodyDigest
  bodySizeBytes := 7
  referencedObjectIDs := []
  signature :=
    [152, 41, 151, 216, 164, 168, 114, 144, 141, 179, 69, 171, 41, 162, 163, 224, 123, 126, 145,
     48, 35, 81, 177, 44, 58, 113, 12, 196, 133, 18, 10, 177, 218, 247, 243, 129, 19, 32, 97,
     178, 225, 218, 142, 85, 45, 226, 132, 116, 59, 183, 234, 21, 17, 20, 67, 233, 115, 44, 157,
     232, 91, 35, 175, 4]

def thirdJSON : Bytes :=
  [123, 34, 119, 111, 114, 107, 115, 112, 97, 99, 101, 95, 105, 100, 34, 58, 34, 48, 48, 48, 48,
   48, 48, 48, 48, 45, 48, 48, 48, 48, 45, 48, 48, 48, 48, 45, 48, 48, 48, 48, 45, 48, 48, 48,
   48, 48, 48, 48, 48, 48, 48, 48, 49, 34, 44, 34, 99, 111, 109, 109, 105, 116, 95, 105, 100, 34,
   58, 34, 99, 51, 34, 44, 34, 99, 111, 109, 109, 105, 116, 95, 107, 105, 110, 100, 34, 58, 34,
   105, 110, 99, 114, 101, 109, 101, 110, 116, 97, 108, 34, 44, 34, 101, 120, 112, 101, 99, 116,
   101, 100, 95, 104, 101, 97, 100, 95, 99, 111, 109, 109, 105, 116, 95, 105, 100, 34, 58, 34,
   99, 50, 34, 44, 34, 112, 97, 114, 101, 110, 116, 95, 99, 111, 109, 109, 105, 116, 95, 105,
   100, 115, 34, 58, 91, 34, 99, 50, 34, 93, 44, 34, 97, 117, 116, 104, 111, 114, 95, 100, 101,
   118, 105, 99, 101, 95, 105, 100, 34, 58, 34, 48, 48, 48, 48, 48, 48, 48, 48, 45, 48, 48, 48,
   48, 45, 48, 48, 48, 48, 45, 48, 48, 48, 48, 45, 48, 48, 48, 48, 48, 48, 48, 48, 48, 48, 48,
   50, 34, 44, 34, 100, 101, 118, 105, 99, 101, 95, 115, 101, 113, 34, 58, 51, 44, 34, 98, 111,
   100, 121, 95, 111, 98, 106, 101, 99, 116, 95, 105, 100, 34, 58, 34, 98, 111, 100, 121, 51, 34,
   44, 34, 98, 111, 100, 121, 95, 99, 105, 112, 104, 101, 114, 116, 101, 120, 116, 95, 115, 104,
   97, 50, 53, 54, 34, 58, 34, 97, 98, 97, 98, 97, 98, 97, 98, 97, 98, 97, 98, 97, 98, 97, 98,
   97, 98, 97, 98, 97, 98, 97, 98, 97, 98, 97, 98, 97, 98, 97, 98, 97, 98, 97, 98, 97, 98, 97,
   98, 97, 98, 97, 98, 97, 98, 97, 98, 97, 98, 97, 98, 97, 98, 97, 98, 97, 98, 97, 98, 97, 98,
   97, 98, 34, 44, 34, 98, 111, 100, 121, 95, 115, 105, 122, 101, 95, 98, 121, 116, 101, 115, 34,
   58, 55, 44, 34, 114, 101, 102, 101, 114, 101, 110, 99, 101, 100, 95, 111, 98, 106, 101, 99,
   116, 95, 105, 100, 115, 34, 58, 91, 93, 125]

/-- The three payloads and their signatures under the device's key. -/
def serviceOfThree : Service where
  marshal payload := if payload.commitID = "c3" then thirdJSON else service.marshal payload
  verify key message signature := service.verify key message signature ||
    (key = signingPublicKey ∧ message = thirdJSON ∧ signature = third.signature)

def objectsOfThree (w : Uuid) (objectID : String) : Option KukuSyncObject :=
  if w = 1 ∧ objectID = "body3" then some (stored objectID .commitBody) else objects w objectID

def publishTwo : List Label :=
  [.createWorkspace 1 9, .registerDevice 1 2 9 signingPublicKey, .changeObjects objectsOfThree,
    .begin 0 9 first] ++ List.replicate 15 (.exec 0) ++ .begin 1 9 second ::
  List.replicate 15 (.exec 1)

def publishThird : List Label := .begin 2 9 third :: List.replicate 15 (.exec 2)

/-- What a reader meets in the tables. -/
def seen (s : State) : Option KukuSyncWorkspace × List String × Nat × String :=
  (s.db.getSyncWorkspace 1 9, (s.db.history 1).map (·.commitID), s.db.nextServerSeq,
    s.db.getLatestSyncCheckpointCommitID 1)

theorem third_isNormal : third.IsNormal where
  commitID := by decide
  expectedHeadCommitID := by decide
  bodyObjectID := by decide
  bodyCiphertextSHA256 := isDigest_bodyDigest
  named := by decide
  commitKind := rfl
  parentCommitIDs := by decide
  parentsDiffer := by decide
  referencedObjectIDs := rfl
  referencesDiffer := rfl
  bodyNotReferenced := by decide

theorem run_publishes :
    ((System.run (State.next serviceOfThree) State.initial publishTwo).bind fun s =>
      (System.run (State.next serviceOfThree) s publishThird).map fun s' => (seen s, seen s')) =
      some ((some ⟨1, 9, some "c2", 2, false⟩, ["c1", "c2"], 3, "c1"),
        (some ⟨1, 9, some "c3", 3, false⟩, ["c1", "c2", "c3"], 4, "c1")) := by
  have split : publishTwo =
      [.createWorkspace 1 9, .registerDevice 1 2 9 signingPublicKey,
          .changeObjects objectsOfThree] ++
        .begin 0 9 first :: (List.replicate 15 (.exec 0) ++
          .begin 1 9 second :: List.replicate 15 (.exec 1)) := rfl
  simp only [split, publishThird, System.run_append, first_isNormal.run_begin,
    second_isNormal.run_begin, third_isNormal.run_begin]
  decide +kernel

end Example

end Kuku.Server
