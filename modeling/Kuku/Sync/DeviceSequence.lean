/-
# Sync.DeviceSequence -- a vault's sequence number against the server's

One vault of one account and the server of `Server.PublishInterleaving`, with every
other client of the server.  The vault's client sends `PublishCommit` requests and
waits for the answer; a request is in flight while its transaction runs, and an
answer reaches the client (`deliver`) or not (`abandon`: a time-out, a lost response,
a crash, or a failed local write before `update_vault_after_publish`).

* `NoWedge` is what the two counters owe each other.
* `wedge_after_lost_response` is the run that breaks it: the publish was executed, its
  answer was lost, and the pull that brings the commit back moves the heads but not
  `next_device_seq`.
* `noWedge_of_recovered` is the result for the runs that lose no such answer and
  start a new row only for a device that has published nothing.
-/
import Kuku.Server.PublishOutcome
import Kuku.Sync.VaultRecord

namespace Kuku.Sync

open Kuku.Theory Kuku.Server Function Option System

namespace DeviceSequence

/-- The account of the vault, `uuid.Parse`, and the devices registered from this
vault: only they are signed for with its key. -/
structure Setting where
  svc : Service
  user : Uuid
  uuid : String → Option Uuid
  mine : Uuid → Bool

/-- The client: its row, the request it waits for, the requests it has ever sent,
and the devices the row has named since it was created. -/
structure Client where
  row : Option SyncVaultRecord
  awaiting : Option (Nat × PublishCommitParams)
  sent : List Nat
  named : List (Uuid × Uuid)

structure State where
  server : Server.State
  client : Client

def initial : State where
  server := Server.State.initial
  client := { row := none, awaiting := none, sent := [], named := [] }

/-- A step of the server or of another client, or one of this client's:
`sync_configure_vault` or a reopened vault, `sync_disconnect_vault` or a schema
reset, a pull with the commits it applied, a push or a merge push, the answer to a
push, and the loss of that answer. -/
inductive Label where
  | server (step : Server.Label)
  | configure (config : SyncVaultConfig) (enabled : Bool)
  | deleteVault
  | pull (input : PipelineInput) (head : SyncHead) (applied : List String)
  | push (merge : Bool) (input : PipelineInput) (head : SyncHead) (sid : Nat)
      (params : PublishCommitParams)
  | deliver
  | abandon

section Protocol

variable (setting : Setting)

/-- The workspace and the device a row names. -/
def Setting.bound (row : SyncVaultRecord) : Option (Uuid × Uuid) :=
  match setting.uuid row.remoteWorkspaceId, setting.uuid row.deviceId with
  | some w, some d => some (w, d)
  | _, _ => none

/-- The row is written.  A configuration names a device of this vault. -/
def Client.bind (client : Client) (row : SyncVaultRecord) : Option Client :=
  let named := if client.row.isNone then [] else client.named
  match setting.bound row with
  | none => some { client with row := some row, named }
  | some (w, d) =>
    if setting.mine d then
      some { client with row := some row, named := (w, d) :: named }
    else none

def pushRecord (merge : Bool) (existing : Option SyncVaultRecord) (input : PipelineInput)
    (head : SyncHead) : SyncVaultRecord :=
  if merge then ensureMergeVaultRecord existing input head
  else ensureVaultRecord existing input head

/-- `publish_commit` is called with the row's binding and its sequence number. -/
def sends (row : SyncVaultRecord) (params : PublishCommitParams) : Prop :=
  setting.bound row = some (params.workspaceID, params.authorDeviceID) ∧
    params.deviceSeq = row.nextDeviceSeq

instance (row : SyncVaultRecord) (params : PublishCommitParams) :
    Decidable (sends setting row params) :=
  inferInstanceAs (Decidable (_ ∧ _))

/-- `apply_publish_success`, as far as it concerns the row. -/
def applyPublishSuccess (client : Client) (params : PublishCommitParams)
    (published : PublishCommitResult) : Client :=
  { client with
    row := updateVaultAfterPublish client.row published.commit.commitID (params.deviceSeq + 1)
    awaiting := none }

/-- The step is another client's, or not a request at all. -/
def foreign (s : State) : Server.Label → Bool
  | .begin sid _ params =>
    !setting.mine params.authorDeviceID && !(s.client.sent.contains sid) &&
      (s.server.results sid).isNone
  | _ => true

def next (s : State) : Label → Option State
  | .server step =>
    if foreign setting s step then
      (s.server.next setting.svc step).map fun server => { s with server := server }
    else none
  | .configure config enabled =>
    (s.client.bind setting (persistConfiguredVault s.client.row config enabled)).map
      fun client => { s with client := client }
  | .deleteVault => some { s with client := { s.client with row := none, named := [] } }
  | .pull input head applied =>
    (s.client.bind setting (ensurePullVaultRecord s.client.row input head)).map fun client =>
      { s with client :=
        { client with row := applied.foldl updateVaultAfterPull client.row } }
  | .push merge input head sid params =>
    let row := pushRecord merge s.client.row input head
    if s.client.awaiting.isNone ∧ sid ∉ s.client.sent ∧ (s.server.results sid).isNone ∧
        sends setting row params then
      (s.client.bind setting row).bind fun client =>
        (s.server.next setting.svc (.begin sid setting.user params)).map fun server =>
          { server
            client :=
              { client with awaiting := some (sid, params), sent := sid :: client.sent } }
    else none
  | .deliver =>
    match s.client.awaiting with
    | none => none
    | some (sid, params) =>
      match s.server.results sid with
      | none => none
      | some (.error _) => some { s with client := { s.client with awaiting := none } }
      | some (.ok published) =>
        some { s with client := applyPublishSuccess s.client params published }
  | .abandon =>
    match s.client.awaiting with
    | none => none
    | some _ => some { s with client := { s.client with awaiting := none } }

def protocol : System State Label := System.ofStep (· = initial) (next setting)

/-- `last_device_seq`, `0` for a device without a row. -/
def lastDeviceSeq (db : Db) (p : Uuid × Uuid) : Int :=
  ((db.devices p.1 p.2).map (·.lastDeviceSeq)).getD 0

/-- No request of this client is in flight. -/
def Idle (s : State) : Prop :=
  s.client.awaiting = none ∧ ∀ sid ∈ s.client.sent, s.server.sessions sid = none

/-- **The counters never wedge**: with nothing in flight the row's next sequence number
is above its device's last one, and no push the client waits for is answered with
`ErrDuplicateDeviceSeq`. -/
def NoWedge (s : State) : Prop :=
  (Idle s → ∀ row w d device, s.client.row = some row → setting.bound row = some (w, d) →
    s.server.db.devices w d = some device → device.lastDeviceSeq < row.nextDeviceSeq) ∧
  ∀ sid params, s.client.awaiting = some (sid, params) →
    s.server.results sid ≠ some (.error .duplicateDeviceSeq)

/-- The binding a step writes fits the row it is written to: a new row names a device
that has published nothing; an existing row names such a device or one it has named
before. -/
def fits (s : State) (row : SyncVaultRecord) : Bool :=
  match setting.bound row with
  | none => true
  | some p => lastDeviceSeq s.server.db p = 0 ||
      (s.client.row.isSome && s.client.named.contains p)

def isExecuted : Option (Except Server.SyncError PublishCommitResult) → Bool
  | some (.ok _) => true
  | _ => false

def isCommitting (session : Session) : Bool :=
  match session.stage with
  | .commit _ => true
  | _ => false

/-- The step loses the answer of an executed publish: the client gives up on a publish
that has been executed, or one it has given up on is committed. -/
def losesCommit (s : State) : Label → Bool
  | .abandon => isExecuted (s.client.awaiting.bind fun request => s.server.results request.1)
  | .server (.exec sid) => s.client.sent.contains sid &&
      s.client.awaiting.map (·.1) != some sid && (s.server.sessions sid).any isCommitting
  | _ => false

/-- The condition under which the counters keep in step. -/
def recovers (s : State) (label : Label) : Bool :=
  !losesCommit s label &&
    match label with
    | .configure config enabled =>
      fits setting s (persistConfiguredVault s.client.row config enabled)
    | .pull input head _ => fits setting s (ensurePullVaultRecord s.client.row input head)
    | .push merge input head _ _ => fits setting s (pushRecord merge s.client.row input head)
    | _ => true

/-! ## The invariant -/

/-- Every device the row has named is behind it. -/
def Below (s : State) : Prop :=
  ∀ p ∈ s.client.named, ∀ row, s.client.row = some row →
    lastDeviceSeq s.server.db p < row.nextDeviceSeq

/-- The device a request is made for. -/
def author (params : PublishCommitParams) : Uuid × Uuid :=
  (params.workspaceID, params.authorDeviceID)

/-- What holds while the client waits for an answer: the publish has not been
executed, or its answer is on the way and only its own device has moved. -/
structure Waiting (s : State) (sid : Nat) (params : PublishCommitParams) : Prop where
  sent : sid ∈ s.client.sent
  mine : setting.mine params.authorDeviceID
  positive : 0 < params.deviceSeq
  running : ∀ session, s.server.sessions sid = some session → s.server.results sid = none ∧
    author session.params = author params ∧ session.params.deviceSeq = params.deviceSeq
  behind : ∀ row, s.client.row = some row → row.nextDeviceSeq ≤ params.deviceSeq
  outcome :
    (Below s ∧ lastDeviceSeq s.server.db (author params) < params.deviceSeq) ∨
    ((∃ published, s.server.results sid = some (.ok published)) ∧
      lastDeviceSeq s.server.db (author params) ≤ params.deviceSeq ∧
      ∀ p ∈ s.client.named, p ≠ author params → ∀ row, s.client.row = some row →
        lastDeviceSeq s.server.db p < row.nextDeviceSeq)
  fresh : s.server.results sid ≠ some (.error .duplicateDeviceSeq)

structure Inv (s : State) : Prop where
  server : s.server.Inv
  positive : ∀ row, s.client.row = some row → 0 < row.nextDeviceSeq
  bound : ∀ row p, s.client.row = some row → setting.bound row = some p → p ∈ s.client.named
  mine : ∀ p ∈ s.client.named, setting.mine p.2
  foreign : ∀ sid session, s.server.sessions sid = some session → sid ∉ s.client.sent →
    setting.mine session.params.authorDeviceID = false
  idle : s.client.awaiting = none → Below s
  waiting : ∀ sid params, s.client.awaiting = some (sid, params) → Waiting setting s sid params

variable {setting}

theorem Inv.initial : Inv setting initial where
  server := Server.State.Inv.initial
  positive := by simp [DeviceSequence.initial]
  bound := by simp [DeviceSequence.initial]
  mine := by simp [DeviceSequence.initial]
  foreign := by simp [DeviceSequence.initial, Server.State.initial]
  idle := by simp [DeviceSequence.initial, Below]
  waiting := by simp [DeviceSequence.initial]

theorem Inv.noWedge {s : State} (inv : Inv setting s) : NoWedge setting s := by
  refine ⟨?_, fun sid params awaited => (inv.waiting sid params awaited).fresh⟩
  intro idle row w d device isRow names found
  have below := inv.idle idle.1 (w, d) (inv.bound row _ isRow names) row isRow
  simpa [lastDeviceSeq, found] using below

/-! ## Steps of the server -/

section Server

variable {s : State} {server : Server.State} {step : Server.Label}

/-- Only a commit of the awaited publish moves a device of this vault. -/
theorem server_lastDeviceSeq (inv : Inv setting s)
    (keeps : losesCommit s (.server step) = false) (steps : s.server.next setting.svc step = some server)
    {p : Uuid × Uuid} (isMine : setting.mine p.2) :
    lastDeviceSeq server.db p = lastDeviceSeq s.server.db p ∨
      ∃ sid params published, s.client.awaiting = some (sid, params) ∧ p = author params ∧
        server.results sid = some (.ok published) ∧
        lastDeviceSeq server.db p = params.deviceSeq := by
  rcases Server.State.next_devices inv.server steps p.1 p.2 with same |
    ⟨sid, session, published, rfl, isOwn, stage, answered, ofW, ofD, seq⟩
  · exact .inl same
  · right
    by_cases wasSent : sid ∈ s.client.sent
    · by_cases awaited : ∃ params, s.client.awaiting = some (sid, params)
      · obtain ⟨params, awaited⟩ := awaited
        obtain ⟨_, sameAuthor, sameSeq⟩ := (inv.waiting sid params awaited).running session isOwn
        refine ⟨sid, params, published, awaited, ?_, answered, ?_⟩
        · rw [← sameAuthor]
          exact Prod.ext ofW.symm ofD.symm
        · rw [← sameSeq]
          exact seq
      · exfalso
        have notAwaited : s.client.awaiting.map (·.1) ≠ some sid := by
          intro same
          obtain ⟨⟨sid', params⟩, isAwaited, rfl⟩ := map_eq_some_iff.mp same
          exact awaited ⟨params, isAwaited⟩
        simp [losesCommit, wasSent, notAwaited, isOwn, isCommitting, stage] at keeps
    · have isForeign := inv.foreign sid session isOwn wasSent
      rw [ofD, isMine] at isForeign
      cases isForeign

theorem server_foreign (inv : Inv setting s) (isForeign : DeviceSequence.foreign setting s step)
    (steps : s.server.next setting.svc step = some server) (sid : Nat) (session : Session)
    (found : server.sessions sid = some session) (notSent : sid ∉ s.client.sent) :
    setting.mine session.params.authorDeviceID = false := by
  by_cases begins : ∃ userID params, step = .begin sid userID params
  · obtain ⟨userID, params, rfl⟩ := begins
    simp only [DeviceSequence.foreign, Bool.and_eq_true, Bool.not_eq_eq_eq_not, Bool.not_true]
      at isForeign
    simp only [Server.State.next] at steps
    split at steps <;> cases steps
    rename_i absent
    obtain ⟨e, _, refused⟩ | ⟨opened, _, sameDevice, _, isOpened⟩ :=
      Server.State.begin_cases setting.svc s.server sid userID params
    · rw [refused] at found
      simp_all
    · simp only [isOpened, update_self, Option.some.injEq] at found
      rw [← found, sameDevice]
      exact isForeign.1.1
  · by_cases executes : step = .exec sid
    · subst executes
      simp only [Server.State.next, bind_eq_some_iff] at steps
      obtain ⟨before, isOwn, executed⟩ := steps
      obtain ⟨result, ends⟩ | ⟨session', goesOn⟩ := Server.State.exec_cases executed
      · rw [ends.sessions, update_self] at found
        cases found
      · rw [goesOn.sessions, update_self, Option.some.injEq] at found
        rw [← found, goesOn.params]
        exact inv.foreign sid before isOwn notSent
    · by_cases rolls : step = .rollback sid
      · subst rolls
        simp only [Server.State.next] at steps
        split at steps <;> cases steps
        simp [Server.State.finish] at found
      · have same := (Server.State.next_frame steps
          (fun userID params is => begins ⟨userID, params, is⟩) executes rolls).1
        exact inv.foreign sid session (same ▸ found) notSent

/-- The awaited call after a step: unanswered and still the same request, or answered. -/
theorem server_awaited (inv : Inv setting s) (isForeign : DeviceSequence.foreign setting s step)
    (steps : s.server.next setting.svc step = some server) {sid : Nat}
    {params : PublishCommitParams} (awaited : s.client.awaiting = some (sid, params)) :
    (∀ session, server.sessions sid = some session → server.results sid = none ∧
      author session.params = author params ∧ session.params.deviceSeq = params.deviceSeq) ∧
    server.results sid ≠ some (.error .duplicateDeviceSeq) ∧
    (∀ published, s.server.results sid = some (.ok published) →
      server.results sid = some (.ok published)) := by
  have waiting := inv.waiting sid params awaited
  by_cases executes : step = .exec sid
  · subst executes
    simp only [Server.State.next, bind_eq_some_iff] at steps
    obtain ⟨before, isOwn, executed⟩ := steps
    obtain ⟨unanswered, sameAuthor, sameSeq⟩ := waiting.running before isOwn
    obtain ⟨result, ends⟩ | ⟨session', goesOn⟩ := Server.State.exec_cases executed
    · refine ⟨?_, ?_, ?_⟩
      · intro session found
        rw [ends.sessions, update_self] at found
        cases found
      · rw [ends.results, update_self]
        intro isDuplicate
        obtain ⟨device, found, stale⟩ := ends.stale (Option.some.inj isDuplicate)
        rcases waiting.outcome with ⟨_, below⟩ | ⟨⟨published, answered⟩, _⟩
        · have last : lastDeviceSeq s.server.db (author params) = device.lastDeviceSeq := by
            rw [← sameAuthor]
            simp [lastDeviceSeq, author, found]
          omega
        · rw [unanswered] at answered
          cases answered
      · intro published answered
        rw [unanswered] at answered
        cases answered
    · rw [goesOn.results]
      refine ⟨?_, waiting.fresh, fun _ answered => answered⟩
      intro session found
      rw [goesOn.sessions, update_self, Option.some.injEq] at found
      rw [← found, goesOn.params]
      exact ⟨unanswered, sameAuthor, sameSeq⟩
  · by_cases rolls : step = .rollback sid
    · subst rolls
      simp only [Server.State.next] at steps
      split at steps <;> cases steps
      rename_i running
      obtain ⟨before, isOwn⟩ := isSome_iff_exists.mp running
      have unanswered := (waiting.running before isOwn).1
      refine ⟨?_, ?_, ?_⟩
      · intro session found
        simp [Server.State.finish] at found
      · simp [Server.State.finish]
      · intro published answered
        rw [unanswered] at answered
        cases answered
    · have notBegin : ∀ userID params, step ≠ .begin sid userID params := by
        rintro userID params rfl
        simp [DeviceSequence.foreign, waiting.sent] at isForeign
      obtain ⟨sameSession, sameResult⟩ := Server.State.next_frame steps notBegin executes rolls
      rw [sameSession, sameResult]
      exact ⟨waiting.running, waiting.fresh, fun _ answered => answered⟩

/-- **A step of the server or of another client.** -/
theorem Inv.server_step (inv : Inv setting s) (isForeign : DeviceSequence.foreign setting s step)
    (keeps : losesCommit s (.server step) = false)
    (steps : s.server.next setting.svc step = some server) :
    Inv setting { s with server := server } := by
  have last := fun p isMine => server_lastDeviceSeq inv keeps steps (p := p) isMine
  refine ⟨inv.server.next steps, inv.positive, inv.bound, inv.mine,
    fun sid session found notSent => server_foreign inv isForeign steps sid session found notSent,
    ?_, ?_⟩
  · intro free p member row isRow
    rcases last p (inv.mine p member) with same | ⟨sid, params, _, awaited, _⟩
    · rw [same]
      exact inv.idle free p member row isRow
    · rw [free] at awaited
      cases awaited
  · intro sid params awaited
    have waiting := inv.waiting sid params awaited
    obtain ⟨running, fresh, answered⟩ := server_awaited inv isForeign steps awaited
    refine ⟨waiting.sent, waiting.mine, waiting.positive, running, waiting.behind, ?_, fresh⟩
    -- did this step commit the awaited publish?
    have own : ∀ p, setting.mine p.2 → lastDeviceSeq server.db p = lastDeviceSeq s.server.db p ∨
        p = author params ∧ (∃ published, server.results sid = some (.ok published)) ∧
          lastDeviceSeq server.db p = params.deviceSeq := by
      intro p isMine
      rcases last p isMine with same | ⟨sid', params', published, awaited', isAuthor, result, seq⟩
      · exact .inl same
      · rw [awaited, Option.some.injEq, Prod.mk.injEq] at awaited'
        obtain ⟨rfl, rfl⟩ := awaited'
        exact .inr ⟨isAuthor, ⟨published, result⟩, seq⟩
    have othersKept : ∀ p ∈ s.client.named, p ≠ author params →
        lastDeviceSeq server.db p = lastDeviceSeq s.server.db p := by
      intro p member ne
      rcases own p (inv.mine p member) with same | ⟨isAuthor, _⟩
      · exact same
      · exact absurd isAuthor ne
    rcases own (author params) waiting.mine with same | ⟨_, published, seq⟩
    · rcases waiting.outcome with ⟨below, pending⟩ | ⟨⟨published, result⟩, reached, others⟩
      · left
        refine ⟨?_, by rw [same]; exact pending⟩
        intro p member row isRow
        by_cases isAuthor : p = author params
        · subst isAuthor
          rw [same]
          exact below _ member row isRow
        · rw [othersKept p member isAuthor]
          exact below p member row isRow
      · right
        refine ⟨⟨published, answered published result⟩, by rw [same]; exact reached, ?_⟩
        intro p member ne row isRow
        rw [othersKept p member ne]
        exact others p member ne row isRow
    · right
      refine ⟨published, le_of_eq seq, ?_⟩
      intro p member ne row isRow
      rw [othersKept p member ne]
      rcases waiting.outcome with ⟨below, _⟩ | ⟨_, _, others⟩
      · exact below p member row isRow
      · exact others p member ne row isRow

end Server

/-! ## Steps of the client -/

section Client

variable {s : State} {client : Client}

variable {row : SyncVaultRecord}

theorem bind_cases (bound : s.client.bind setting row = some client) :
    client.row = some row ∧ client.awaiting = s.client.awaiting ∧ client.sent = s.client.sent ∧
      (∀ p, setting.bound row = some p → p ∈ client.named ∧ setting.mine p.2) ∧
      ∀ p ∈ client.named, setting.bound row = some p ∨
        (s.client.row ≠ none ∧ p ∈ s.client.named) := by
  have older : ∀ p, p ∈ (if s.client.row.isNone then [] else s.client.named) →
      s.client.row ≠ none ∧ p ∈ s.client.named := by
    intro p member
    cases isRow : s.client.row <;> simp_all
  simp only [Client.bind] at bound
  split at bound
  · rename_i unnamed
    cases bound
    refine ⟨rfl, rfl, rfl, ?_, fun p member => .inr (older p member)⟩
    intro p names
    rw [unnamed] at names
    cases names
  · rename_i w d names
    split at bound <;> cases bound
    rename_i isMine
    refine ⟨rfl, rfl, rfl, ?_, ?_⟩
    · intro p names'
      rw [names, Option.some.injEq] at names'
      subst names'
      exact ⟨List.mem_cons_self, isMine⟩
    · intro p member
      rcases List.mem_cons.mp member with rfl | old
      · exact .inl names
      · exact .inr (older p old)

theorem fits_bound (isFit : fits setting s row) {p : Uuid × Uuid}
    (isBound : setting.bound row = some p) :
    lastDeviceSeq s.server.db p = 0 ∨ (s.client.row ≠ none ∧ p ∈ s.client.named) := by
  simpa [fits, isBound, isSome_iff_ne_none] using isFit

/-- **The row takes a binding that fits it.** -/
theorem Inv.bind (inv : Inv setting s) (isFit : fits setting s row)
    (seq : row.nextDeviceSeq = (s.client.row.map (·.nextDeviceSeq)).getD 1)
    (bound : s.client.bind setting row = some client) :
    Inv setting { s with client := client } := by
  obtain ⟨isRow, sameAwaiting, sameSent, names, named⟩ := bind_cases bound
  have positive : 0 < row.nextDeviceSeq := by
    rw [seq]
    cases old : s.client.row with
    | none => simp
    | some before => simpa using inv.positive before old
  -- a name the new row carries belongs to a fresh device or was carried before
  have carried : ∀ p ∈ client.named, lastDeviceSeq s.server.db p = 0 ∨
      ∃ before, s.client.row = some before ∧ p ∈ s.client.named ∧
        row.nextDeviceSeq = before.nextDeviceSeq := by
    intro p member
    have old : lastDeviceSeq s.server.db p = 0 ∨ (s.client.row ≠ none ∧ p ∈ s.client.named) := by
      rcases named p member with isBound | old
      · exact fits_bound isFit isBound
      · exact .inr old
    rcases old with fresh | ⟨present, old⟩
    · exact .inl fresh
    · obtain ⟨before, isBefore⟩ := ne_none_iff_exists'.mp present
      exact .inr ⟨before, isBefore, old, by simp [seq, isBefore]⟩
  have keepsBelow : ∀ p ∈ client.named,
      (∀ before, s.client.row = some before → p ∈ s.client.named →
        lastDeviceSeq s.server.db p < before.nextDeviceSeq) →
      ∀ row', client.row = some row' → lastDeviceSeq s.server.db p < row'.nextDeviceSeq := by
    intro p member below row' isRow'
    obtain rfl : row = row' := Option.some.inj (isRow.symm.trans isRow')
    rcases carried p member with fresh | ⟨before, isBefore, old, same⟩
    · rw [fresh]
      exact positive
    · rw [same]
      exact below before isBefore old
  refine ⟨inv.server, ?_, ?_, ?_, ?_, ?_, ?_⟩
  · intro row' isRow'
    obtain rfl : row = row' := Option.some.inj (isRow.symm.trans isRow')
    exact positive
  · intro row' p isRow' isBound
    obtain rfl : row = row' := Option.some.inj (isRow.symm.trans isRow')
    exact (names p isBound).1
  · intro p member
    rcases named p member with isBound | ⟨_, old⟩
    · exact (names p isBound).2
    · exact inv.mine p old
  · intro sid session found notSent
    exact inv.foreign sid session found (sameSent ▸ notSent)
  · intro free p member
    have below := inv.idle (sameAwaiting ▸ free)
    exact keepsBelow p member fun before isBefore old => below p old before isBefore
  · intro sid params awaited
    obtain ⟨wasSent, isMine, positiveSeq, running, behind, outcome, fresh⟩ :=
      inv.waiting sid params (sameAwaiting ▸ awaited)
    refine ⟨sameSent ▸ wasSent, isMine, positiveSeq, running, ?_, ?_, fresh⟩
    · intro row' isRow'
      obtain rfl : row = row' := Option.some.inj (isRow.symm.trans isRow')
      rw [seq]
      cases old : s.client.row with
      | none =>
        show (1 : Int) ≤ params.deviceSeq
        omega
      | some before => simpa using behind before old
    · rcases outcome with ⟨below, pending⟩ | ⟨published, reached, others⟩
      · left
        refine ⟨?_, pending⟩
        intro p member
        exact keepsBelow p member fun before isBefore old => below p old before isBefore
      · right
        refine ⟨published, reached, ?_⟩
        intro p member ne
        exact keepsBelow p member fun before isBefore old => others p old ne before isBefore

/-- The heads of the row move; its binding and its sequence number stay. -/
theorem Inv.moveHeads (inv : Inv setting s) {row row' : SyncVaultRecord}
    (isRow : s.client.row = some row)
    (sameWorkspace : row'.remoteWorkspaceId = row.remoteWorkspaceId)
    (sameDevice : row'.deviceId = row.deviceId)
    (sameSeq : row'.nextDeviceSeq = row.nextDeviceSeq) :
    Inv setting { s with client := { s.client with row := some row' } } := by
  have sameBound : setting.bound row' = setting.bound row := by
    simp only [Setting.bound, sameWorkspace, sameDevice]
  have keepsBelow : ∀ p, (∀ before, s.client.row = some before →
      lastDeviceSeq s.server.db p < before.nextDeviceSeq) →
      ∀ r, some row' = some r → lastDeviceSeq s.server.db p < r.nextDeviceSeq := by
    intro p below r isR
    cases isR
    rw [sameSeq]
    exact below row isRow
  refine ⟨inv.server, ?_, ?_, inv.mine, inv.foreign, ?_, ?_⟩
  · intro r isR
    cases isR
    rw [sameSeq]
    exact inv.positive row isRow
  · intro r p isR isBound
    cases isR
    exact inv.bound row p isRow (sameBound ▸ isBound)
  · intro free p member
    exact keepsBelow p (inv.idle free p member)
  · intro sid params awaited
    obtain ⟨wasSent, isMine, positiveSeq, running, behind, outcome, fresh⟩ :=
      inv.waiting sid params awaited
    refine ⟨wasSent, isMine, positiveSeq, running, ?_, ?_, fresh⟩
    · intro r isR
      cases isR
      rw [sameSeq]
      exact behind row isRow
    · rcases outcome with ⟨below, pending⟩ | ⟨published, reached, others⟩
      · exact .inl ⟨fun p member => keepsBelow p (below p member), pending⟩
      · exact .inr ⟨published, reached, fun p member ne => keepsBelow p (others p member ne)⟩

theorem foldl_updateVaultAfterPull (applied : List String) (row : SyncVaultRecord) :
    ∃ row', applied.foldl updateVaultAfterPull (some row) = some row' ∧
      row'.remoteWorkspaceId = row.remoteWorkspaceId ∧ row'.deviceId = row.deviceId ∧
      row'.nextDeviceSeq = row.nextDeviceSeq := by
  induction applied generalizing row with
  | nil => exact ⟨row, rfl, rfl, rfl, rfl⟩
  | cons commitId rest ih =>
    simp only [List.foldl_cons, updateVaultAfterPull, map_some]
    exact ih _

theorem Inv.pull (inv : Inv setting s) {input : PipelineInput} {head : SyncHead}
    (isFit : fits setting s (ensurePullVaultRecord s.client.row input head))
    (bound : s.client.bind setting (ensurePullVaultRecord s.client.row input head) = some client)
    (applied : List String) :
    Inv setting { s with
      client := { client with row := applied.foldl updateVaultAfterPull client.row } } := by
  have rebound : Inv setting { s with client := client } :=
    inv.bind isFit (ensureRecord_nextDeviceSeq _ _ _ _ inv.positive) bound
  have isRow := (bind_cases bound).1
  obtain ⟨row', moved, sameWorkspace, sameDevice, sameSeq⟩ :=
    foldl_updateVaultAfterPull applied (ensurePullVaultRecord s.client.row input head)
  rw [isRow, moved]
  exact rebound.moveHeads isRow sameWorkspace sameDevice sameSeq

theorem Inv.deleteVault (inv : Inv setting s) :
    Inv setting { s with client := { s.client with row := none, named := [] } } := by
  refine ⟨inv.server, by simp, by simp, by simp, inv.foreign, by simp [Below], ?_⟩
  intro sid params awaited
  obtain ⟨wasSent, isMine, positiveSeq, running, _, outcome, fresh⟩ :=
    inv.waiting sid params awaited
  refine ⟨wasSent, isMine, positiveSeq, running, by simp, ?_, fresh⟩
  rcases outcome with ⟨_, pending⟩ | ⟨published, reached, _⟩
  · exact .inl ⟨by simp [Below], pending⟩
  · exact .inr ⟨published, reached, by simp⟩

theorem pushRecord_nextDeviceSeq (inv : Inv setting s) (merge : Bool) (input : PipelineInput)
    (head : SyncHead) :
    (pushRecord merge s.client.row input head).nextDeviceSeq =
      (s.client.row.map (·.nextDeviceSeq)).getD 1 := by
  cases merge <;> exact ensureRecord_nextDeviceSeq _ _ _ _ inv.positive

variable {params : PublishCommitParams}

/-- A request leaves with the row's sequence number. -/
theorem Inv.push (inv : Inv setting s) {sid : Nat} {server : Server.State}
    (isFit : fits setting s row)
    (seq : row.nextDeviceSeq = (s.client.row.map (·.nextDeviceSeq)).getD 1)
    (free : s.client.awaiting = none) (unanswered : s.server.results sid = none)
    (request : sends setting row params) (bound : s.client.bind setting row = some client)
    (begun : s.server.next setting.svc (.begin sid setting.user params) = some server) :
    Inv setting
      { server
        client := { client with awaiting := some (sid, params), sent := sid :: client.sent } } := by
  have rebound : Inv setting { s with client := client } := inv.bind isFit seq bound
  obtain ⟨isRow, sameAwaiting, sameSent, names, _⟩ := bind_cases bound
  obtain ⟨isMember, isMine⟩ := names _ request.1
  have below : Below { s with client := client } := rebound.idle (sameAwaiting.trans free)
  have serverInv := inv.server.next begun
  simp only [Server.State.next] at begun
  split at begun <;> cases begun
  rename_i absent
  have wasAbsent : s.server.sessions sid = none := by simpa using absent
  obtain ⟨sameDb, sessions, fresh⟩ :
      (s.server.begin setting.svc sid setting.user params).db = s.server.db ∧
      (∀ other session, (s.server.begin setting.svc sid setting.user params).sessions other =
        some session → s.server.sessions other = some session ∨ (other = sid ∧
          (s.server.begin setting.svc sid setting.user params).results sid = none ∧
          author session.params = author params ∧
          session.params.deviceSeq = params.deviceSeq)) ∧
      (s.server.begin setting.svc sid setting.user params).results sid ≠
        some (.error .duplicateDeviceSeq) := by
    obtain ⟨e, notDuplicate, refused⟩ | ⟨opened, sameW, sameD, sameSeq, isOpened⟩ :=
      Server.State.begin_cases setting.svc s.server sid setting.user params
    · rw [refused]
      refine ⟨rfl, fun other session found => .inl found, ?_⟩
      simpa using notDuplicate
    · rw [isOpened]
      refine ⟨rfl, ?_, by simp [unanswered]⟩
      intro other session found
      by_cases same : other = sid
      · subst same
        simp only [update_self, Option.some.injEq] at found
        subst found
        exact .inr ⟨rfl, unanswered, Prod.ext sameW sameD, sameSeq⟩
      · simp only [update_of_ne same] at found
        exact .inl found
  refine ⟨serverInv, rebound.positive, rebound.bound, rebound.mine, ?_, by simp, ?_⟩
  · intro other session found notSent
    rw [List.mem_cons, not_or] at notSent
    rcases sessions other session found with before | ⟨same, _⟩
    · exact rebound.foreign other session before notSent.2
    · exact absurd same notSent.1
  · intro sid' params' awaited
    simp only [Option.some.injEq, Prod.mk.injEq] at awaited
    obtain ⟨rfl, rfl⟩ := awaited
    refine ⟨List.mem_cons_self, isMine, ?_, ?_, ?_, .inl ⟨?_, ?_⟩, fresh⟩
    · rw [request.2]
      exact rebound.positive row isRow
    · intro session found
      rcases sessions sid session found with before | ⟨_, noAnswer, sameAuthor, sameSeq⟩
      · rw [wasAbsent] at before
        cases before
      · exact ⟨noAnswer, sameAuthor, sameSeq⟩
    · intro row' isRow'
      obtain rfl : row = row' := Option.some.inj (isRow.symm.trans isRow')
      exact le_of_eq request.2.symm
    · intro p member row' isRow'
      simp only [sameDb]
      exact below p member row' isRow'
    · simp only [sameDb]
      rw [request.2]
      exact below _ isMember row isRow

/-- The client stops waiting for a publish that was not executed. -/
theorem Inv.stopWaiting (inv : Inv setting s) {sid : Nat}
    (awaited : s.client.awaiting = some (sid, params))
    (notExecuted : ∀ published, s.server.results sid ≠ some (.ok published)) :
    Inv setting { s with client := { s.client with awaiting := none } } := by
  refine ⟨inv.server, inv.positive, inv.bound, inv.mine, inv.foreign, ?_, by simp⟩
  intro _
  rcases (inv.waiting sid params awaited).outcome with ⟨below, _⟩ | ⟨⟨published, executed⟩, _⟩
  · exact below
  · exact absurd executed (notExecuted published)

/-- The answer of an executed publish arrives. -/
theorem Inv.applyPublishSuccess (inv : Inv setting s) {sid : Nat} {published : PublishCommitResult}
    (awaited : s.client.awaiting = some (sid, params)) :
    Inv setting { s with client := applyPublishSuccess s.client params published } := by
  have waiting := inv.waiting sid params awaited
  have seqPositive := waiting.positive
  refine ⟨inv.server, ?_, ?_, inv.mine, inv.foreign, ?_, ?_⟩
  · intro row isRow
    obtain ⟨before, _, rfl⟩ := map_eq_some_iff.mp isRow
    show 0 < params.deviceSeq + 1
    omega
  · intro row p isRow isBound
    obtain ⟨before, isBefore, rfl⟩ := map_eq_some_iff.mp isRow
    exact inv.bound before p isBefore isBound
  · intro _ p member row isRow
    obtain ⟨before, isBefore, rfl⟩ := map_eq_some_iff.mp isRow
    show lastDeviceSeq s.server.db p < params.deviceSeq + 1
    have behind := waiting.behind before isBefore
    rcases waiting.outcome with ⟨below, _⟩ | ⟨_, reached, others⟩
    · have isBelow := below p member before isBefore
      omega
    · by_cases isAuthor : p = author params
      · subst isAuthor
        omega
      · have isBelow := others p member isAuthor before isBefore
        omega
  · intro sid' params' stillAwaited
    simp [DeviceSequence.applyPublishSuccess] at stillAwaited

end Client

/-- **Every step that loses no commit and fits its binding keeps the invariant.** -/
theorem Inv.next {s s' : State} {label : Label} (inv : Inv setting s)
    (allowed : recovers setting s label) (steps : next setting s label = some s') :
    Inv setting s' := by
  simp only [recovers, Bool.and_eq_true, Bool.not_eq_eq_eq_not, Bool.not_true] at allowed
  obtain ⟨keeps, isFit⟩ := allowed
  cases label with
  | server step =>
    simp only [DeviceSequence.next] at steps
    split at steps
    · rename_i isForeign
      obtain ⟨server, stepped, rfl⟩ := map_eq_some_iff.mp steps
      exact inv.server_step isForeign keeps stepped
    · cases steps
  | configure config enabled =>
    obtain ⟨client, bound, rfl⟩ := map_eq_some_iff.mp steps
    exact inv.bind isFit (persistConfiguredVault_nextDeviceSeq _ _ _) bound
  | deleteVault =>
    cases steps
    exact inv.deleteVault
  | pull input head applied =>
    obtain ⟨client, bound, rfl⟩ := map_eq_some_iff.mp steps
    exact inv.pull isFit bound applied
  | push merge input head sid params =>
    simp only [DeviceSequence.next] at steps
    split at steps
    · rename_i enabled
      obtain ⟨free, _, unanswered, request⟩ := enabled
      obtain ⟨client, bound, steps⟩ := bind_eq_some_iff.mp steps
      obtain ⟨server, begun, rfl⟩ := map_eq_some_iff.mp steps
      exact inv.push isFit (pushRecord_nextDeviceSeq inv merge input head)
        (isNone_iff_eq_none.mp free) (isNone_iff_eq_none.mp unanswered) request
        bound begun
    · cases steps
  | deliver =>
    simp only [DeviceSequence.next] at steps
    split at steps
    · cases steps
    · rename_i sid params awaited
      split at steps <;> cases steps
      · rename_i e answered
        refine inv.stopWaiting awaited ?_
        intro published executed
        rw [answered] at executed
        cases executed
      · exact inv.applyPublishSuccess awaited
  | abandon =>
    simp only [DeviceSequence.next] at steps
    split at steps <;> cases steps
    rename_i awaited
    refine inv.stopWaiting awaited ?_
    intro published executed
    simp [losesCommit, awaited, executed, isExecuted] at keeps

/-- **The counters never wedge** in a run that loses no answer of an executed publish
and binds a row only to devices that fit it. -/
theorem noWedge_of_recovered {s : State}
    (reached : (protocol setting).ReachableBy (fun s label => recovers setting s label) s) :
    NoWedge setting s := by
  have inv : Inv setting s := by
    refine reached.invariant ?_ ?_
    · rintro _ rfl
      exact Inv.initial
    · intro before label after inv allowed steps
      exact inv.next allowed steps
  exact inv.noWedge

end Protocol

/-! ## Two runs

A first checkpoint is published and executed.  When its answer arrives the counters
agree; when it is lost, the pull of the same commit leaves the row at the sequence
number the server has already counted. -/

namespace Example

open Kuku.Server.Example

def workspaceId : String := "00000000-0000-0000-0000-000000000001"

def deviceId : String := "00000000-0000-0000-0000-000000000002"

def setting : Setting where
  svc := service
  user := 9
  uuid text := if text = workspaceId then some 1 else if text = deviceId then some 2 else none
  mine device := device = 2

def input : PipelineInput where
  vaultId := "vault"
  vaultRoot := "/vault"
  workspaceId
  deviceId

def config : SyncVaultConfig where
  vaultId := "vault"
  rootPath := "/vault"
  remoteWorkspaceId := workspaceId
  deviceId

/-- The vault is configured and the publish is executed. -/
def published : List Label :=
  [.server (.createWorkspace 1 9), .server (.registerDevice 1 2 9 signingPublicKey),
    .server (.changeObjects objects), .configure config true,
    .push false input ⟨"", ""⟩ 0 first] ++ List.replicate 15 (.server (.exec 0))

def answered : List Label := published ++ [.deliver]

def lost : List Label := published ++ [.abandon, .pull input ⟨"c1", "c1"⟩ ["c1"]]

/-- What the two counters are, and whether anything is in flight. -/
def counters (s : State) : Option Int × Int × Bool :=
  (s.client.row.map (·.nextDeviceSeq), lastDeviceSeq s.server.db (1, 2),
    s.client.awaiting.isNone && s.client.sent == [0] && (s.server.sessions 0).isNone)

/-- A push is a run of the server that begins the publish. -/
theorem next_push (s : State) (merge : Bool) (head : SyncHead) (sid : Nat)
    (params : PublishCommitParams) :
    next setting s (.push merge input head sid params) =
      let row := pushRecord merge s.client.row input head
      if s.client.awaiting.isNone ∧ sid ∉ s.client.sent ∧ (s.server.results sid).isNone ∧
          sends setting row params then
        (s.client.bind setting row).bind fun client =>
          (System.run (Server.State.next setting.svc) s.server [.begin sid setting.user params]).map
            fun server => { server
                            client := { client with
                              awaiting := some (sid, params), sent := sid :: client.sent } }
      else none := by
  simp only [System.run, next, bind_fun_some]

theorem published_eq (later : List Label) :
    published ++ later =
      [.server (.createWorkspace 1 9), .server (.registerDevice 1 2 9 signingPublicKey),
          .server (.changeObjects objects), .configure config true] ++
        .push false input ⟨"", ""⟩ 0 first :: (List.replicate 15 (.server (.exec 0)) ++ later) :=
  rfl

theorem run_answered :
    (System.runWhile (recovers setting) (next setting) initial answered).map counters =
      some (some 2, 1, true) := by
  simp only [answered, published_eq, System.runWhile, run_append, run_cons,
    next_push, first_isNormal.run_begin]
  decide +kernel

theorem run_lost :
    (System.run (next setting) initial lost).map
      (fun s => (counters s, s.client.row.bind setting.bound, s.server.db.devices 1 2)) =
      some ((some 1, 1, true), some (1, 2), some ⟨1, 2, 9, signingPublicKey, 1, false⟩) := by
  simp only [lost, published_eq, run_append, run_cons, next_push, first_isNormal.run_begin]
  decide +kernel

end Example

theorem noWedge_after_answer :
    ∃ s, (protocol Example.setting).ReachableBy (fun s label => recovers Example.setting s label) s ∧
      NoWedge Example.setting s ∧ Example.counters s = (some 2, 1, true) := by
  obtain ⟨s, ran, counted⟩ := map_eq_some_iff.mp Example.run_answered
  have reached : (protocol Example.setting).ReachableBy
      (fun s label => recovers Example.setting s label) s :=
    reachableBy_of_runWhile (.start rfl) ran
  exact ⟨s, reached, noWedge_of_recovered reached, counted⟩

theorem wedge_after_lost_response :
    ∃ s, (protocol Example.setting).Reachable s ∧ ¬ NoWedge Example.setting s := by
  obtain ⟨s, ran, observed⟩ := map_eq_some_iff.mp Example.run_lost
  simp only [Prod.mk.injEq, Example.counters, Bool.and_eq_true, isNone_iff_eq_none,
    beq_iff_eq] at observed
  obtain ⟨⟨seq, _, ⟨free, sent⟩, ended⟩, binding, found⟩ := observed
  refine ⟨s, reachable_of_run (.start rfl) ran, ?_⟩
  rintro ⟨agree, _⟩
  have idle : Idle s := by
    refine ⟨free, ?_⟩
    intro sid member
    rw [sent, List.mem_singleton] at member
    rw [member]
    exact ended
  obtain ⟨row, isRow, isBound⟩ := bind_eq_some_iff.mp binding
  have above : 1 < row.nextDeviceSeq := agree idle row 1 2 _ isRow isBound found
  simp only [isRow, map_some, Option.some.injEq] at seq
  omega

end DeviceSequence

end Kuku.Sync
