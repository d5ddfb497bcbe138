/-
# Server.PublishOutcome -- what a step does to answers and sequence numbers

`State.exec_cases` says once what a statement of a transaction can do: end the call
with an answer, or go on.  From it: `last_device_seq` moves only when a transaction of that
device commits, and then to the sequence number of its request (`State.next_devices`).
-/
import Kuku.Server.LinearHistory

namespace Kuku.Server

open Kuku.Theory Function Option

/-! ## Answers of the checks -/

theorem normalizePublishCommitParams_keeps {params normalized : PublishCommitParams}
    (ok : normalizePublishCommitParams params = .ok normalized) :
    normalized.workspaceID = params.workspaceID ∧
      normalized.authorDeviceID = params.authorDeviceID ∧
      normalized.deviceSeq = params.deviceSeq := by
  unfold normalizePublishCommitParams at ok
  simp only [bind, Except.bind, pure, Except.pure, throw, throwThe, MonadExceptOf.throw] at ok
  repeat' split at ok
  all_goals cases ok
  exact ⟨rfl, rfl, rfl⟩

variable {params : PublishCommitParams} {e : SyncError}

theorem normalizePublishCommitParams_error (failed : normalizePublishCommitParams params = .error e) : e ≠ .duplicateDeviceSeq := by
  unfold normalizePublishCommitParams at failed
  simp only [bind, Except.bind, pure, Except.pure, throw, throwThe, MonadExceptOf.throw] at failed
  split at failed
  · cases failed
    exact fun same => by cases same
  · split at failed
    · rename_i kindFailed
      cases failed
      cases kind : params.commitKind <;> simp only [kind, commitKindToSQL] at kindFailed <;>
        cases kindFailed
      exact fun same => by cases same
    · repeat' split at failed
      all_goals first
        | (cases failed; exact fun same => by cases same)
        | cases failed

theorem commitKindToSQL_error {kind : SyncCommitKind} (failed : commitKindToSQL kind = .error e) :
    e = .invalidArgument := by
  cases kind <;> cases failed
  rfl

variable {db : Db}

theorem existingCommit_error {svc : Service} {payload : Bytes}
    (failed : existingCommit svc db params payload = .error e) :
    e ≠ .duplicateDeviceSeq := by
  unfold existingCommit at failed
  split at failed
  · cases failed
  · rename_i existing _
    simp only [commitMatchesPayload, canonicalCommitPayloadFromSQL, canonicalCommitPayload,
      bind, Except.bind, pure, Except.pure, throw, throwThe, MonadExceptOf.throw] at failed
    cases kind : existing.commitKind <;>
      simp only [kind, commitKindToProto, commitKindToSQL] at failed <;>
      split at failed <;> cases failed <;> exact fun same => by cases same

theorem checkDevice_error {svc : Service} {device : KukuSyncDevice} {payload : Bytes}
    (failed : checkDevice svc device params payload = .error .duplicateDeviceSeq) :
    params.deviceSeq ≤ device.lastDeviceSeq := by
  by_contra fresh
  simp only [checkDevice, if_neg fresh, bind, Except.bind, pure, Except.pure, throw, throwThe,
    MonadExceptOf.throw] at failed
  repeat' split at failed
  all_goals cases failed

theorem checkParentKind_error (failed : checkParentKind params = .error e) :
    e = .invalidCommitParent := by
  unfold checkParentKind at failed
  repeat' split at failed
  all_goals cases failed <;> rfl

theorem checkParent_error {parentID : String} (failed : checkParent db params parentID = .error e) :
    e = .invalidCommitParent := by
  unfold checkParent at failed
  split at failed <;> cases failed
  rfl

theorem validateBody_error (failed : validateBody db params = .error e) :
    e ≠ .duplicateDeviceSeq := by
  simp only [validateBody, bind, Except.bind, pure, Except.pure, throw, throwThe,
    MonadExceptOf.throw] at failed
  repeat' split at failed
  all_goals first
    | (cases failed; exact fun same => by cases same)
    | cases failed

theorem checkReferences_error {objects : List KukuSyncObject}
    (failed : checkReferences objects = .error e) : e ≠ .duplicateDeviceSeq := by
  induction objects with
  | nil => cases failed
  | cons object rest ih =>
    unfold checkReferences at failed
    split at failed
    · cases failed
      exact fun same => by cases same
    · split at failed
      · cases failed
        exact fun same => by cases same
      · exact ih failed

theorem validateReferences_error (failed : validateReferences db params = .error e) :
    e ≠ .duplicateDeviceSeq := by
  simp only [validateReferences, bind, Except.bind, pure, Except.pure, throw, throwThe,
    MonadExceptOf.throw] at failed
  split at failed
  · split at failed <;> cases failed
    exact fun same => by cases same
  · split at failed
    · cases failed
      exact fun same => by cases same
    · split at failed
      · rename_i e' checked
        cases failed
        exact checkReferences_error checked
      · split at failed <;> cases failed
        exact fun same => by cases same

namespace State

variable {svc : Service} {s s' : State} {sid : Nat} {session : Session}

/-- How a call ends: with an answer, and with its rows if the transaction commits. -/
structure Ends (s s' : State) (sid : Nat) (session : Session)
    (result : Except SyncError PublishCommitResult) : Prop where
  sessions : s'.sessions = Function.update s.sessions sid none
  results : s'.results = Function.update s.results sid (some result)
  devices : s'.db.devices = s.db.devices ∨ ∃ published, session.stage = .commit published ∧
    result = .ok published ∧ s'.db = s.db.applyWrites session.writes
  stale : result = .error .duplicateDeviceSeq →
    ∃ device, s.db.devices session.params.workspaceID session.params.authorDeviceID =
      some device ∧ session.params.deviceSeq ≤ device.lastDeviceSeq

/-- How a call goes on: the same request, no answer yet, no visible write. -/
structure GoesOn (s s' : State) (sid : Nat) (session session' : Session) : Prop where
  sessions : s'.sessions = Function.update s.sessions sid (some session')
  params : session'.params = session.params
  results : s'.results = s.results
  devices : s'.db.devices = s.db.devices

theorem ends_finish {result : Except SyncError PublishCommitResult}
    (fresh : result ≠ .error .duplicateDeviceSeq) :
    Ends s (s.finish sid result) sid session result :=
  ⟨rfl, rfl, .inl rfl, fun same => absurd same fresh⟩

theorem goesOn_goto {stage : Stage} :
    GoesOn s (s.goto sid session stage) sid session { session with stage := stage } :=
  ⟨rfl, rfl, rfl, rfl⟩

/-- **What one statement can do.** -/
theorem exec_cases (steps : s.exec svc sid session = some s') :
    (∃ result, Ends s s' sid session result) ∨ ∃ session', GoesOn s s' sid session session' := by
  unfold State.exec at steps
  cases stage : session.stage with
  | authorize =>
    simp only [stage, authorizeWorkspace] at steps
    split at steps <;> cases steps
    · rename_i e failed
      refine .inl ⟨_, ends_finish ?_⟩
      split at failed <;> cases failed
      exact fun same => by cases same
    · exact .inr ⟨_, goesOn_goto⟩
  | lookup workspace =>
    simp only [stage] at steps
    split at steps <;> cases steps
    · rename_i e failed
      exact .inl ⟨_, ends_finish fun same => existingCommit_error failed (by cases same; rfl)⟩
    · exact .inl ⟨_, ends_finish fun same => by cases same⟩
    · exact .inr ⟨_, goesOn_goto⟩
  | lockWorkspace =>
    simp only [stage] at steps
    split at steps
    · cases steps
      exact .inl ⟨_, ends_finish fun same => by cases same⟩
    · split at steps <;> cases steps
      exact .inr ⟨_, rfl, rfl, rfl, rfl⟩
  | relookup workspace =>
    simp only [stage] at steps
    split at steps
    · rename_i e failed
      cases steps
      exact .inl ⟨_, ends_finish fun same => existingCommit_error failed (by cases same; rfl)⟩
    · cases steps
      exact .inl ⟨_, ends_finish fun same => by cases same⟩
    · split at steps <;> cases steps
      · rename_i e failed
        refine .inl ⟨_, ends_finish ?_⟩
        simp only [checkHead] at failed
        split at failed <;> cases failed
        exact fun same => by cases same
      · exact .inr ⟨_, goesOn_goto⟩
  | lockDevice =>
    simp only [stage] at steps
    split at steps
    · cases steps
      exact .inl ⟨_, ends_finish fun same => by cases same⟩
    · rename_i device found
      split at steps
      · split at steps
        · rename_i e failed
          cases steps
          refine .inl ⟨_, rfl, rfl, .inl rfl, ?_⟩
          intro same
          cases same
          exact ⟨device, (filter_eq_some_iff.mp found).1, checkDevice_error failed⟩
        · split at steps <;> cases steps
          · rename_i e failed
            refine .inl ⟨_, ends_finish ?_⟩
            rw [checkParentKind_error failed]
            exact fun same => by cases same
          · exact .inr ⟨_, rfl, rfl, rfl, rfl⟩
      · cases steps
  | parents remaining =>
    cases remaining with
    | nil =>
      simp only [stage] at steps
      cases steps
      exact .inr ⟨_, goesOn_goto⟩
    | cons parentID remaining =>
      simp only [stage] at steps
      split at steps <;> cases steps
      · rename_i e failed
        refine .inl ⟨_, ends_finish ?_⟩
        rw [checkParent_error failed]
        exact fun same => by cases same
      · exact .inr ⟨_, goesOn_goto⟩
  | body =>
    simp only [stage] at steps
    split at steps <;> cases steps
    · rename_i e failed
      exact .inl ⟨_, ends_finish fun same => validateBody_error failed (by cases same; rfl)⟩
    · exact .inr ⟨_, goesOn_goto⟩
  | references bodyObject =>
    simp only [stage] at steps
    split at steps <;> cases steps
    · rename_i e failed
      exact .inl ⟨_, ends_finish fun same => validateReferences_error failed (by cases same; rfl)⟩
    · exact .inr ⟨_, goesOn_goto⟩
  | createCommit bodyObject objects =>
    simp only [stage] at steps
    split at steps
    · rename_i e failed
      cases steps
      refine .inl ⟨_, ends_finish ?_⟩
      rw [commitKindToSQL_error failed]
      exact fun same => by cases same
    · split at steps <;> cases steps
      · exact .inl ⟨_, rfl, rfl, .inl rfl, fun same => by cases same⟩
      · exact .inr ⟨_, rfl, rfl, rfl, rfl⟩
  | commitObjects commit remaining =>
    cases remaining with
    | nil =>
      simp only [stage] at steps
      cases steps
      exact .inr ⟨_, rfl, rfl, rfl, rfl⟩
    | cons row remaining =>
      simp only [stage] at steps
      cases steps
      exact .inr ⟨_, rfl, rfl, rfl, rfl⟩
  | deviceCursor commit =>
    simp only [stage] at steps
    cases steps
    exact .inr ⟨_, rfl, rfl, rfl, rfl⟩
  | workspaceHead commit =>
    simp only [stage] at steps
    split at steps <;> cases steps
    · exact .inl ⟨_, ends_finish fun same => by cases same⟩
    · exact .inr ⟨_, rfl, rfl, rfl, rfl⟩
  | commit published =>
    simp only [stage] at steps
    cases steps
    exact .inl ⟨_, rfl, rfl, .inr ⟨published, stage, rfl, rfl⟩, fun same => by cases same⟩

/-- **What an arriving call can do**: it is refused at once, or a transaction opens for
the same device and sequence number. -/
theorem begin_cases (svc : Service) (s : State) (sid : Nat) (userID : Uuid)
    (params : PublishCommitParams) :
    (∃ e, e ≠ .duplicateDeviceSeq ∧ s.begin svc sid userID params =
      { s with results := Function.update s.results sid (some (.error e)) }) ∨
    ∃ session, session.params.workspaceID = params.workspaceID ∧
      session.params.authorDeviceID = params.authorDeviceID ∧
      session.params.deviceSeq = params.deviceSeq ∧
      s.begin svc sid userID params =
        { s with sessions := Function.update s.sessions sid (some session) } := by
  simp only [State.begin, canonicalCommitPayload, bind, Except.bind, pure, Except.pure]
  cases normal : normalizePublishCommitParams params with
  | error e => exact .inl ⟨e, normalizePublishCommitParams_error normal, rfl⟩
  | ok normalized =>
    obtain ⟨sameW, sameD, sameSeq⟩ := normalizePublishCommitParams_keeps normal
    cases kind : commitKindToSQL normalized.commitKind with
    | error e =>
      refine .inl ⟨e, ?_, by simp only [kind]⟩
      rw [commitKindToSQL_error kind]
      exact fun same => by cases same
    | ok sqlKind => exact .inr ⟨_, sameW, sameD, sameSeq, by simp only [kind]; rfl⟩

/-! ## Every step -/

/-- The sequence number of a device row moves only with a commit of that device. -/
theorem applyWrites_devices (inv : s.Inv) (isOwn : s.sessions sid = some session)
    {published : PublishCommitResult} (stage : session.stage = .commit published)
    (w d : Uuid) :
    (s.db.applyWrites session.writes).devices w d = s.db.devices w d ∨
      (session.params.workspaceID = w ∧ session.params.authorDeviceID = d ∧
        ∃ device, (s.db.applyWrites session.writes).devices w d = some device ∧
          device.lastDeviceSeq = session.params.deviceSeq) := by
  have knows := (inv.sessions sid session isOwn).knows
  simp only [Session.Knows, stage] at knows
  obtain ⟨inserted, rows, writes⟩ := knows
  obtain ⟨workspace, holdsWorkspace, _⟩ := inserted.admitted.atHead
  obtain ⟨device, holdsDevice⟩ := inserted.admitted.device
  obtain ⟨_, _, devices, _⟩ := applyWrites_publish published.commit rows holdsWorkspace holdsDevice
  rw [← writes] at devices
  rw [devices]
  by_cases sameW : w = session.params.workspaceID
  · subst sameW
    rw [update_self]
    by_cases sameD : d = session.params.authorDeviceID
    · subst sameD
      rw [update_self]
      exact .inr ⟨rfl, rfl, _, rfl, rfl⟩
    · rw [update_of_ne sameD]
      exact .inl rfl
  · rw [update_of_ne sameW]
    exact .inl rfl

/-- A step answers or opens at most the call it belongs to. -/
theorem next_frame {label : Label} (steps : s.next svc label = some s') {other : Nat}
    (notBegin : ∀ userID params, label ≠ .begin other userID params)
    (notExec : label ≠ .exec other) (notRollback : label ≠ .rollback other) :
    s'.sessions other = s.sessions other ∧ s'.results other = s.results other := by
  cases label with
  | begin sid userID params =>
    have ne : other ≠ sid := fun same => notBegin userID params (by rw [same])
    simp only [State.next] at steps
    split at steps <;> cases steps
    simp only [State.begin]
    split
    · exact ⟨rfl, update_of_ne ne _ _⟩
    · exact ⟨update_of_ne ne _ _, rfl⟩
  | exec sid =>
    have ne : other ≠ sid := fun same => notExec (by rw [same])
    simp only [State.next, bind_eq_some_iff] at steps
    obtain ⟨session, _, executed⟩ := steps
    obtain ⟨result, ends⟩ | ⟨session', goesOn⟩ := exec_cases executed
    · rw [ends.sessions, ends.results, update_of_ne ne, update_of_ne ne]
      exact ⟨rfl, rfl⟩
    · rw [goesOn.sessions, goesOn.results, update_of_ne ne]
      exact ⟨rfl, rfl⟩
  | rollback sid =>
    have ne : other ≠ sid := fun same => notRollback (by rw [same])
    simp only [State.next] at steps
    split at steps <;> cases steps
    exact ⟨update_of_ne ne _ _, update_of_ne ne _ _⟩
  | createWorkspace id ownerUserID =>
    simp only [State.next] at steps
    split at steps <;> cases steps
    exact ⟨rfl, rfl⟩
  | registerDevice workspaceID id userID signingPublicKey =>
    simp only [State.next] at steps
    split at steps <;> cases steps
    exact ⟨rfl, rfl⟩
  | softDeleteWorkspace id =>
    simp only [State.next] at steps
    split at steps <;> cases steps
    exact ⟨rfl, rfl⟩
  | revokeDevice workspaceID id =>
    simp only [State.next] at steps
    split at steps <;> cases steps
    exact ⟨rfl, rfl⟩
  | changeObjects objects =>
    simp only [State.next] at steps
    cases steps
    exact ⟨rfl, rfl⟩

/-- **When a device's sequence number moves.** -/
theorem next_devices {label : Label} (inv : s.Inv) (steps : s.next svc label = some s')
    (w d : Uuid) :
    ((s'.db.devices w d).map (·.lastDeviceSeq)).getD 0 =
        ((s.db.devices w d).map (·.lastDeviceSeq)).getD 0 ∨
      ∃ sid session published, label = .exec sid ∧ s.sessions sid = some session ∧
        session.stage = .commit published ∧ s'.results sid = some (.ok published) ∧
        session.params.workspaceID = w ∧ session.params.authorDeviceID = d ∧
        ((s'.db.devices w d).map (·.lastDeviceSeq)).getD 0 = session.params.deviceSeq := by
  cases label with
  | begin sid userID params =>
    simp only [State.next] at steps
    split at steps <;> cases steps
    simp only [State.begin]
    split <;> exact .inl rfl
  | exec sid =>
    simp only [State.next, bind_eq_some_iff] at steps
    obtain ⟨session, isOwn, executed⟩ := steps
    obtain ⟨result, ends⟩ | ⟨session', goesOn⟩ := exec_cases executed
    · rcases ends.devices with same | ⟨published, stage, answer, db⟩
      · rw [same]
        exact .inl rfl
      · rw [db]
        rcases applyWrites_devices inv isOwn stage w d with same | ⟨ofW, ofD, device, found, seq⟩
        · rw [same]
          exact .inl rfl
        · refine .inr ⟨sid, session, published, rfl, isOwn, stage, ?_, ofW, ofD, ?_⟩
          · rw [ends.results, update_self, answer]
          · simp [found, seq]
    · rw [goesOn.devices]
      exact .inl rfl
  | rollback sid =>
    simp only [State.next] at steps
    split at steps <;> cases steps
    exact .inl rfl
  | createWorkspace id ownerUserID =>
    simp only [State.next] at steps
    split at steps <;> cases steps
    exact .inl rfl
  | registerDevice workspaceID id userID signingPublicKey =>
    simp only [State.next] at steps
    split at steps <;> cases steps
    rename_i absent
    simp only [not_or, Bool.not_eq_true, isSome_eq_false_iff, isNone_iff_eq_none] at absent
    left
    simp only [State.putDevice]
    by_cases sameW : w = workspaceID
    · subst sameW
      rw [update_self]
      by_cases sameD : d = id
      · subst sameD
        simp [absent.1]
      · rw [update_of_ne sameD]
    · rw [update_of_ne sameW]
  | softDeleteWorkspace id =>
    simp only [State.next] at steps
    split at steps <;> cases steps
    exact .inl rfl
  | revokeDevice workspaceID id =>
    simp only [State.next] at steps
    split at steps <;> cases steps
    rename_i device found free
    left
    simp only [State.putDevice]
    by_cases sameW : w = workspaceID
    · subst sameW
      rw [update_self]
      by_cases sameD : d = id
      · subst sameD
        simp [found]
      · rw [update_of_ne sameD]
    · rw [update_of_ne sameW]
  | changeObjects objects =>
    simp only [State.next] at steps
    cases steps
    exact .inl rfl

end State

end Kuku.Server
