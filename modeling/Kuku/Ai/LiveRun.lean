/-
# Ai.LiveRun -- one live run for each session

A session admits one turn at a time: `start_run` answers `SessionBusy` while one is live,
and whoever cancels reaches the token of that turn.  Every turn, refused ones included,
ends in the same `complete_run`, which resets the control record whoever calls it: a turn
that was refused takes the status and the token away from the turn that is live.

`one_live_run` says that this is the only way: in every run in which no refused turn comes
to `complete_run` while another is live, all of it holds.
-/
import Kuku.Ai.Turns

namespace Kuku.Ai

open Kuku.Theory Function AiState SessionRuntime Option

variable {ι κ : Type}

/-- **What a session promises of its live run.** -/
structure OneLiveRun [DecidableEq κ] (s : Observed ι κ) : Prop where
  single : ∀ agent other turn turn', s.turns agent = .live turn → s.turns other = .live turn' →
    turn.session = turn'.session → agent = other
  busy : ∀ agent turn hash how, s.turns agent = .live turn →
    (s.state.perform hash (.startRun turn.session) how).1 = .error .sessionBusy
  notIdle : ∀ agent turn, s.turns agent = .live turn →
    (s.state.sessions turn.session).control.status ≠ .idle
  cancels : ∀ agent turn, s.turns agent = .live turn → s.cancelRequested agent = true →
    s.state.cancelled turn.cancel = true
  reports : ∀ session finishReason, .done session true finishReason ∈ s.log →
    finishReason = .cancelled

/-- No turn that `start_run` refused comes to `complete_run` while another is live. -/
def refusedTurnsWait : RunCondition ι κ where
  start _ _ _ := True
  call agent s op how := s.state.ready how op ∧
    match op with
    | .completeRun session => s.turns agent = .outside →
        ∀ other turn, s.turns other = .live turn → turn.session ≠ session
    | _ => True
  env _ _ := True

/-! ## What a call does to the control records -/

section Control

variable {hash : Str → Str} {how : How} {op : Op κ} {s : AiState κ} {session : κ}

namespace AiState

variable [DecidableEq κ]

@[simp] theorem setSession_same (runtime : SessionRuntime) :
    (s.setSession session runtime).sessions session = runtime := by
  simp [setSession]

theorem setSession_other {other : κ} (runtime : SessionRuntime) (differs : other ≠ session) :
    (s.setSession session runtime).sessions other = s.sessions other := by
  simp [setSession, differs]

theorem setSession_keeps {α : Type} {runtime : SessionRuntime} (f : SessionRuntime → α)
    (same : f runtime = f (s.sessions session)) (other : κ) :
    f ((s.setSession session runtime).sessions other) = f (s.sessions other) := by
  by_cases isSame : other = session
  · subst isSame
    rw [setSession_same, same]
  · rw [setSession_other runtime isSame]

end AiState

namespace SessionRuntime

variable {runtime : SessionRuntime}

theorem cancel_token : runtime.cancel.1 = runtime.control.cancel := by
  unfold SessionRuntime.cancel
  split <;> rfl

theorem cancel_status : runtime.cancel.2.control.status = runtime.control.status := by
  unfold SessionRuntime.cancel
  split <;> rfl

theorem cancel_deferred
    (owed : runtime.control.deferredCancel = true ∨ runtime.control.status = .applying) :
    runtime.cancel.2.control.deferredCancel = true := by
  unfold SessionRuntime.cancel
  split
  · rfl
  · rename_i notApplying
    exact owed.resolve_right notApplying

end SessionRuntime

theorem AiState.cancel_sessions [DecidableEq κ] : (s.cancel session).sessions =
    Function.update s.sessions session (s.sessions session).cancel.2 := by
  unfold AiState.cancel AiState.cancelToken
  split <;> rfl

theorem AiState.cancel_cancelled [DecidableEq κ] (token : Token) :
    (s.cancel session).cancelled token =
      (s.cancelled token || (s.sessions session).control.cancel = some token) := by
  unfold AiState.cancel AiState.cancelToken
  rw [cancel_token]
  cases (s.sessions session).control.cancel with
  | none => simp [AiState.setSession]
  | some other =>
    by_cases same : token = other
    · subst same
      simp
    · simp [AiState.setSession, same, Ne.symm same]

theorem AiState.resolveApproval_control [DecidableEq κ] (s : AiState κ) (session : κ) (callId : Str)
    (approved : Bool) (other : κ) :
    ((s.resolveApproval session callId approved).sessions other).control =
      (s.sessions other).control := by
  unfold AiState.resolveApproval
  split
  · rfl
  · change SessionRuntime.control
      ((s.setSession session ((s.sessions session).clearApproval callId)).sessions other) = _
    refine setSession_keeps SessionRuntime.control ?_ other
    rfl

/-- What a call that neither starts nor completes a run leaves of a control record. -/
structure SameRun (before after : SessionControl) : Prop where
  cancel : after.cancel = before.cancel
  deferredCancel : after.deferredCancel = before.deferredCancel
  status : after.status = .idle → before.status = .idle

theorem SameRun.of_eq {before after : SessionControl} (same : after = before) :
    SameRun before after := by
  subst same
  exact ⟨rfl, rfl, id⟩

theorem sameRun_setSession [DecidableEq κ] {runtime : SessionRuntime}
    (same : SameRun (s.sessions session).control runtime.control) (other : κ) :
    SameRun (s.sessions other).control ((s.setSession session runtime).sessions other).control := by
  by_cases isSame : other = session
  · subst isSame
    rw [setSession_same]
    exact same
  · rw [setSession_other runtime isSame]
    exact .of_eq rfl

/-- A call that starts or completes a run. -/
def Op.bounds : Op κ → Bool
  | .startRun _ => true
  | .completeRun _ => true
  | _ => false

theorem perform_sameRun [DecidableEq κ] (inside : op.bounds = false)
    (notIdle : ∀ session status, op = .setStatus session status → status ≠ .idle) (other : κ) :
    SameRun (s.sessions other).control ((s.perform hash op how).2.sessions other).control := by
  cases op with
  | startRun session => nomatch inside
  | completeRun session => nomatch inside
  | beginAwaitingApproval session callId =>
    change SameRun _ ((s.setSession session ((s.sessions session).beginAwaitingApproval callId
      s.nextChannel)).sessions other).control
    refine sameRun_setSession ?_ other
    refine ⟨rfl, rfl, ?_⟩
    intro isIdle
    cases isIdle
  | setStatus session status =>
    refine sameRun_setSession ?_ other
    refine ⟨rfl, rfl, ?_⟩
    intro isIdle
    exact absurd isIdle (notIdle session status rfl)
  | _ => first | exact .of_eq rfl | (refine sameRun_setSession ?_ other; exact .of_eq rfl)

theorem perform_cancelled [DecidableEq κ] : (s.perform hash op how).2.cancelled = s.cancelled := by
  cases op with
  | startRun session =>
    simp only [AiState.perform, AiState.startRun]
    split <;> rfl
  | _ => rfl

end Control

/-! ## How a task comes to be where it is -/

section Turns

variable {turn : Turn κ} {op : Op κ} {answer : Except AiError op.Res}

theorem afterLive_session {running : LiveTurn κ} :
    (Turn.afterLive running op answer).session = running.session ∧
      (Turn.afterLive running op answer).cancel = running.cancel := by
  unfold Turn.afterLive
  split <;> first | exact ⟨rfl, rfl⟩ | (split <;> exact ⟨rfl, rfl⟩)

/-- A live turn was live before, in its session and with its token, unless it starts. -/
theorem live_of_after {later : LiveTurn κ} (inside : op.bounds = false)
    (isLive : turn.after op answer = .live later) :
    ∃ running, turn = .live running ∧ later = Turn.afterLive running op answer := by
  unfold Turn.after at isLive
  split at isLive
  · nomatch inside
  · nomatch inside
  · nomatch inside
  · cases isLive
  · split at isLive
    · cases isLive
      exact ⟨_, rfl, rfl⟩
    · rename_i other notLive
      exact absurd isLive (notLive later)

theorem ended_of_after {deferred : Bool} (inside : op.bounds = false)
    (isEnded : turn.after op answer = .ended deferred) : turn = .ended deferred := by
  unfold Turn.after at isEnded
  split at isEnded
  · nomatch inside
  · nomatch inside
  · nomatch inside
  · cases isEnded
  · split at isEnded
    · cases isEnded
    · exact isEnded

/-- A task is outside where it was outside, or has just reported the end of its turn. -/
theorem outside_of_after (inside : op.bounds = false) (isOutside : turn.after op answer = .outside) :
    turn = .outside ∨ ∃ session finishReason usage, op = .emit (.done session finishReason usage) := by
  unfold Turn.after at isOutside
  split at isOutside
  · nomatch inside
  · nomatch inside
  · nomatch inside
  · exact .inr ⟨_, _, _, rfl⟩
  · split at isOutside
    · cases isOutside
    · exact .inl isOutside

theorem permits_done {session : κ} {finishReason : FinishReason} {usage : Option TokenUsage}
    (permitted : turn.Permits (.emit (.done session finishReason usage))) :
    ∃ deferred, turn = .ended deferred ∧ (deferred = true → finishReason = .cancelled) := by
  cases turn with
  | outside => nomatch permitted
  | live running => nomatch permitted.2
  | ended deferred => exact ⟨deferred, rfl, permitted⟩

theorem permits_completeRun {session : κ} (permitted : turn.Permits (.completeRun session)) :
    turn = .outside ∨ ∃ running, turn = .live running ∧ running.session = session := by
  cases turn with
  | outside => exact .inl rfl
  | live running => exact .inr ⟨running, rfl, (permitted.1 session rfl).symm⟩
  | ended deferred => nomatch permitted

theorem permits_setStatus {session : κ} {status : SessionStatus}
    (permitted : turn.Permits (.setStatus session status)) : status ≠ .idle := by
  cases turn with
  | outside => nomatch permitted
  | live running => exact permitted.2
  | ended deferred => nomatch permitted

end Turns

/-! ## The invariant -/

/-- What holds of one task: its session is not idle while its turn is live, its token is in
reach of a cancel or cancelled, and a deferred cancel stays until it is reported. -/
structure TaskInvariant (s : Observed ι κ) (agent : ι) : Prop where
  notIdle : ∀ turn, s.turns agent = .live turn →
    (s.state.sessions turn.session).control.status ≠ .idle
  token : ∀ turn, s.turns agent = .live turn →
    (s.state.sessions turn.session).control.cancel = some turn.cancel ∨
      s.state.cancelled turn.cancel = true
  cancels : ∀ turn, s.turns agent = .live turn → s.cancelRequested agent = true →
    s.state.cancelled turn.cancel = true
  deferred : ∀ turn, s.turns agent = .live turn → s.cancelledApplying agent = true →
    (s.state.sessions turn.session).control.deferredCancel = true
  ended : ∀ deferred, s.turns agent = .ended deferred → s.cancelledApplying agent = true →
    deferred = true
  outside : s.turns agent = .outside → s.cancelledApplying agent = false

structure RunInvariant (s : Observed ι κ) : Prop where
  single : ∀ agent other turn turn', s.turns agent = .live turn → s.turns other = .live turn' →
    turn.session = turn'.session → agent = other
  task : ∀ agent, TaskInvariant s agent
  reports : ∀ session finishReason, .done session true finishReason ∈ s.log →
    finishReason = .cancelled

theorem RunInvariant.initial (mode : κ → ChatMode) :
    RunInvariant (Observed.initial mode : Observed ι κ) where
  single _ _ _ _ isLive := nomatch isLive
  task _ :=
    { notIdle := fun _ isLive => nomatch isLive
      token := fun _ isLive => nomatch isLive
      cancels := fun _ isLive => nomatch isLive
      deferred := fun _ isLive => nomatch isLive
      ended := fun _ isEnded => nomatch isEnded
      outside := fun _ => rfl }
  reports _ _ member := nomatch member

/-- What a step leaves of a task that is in the same run as before, if in any. -/
structure KeepsTask (s s' : Observed ι κ) (agent : ι) : Prop where
  live : ∀ later, s'.turns agent = .live later → ∃ turn, s.turns agent = .live turn ∧
    later.session = turn.session ∧ later.cancel = turn.cancel
  ended : ∀ deferred, s'.turns agent = .ended deferred → s.turns agent = .ended deferred
  requested : s'.cancelRequested agent = true → s.cancelRequested agent = true
  applying : s'.cancelledApplying agent = true → s.cancelledApplying agent = true
  outside : s'.turns agent = .outside → s.turns agent = .outside ∨
    s'.cancelledApplying agent = false
  sameRun : ∀ turn, s.turns agent = .live turn →
    SameRun (s.state.sessions turn.session).control (s'.state.sessions turn.session).control
  cancelled : ∀ token, s.state.cancelled token = true → s'.state.cancelled token = true

variable {s s' : Observed ι κ} {agent : ι}

theorem TaskInvariant.keep (inv : TaskInvariant s agent) (keeps : KeepsTask s s' agent) :
    TaskInvariant s' agent := by
  constructor
  case notIdle =>
    intro later isLive isIdle
    obtain ⟨turn, wasLive, session, -⟩ := keeps.live later isLive
    rw [session] at isIdle
    exact inv.notIdle turn wasLive ((keeps.sameRun turn wasLive).status isIdle)
  case token =>
    intro later isLive
    obtain ⟨turn, wasLive, session, token⟩ := keeps.live later isLive
    rw [session, token, (keeps.sameRun turn wasLive).cancel]
    exact (inv.token turn wasLive).imp_right (keeps.cancelled _)
  case cancels =>
    intro later isLive isRequested
    obtain ⟨turn, wasLive, -, token⟩ := keeps.live later isLive
    rw [token]
    exact keeps.cancelled _ (inv.cancels turn wasLive (keeps.requested isRequested))
  case deferred =>
    intro later isLive isApplying
    obtain ⟨turn, wasLive, session, -⟩ := keeps.live later isLive
    rw [session, (keeps.sameRun turn wasLive).deferredCancel]
    exact inv.deferred turn wasLive (keeps.applying isApplying)
  case ended =>
    intro later isEnded isApplying
    exact inv.ended later (keeps.ended later isEnded) (keeps.applying isApplying)
  case outside =>
    intro isOutside
    obtain wasOutside | isDown := keeps.outside isOutside
    · cases isUp : s'.cancelledApplying agent with
      | false => rfl
      | true => exact absurd (keeps.applying isUp) (by simp [inv.outside wasOutside])
    · exact isDown

/-- A step that moves one task only: nobody else's record changes. -/
theorem KeepsTask.other (sameTurn : s'.turns agent = s.turns agent)
    (sameRequested : s'.cancelRequested agent = s.cancelRequested agent)
    (sameApplying : s'.cancelledApplying agent = s.cancelledApplying agent)
    (sameRun : ∀ turn, s.turns agent = .live turn →
      SameRun (s.state.sessions turn.session).control (s'.state.sessions turn.session).control)
    (cancelled : ∀ token, s.state.cancelled token = true → s'.state.cancelled token = true) :
    KeepsTask s s' agent where
  live later isLive := ⟨later, sameTurn ▸ isLive, rfl, rfl⟩
  ended _ isEnded := sameTurn ▸ isEnded
  requested isUp := sameRequested ▸ isUp
  applying isUp := sameApplying ▸ isUp
  outside isOutside := .inl (sameTurn ▸ isOutside)
  sameRun
  cancelled

theorem entry_done {s : Observed ι κ} {op : Op κ} {answer : Except AiError op.Res} {session : κ}
    {owed : Bool} {finishReason : FinishReason}
    (isNew : s.entry agent op answer = some (.done session owed finishReason)) :
    ∃ usage, op = .emit (.done session finishReason usage) ∧ s.cancelledApplying agent = owed := by
  unfold Observed.entry at isNew
  split at isNew <;>
    first
      | (cases isNew; exact ⟨_, rfl, rfl⟩)
      | cases isNew
      | (split at isNew <;> cases isNew)

/-- A step that changes no control record, no turn and no flag. -/
theorem RunInvariant.unmoved (inv : RunInvariant s) (turns : s'.turns = s.turns)
    (requested : s'.cancelRequested = s.cancelRequested)
    (applying : s'.cancelledApplying = s.cancelledApplying)
    (controls : ∀ session, (s'.state.sessions session).control = (s.state.sessions session).control)
    (cancelled : s'.state.cancelled = s.state.cancelled)
    (log : ∀ session finishReason, .done session true finishReason ∈ s'.log →
      .done session true finishReason ∈ s.log) : RunInvariant s' where
  single := by
    rw [turns]
    exact inv.single
  task agent := (inv.task agent).keep (.other (by rw [turns]) (by rw [requested])
    (by rw [applying]) (fun turn _ => .of_eq (controls turn.session)) (by simp [cancelled]))
  reports session finishReason member := inv.reports session finishReason (log _ _ member)

/-- A cancel reaches the token of the live run, and is deferred while a plan is applied. -/
theorem RunInvariant.cancel [DecidableEq κ] {s : Observed ι κ} (inv : RunInvariant s)
    (session : κ) : RunInvariant (s.cancel session) := by
  have control : ∀ other, ((s.cancel session).state.sessions other).control =
      if other = session then (s.state.sessions other).cancel.2.control
      else (s.state.sessions other).control := by
    intro other
    change ((s.state.cancel session).sessions other).control = _
    rw [cancel_sessions]
    by_cases same : other = session
    · subst same
      rw [update_self, if_pos rfl]
    · rw [update_of_ne same, if_neg same]
  constructor
  case single => exact inv.single
  case reports => exact inv.reports
  case task =>
    intro agent
    constructor
    case notIdle =>
      intro turn isLive
      rw [control]
      split
      · rw [cancel_status]
        exact (inv.task agent).notIdle turn isLive
      · exact (inv.task agent).notIdle turn isLive
    case token =>
      intro turn isLive
      change _ ∨ (s.state.cancel session).cancelled turn.cancel = true
      rw [cancel_cancelled, control]
      obtain held | isCancelled := (inv.task agent).token turn isLive
      · by_cases same : turn.session = session
        · exact .inr (by simp [← same, held])
        · exact .inl (by rw [if_neg same, held])
      · exact .inr (by simp [isCancelled])
    case cancels =>
      intro turn isLive isRequested
      change (s.state.cancel session).cancelled turn.cancel = true
      rw [cancel_cancelled]
      change s.turns agent = _ at isLive
      change (s.cancelRequested agent || (s.turns agent).isLiveIn session) = true at isRequested
      rw [isLive, Turn.isLiveIn, Bool.or_eq_true, decide_eq_true_eq] at isRequested
      obtain wasRequested | same := isRequested
      · simp [(inv.task agent).cancels turn isLive wasRequested]
      · obtain held | isCancelled := (inv.task agent).token turn isLive
        · simp [← same, held]
        · simp [isCancelled]
    case deferred =>
      intro turn isLive isApplying
      change s.turns agent = _ at isLive
      change (s.cancelledApplying agent || ((s.turns agent).isLiveIn session && decide _)) = true
        at isApplying
      rw [isLive, Turn.isLiveIn, Bool.or_eq_true, Bool.and_eq_true, decide_eq_true_eq,
        decide_eq_true_eq] at isApplying
      rw [control]
      obtain wasApplying | ⟨same, applying⟩ := isApplying
      · have isDeferred := (inv.task agent).deferred turn isLive wasApplying
        split
        · exact cancel_deferred (.inl isDeferred)
        · exact isDeferred
      · rw [if_pos same]
        exact cancel_deferred (.inr (same ▸ applying))
    case ended =>
      intro deferred isEnded isApplying
      change s.turns agent = _ at isEnded
      change (s.cancelledApplying agent || ((s.turns agent).isLiveIn session && _)) = true
        at isApplying
      rw [isEnded] at isApplying
      change (s.cancelledApplying agent || (false && _)) = true at isApplying
      rw [Bool.false_and, Bool.or_false] at isApplying
      exact (inv.task agent).ended deferred isEnded isApplying
    case outside =>
      intro isOutside
      change s.turns agent = _ at isOutside
      change (s.cancelledApplying agent || ((s.turns agent).isLiveIn session && _)) = false
      rw [isOutside]
      change (s.cancelledApplying agent || (false && _)) = false
      rw [Bool.false_and, Bool.or_false]
      exact (inv.task agent).outside isOutside

theorem RunInvariant.command [DecidableEq κ] {event : Command κ} (inv : RunInvariant s)
    (acted : Ai.command event s = some s') : RunInvariant s' := by
  cases event with
  | cancel session =>
    cases acted
    exact inv.cancel session
  | reply receiver approved =>
    obtain ⟨⟨session, callId⟩, _, rfl⟩ := map_eq_some_iff.mp acted
    refine inv.unmoved rfl rfl rfl (resolveApproval_control s.state session callId approved)
      ?_ (by simp)
    dsimp only
    unfold AiState.resolveApproval
    split <;> rfl
  | submit receiver result =>
    obtain ⟨callId, _, rfl⟩ := map_eq_some_iff.mp acted
    have kept : (s.state.resolveProxy callId result).sessions = s.state.sessions ∧
        (s.state.resolveProxy callId result).cancelled = s.state.cancelled := by
      unfold AiState.resolveProxy
      split <;> exact ⟨rfl, rfl⟩
    exact inv.unmoved rfl rfl rfl (fun other => by rw [kept.1]) kept.2 (by simp)

/-- A flag that is up after a call was up before. -/
theorem forgetting_flags [DecidableEq ι] {s : Observed ι κ} {op : Op κ} (other : ι) :
    ((s.forgetting agent op).cancelRequested other = true → s.cancelRequested other = true) ∧
      ((s.forgetting agent op).cancelledApplying other = true →
        s.cancelledApplying other = true) := by
  have forgot : ∀ flags : ι → Bool, Function.update flags agent false other = true →
      flags other = true := by
    intro flags isUp
    by_cases same : other = agent
    · subst same
      rw [update_self] at isUp
      cases isUp
    · rwa [update_of_ne same] at isUp
  unfold Observed.forgetting
  split
  · exact ⟨forgot _, forgot _⟩
  · exact ⟨forgot _, forgot _⟩
  · exact ⟨id, id⟩

theorem forgetting_other [DecidableEq ι] {s : Observed ι κ} {agent other : ι} {op : Op κ}
    (differs : other ≠ agent) :
    (s.forgetting agent op).cancelRequested other = s.cancelRequested other ∧
      (s.forgetting agent op).cancelledApplying other = s.cancelledApplying other := by
  unfold Observed.forgetting
  split
  · exact ⟨update_of_ne differs .., update_of_ne differs ..⟩
  · exact ⟨update_of_ne differs .., update_of_ne differs ..⟩
  · exact ⟨rfl, rfl⟩

/-! ## Every step keeps it -/

section Steps

variable [DecidableEq ι] [DecidableEq κ] {hash : Str → Str} {s : Observed ι κ} {agent : ι}
  {op : Op κ} {how : How}

/-- What the log keeps of the end of a run is what the turn was permitted to report. -/
theorem exec_reports (inv : RunInvariant s) (permitted : (s.turns agent).Permits op)
    (session : κ) (finishReason : FinishReason)
    (member : .done session true finishReason ∈ (s.exec hash agent op how).2.log) :
    finishReason = .cancelled := by
  change _ ∈ (s.entry agent op _).toList ++ s.log at member
  rcases List.mem_append.mp member with isNew | isOld
  · obtain ⟨usage, rfl, owed⟩ := entry_done (mem_toList.mp isNew)
    obtain ⟨deferred, isEnded, reported⟩ := permits_done permitted
    exact reported ((inv.task agent).ended deferred isEnded owed)
  · exact inv.reports session finishReason isOld

theorem inside_keepsTask (permitted : (s.turns agent).Permits op) (inside : op.bounds = false) :
    KeepsTask s (s.exec hash agent op how).2 agent := by
  have turns : (s.exec hash agent op how).2.turns agent =
      (s.turns agent).after op (s.exec hash agent op how).1 := by
    rw [exec_turns, update_self]
  constructor
  case live =>
    intro later isLive
    rw [turns] at isLive
    obtain ⟨running, wasLive, rfl⟩ := live_of_after inside isLive
    exact ⟨running, wasLive, afterLive_session.1, afterLive_session.2⟩
  case ended =>
    intro _ isEnded
    rw [turns] at isEnded
    exact ended_of_after inside isEnded
  case requested => exact (forgetting_flags agent).1
  case applying => exact (forgetting_flags agent).2
  case outside =>
    intro isOutside
    rw [turns] at isOutside
    obtain wasOutside | ⟨session, finishReason, usage, rfl⟩ := outside_of_after inside isOutside
    · exact .inl wasOutside
    · exact .inr (update_self ..)
  case sameRun =>
    intro turn _
    apply perform_sameRun inside
    rintro _ status rfl
    exact permits_setStatus permitted
  case cancelled =>
    intro token isCancelled
    change (s.state.perform hash op how).2.cancelled token = true
    rwa [perform_cancelled]

/-- A call, for a task that does not make it. -/
theorem others_keepTask {other : ι} (differs : other ≠ agent)
    (sameRun : ∀ turn, s.turns other = .live turn →
      SameRun (s.state.sessions turn.session).control
        ((s.exec hash agent op how).2.state.sessions turn.session).control) :
    KeepsTask s (s.exec hash agent op how).2 other := by
  refine .other ?_ (forgetting_other differs).1 (forgetting_other differs).2 sameRun ?_
  · rw [exec_turns, update_of_ne differs]
  · intro token isCancelled
    change (s.state.perform hash op how).2.cancelled token = true
    rwa [perform_cancelled]

variable (inv : RunInvariant s)

include inv

/-- A call keeps the invariant when it keeps what is left of every run, and the task that
makes it is live in no session of another. -/
theorem RunInvariant.step (permitted : (s.turns agent).Permits op)
    (own : TaskInvariant (s.exec hash agent op how).2 agent)
    (alone : ∀ later, (s.exec hash agent op how).2.turns agent = .live later →
      ∀ other turn, other ≠ agent → s.turns other = .live turn → turn.session ≠ later.session)
    (sameRun : ∀ other turn, other ≠ agent → s.turns other = .live turn →
      SameRun (s.state.sessions turn.session).control
        ((s.exec hash agent op how).2.state.sessions turn.session).control) :
    RunInvariant (s.exec hash agent op how).2 := by
  have others : ∀ other, other ≠ agent →
      (s.exec hash agent op how).2.turns other = s.turns other := by
    intro other differs
    rw [exec_turns, update_of_ne differs]
  constructor
  case single =>
    intro first second turn turn' isLive isLive' sameSession
    by_cases isFirst : first = agent
    · by_cases isSecond : second = agent
      · rw [isFirst, isSecond]
      · subst isFirst
        rw [others second isSecond] at isLive'
        exact absurd sameSession.symm (alone turn isLive second turn' isSecond isLive')
    · rw [others first isFirst] at isLive
      by_cases isSecond : second = agent
      · subst isSecond
        exact absurd sameSession (alone turn' isLive' first turn isFirst isLive)
      · rw [others second isSecond] at isLive'
        exact inv.single first second turn turn' isLive isLive' sameSession
  case task =>
    intro other
    by_cases same : other = agent
    · subst same
      exact own
    · exact (inv.task other).keep
        (others_keepTask same fun turn isLive => sameRun other turn same isLive)
  case reports => exact exec_reports inv permitted

theorem RunInvariant.inside (permitted : (s.turns agent).Permits op) (inside : op.bounds = false) :
    RunInvariant (s.exec hash agent op how).2 := by
  have keeps : KeepsTask s (s.exec hash agent op how).2 agent := inside_keepsTask permitted inside
  refine inv.step permitted ((inv.task agent).keep keeps) ?_ ?_
  · intro later isLive other turn differs wasLive sameSession
    obtain ⟨before, agentWas, session, -⟩ := keeps.live later isLive
    exact differs (inv.single other agent turn before wasLive agentWas (sameSession.trans session))
  · intro other turn _ _
    apply perform_sameRun inside
    rintro _ status rfl
    exact permits_setStatus permitted

/-- `start_run` admits a turn to an idle session, which no other turn is live in. -/
theorem RunInvariant.startRun {session : κ} :
    RunInvariant (s.exec hash agent (.startRun session) how).2 := by
  have permitted : (s.turns agent).Permits (.startRun session) := by
    cases s.turns agent <;> exact trivial
  by_cases isIdle : (s.state.sessions session).control.status = .idle
  · have started : (s.state.sessions session).startRun s.state.nextToken = .ok
        { s.state.sessions session with
          control := ⟨.streaming, some s.state.nextToken, false⟩ } := by
      simp [SessionRuntime.startRun, isIdle]
    have performed : s.state.perform hash (.startRun session) how =
        (.ok s.state.nextToken,
          { s.state.setSession session
              { s.state.sessions session with
                control := ⟨.streaming, some s.state.nextToken, false⟩ } with
            nextToken := s.state.nextToken + 1 }) := by
      simp only [AiState.perform, AiState.startRun, started]
    have isLive : (s.exec hash agent (.startRun session) how).2.turns agent =
        .live { session, cancel := s.state.nextToken } := by
      rw [exec_turns, update_self]
      simp only [Observed.exec, performed]
      rfl
    have control : ((s.exec hash agent (.startRun session) how).2.state.sessions session).control =
        ⟨.streaming, some s.state.nextToken, false⟩ := by
      simp only [Observed.exec, performed]
      simp [AiState.setSession]
    have notRequested :
        (s.exec hash agent (.startRun session) how).2.cancelRequested agent = false :=
      update_self ..
    have notApplying :
        (s.exec hash agent (.startRun session) how).2.cancelledApplying agent = false :=
      update_self ..
    have noneLive : ∀ other turn, s.turns other = .live turn → turn.session ≠ session := by
      rintro other turn wasLive rfl
      exact (inv.task other).notIdle turn wasLive isIdle
    refine inv.step permitted ?_ ?_ ?_
    · constructor
      case notIdle =>
        intro turn isTurn
        cases isLive.symm.trans isTurn
        rw [control]
        simp
      case token =>
        intro turn isTurn
        cases isLive.symm.trans isTurn
        rw [control]
        exact .inl rfl
      case cancels => simp [notRequested]
      case deferred => simp [notApplying]
      case ended => simp [notApplying]
      case outside => simp [notApplying]
    · intro later isTurn other turn _ wasLive
      cases isLive.symm.trans isTurn
      exact noneLive other turn wasLive
    · intro other turn _ wasLive
      apply SameRun.of_eq
      simp only [Observed.exec, performed]
      exact congrArg SessionRuntime.control (setSession_other _ (noneLive other turn wasLive))
  · have refused : s.state.perform hash (.startRun session) how = (.error .sessionBusy, s.state) := by
      simp [AiState.perform, AiState.startRun, SessionRuntime.startRun, isIdle]
    have isOutside : (s.exec hash agent (.startRun session) how).2.turns agent = .outside := by
      rw [exec_turns, update_self]
      simp only [Observed.exec, refused]
      rfl
    have notApplying :
        (s.exec hash agent (.startRun session) how).2.cancelledApplying agent = false :=
      update_self ..
    refine inv.step permitted ?_ ?_ ?_
    · constructor
      case outside => exact fun _ => notApplying
      all_goals simp [isOutside]
    · simp [isOutside]
    · intro other turn _ _
      apply SameRun.of_eq
      simp only [Observed.exec, refused]

/-- `complete_run` resets the record of the session, which no other turn is live in. -/
theorem RunInvariant.completeRun {session : κ}
    (permitted : (s.turns agent).Permits (.completeRun session))
    (waits : s.turns agent = .outside →
      ∀ other turn, s.turns other = .live turn → turn.session ≠ session) :
    RunInvariant (s.exec hash agent (.completeRun session) how).2 := by
  have isEnded : (s.exec hash agent (.completeRun session) how).2.turns agent =
      .ended (s.state.sessions session).control.deferredCancel := by
    rw [exec_turns, update_self]
    rfl
  have sameFlag : (s.exec hash agent (.completeRun session) how).2.cancelledApplying agent =
      s.cancelledApplying agent := rfl
  have noneLive : ∀ other turn, other ≠ agent → s.turns other = .live turn →
      turn.session ≠ session := by
    intro other turn differs wasLive
    obtain isOutside | ⟨running, isLive, rfl⟩ := permits_completeRun permitted
    · exact waits isOutside other turn wasLive
    · intro sameSession
      exact differs (inv.single other agent turn running wasLive isLive sameSession)
  refine inv.step permitted ?_ ?_ ?_
  · constructor
    case ended =>
      intro deferred isTurn isApplying
      cases isEnded.symm.trans isTurn
      rw [sameFlag] at isApplying
      obtain isOutside | ⟨running, isLive, rfl⟩ := permits_completeRun permitted
      · rw [(inv.task agent).outside isOutside] at isApplying
        cases isApplying
      · exact (inv.task agent).deferred running isLive isApplying
    all_goals simp [isEnded]
  · simp [isEnded]
  · intro other turn differs wasLive
    apply SameRun.of_eq
    exact congrArg SessionRuntime.control (setSession_other _ (noneLive other turn differs wasLive))

theorem RunInvariant.call (permitted : (s.turns agent).Permits op)
    (waits : ∀ session, op = .completeRun session → s.turns agent = .outside →
      ∀ other turn, s.turns other = .live turn → turn.session ≠ session) :
    RunInvariant (s.exec hash agent op how).2 := by
  cases bounds : op.bounds with
  | false => exact inv.inside permitted bounds
  | true =>
    cases op with
    | startRun session => exact inv.startRun
    | completeRun session => exact inv.completeRun permitted (waits session rfl)
    | _ => nomatch bounds

/-- A dropped task is live no more, and a gate it was in leaves the session streaming. -/
theorem RunInvariant.drop : RunInvariant (dropTask agent s) := by
  have turns : (dropTask agent s).turns = Function.update s.turns agent .outside :=
    dropTask_turns agent s
  have flags : (dropTask agent s).cancelRequested = Function.update s.cancelRequested agent false ∧
      (dropTask agent s).cancelledApplying = Function.update s.cancelledApplying agent false ∧
      (dropTask agent s).log = s.log ∧
      (dropTask agent s).state.cancelled = s.state.cancelled := by
    unfold dropTask
    dsimp only
    split
    · split <;> exact ⟨rfl, rfl, rfl, rfl⟩
    · exact ⟨rfl, rfl, rfl, rfl⟩
  have sameRun : ∀ session, SameRun (s.state.sessions session).control
      ((dropTask agent s).state.sessions session).control := by
    intro session
    unfold dropTask
    dsimp only
    split
    · split
      · refine sameRun_setSession ?_ session
        refine ⟨rfl, rfl, ?_⟩
        intro isIdle
        cases isIdle
      · exact .of_eq rfl
    · exact .of_eq rfl
  have isOutside : (dropTask agent s).turns agent = .outside := by
    rw [turns, update_self]
  have others : ∀ other, other ≠ agent → (dropTask agent s).turns other = s.turns other := by
    intro other differs
    rw [turns, update_of_ne differs]
  constructor
  case single =>
    intro first second turn turn' isLive isLive' sameSession
    have firstDiffers : first ≠ agent := by
      rintro rfl
      rw [isOutside] at isLive
      cases isLive
    have secondDiffers : second ≠ agent := by
      rintro rfl
      rw [isOutside] at isLive'
      cases isLive'
    rw [others first firstDiffers] at isLive
    rw [others second secondDiffers] at isLive'
    exact inv.single first second turn turn' isLive isLive' sameSession
  case task =>
    intro other
    by_cases same : other = agent
    · subst same
      constructor
      case outside =>
        intro _
        rw [flags.2.1, update_self]
      all_goals simp [isOutside]
    · refine (inv.task other).keep (.other (others other same) ?_ ?_ ?_ ?_)
      · rw [flags.1, update_of_ne same]
      · rw [flags.2.1, update_of_ne same]
      · exact fun turn _ => sameRun turn.session
      · intro token isCancelled
        rwa [flags.2.2.2]
  case reports =>
    rw [flags.2.2.1]
    exact inv.reports

end Steps

/-! ## Every run -/

section Runs

variable [DecidableEq ι] [DecidableEq κ] {hash : Str → Str}
  {c : Machine.Config (Observed ι κ) ι (Op.Res (κ := κ)) AiError Unit}

theorem runInvariant_of_reachable (reached : (system ι κ hash).ReachableBy refusedTurnsWait.meets c) :
    RunInvariant c.shared := by
  refine (follows ι κ hash).invariant ?_ ?_ (fun _ _ => RunInvariant.drop)
    (fun _ _ _ inv _ acted => inv.command acted) reached
  · rintro s ⟨mode, rfl⟩
    exact .initial mode
  · intro agent op how s inv isAllowed permitted
    refine inv.call permitted ?_
    rintro session rfl isOutside
    exact isAllowed.2 isOutside

/-- **One live run for each session**, in every state of every run of any number of turns,
cancels, replies and completions in which no refused turn completes while another is live. -/
theorem one_live_run (reached : (system ι κ hash).ReachableBy refusedTurnsWait.meets c) :
    OneLiveRun c.shared := by
  have inv := runInvariant_of_reachable reached
  constructor
  case single => exact inv.single
  case busy =>
    intro agent turn hash how isLive
    have notIdle := (inv.task agent).notIdle turn isLive
    simp [AiState.perform, AiState.startRun, SessionRuntime.startRun, notIdle]
  case notIdle => exact fun agent => (inv.task agent).notIdle
  case cancels => exact fun agent => (inv.task agent).cancels
  case reports => exact inv.reports

/-! ## Where it fails, and where it holds -/

theorem live_of_isLiveIn {session : κ} {turn : Turn κ} (isLive : turn.isLiveIn session = true) :
    ∃ running, turn = .live running ∧ running.session = session := by
  cases turn with
  | live running => exact ⟨running, rfl, of_decide_eq_true isLive⟩
  | outside => nomatch isLive
  | ended deferred => nomatch isLive

/-- Three tasks and one session. -/
abbrev Sample : Type := Machine.Config (Observed (Fin 3) Unit) (Fin 3) (Op.Res (κ := Unit)) AiError Unit

def idle : Sample := ⟨.initial fun _ => .agent, fun _ => none⟩

def sampleMessage : SendMessage Unit := ⟨(), .agent, ['h', 'i'], {}⟩

/-- Run from the start, while every wait is over and every event passes the check. -/
def runSample (call : Fin 3 → Observed (Fin 3) Unit → Op Unit → How → Bool)
    (event : Observed (Fin 3) Unit → Command Unit → Bool)
    (labels : List (Machine.Label (Fin 3) (SendMessage Unit) How (Command Unit))) :
    Option Sample :=
  System.runWhile (Machine.checks call event) (tasks (Fin 3) Unit id).next idle labels

theorem reachable_of_runSample {labels} {c : Sample}
    (ran : runSample (fun _ s op how => s.state.ready how op) (fun _ _ => true) labels = some c) :
    (system (Fin 3) Unit id).ReachableBy scheduling.meets c :=
  Machine.reachable_of_checks (fun _ _ _ => trivial) (fun _ _ _ _ isReady => isReady)
    (fun _ _ _ => trivial) ⟨⟨fun _ => .agent, rfl⟩, fun _ => rfl⟩ ran

/-- Two turns are started, the second is refused and completes, and a third is admitted while
the first is live. -/
theorem not_one_live_run_after_refused :
    ∃ c, (system (Fin 3) Unit id).ReachableBy scheduling.meets c ∧ ¬ OneLiveRun c.shared := by
  have ran : (runSample (fun _ s op how => s.state.ready how op) (fun _ _ => true)
      [.start 0 sampleMessage, .call 0 {}, .start 1 sampleMessage, .call 1 {}, .call 1 {},
        .start 2 sampleMessage, .call 2 {}]).map
      (fun c => ((c.shared.turns 0).isLiveIn (), (c.shared.turns 2).isLiveIn ())) =
      some (true, true) := by
    decide +kernel
  obtain ⟨c, reached, observed⟩ := map_eq_some_iff.mp ran
  obtain ⟨isFirst, isThird⟩ := Prod.mk.inj observed
  refine ⟨c, reachable_of_runSample reached, ?_⟩
  intro promised
  obtain ⟨first, firstLive, _⟩ := live_of_isLiveIn isFirst
  obtain ⟨third, thirdLive, _⟩ := live_of_isLiveIn isThird
  exact absurd (promised.single 0 2 first third firstLive thirdLive rfl) (by decide)

/-- Only a live turn completes. -/
def liveTurnsComplete (agent : Fin 3) (s : Observed (Fin 3) Unit) (op : Op Unit) (how : How) :
    Bool :=
  s.state.ready how op &&
    match op with
    | .completeRun _ => (s.turns agent).isLiveIn ()
    | _ => true

/-- A turn is live and cancelled, and nobody else has come. -/
theorem one_live_run_while_cancelled :
    ∃ c, (system (Fin 3) Unit id).ReachableBy refusedTurnsWait.meets c ∧
      (c.shared.turns 0).isLiveIn () = true ∧ c.shared.cancelRequested 0 = true ∧
      OneLiveRun c.shared := by
  have ran : (runSample liveTurnsComplete (fun _ _ => true)
      [.start 0 sampleMessage, .call 0 {}, .env (.cancel ())]).map
      (fun c => ((c.shared.turns 0).isLiveIn (), c.shared.cancelRequested 0)) =
      some (true, true) := by
    decide +kernel
  obtain ⟨c, reached, observed⟩ := map_eq_some_iff.mp ran
  obtain ⟨isLive, isRequested⟩ := Prod.mk.inj observed
  have reachable : (system (Fin 3) Unit id).ReachableBy refusedTurnsWait.meets c := by
    refine Machine.reachable_of_checks (fun _ _ _ => trivial) ?_ (fun _ _ _ => trivial)
      ⟨⟨fun _ => .agent, rfl⟩, fun _ => rfl⟩ reached
    intro agent s op how isChecked
    obtain ⟨isReady, completes⟩ := (Bool.and_eq_true _ _).mp isChecked
    refine ⟨isReady, ?_⟩
    cases op with
    | completeRun session =>
      intro isOutside
      simp [isOutside, Turn.isLiveIn] at completes
    | _ => trivial
  exact ⟨c, reachable, isLive, isRequested, one_live_run reachable⟩

end Runs

end Kuku.Ai
