/-
# Ai.Approval -- what the user approves is what is applied

A gate shows its plan, waits for the decision and hands the host that plan.  The decision
comes through a sender under the call id, and a call id is the provider's: a second call
of the same id takes the place of the first, and a reply is given to whichever is there.

`only_approved_run` says that this, and a cancel that loses against an approval, are the
only ways to a plan nobody approved or to a result for another call.
-/
import Kuku.Ai.ToolHistory

namespace Kuku.Ai

open Kuku.Theory List Function Option AiState Nat

variable {ι κ : Type}

/-! ## What a record says of an approval -/

/-- The channel an event is about. -/
def Entry.event : Entry κ → Option Channel
  | .asked receiver _ _ _ => some receiver
  | .proxyAsked receiver _ => some receiver
  | _ => none

/-- An approval given to the event that showed the plan, after it, before any rejection and
before another event of the same call id had taken its place. -/
structure GrantedIn (receiver : Channel) (plan : MutationPlan) (session : κ) (callId : Str)
    (before : List (Entry κ)) : Prop where
  asked : .asked receiver session callId plan ∈ before
  notRejected : .replied receiver false ∉ before
  notSuperseded : ∀ other plan', .asked other session callId plan' ∈ before → other ≤ receiver

def Granted (receiver : Channel) (plan : MutationPlan) (log : List (Entry κ)) : Prop :=
  ∃ later before session callId, log = later ++ .replied receiver true :: before ∧
    GrantedIn receiver plan session callId before

/-- What comes before a plan is applied. -/
structure Approved (receiver : Channel) (plan : MutationPlan) (log : List (Entry κ)) : Prop where
  granted : Granted receiver plan log
  decided : .decided receiver true false ∈ log
  notCancelled : .applying receiver false ∈ log

/-- A result that was submitted to the event of the call, after it. -/
def Submitted (receiver : Channel) (result : ProxyToolResult) (log : List (Entry κ)) : Prop :=
  ∃ later before callId, log = later ++ .submitted receiver result :: before ∧
    .proxyAsked receiver callId ∈ before

/-- An entry of the record, by what came before it. -/
def Entry.Founded : Entry κ → List (Entry κ) → Prop
  | .applied receiver plan, before => ∃ event, receiver = some event ∧ Approved event plan before
  | .delivered receiver result, before => Submitted receiver result before
  | _, _ => True

def Founded : List (Entry κ) → Prop
  | [] => True
  | entry :: before => entry.Founded before ∧ Founded before

/-- Every plan applied was approved, every result delivered was submitted, and a channel is
that of one event. -/
structure OnlyApproved (log : List (Entry κ)) : Prop where
  founded : Founded log
  events : (log.filterMap Entry.event).Nodup

/-! ## The condition -/

/-- A reply finds the sender of its own event, or none. -/
def Command.ToOwn [DecidableEq κ] (s : Observed ι κ) : Command κ → Prop
  | .cancel session => ∀ agent turn receiver plan, s.turns agent = .live turn →
      turn.asking = .approved receiver plan →
      (s.state.sessions session).control.cancel ≠ some turn.cancel
  | .reply _ false => True
  | .reply event true => ∀ session callId other, s.question event = some (session, callId) →
      (s.state.sessions session).approvals callId = some other → other = event
  | .submit event _ => ∀ callId other, s.proxyQuestion event = some callId →
      s.state.proxyPending callId = some other → other = event

/-- A wait for a decision that takes up a cancel, if there is one. -/
def takesCancel (s : AiState κ) (how : How) : Op κ → Bool
  | .awaitDecision _ _ _ cancel => !s.cancelled cancel || how.cancelFirst
  | _ => true

/-- Replies come to their own events, a cancel that is there wins over an approval, and none
comes between an approval and the application of its plan. -/
def repliesToOwn [DecidableEq κ] : RunCondition ι κ where
  start _ _ _ := True
  call _ s op how := s.state.ready how op = true ∧ takesCancel s.state how op = true
  env s event := event.ToOwn s

/-! ## Records that grow -/

section Growth

variable {receiver : Channel} {plan : MutationPlan} {result : ProxyToolResult}
  {log newer : List (Entry κ)}

theorem Granted.grow (granted : Granted receiver plan log) :
    Granted receiver plan (newer ++ log) := by
  obtain ⟨later, before, session, callId, rfl, grantedIn⟩ := granted
  exact ⟨newer ++ later, before, session, callId, (append_assoc _ _ _).symm, grantedIn⟩

theorem Approved.grow (approved : Approved receiver plan log) :
    Approved receiver plan (newer ++ log) where
  granted := approved.granted.grow
  decided := mem_append_right newer approved.decided
  notCancelled := mem_append_right newer approved.notCancelled

theorem Submitted.grow (submitted : Submitted receiver result log) :
    Submitted receiver result (newer ++ log) := by
  obtain ⟨later, before, callId, rfl, isAsked⟩ := submitted
  exact ⟨newer ++ later, before, callId, (append_assoc _ _ _).symm, isAsked⟩

theorem Granted.isAsked (granted : Granted receiver plan log) :
    ∃ session callId, .asked receiver session callId plan ∈ log := by
  obtain ⟨later, before, session, callId, rfl, grantedIn⟩ := granted
  exact ⟨session, callId, mem_append_right later (mem_cons_of_mem _ grantedIn.asked)⟩

theorem event_mem {entry : Entry κ} (member : entry ∈ log) (isEvent : entry.event = some receiver) :
    receiver ∈ log.filterMap Entry.event :=
  mem_filterMap.mpr ⟨entry, member, isEvent⟩

theorem entry_eq_of_event {first second : Entry κ} (nodup : (log.filterMap Entry.event).Nodup)
    (isFirst : first ∈ log) (isSecond : second ∈ log) (firstEvent : first.event = some receiver)
    (secondEvent : second.event = some receiver) : first = second := by
  induction log with
  | nil => cases isFirst
  | cons entry before ih =>
    have tail : (before.filterMap Entry.event).Nodup :=
      nodup.sublist (List.Sublist.filterMap _ (sublist_cons_self entry before))
    have notTwice : entry.event = some receiver → ∀ other ∈ before,
        other.event ≠ some receiver := by
      intro isEvent other member otherEvent
      rw [filterMap_cons_some isEvent] at nodup
      exact (nodup_cons.mp nodup).1 (event_mem member otherEvent)
    cases isFirst with
    | head =>
      cases isSecond with
      | head => rfl
      | tail _ isSecond => exact absurd secondEvent (notTwice firstEvent second isSecond)
    | tail _ isFirst =>
      cases isSecond with
      | head => exact absurd firstEvent (notTwice secondEvent first isFirst)
      | tail _ isSecond => exact ih tail isFirst isSecond

end Growth

/-! ## The invariant -/

section Invariant

/-- The channel of a question that is registered and not shown yet. -/
def Asking.unshown : Asking → Option Channel
  | .registered receiver _ => some receiver
  | .proxyRegistered receiver _ => some receiver
  | _ => none

/-- A sender that is still held under a call id of a session. -/
structure Waiting (s : Observed ι κ) (session : κ) (callId : Str) (receiver : Channel) : Prop where
  issued : receiver < s.state.nextChannel
  unsent : s.state.approvalSent receiver = none
  unanswered : ∀ approved, .replied receiver approved ∉ s.log
  question : ∀ session' callId' plan, .asked receiver session' callId' plan ∈ s.log →
    session' = session ∧ callId' = callId
  newest : ∀ other plan, .asked other session callId plan ∈ s.log → other ≤ receiver

/-- What stands behind the question a turn is at. -/
def Supported (s : Observed ι κ) (session : κ) (cancel : Token) : Asking → Prop
  | .nothing => True
  | .registered receiver callId => receiver < s.state.nextChannel ∧
      receiver ∉ s.log.filterMap Entry.event ∧
      (∀ session' callId', (s.state.sessions session').approvals callId' = some receiver →
        session = session' ∧ callId = callId') ∧
      ∀ later, (s.state.sessions session).approvals callId = some later → receiver ≤ later
  | .asked receiver callId plan => .asked receiver session callId plan ∈ s.log
  | .approved receiver plan => Granted receiver plan s.log ∧
      .decided receiver true false ∈ s.log ∧ s.state.cancelled cancel = false
  | .applying receiver plan => Approved receiver plan s.log
  | .proxyRegistered receiver _ => receiver < s.state.nextChannel ∧
      receiver ∉ s.log.filterMap Entry.event
  | .proxyAsked _ _ => True

structure ApprovalInvariant (s : Observed ι κ) : Prop where
  issued : ∀ receiver ∈ s.log.filterMap Entry.event, receiver < s.state.nextChannel
  waiting : ∀ session callId receiver, (s.state.sessions session).approvals callId = some receiver →
    Waiting s session callId receiver
  sent : ∀ receiver, s.state.nextChannel ≤ receiver → s.state.approvalSent receiver = none
  replied : ∀ receiver approved, .replied receiver approved ∈ s.log → receiver < s.state.nextChannel
  apart : ∀ session callId session' callId' receiver,
    (s.state.sessions session).approvals callId = some receiver →
    (s.state.sessions session').approvals callId' = some receiver →
    session = session' ∧ callId = callId'
  approved : ∀ receiver, s.state.approvalSent receiver = some .approve →
    ∃ plan, Granted receiver plan s.log
  submitted : ∀ receiver result, s.state.proxySent receiver = some result →
    Submitted receiver result s.log
  supported : ∀ agent turn, s.turns agent = .live turn →
    Supported s turn.session turn.cancel turn.asking
  unshown : ∀ agent agent' receiver, (s.turns agent).asking.unshown = some receiver →
    (s.turns agent').asking.unshown = some receiver → agent = agent'
  log : OnlyApproved s.log

theorem ApprovalInvariant.initial (mode : κ → ChatMode) :
    ApprovalInvariant (.initial mode : Observed ι κ) where
  issued _ member := nomatch member
  waiting _ _ _ held := nomatch held
  sent _ _ := rfl
  replied _ _ member := nomatch member
  apart _ _ _ _ _ held := nomatch held
  approved _ sent := nomatch sent
  submitted _ _ sent := nomatch sent
  supported _ _ isLive := nomatch isLive
  unshown _ _ _ isUnshown := nomatch isUnshown
  log := ⟨trivial, nodup_nil⟩

variable {s s' : Observed ι κ} {receiver : Channel}

/-- A sender is still held after a step that adds nothing about it. -/
theorem Waiting.keep {session : κ} {callId : Str} {newer : List (Entry κ)}
    (waiting : Waiting s session callId receiver)
    (issued : s.state.nextChannel ≤ s'.state.nextChannel)
    (unsent : s'.state.approvalSent receiver = none) (grows : s'.log = newer ++ s.log)
    (unanswered : ∀ approved, .replied receiver approved ∉ newer)
    (question : ∀ session' callId' plan, .asked receiver session' callId' plan ∈ newer →
      session' = session ∧ callId' = callId)
    (newest : ∀ other plan, .asked other session callId plan ∈ newer → other ≤ receiver) :
    Waiting s' session callId receiver := by
  constructor
  case issued => exact lt_of_lt_of_le waiting.issued issued
  case unsent => exact unsent
  case unanswered =>
    intro approved member
    rw [grows] at member
    exact (mem_append.mp member).elim (unanswered approved) (waiting.unanswered approved)
  case question =>
    intro session' callId' plan member
    rw [grows] at member
    exact (mem_append.mp member).elim (question session' callId' plan)
      (waiting.question session' callId' plan)
  case newest =>
    intro other plan member
    rw [grows] at member
    exact (mem_append.mp member).elim (newest other plan) (waiting.newest other plan)

/-- A turn's question keeps what stands behind it while its own event is not shown and its
token is not cancelled. -/
theorem Supported.keep {session : κ} {cancel : Token} {asking : Asking} {newer : List (Entry κ)}
    (supported : Supported s session cancel asking)
    (issued : s.state.nextChannel ≤ s'.state.nextChannel)
    (held : ∀ session callId receiver,
      (s'.state.sessions session).approvals callId = some receiver →
      (s.state.sessions session).approvals callId = some receiver ∨
        receiver = s.state.nextChannel) (grows : s'.log = newer ++ s.log)
    (unshown : ∀ receiver, asking.unshown = some receiver → receiver ∉ newer.filterMap Entry.event)
    (notCancelled : ∀ receiver plan, asking = .approved receiver plan →
      s.state.cancelled cancel = false → s'.state.cancelled cancel = false) :
    Supported s' session cancel asking := by
  have stillUnshown : ∀ receiver, asking.unshown = some receiver →
      receiver ∉ s.log.filterMap Entry.event → receiver ∉ s'.log.filterMap Entry.event := by
    intro receiver isUnshown notShown
    rw [grows, filterMap_append, mem_append]
    exact not_or.mpr ⟨unshown receiver isUnshown, notShown⟩
  cases asking with
  | nothing => trivial
  | registered receiver callId =>
    obtain ⟨isIssued, notShown, own, newest⟩ := supported
    refine ⟨lt_of_lt_of_le isIssued issued, stillUnshown receiver rfl notShown, ?_, ?_⟩
    · intro session' callId' isHeld
      exact (held session' callId' receiver isHeld).elim (own session' callId')
        fun isNext => absurd isNext (Nat.ne_of_lt isIssued)
    · intro later isHeld
      exact (held session callId later isHeld).elim (newest later)
        fun isNext => isNext ▸ le_of_lt isIssued
  | asked receiver callId plan =>
    change _ ∈ s'.log
    rw [grows]
    exact mem_append_right newer supported
  | approved receiver plan =>
    obtain ⟨granted, decided, isLive⟩ := supported
    refine ⟨?_, ?_, notCancelled receiver plan rfl isLive⟩
    · rw [grows]
      exact granted.grow
    · rw [grows]
      exact mem_append_right newer decided
  | applying receiver plan =>
    change Approved receiver plan s'.log
    rw [grows]
    exact supported.grow
  | proxyRegistered receiver callId =>
    exact ⟨lt_of_lt_of_le supported.1 issued, stillUnshown receiver rfl supported.2⟩
  | proxyAsked receiver callId => trivial

theorem Supported.unshown {s : Observed ι κ} {session : κ} {cancel : Token} {asking : Asking}
    (supported : Supported s session cancel asking) (isUnshown : asking.unshown = some receiver) :
    receiver < s.state.nextChannel ∧ receiver ∉ s.log.filterMap Entry.event := by
  cases asking with
  | registered other callId =>
    cases isUnshown
    exact ⟨supported.1, supported.2.1⟩
  | proxyRegistered other callId =>
    cases isUnshown
    exact supported
  | _ => nomatch isUnshown

theorem ApprovalInvariant.unshown_issued {s : Observed ι κ} {agent : ι} (inv : ApprovalInvariant s)
    (isUnshown : (s.turns agent).asking.unshown = some receiver) :
    receiver < s.state.nextChannel ∧ receiver ∉ s.log.filterMap Entry.event := by
  cases isTurn : s.turns agent with
  | live turn =>
    rw [isTurn] at isUnshown
    exact (inv.supported agent turn isTurn).unshown isUnshown
  | _ =>
    rw [isTurn] at isUnshown
    nomatch isUnshown

/-- A step of nobody's turn: it makes no channel, shows no event and applies nothing. -/
structure Aside (s s' : Observed ι κ) (newer : List (Entry κ)) : Prop where
  turns : ∀ agent, s'.turns agent = s.turns agent ∨ s'.turns agent = .outside
  nextChannel : s'.state.nextChannel = s.state.nextChannel
  grows : s'.log = newer ++ s.log
  events : newer.filterMap Entry.event = []
  founded : Founded s'.log
  held : ∀ session callId receiver,
    (s'.state.sessions session).approvals callId = some receiver →
    (s.state.sessions session).approvals callId = some receiver ∧
      s'.state.approvalSent receiver = none ∧ ∀ approved, .replied receiver approved ∉ newer
  sent : ∀ receiver, s.state.nextChannel ≤ receiver → s'.state.approvalSent receiver = none
  replied : ∀ receiver approved, .replied receiver approved ∈ newer → receiver < s.state.nextChannel
  approved : ∀ receiver, s'.state.approvalSent receiver = some .approve →
    s.state.approvalSent receiver = some .approve ∨ ∃ plan, Granted receiver plan s'.log
  submitted : ∀ receiver result, s'.state.proxySent receiver = some result →
    s.state.proxySent receiver = some result ∨ Submitted receiver result s'.log
  notCancelled : ∀ agent turn receiver plan, s.turns agent = .live turn →
    turn.asking = .approved receiver plan → s.state.cancelled turn.cancel = false →
    s'.state.cancelled turn.cancel = false

theorem ApprovalInvariant.aside (newer : List (Entry κ)) (inv : ApprovalInvariant s)
    (step : Aside s s' newer) : ApprovalInvariant s' := by
  have events : s'.log.filterMap Entry.event = s.log.filterMap Entry.event := by
    rw [step.grows, filterMap_append, step.events, nil_append]
  have noEvent : ∀ entry ∈ newer, entry.event = none := filterMap_eq_nil_iff.mp step.events
  constructor
  case issued =>
    rw [events, step.nextChannel]
    exact inv.issued
  case waiting =>
    intro session callId receiver isHeld
    obtain ⟨wasHeld, unsent, unanswered⟩ := step.held session callId receiver isHeld
    refine (inv.waiting session callId receiver wasHeld).keep step.nextChannel.ge unsent step.grows
      unanswered ?_ ?_
    · intro _ _ _ member
      cases noEvent _ member
    · intro _ _ member
      cases noEvent _ member
  case sent =>
    intro receiver unissued
    rw [step.nextChannel] at unissued
    exact step.sent receiver unissued
  case replied =>
    intro receiver approved member
    rw [step.nextChannel]
    rw [step.grows] at member
    exact (mem_append.mp member).elim (step.replied receiver approved)
      (inv.replied receiver approved)
  case apart =>
    intro session callId session' callId' receiver isHeld isHeld'
    exact inv.apart session callId session' callId' receiver (step.held _ _ _ isHeld).1
      (step.held _ _ _ isHeld').1
  case approved =>
    intro receiver isSent
    cases step.approved receiver isSent with
    | inl wasSent =>
      obtain ⟨plan, granted⟩ := inv.approved receiver wasSent
      refine ⟨plan, ?_⟩
      rw [step.grows]
      exact granted.grow
    | inr granted => exact granted
  case submitted =>
    intro receiver result isSent
    cases step.submitted receiver result isSent with
    | inl wasSent =>
      rw [step.grows]
      exact (inv.submitted receiver result wasSent).grow
    | inr submitted => exact submitted
  case supported =>
    intro agent turn isLive
    cases step.turns agent with
    | inr isOutside =>
      rw [isOutside] at isLive
      cases isLive
    | inl same =>
      rw [same] at isLive
      refine (inv.supported agent turn isLive).keep step.nextChannel.ge ?_ step.grows ?_ ?_
      · intro session callId receiver isHeld
        exact .inl (step.held session callId receiver isHeld).1
      · intro receiver _
        rw [step.events]
        exact not_mem_nil
      · intro receiver plan isApproved
        exact step.notCancelled agent turn receiver plan isLive isApproved
  case unshown =>
    have same : ∀ agent receiver, (s'.turns agent).asking.unshown = some receiver →
        (s.turns agent).asking.unshown = some receiver := by
      intro agent receiver isUnshown
      cases step.turns agent with
      | inl same => rwa [same] at isUnshown
      | inr isOutside =>
        rw [isOutside] at isUnshown
        cases isUnshown
    intro first second receiver isFirst isSecond
    exact inv.unshown first second receiver (same first receiver isFirst)
      (same second receiver isSecond)
  case log =>
    refine ⟨step.founded, ?_⟩
    rw [events]
    exact inv.log.events

end Invariant

/-! ## What a call does to the senders -/

section Senders

variable [DecidableEq κ] {hash : Str → Str} {how : How} {op : Op κ} {s : AiState κ}

theorem perform_sent : (s.perform hash op how).2.approvalSent = s.approvalSent ∧
    (s.perform hash op how).2.proxySent = s.proxySent := by
  cases op with
  | startRun session =>
    simp only [AiState.perform, AiState.startRun]
    split <;> exact ⟨rfl, rfl⟩
  | _ => exact ⟨rfl, rfl⟩

theorem perform_nextChannel : s.nextChannel ≤ (s.perform hash op how).2.nextChannel := by
  cases op with
  | startRun session =>
    simp only [AiState.perform, AiState.startRun]
    split <;> exact le_refl _
  | registerPending callId => exact le_succ _
  | beginAwaitingApproval session callId => exact le_succ _
  | _ => exact le_refl _

variable {receiver : Channel}

theorem setSession_approvals {session other : κ} {runtime : SessionRuntime} {callId : Str}
    (fewer : ∀ callId, runtime.approvals callId = some receiver →
      (s.sessions session).approvals callId = some receiver)
    (held : ((s.setSession session runtime).sessions other).approvals callId = some receiver) :
    (s.sessions other).approvals callId = some receiver := by
  by_cases same : other = session
  · subst same
    rw [setSession_same] at held
    exact fewer callId held
  · rwa [setSession_other runtime same] at held

theorem clearApproval_approvals {runtime : SessionRuntime} {cleared callId : Str}
    (held : (runtime.clearApproval cleared).approvals callId = some receiver) :
    callId ≠ cleared ∧ runtime.approvals callId = some receiver := by
  by_cases same : callId = cleared
  · simp [SessionRuntime.clearApproval, same] at held
  · exact ⟨same, by simpa [SessionRuntime.clearApproval, same] using held⟩

/-- A sender is held that was held before, or that the call has made. -/
theorem perform_approvals {session : κ} {callId : Str}
    (held : ((s.perform hash op how).2.sessions session).approvals callId = some receiver) :
    (s.sessions session).approvals callId = some receiver ∨
      receiver = s.nextChannel ∧ op = .beginAwaitingApproval session callId := by
  cases op with
  | startRun started =>
    refine .inl ?_
    rw [← held]
    by_cases isIdle : (s.sessions started).control.status = .idle
    · simp only [AiState.perform, AiState.startRun, SessionRuntime.startRun, isIdle]
      refine congrFun (setSession_keeps SessionRuntime.approvals ?_ session).symm callId
      rfl
    · simp [AiState.perform, AiState.startRun, SessionRuntime.startRun, isIdle]
  | clearApproval cleared clearedId =>
    exact .inl (setSession_approvals (fun _ held => (clearApproval_approvals held).2) held)
  | beginAwaitingApproval asked askedId =>
    change (Function.update s.sessions asked _ session).approvals callId = _ at held
    by_cases same : session = asked
    · subst same
      rw [update_self] at held
      by_cases sameId : callId = askedId
      · subst sameId
        simp only [SessionRuntime.beginAwaitingApproval, update_self, Option.some.injEq] at held
        exact .inr ⟨held.symm, rfl⟩
      · simp only [SessionRuntime.beginAwaitingApproval, update_of_ne sameId] at held
        exact .inl held
    · rw [update_of_ne same] at held
      exact .inl held
  | _ =>
    refine .inl ?_
    rw [← held]
    first
      | rfl
      | (refine congrFun (setSession_keeps SessionRuntime.approvals ?_ session).symm callId
         rfl)

end Senders

/-! ## What a call adds to the record -/

section Entries

variable {hash : Str → Str} {how : How} {op : Op κ} {s : Observed ι κ} {agent : ι}
  {entry : Entry κ} {answer : Except AiError op.Res}

/-- A call after which a turn is at another question. -/
def Op.asks : Op κ → Bool
  | .emit (.pendingApproval _ _ _ _ _ _) => true
  | .emit (.proxyCall _ _ _ _ _) => true
  | .registerPending _ => true
  | .awaitProxy _ _ _ _ => true
  | .beginAwaitingApproval _ _ => true
  | .awaitDecision _ _ _ _ => true
  | .setStatus _ .applying => true
  | .applyMutation _ _ => true
  | _ => false

variable {running : LiveTurn κ}

theorem afterLive_asking (notAsks : op.asks = false) :
    (Turn.afterLive running op answer).asking = running.asking := by
  unfold Turn.afterLive
  split
  all_goals first
    | rfl
    | nomatch notAsks

/-- A result or an application settles the question. -/
theorem afterLive_settled (settles : (∃ callId receiver cancel timeoutMs,
      op = .awaitProxy callId receiver cancel timeoutMs) ∨
      ∃ session plan, op = .applyMutation session plan) :
    (Turn.afterLive running op answer).asking = .nothing := by
  rcases settles with ⟨callId, receiver, cancel, timeoutMs, rfl⟩ | ⟨session, plan, rfl⟩
  · match answer with
    | .ok .cancelled => rfl
    | .ok (.ready _) => rfl
    | .error _ => rfl
  · match answer with
    | .ok _ => rfl
    | .error error => cases error <;> rfl

theorem live_of_asking {asking : Asking} (isAsking : (s.turns agent).asking = asking)
    (something : asking ≠ .nothing) :
    ∃ turn, s.turns agent = .live turn ∧ turn.asking = asking := by
  cases isTurn : s.turns agent with
  | live turn =>
    rw [isTurn] at isAsking
    exact ⟨turn, rfl, isAsking⟩
  | _ =>
    rw [isTurn] at isAsking
    exact absurd isAsking.symm something

/-- A live turn has just started, or was live before. -/
theorem live_of_call {later : LiveTurn κ} (isLive : (s.turns agent).after op answer = .live later) :
    later.asking = .nothing ∨
      ∃ running, s.turns agent = .live running ∧ later = Turn.afterLive running op answer := by
  unfold Turn.after at isLive
  split at isLive
  · cases isLive
    exact .inl rfl
  · cases isLive
  · cases isLive
  · cases isLive
  · split at isLive
    · rename_i running isRunning
      cases isLive
      exact .inr ⟨running, isRunning, rfl⟩
    · rename_i other notLive
      exact absurd isLive (notLive later)

variable {receiver : Channel}

/-- An event is shown of the question its task has registered. -/
theorem entry_event (isEntry : s.entry agent op answer = some entry)
    (isEvent : entry.event = some receiver) :
    (s.turns agent).asking.unshown = some receiver := by
  unfold Observed.entry at isEntry
  split at isEntry
  case h_2 =>
    split at isEntry
    · rename_i isRegistered
      cases isEntry
      rw [isRegistered]
      exact isEvent
    · cases isEntry
  case h_3 =>
    split at isEntry
    · rename_i isRegistered
      cases isEntry
      rw [isRegistered]
      exact isEvent
    · cases isEntry
  all_goals first
    | cases isEntry <;> cases isEvent
    | (split at isEntry <;> cases isEntry <;> cases isEvent)

/-- An event is shown only by the task that has registered its channel. -/
theorem entry_not_shown (inv : ApprovalInvariant s) {other : ι}
    (isUnshown : (s.turns other).asking.unshown = some receiver) (differs : other ≠ agent) :
    receiver ∉ (s.entry agent op answer).toList.filterMap Entry.event := by
  intro member
  obtain ⟨entry, isEntry, isEvent⟩ := mem_filterMap.mp member
  exact differs (inv.unshown other agent receiver isUnshown
    (entry_event (mem_toList.mp isEntry) isEvent))

/-- A call of no question shows no event. -/
theorem entry_quiet (notAsks : op.asks = false) :
    (s.entry agent op answer).toList.filterMap Entry.event = [] := by
  rw [filterMap_eq_nil_iff]
  intro entry isEntry
  have isEntry := mem_toList.mp isEntry
  unfold Observed.entry at isEntry
  split at isEntry
  all_goals first
    | (cases isEntry <;> rfl)
    | cases notAsks

variable {callId : Str}

/-- A plan is shown in the session of the turn, under the call id registered. -/
theorem entry_asked {session : κ} {plan : MutationPlan} (permitted : (s.turns agent).Permits op)
    (isEntry : s.entry agent op answer = some (.asked receiver session callId plan)) :
    ∃ turn, s.turns agent = .live turn ∧ turn.session = session ∧
      turn.asking = .registered receiver callId := by
  unfold Observed.entry at isEntry
  split at isEntry
  case h_2 =>
    split at isEntry
    · rename_i isRegistered
      cases isEntry
      obtain ⟨turn, isLive, isAsking⟩ := live_of_asking isRegistered (by simp)
      rw [isLive] at permitted
      obtain ⟨other, isOther⟩ := permitted.2
      rw [isAsking] at isOther
      cases isOther
      exact ⟨turn, isLive, (permitted.1 session rfl).symm, isAsking⟩
    · cases isEntry
  all_goals first
    | cases isEntry
    | (split at isEntry <;> cases isEntry)

theorem entry_not_replied {approved : Bool} :
    s.entry agent op answer ≠ some (.replied receiver approved) := by
  intro isEntry
  unfold Observed.entry at isEntry
  split at isEntry
  all_goals first
    | cases isEntry
    | (split at isEntry <;> cases isEntry)

/-- The plan applied is that of the question the turn is at. -/
theorem entry_applied {receiver : Option Channel} {plan : MutationPlan}
    (permitted : (s.turns agent).Permits op)
    (isEntry : s.entry agent op answer = some (.applied receiver plan)) :
    ∃ turn event, s.turns agent = .live turn ∧ turn.asking = .applying event plan ∧
      receiver = some event := by
  unfold Observed.entry at isEntry
  split at isEntry
  case h_8 =>
    cases isTurn : s.turns agent with
    | live turn =>
      rw [isTurn] at permitted isEntry
      obtain ⟨event, isApplying⟩ := permitted.2
      simp only [Turn.asking, isApplying, Option.some.injEq, Entry.applied.injEq] at isEntry
      obtain ⟨rfl, rfl⟩ := isEntry
      exact ⟨turn, event, rfl, isApplying, rfl⟩
    | _ =>
      rw [isTurn] at permitted
      exact permitted.elim
  all_goals first
    | cases isEntry
    | (split at isEntry <;> cases isEntry)

/-- The result delivered is the one that was sent. -/
theorem entry_delivered [DecidableEq κ] {result : ProxyToolResult}
    (isEntry : s.entry agent op (s.state.perform hash op how).1 = some (.delivered receiver result)) :
    s.state.proxySent receiver = some result := by
  unfold Observed.entry at isEntry
  split at isEntry
  case h_6 callId awaited cancel timeoutMs output isAnswer =>
    cases isEntry
    simp only [AiState.perform, AiState.awaitProxy, AiState.select] at isAnswer
    split at isAnswer
    · cases isAnswer
    · split at isAnswer
      · rename_i isSent
        cases isAnswer
        exact isSent
      · split at isAnswer <;> cases isAnswer
  all_goals first
    | cases isEntry
    | (split at isEntry <;> cases isEntry)

/-- **Whatever a call adds to the record is founded on it.** -/
theorem entry_founded [DecidableEq κ] (inv : ApprovalInvariant s)
    (permitted : (s.turns agent).Permits op)
    (isEntry : s.entry agent op (s.state.perform hash op how).1 = some entry) :
    entry.Founded s.log := by
  cases entry with
  | applied receiver plan =>
    obtain ⟨turn, event, isLive, isApplying, isEvent⟩ := entry_applied permitted isEntry
    have supported := inv.supported agent turn isLive
    rw [isApplying] at supported
    exact ⟨event, isEvent, supported⟩
  | delivered receiver result => exact inv.submitted receiver result (entry_delivered isEntry)
  | _ => trivial

/-- A channel is registered that was registered before, or that the call has made. -/
theorem unshown_afterLive [DecidableEq κ]
    (isUnshown : (Turn.afterLive running op (s.state.perform hash op how).1).asking.unshown =
      some receiver) :
    running.asking.unshown = some receiver ∨ receiver = s.state.nextChannel := by
  cases asks : op.asks with
  | false =>
    rw [afterLive_asking asks] at isUnshown
    exact .inl isUnshown
  | true =>
    cases op with
    | emit event =>
      cases event with
      | pendingApproval session callId toolId toolName plan previewText =>
        simp only [Turn.afterLive] at isUnshown
        split at isUnshown
        · cases isUnshown
        · exact .inl isUnshown
      | proxyCall session callId toolId toolName arguments =>
        simp only [Turn.afterLive] at isUnshown
        split at isUnshown
        · cases isUnshown
        · exact .inl isUnshown
      | _ => cases asks
    | registerPending callId =>
      cases isUnshown
      exact .inr rfl
    | beginAwaitingApproval session callId =>
      cases isUnshown
      exact .inr rfl
    | awaitProxy callId awaited cancel timeoutMs =>
      rw [afterLive_settled (.inl ⟨_, _, _, _, rfl⟩)] at isUnshown
      cases isUnshown
    | awaitDecision session callId awaited cancel =>
      generalize (s.state.perform hash (.awaitDecision session callId awaited cancel) how).1 =
        answer at isUnshown
      rcases answer with _ | _ | _ | ⟨⟨⟩⟩ <;> try cases isUnshown
      · simp only [Turn.afterLive] at isUnshown
        split at isUnshown
        · cases isUnshown
        · exact .inl isUnshown
    | setStatus session status =>
      cases status with
      | applying =>
        simp only [Turn.afterLive] at isUnshown
        split at isUnshown
        · cases isUnshown
        · exact .inl isUnshown
      | _ => cases asks
    | applyMutation session plan =>
      rw [afterLive_settled (.inr ⟨_, _, rfl⟩)] at isUnshown
      cases isUnshown
    | _ => cases asks

theorem mem_of_question {s : Observed ι κ} {event : Channel} {session : κ}
    (isQuestion : s.question event = some (session, callId)) :
    ∃ plan, .asked event session callId plan ∈ s.log := by
  obtain ⟨entry, member, isAsked⟩ := exists_of_findSome?_eq_some isQuestion
  cases entry with
  | asked receiver other otherId plan =>
    dsimp only at isAsked
    split at isAsked
    · rename_i same
      cases isAsked
      subst same
      exact ⟨plan, member⟩
    · cases isAsked
  | _ => cases isAsked

theorem mem_of_proxyQuestion {s : Observed ι κ} {event : Channel}
    (isQuestion : s.proxyQuestion event = some callId) : .proxyAsked event callId ∈ s.log := by
  obtain ⟨entry, member, isAsked⟩ := exists_of_findSome?_eq_some isQuestion
  cases entry with
  | proxyAsked receiver otherId =>
    dsimp only at isAsked
    split at isAsked
    · rename_i same
      cases isAsked
      subst same
      exact member
    · cases isAsked
  | _ => cases isAsked

end Entries

/-! ## The steps -/

section Steps

variable [DecidableEq ι] [DecidableEq κ] {hash : Str → Str} {how : How} {op : Op κ}
  {s : Observed ι κ} {agent : ι}

/-- What the record gains: nothing but the entry of the call. -/
theorem exec_log : (s.exec hash agent op how).2.log =
    (s.entry agent op (s.state.perform hash op how).1).toList ++ s.log := rfl

/-- A decision that is taken answers the plan that was shown, and is taken while the turn is not
cancelled. -/
theorem supported_decided {running : LiveTurn κ} {session : κ} {callId : Str} {receiver : Channel}
    {plan : MutationPlan} (inv : ApprovalInvariant s) (isLive : s.turns agent = .live running)
    (isAsked : running.asking = .asked receiver callId plan)
    (takes : takesCancel s.state how (.awaitDecision session callId receiver running.cancel) = true) :
    Supported (s.exec hash agent (.awaitDecision session callId receiver running.cancel) how).2
      running.session running.cancel
      (Turn.afterLive running (.awaitDecision session callId receiver running.cancel)
        (s.state.perform hash (.awaitDecision session callId receiver running.cancel) how).1).asking := by
  have supported := inv.supported agent running isLive
  rw [isAsked] at supported
  by_cases isCancelled : how.cancelFirst = true ∧ s.state.cancelled running.cancel = true
  · simp only [AiState.perform, AiState.select, if_pos isCancelled]
    trivial
  · have notCancelled : s.state.cancelled running.cancel = false := by
      cases cancelled : s.state.cancelled running.cancel with
      | false => rfl
      | true =>
        simp only [takesCancel, cancelled, Bool.not_true, Bool.false_or] at takes
        exact absurd ⟨takes, cancelled⟩ isCancelled
    rcases isSent : s.state.approvalSent receiver with _ | ⟨⟨⟩⟩
    case none =>
      simp only [AiState.perform, AiState.select, if_neg isCancelled, isSent]
      trivial
    case some.reject =>
      simp only [AiState.perform, AiState.select, if_neg isCancelled, isSent]
      trivial
    case some.approve =>
      obtain ⟨granted, isGranted⟩ := inv.approved receiver isSent
      obtain ⟨session', callId', isShown⟩ := isGranted.isAsked
      have same := entry_eq_of_event inv.log.events isShown supported rfl rfl
      cases same
      have isReady : (s.state.perform hash
          (.awaitDecision session callId receiver running.cancel) how).1 =
          .ok (.ready (some .approve)) := by
        simp only [AiState.perform, AiState.select, if_neg isCancelled, isSent]
      rw [isReady]
      simp only [Turn.afterLive, isAsked]
      refine ⟨?_, ?_, ?_⟩
      · rw [exec_log]
        exact isGranted.grow
      · rw [exec_log, isReady]
        simp [Observed.entry, notCancelled]
      · exact (congrFun perform_cancelled _).trans notCancelled

/-- A turn stays supported by its own call, whatever question it is then at. -/
theorem supported_afterLive {running : LiveTurn κ} (inv : ApprovalInvariant s)
    (isLive : s.turns agent = .live running) (permitted : (s.turns agent).Permits op)
    (takes : takesCancel s.state how op = true) :
    Supported (s.exec hash agent op how).2 running.session running.cancel
      (Turn.afterLive running op (s.state.perform hash op how).1).asking := by
  have supported := inv.supported agent running isLive
  rw [isLive] at permitted
  have grown : ∀ newer, (s.exec hash agent op how).2.log = newer ++ s.log →
      (∀ receiver, running.asking.unshown = some receiver → receiver ∉ newer.filterMap Entry.event) →
      Supported (s.exec hash agent op how).2 running.session running.cancel running.asking := by
    intro newer grows unshown
    refine supported.keep perform_nextChannel ?_ grows unshown ?_
    · intro session callId receiver held
      exact (perform_approvals held).imp_right And.left
    · intro _ _ _ notCancelled
      exact (congrFun perform_cancelled _).trans notCancelled
  cases asks : op.asks with
  | false =>
    rw [afterLive_asking asks]
    refine grown _ exec_log ?_
    intro receiver _
    rw [entry_quiet asks]
    exact not_mem_nil
  | true =>
    cases op with
    | emit event =>
      cases event with
      | pendingApproval session callId toolId toolName plan previewText =>
        obtain ⟨receiver, isRegistered⟩ := permitted.2
        have inSession : session = running.session := permitted.1 session rfl
        simp only [Turn.afterLive, isRegistered]
        change _ ∈ (s.exec hash agent _ how).2.log
        rw [exec_log]
        simp [Observed.entry, isLive, Turn.asking, isRegistered, inSession]
      | proxyCall session callId toolId toolName arguments =>
        obtain ⟨receiver, isRegistered⟩ := permitted.2
        simp only [Turn.afterLive, isRegistered]
        trivial
      | _ => cases asks
    | registerPending callId =>
      refine ⟨lt_succ_self _, ?_⟩
      intro member
      exact absurd (inv.issued _ member) (lt_irrefl _)
    | beginAwaitingApproval session callId =>
      have inSession : session = running.session := permitted.1 session rfl
      subst inSession
      refine ⟨lt_succ_self _, ?_, ?_, ?_⟩
      · intro member
        exact absurd (inv.issued _ member) (lt_irrefl _)
      · intro session' callId' held
        cases perform_approvals held with
        | inl held => exact absurd (inv.waiting _ _ _ held).issued (lt_irrefl _)
        | inr made =>
          cases made.2
          exact ⟨rfl, rfl⟩
      · intro later held
        cases perform_approvals held with
        | inl _ =>
          simp only [Observed.exec, AiState.perform, AiState.beginAwaitingApproval,
            setSession_same, SessionRuntime.beginAwaitingApproval,
            update_self, Option.some.injEq] at held
          exact held.le
        | inr made => exact made.1.ge
    | awaitProxy callId receiver cancel timeoutMs =>
      rw [afterLive_settled (.inl ⟨_, _, _, _, rfl⟩)]
      trivial
    | awaitDecision session callId receiver cancel =>
      obtain ⟨rfl, plan, isAsked⟩ := permitted.2
      exact supported_decided inv isLive isAsked takes
    | setStatus session status =>
      cases status with
      | applying =>
        cases isAsking : running.asking with
        | approved receiver plan =>
          rw [isAsking] at supported
          obtain ⟨granted, decided, notCancelled⟩ := supported
          simp only [Turn.afterLive, isAsking]
          change Approved receiver plan (s.exec hash agent _ how).2.log
          rw [exec_log]
          refine ⟨granted.grow, mem_append_right _ decided, ?_⟩
          obtain ⟨session, cancel, history, unanswered, asking, abandoned⟩ := running
          cases isAsking
          simp [Observed.entry, isLive, notCancelled]
        | _ =>
          have stays : (Turn.afterLive running (.setStatus session .applying)
              (s.state.perform hash (.setStatus session .applying) how).1).asking =
              running.asking := by
            simp only [Turn.afterLive, isAsking]
          rw [stays]
          refine grown _ exec_log ?_
          intro receiver _ member
          obtain ⟨session, cancel, history, unanswered, asking, abandoned⟩ := running
          cases isAsking
          simp [Observed.entry, isLive] at member
      | _ => cases asks
    | applyMutation session plan =>
      rw [afterLive_settled (.inr ⟨_, _, rfl⟩)]
      trivial
    | _ => cases asks

theorem unshown_of_call {receiver : Channel}
    (isUnshown : ((s.exec hash agent op how).2.turns agent).asking.unshown = some receiver) :
    (s.turns agent).asking.unshown = some receiver ∨ receiver = s.state.nextChannel := by
  rw [exec_turns, update_self] at isUnshown
  cases isTurn : (s.turns agent).after op (s.exec hash agent op how).1 with
  | live later =>
    rw [isTurn] at isUnshown
    rcases live_of_call isTurn with isNothing | ⟨running, isLive, rfl⟩
    · simp only [Turn.asking, isNothing] at isUnshown
      cases isUnshown
    · rw [isLive]
      exact unshown_afterLive isUnshown
  | _ =>
    rw [isTurn] at isUnshown
    cases isUnshown

/-- **A call keeps the approvals.** -/
theorem ApprovalInvariant.call (inv : ApprovalInvariant s) (permitted : (s.turns agent).Permits op)
    (takes : takesCancel s.state how op = true) :
    ApprovalInvariant (s.exec hash agent op how).2 := by
  have others : ∀ other, other ≠ agent →
      (s.exec hash agent op how).2.turns other = s.turns other := by
    intro other differs
    rw [exec_turns, update_of_ne differs]
  have own : (s.exec hash agent op how).2.turns agent =
      (s.turns agent).after op (s.state.perform hash op how).1 := by
    rw [exec_turns, update_self]
    rfl
  have held : ∀ session callId receiver,
      ((s.exec hash agent op how).2.state.sessions session).approvals callId = some receiver →
      (s.state.sessions session).approvals callId = some receiver ∨
        receiver = s.state.nextChannel ∧ op = .beginAwaitingApproval session callId :=
    fun session callId receiver => perform_approvals
  have issues : s.state.nextChannel ≤ (s.exec hash agent op how).2.state.nextChannel :=
    perform_nextChannel
  constructor
  case issued =>
    intro receiver member
    rw [exec_log, filterMap_append, mem_append] at member
    cases member with
    | inl shown =>
      obtain ⟨entry, isEntry, isEvent⟩ := mem_filterMap.mp shown
      have isUnshown := entry_event (mem_toList.mp isEntry) isEvent
      exact lt_of_lt_of_le (inv.unshown_issued isUnshown).1 issues
    | inr member => exact lt_of_lt_of_le (inv.issued receiver member) issues
  case waiting =>
    intro session callId receiver isHeld
    rcases held session callId receiver isHeld with isHeld | ⟨rfl, rfl⟩
    · refine (inv.waiting session callId receiver isHeld).keep issues ?_ exec_log ?_ ?_ ?_
      · exact (congrFun perform_sent.1 receiver).trans
          (inv.waiting session callId receiver isHeld).unsent
      · intro approved member
        exact entry_not_replied (mem_toList.mp member)
      · intro session' callId' plan member
        obtain ⟨turn, isLive, rfl, isRegistered⟩ := entry_asked permitted (mem_toList.mp member)
        have supported := inv.supported agent turn isLive
        rw [isRegistered] at supported
        exact supported.2.2.1 session callId isHeld
      · intro other plan member
        obtain ⟨turn, isLive, rfl, isRegistered⟩ := entry_asked permitted (mem_toList.mp member)
        have supported := inv.supported agent turn isLive
        rw [isRegistered] at supported
        exact supported.2.2.2 receiver isHeld
    · have isIssued : ∀ entry ∈ s.log, ∀ receiver, entry.event = some receiver →
          receiver < s.state.nextChannel :=
        fun entry member receiver isEvent => inv.issued receiver (event_mem member isEvent)
      constructor
      case issued => exact lt_succ_self _
      case unsent => exact inv.sent _ (le_refl _)
      case unanswered =>
        intro approved member
        exact lt_irrefl _ (inv.replied _ approved member)
      case question =>
        intro session' callId' plan member
        exact absurd (isIssued _ member _ rfl) (lt_irrefl _)
      case newest =>
        intro other plan member
        exact le_of_lt (isIssued _ member other rfl)
  case sent =>
    intro receiver unissued
    exact (congrFun perform_sent.1 receiver).trans (inv.sent receiver (issues.trans unissued))
  case replied =>
    intro receiver approved member
    rw [exec_log, mem_append] at member
    cases member with
    | inl isEntry => exact absurd (mem_toList.mp isEntry) entry_not_replied
    | inr member => exact lt_of_lt_of_le (inv.replied receiver approved member) issues
  case apart =>
    intro session callId session' callId' receiver isHeld isHeld'
    rcases held session callId receiver isHeld with wasHeld | ⟨rfl, rfl⟩
    · rcases held session' callId' receiver isHeld' with wasHeld' | ⟨rfl, rfl⟩
      · exact inv.apart session callId session' callId' receiver wasHeld wasHeld'
      · exact absurd (inv.waiting _ _ _ wasHeld).issued (lt_irrefl _)
    · rcases held session' callId' _ isHeld' with wasHeld' | ⟨_, isSame⟩
      · exact absurd (inv.waiting _ _ _ wasHeld').issued (lt_irrefl _)
      · cases isSame
        exact ⟨rfl, rfl⟩
  case approved =>
    intro receiver isSent
    obtain ⟨plan, granted⟩ := inv.approved receiver
      ((congrFun perform_sent.1 receiver).symm.trans isSent)
    refine ⟨plan, ?_⟩
    rw [exec_log]
    exact granted.grow
  case submitted =>
    intro receiver result isSent
    rw [exec_log]
    exact (inv.submitted receiver result
      ((congrFun perform_sent.2 receiver).symm.trans isSent)).grow
  case supported =>
    intro other turn isLive
    by_cases same : other = agent
    · subst same
      rw [own] at isLive
      rcases live_of_call isLive with isNothing | ⟨running, wasLive, rfl⟩
      · rw [isNothing]
        trivial
      · rw [afterLive_session.1, afterLive_session.2]
        exact supported_afterLive inv wasLive permitted takes
    · rw [others other same] at isLive
      refine (inv.supported other turn isLive).keep issues ?_ exec_log ?_ ?_
      · intro session callId receiver isHeld
        exact (held session callId receiver isHeld).imp_right And.left
      · intro receiver isUnshown
        refine entry_not_shown inv ?_ same
        rw [isLive]
        exact isUnshown
      · intro _ _ _ notCancelled
        exact (congrFun perform_cancelled _).trans notCancelled
  case unshown =>
    have apart : ∀ other receiver, other ≠ agent →
        (s.turns other).asking.unshown = some receiver →
        ((s.exec hash agent op how).2.turns agent).asking.unshown ≠ some receiver := by
      intro other receiver differs isUnshown isOwn
      cases unshown_of_call isOwn with
      | inl wasOwn => exact differs (inv.unshown other agent receiver isUnshown wasOwn)
      | inr isNext => exact Nat.ne_of_lt (inv.unshown_issued isUnshown).1 isNext
    intro first second receiver isFirst isSecond
    by_cases firstSame : first = agent
    · subst firstSame
      by_cases secondSame : second = first
      · exact secondSame.symm
      · rw [others second secondSame] at isSecond
        exact absurd isFirst (apart second receiver secondSame isSecond)
    · rw [others first firstSame] at isFirst
      by_cases secondSame : second = agent
      · subst secondSame
        exact absurd isSecond (apart first receiver firstSame isFirst)
      · rw [others second secondSame] at isSecond
        exact inv.unshown first second receiver isFirst isSecond
  case log =>
    rw [exec_log]
    cases isEntry : s.entry agent op (s.state.perform hash op how).1 with
    | none => exact inv.log
    | some entry =>
      refine ⟨⟨entry_founded inv permitted isEntry, inv.log.founded⟩, ?_⟩
      cases isEvent : entry.event with
      | none =>
        simp only [toList_some, singleton_append, filterMap_cons, isEvent]
        exact inv.log.events
      | some receiver =>
        simp only [toList_some, singleton_append, filterMap_cons, isEvent]
        exact nodup_cons.mpr ⟨(inv.unshown_issued (entry_event isEntry isEvent)).2, inv.log.events⟩

/-- A dropped task asks nothing any more. -/
theorem ApprovalInvariant.drop (inv : ApprovalInvariant s) : ApprovalInvariant (dropTask agent s) := by
  have kept : (dropTask agent s).log = s.log ∧
      (dropTask agent s).state.approvalSent = s.state.approvalSent ∧
      (dropTask agent s).state.proxySent = s.state.proxySent ∧
      (dropTask agent s).state.nextChannel = s.state.nextChannel ∧
      (dropTask agent s).state.cancelled = s.state.cancelled := by
    unfold dropTask
    dsimp only
    split
    · split <;> exact ⟨rfl, rfl, rfl, rfl, rfl⟩
    · exact ⟨rfl, rfl, rfl, rfl, rfl⟩
  have approvals : ∀ session, ((dropTask agent s).state.sessions session).approvals =
      (s.state.sessions session).approvals := by
    intro session
    unfold dropTask
    dsimp only
    split
    · split
      · refine setSession_keeps SessionRuntime.approvals ?_ session
        rfl
      · rfl
    · rfl
  refine inv.aside [] ?_
  constructor
  case turns =>
    intro other
    rw [dropTask_turns]
    by_cases same : other = agent
    · subst same
      exact .inr (update_self ..)
    · exact .inl (update_of_ne same _ _)
  case nextChannel => exact kept.2.2.2.1
  case grows => exact kept.1
  case events => rfl
  case founded =>
    rw [kept.1]
    exact inv.log.founded
  case held =>
    intro session callId receiver isHeld
    rw [approvals session] at isHeld
    refine ⟨isHeld, ?_, fun _ => not_mem_nil⟩
    rw [kept.2.1]
    exact (inv.waiting session callId receiver isHeld).unsent
  case sent =>
    rw [kept.2.1]
    exact inv.sent
  case replied => exact fun _ _ member => nomatch member
  case approved =>
    rw [kept.2.1]
    exact fun _ => .inl
  case submitted =>
    rw [kept.2.2.1]
    exact fun _ _ => .inl
  case notCancelled =>
    rw [kept.2.2.2.2]
    exact fun _ _ _ _ _ _ => id

end Steps

section Commands

variable [DecidableEq κ] {s : Observed ι κ}

theorem ApprovalInvariant.cancel {session : κ} (inv : ApprovalInvariant s)
    (toOwn : (Command.cancel session).ToOwn s) : ApprovalInvariant (s.cancel session) := by
  have runtimes : (s.state.cancel session).approvalSent = s.state.approvalSent ∧
      (s.state.cancel session).proxySent = s.state.proxySent ∧
      (s.state.cancel session).nextChannel = s.state.nextChannel := by
    unfold AiState.cancel AiState.cancelToken
    split <;> exact ⟨rfl, rfl, rfl⟩
  have approvals : ∀ other, ((s.state.cancel session).sessions other).approvals =
      (s.state.sessions other).approvals := by
    intro other
    rw [cancel_sessions]
    refine setSession_keeps SessionRuntime.approvals ?_ other
    unfold SessionRuntime.cancel
    split <;> rfl
  have unsent : ∀ other callId receiver,
      (s.state.sessions other).approvals callId = some receiver →
      (s.state.cancel session).approvalSent receiver = none := by
    intro other callId receiver isHeld
    rw [runtimes.1]
    exact (inv.waiting other callId receiver isHeld).unsent
  refine inv.aside [] ?_
  constructor
  case turns => exact fun _ => .inl rfl
  case nextChannel => exact runtimes.2.2
  case grows => rfl
  case events => rfl
  case founded => exact inv.log.founded
  case held =>
    intro other callId receiver isHeld
    have wasHeld : (s.state.sessions other).approvals callId = some receiver := by
      rw [← approvals other]
      exact isHeld
    exact ⟨wasHeld, unsent other callId receiver wasHeld, fun _ => not_mem_nil⟩
  case sent =>
    intro receiver unissued
    exact (congrFun runtimes.1 receiver).trans (inv.sent receiver unissued)
  case replied => exact fun _ _ member => nomatch member
  case approved =>
    intro receiver isSent
    exact .inl ((congrFun runtimes.1 receiver).symm.trans isSent)
  case submitted =>
    intro receiver result isSent
    exact .inl ((congrFun runtimes.2.1 receiver).symm.trans isSent)
  case notCancelled =>
    intro agent turn receiver plan isLive isApproved notCancelled
    change (s.state.cancel session).cancelled turn.cancel = false
    rw [cancel_cancelled, notCancelled]
    simp [toOwn agent turn receiver plan isLive isApproved]

theorem held_of_cleared {session session' : κ} {callId callId' : Str} {receiver : Channel}
    {state : AiState κ}
    (held : ((state.setSession session ((state.sessions session).clearApproval callId)).sessions
      session').approvals callId' = some receiver) :
    (state.sessions session').approvals callId' = some receiver ∧
      (session' ≠ session ∨ callId' ≠ callId) := by
  by_cases same : session' = session
  · subst same
    rw [setSession_same] at held
    exact (clearApproval_approvals held).symm.imp_right .inr
  · rw [setSession_other _ same] at held
    exact ⟨held, .inl same⟩

/-- A reply takes the sender it finds; an approval finds that of its own event. -/
theorem ApprovalInvariant.reply {event : Channel} {approved : Bool} {session : κ} {callId : Str}
    (inv : ApprovalInvariant s) (toOwn : (Command.reply event approved).ToOwn s)
    (isQuestion : s.question event = some (session, callId)) :
    ApprovalInvariant { s with
      state := s.state.resolveApproval session callId approved
      log := .replied event approved :: s.log } := by
  obtain ⟨plan, isAsked⟩ := mem_of_question isQuestion
  have isIssued : event < s.state.nextChannel := inv.issued event (event_mem isAsked rfl)
  have founded : Founded (.replied event approved :: s.log) := ⟨trivial, inv.log.founded⟩
  have replied : ∀ receiver other, Entry.replied receiver other ∈
      [(.replied event approved : Entry κ)] → receiver < s.state.nextChannel := by
    intro receiver other member
    cases mem_singleton.mp member
    exact isIssued
  -- a sender that is still held afterwards is not that of the event
  have other : ∀ session' callId' receiver, (s.state.sessions session').approvals callId' =
      some receiver → (session' ≠ session ∨ callId' ≠ callId) → receiver ≠ event := by
    rintro session' callId' receiver isHeld differs rfl
    obtain ⟨rfl, rfl⟩ := (inv.waiting session' callId' receiver isHeld).question _ _ _ isAsked
    exact differs.elim (absurd rfl) (absurd rfl)
  have notReplied : ∀ receiver, receiver ≠ event → ∀ decision,
      Entry.replied receiver decision ∉ [(.replied event approved : Entry κ)] := by
    intro receiver differs decision member
    cases mem_singleton.mp member
    exact differs rfl
  refine inv.aside [.replied event approved] ?_
  cases isHeld : (s.state.sessions session).approvals callId with
  | none =>
    have same : s.state.resolveApproval session callId approved = s.state := by
      simp only [AiState.resolveApproval, isHeld]
    rw [same]
    constructor
    case turns => exact fun _ => .inl rfl
    case nextChannel => rfl
    case grows => rfl
    case events => rfl
    case founded => exact founded
    case held =>
      intro session' callId' receiver stillHeld
      refine ⟨stillHeld, (inv.waiting _ _ _ stillHeld).unsent, notReplied receiver ?_⟩
      refine other session' callId' receiver stillHeld ?_
      by_contra same
      obtain ⟨rfl, rfl⟩ := not_or.mp same |>.imp not_not.mp not_not.mp
      exact absurd (isHeld.symm.trans stillHeld) (by simp)
    case sent => exact inv.sent
    case replied => exact replied
    case approved => exact fun _ => .inl
    case submitted => exact fun _ _ => .inl
    case notCancelled => exact fun _ _ _ _ _ _ => id
  | some holder =>
    have waiting := inv.waiting session callId holder isHeld
    have resolved : s.state.resolveApproval session callId approved =
        { s.state.setSession session ((s.state.sessions session).clearApproval callId) with
          approvalSent := Function.update s.state.approvalSent holder
            (some (if approved then .approve else .reject)) } := by
      simp only [AiState.resolveApproval, isHeld]
    rw [resolved]
    constructor
    case turns => exact fun _ => .inl rfl
    case nextChannel => rfl
    case grows => rfl
    case events => rfl
    case founded => exact founded
    case held =>
      intro session' callId' receiver stillHeld
      obtain ⟨wasHeld, differs⟩ := held_of_cleared stillHeld
      have notHolder : receiver ≠ holder := by
        rintro rfl
        obtain ⟨rfl, rfl⟩ := inv.apart session' callId' session callId receiver wasHeld isHeld
        exact differs.elim (absurd rfl) (absurd rfl)
      refine ⟨wasHeld, ?_, notReplied receiver (other _ _ _ wasHeld differs)⟩
      exact (update_of_ne notHolder _ _).trans (inv.waiting _ _ _ wasHeld).unsent
    case sent =>
      intro receiver unissued
      have notHolder : receiver ≠ holder := ne_of_gt (lt_of_lt_of_le waiting.issued unissued)
      exact (update_of_ne notHolder _ _).trans (inv.sent receiver unissued)
    case replied => exact replied
    case approved =>
      intro receiver isSent
      by_cases isHolder : receiver = holder
      · subst isHolder
        simp only [update_self, Option.some.injEq] at isSent
        cases approved with
        | false => cases isSent
        | true =>
          cases toOwn session callId receiver isQuestion isHeld
          exact .inr ⟨plan, [], s.log, session, callId, rfl, isAsked,
            waiting.unanswered false, waiting.newest⟩
      · exact .inl ((update_of_ne isHolder _ _).symm.trans isSent)
    case submitted => exact fun _ _ => .inl
    case notCancelled => exact fun _ _ _ _ _ _ => id

/-- A result goes to the sender under the call id, which is that of its own event. -/
theorem ApprovalInvariant.submit {event : Channel} {result : ProxyToolResult} {callId : Str}
    (inv : ApprovalInvariant s) (toOwn : (Command.submit event result).ToOwn s)
    (isQuestion : s.proxyQuestion event = some callId) :
    ApprovalInvariant { s with
      state := s.state.resolveProxy callId result
      log := .submitted event result :: s.log } := by
  have kept : (s.state.resolveProxy callId result).sessions = s.state.sessions ∧
      (s.state.resolveProxy callId result).approvalSent = s.state.approvalSent ∧
      (s.state.resolveProxy callId result).nextChannel = s.state.nextChannel ∧
      (s.state.resolveProxy callId result).cancelled = s.state.cancelled := by
    unfold AiState.resolveProxy
    split <;> exact ⟨rfl, rfl, rfl, rfl⟩
  have notReplied : ∀ receiver approved,
      Entry.replied receiver approved ∉ [(.submitted event result : Entry κ)] := by
    intro receiver approved member
    cases mem_singleton.mp member
  refine inv.aside [.submitted event result] ?_
  constructor
  case turns => exact fun _ => .inl rfl
  case nextChannel => exact kept.2.2.1
  case grows => rfl
  case events => rfl
  case founded => exact ⟨trivial, inv.log.founded⟩
  case held =>
    intro session callId' receiver isHeld
    have wasHeld : (s.state.sessions session).approvals callId' = some receiver := by
      rw [← kept.1]
      exact isHeld
    refine ⟨wasHeld, ?_, notReplied receiver⟩
    exact (congrFun kept.2.1 receiver).trans (inv.waiting session callId' receiver wasHeld).unsent
  case sent =>
    intro receiver unissued
    exact (congrFun kept.2.1 receiver).trans (inv.sent receiver unissued)
  case replied => exact fun receiver approved member => absurd member (notReplied receiver approved)
  case approved =>
    intro receiver isSent
    exact .inl ((congrFun kept.2.1 receiver).symm.trans isSent)
  case submitted =>
    intro receiver sent isSent
    cases isHeld : s.state.proxyPending callId with
    | none =>
      simp only [AiState.resolveProxy, isHeld] at isSent
      exact .inl isSent
    | some holder =>
      simp only [AiState.resolveProxy, isHeld] at isSent
      by_cases isHolder : receiver = holder
      · subst isHolder
        rw [update_self] at isSent
        cases isSent
        cases toOwn callId receiver isQuestion isHeld
        exact .inr ⟨[], s.log, callId, rfl, mem_of_proxyQuestion isQuestion⟩
      · rw [update_of_ne isHolder] at isSent
        exact .inl isSent
  case notCancelled =>
    intro _ turn _ _ _ _ notCancelled
    exact (congrFun kept.2.2.2 turn.cancel).trans notCancelled

theorem ApprovalInvariant.command {event : Command κ} {s' : Observed ι κ} (inv : ApprovalInvariant s)
    (toOwn : event.ToOwn s) (acted : command event s = some s') : ApprovalInvariant s' := by
  cases event with
  | cancel session =>
    cases acted
    exact inv.cancel toOwn
  | reply receiver approved =>
    obtain ⟨⟨session, callId⟩, isQuestion, rfl⟩ := map_eq_some_iff.mp acted
    exact inv.reply toOwn isQuestion
  | submit receiver result =>
    obtain ⟨callId, isQuestion, rfl⟩ := map_eq_some_iff.mp acted
    exact inv.submit toOwn isQuestion

end Commands

/-! ## Every run -/

section Runs

variable [DecidableEq ι] [DecidableEq κ] {hash : Str → Str}
  {c : Machine.Config (Observed ι κ) ι (Op.Res (κ := κ)) AiError Unit}

theorem approvalInvariant_of_reachable
    (reached : (system ι κ hash).ReachableBy repliesToOwn.meets c) : ApprovalInvariant c.shared := by
  refine (follows ι κ hash).invariant ?_ ?_ (fun _ _ => ApprovalInvariant.drop)
    (fun _ _ _ inv toOwn acted => inv.command toOwn acted) reached
  · rintro s ⟨mode, rfl⟩
    exact .initial mode
  · intro agent op how s inv isAllowed permitted
    exact inv.call permitted isAllowed.2

/-- **Nothing is applied that was not approved, and no result goes astray**, in every run of
any number of sessions, turns and replies whose replies come to their own events and whose
cancels win over approvals. -/
theorem only_approved_run (reached : (system ι κ hash).ReachableBy repliesToOwn.meets c) :
    OnlyApproved c.shared.log :=
  (approvalInvariant_of_reachable reached).log

/-! ## Where it fails, and where it holds -/

def otherPlan : MutationPlan := ⟨['q'], [.deleteFile ['g'] ['d']]⟩

/-- A call asks for the plan and shows it. -/
def proposePlan (agent : Fin 3) (plan : MutationPlan) :
    List (Machine.Label (Fin 3) (SendMessage Unit) How (Command Unit)) :=
  [.call agent {}, .call agent {}, .call agent {},
    .call agent { tool := .ok ⟨[], some plan, none⟩ }, .call agent {}, .call agent {}]

/-- A plan is shown, approved and applied. -/
def approveOne : List (Machine.Label (Fin 3) (SendMessage Unit) How (Command Unit)) :=
  ask 0 1 [sampleTool] ++
    [.call 0 { item := .ok (.toolCalls [sampleCall, sampleCall]) }, .call 0 {}, .call 0 {}] ++
    proposePlan 0 samplePlan ++ .env (.reply 0 true) :: List.replicate 4 (.call 0 {})

/-- The last entry applies a plan whose event nobody approved. -/
def appliesUnanswered : List (Entry Unit) → Bool
  | .applied (some receiver) _ :: before =>
    !before.any fun entry =>
      match entry with
      | .replied event approved => event = receiver && approved
      | _ => false
  | _ => false

theorem not_onlyApproved_of_appliesUnanswered {log : List (Entry Unit)}
    (unanswered : appliesUnanswered log = true) : ¬ OnlyApproved log := by
  intro promised
  match log, unanswered, promised.founded with
  | .applied (some receiver) plan :: before, unanswered, founded =>
    obtain ⟨event, isEvent, approved⟩ := founded.1
    cases isEvent
    obtain ⟨later, earlier, session, callId, rfl, -⟩ := approved.granted
    simp [appliesUnanswered] at unanswered

/-- A model calls a tool twice under one id.  The first plan is approved, twice: the second
approval comes when the second plan is shown, and that plan is applied. -/
theorem not_only_approved_after_repeated_reply :
    ∃ c, (system (Fin 3) Unit id).ReachableBy scheduling.meets c ∧ ¬ OnlyApproved c.shared.log := by
  have ran : (runSample (fun _ s op how => s.state.ready how op) (fun _ _ => true)
      (approveOne ++ List.replicate 5 (.call 0 {}) ++ proposePlan 0 otherPlan ++
        .env (.reply 0 true) :: List.replicate 4 (.call 0 {}))).map
      (fun c => appliesUnanswered c.shared.log) = some true := by
    decide +kernel
  obtain ⟨c, reached, unanswered⟩ := map_eq_some_iff.mp ran
  exact ⟨c, reachable_of_runSample reached, not_onlyApproved_of_appliesUnanswered unanswered⟩

/-- A reply that finds the sender of its own event, or none. -/
def repliesToOwnEvent (s : Observed (Fin 3) Unit) : Command Unit → Bool
  | .reply event _ =>
    match s.question event with
    | some (session, callId) => match (s.state.sessions session).approvals callId with
      | some other => other = event
      | none => true
    | none => true
  | _ => false

theorem toOwn_of_repliesToOwnEvent {s : Observed (Fin 3) Unit} {event : Command Unit}
    (isChecked : repliesToOwnEvent s event = true) : event.ToOwn s := by
  cases event with
  | cancel session => nomatch isChecked
  | submit event result => nomatch isChecked
  | reply event approved =>
    cases approved with
    | false => trivial
    | true =>
      intro session callId other isQuestion isHeld
      simp only [repliesToOwnEvent, isQuestion, isHeld] at isChecked
      exact of_decide_eq_true isChecked

def Entry.appliedTo : Entry κ → Option Channel
  | .applied receiver _ => receiver
  | _ => none

/-- A plan that was approved is applied. -/
theorem only_approved_once_approved :
    ∃ c plan before, (system (Fin 3) Unit id).ReachableBy repliesToOwn.meets c ∧
      c.shared.log = .applied (some 0) plan :: before ∧ OnlyApproved c.shared.log := by
  have ran : (runSample
      (fun _ s op how => s.state.ready how op && takesCancel s.state how op) repliesToOwnEvent
      approveOne).map (fun c => c.shared.log.head?.bind Entry.appliedTo) = some (some 0) := by
    decide +kernel
  obtain ⟨c, reached, observed⟩ := map_eq_some_iff.mp ran
  have reachable : (system (Fin 3) Unit id).ReachableBy repliesToOwn.meets c := by
    refine Machine.reachable_of_checks (fun _ _ _ => trivial) ?_
      (fun _ _ => toOwn_of_repliesToOwnEvent) ⟨⟨fun _ => .agent, rfl⟩, fun _ => rfl⟩ reached
    intro agent s op how isChecked
    exact (Bool.and_eq_true _ _).mp isChecked
  obtain ⟨entry, isHead, isApplied⟩ := bind_eq_some_iff.mp observed
  obtain ⟨before, isLog⟩ := head?_eq_some_iff.mp isHead
  cases entry with
  | applied receiver plan =>
    cases isApplied
    exact ⟨c, plan, before, reachable, isLog, only_approved_run reachable⟩
  | _ => cases isApplied

end Runs

end Kuku.Ai
