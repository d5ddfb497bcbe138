/-
# Ai.Turns -- the protocol every turn keeps to

A turn asks the model only for the history it has read, with every call answered; it stores
a response and then one result for each call, in order; it waits for the decision on the
approval event it has shown, and hands the host the plan of that event only when the
decision was to approve; it writes no `Idle`; and it comes to `complete_run` with every call
answered, unless a cancelled call has ended it.

`runTurn_keeps` proves this of the program, whatever the answers are, and `follows` carries
it to the runs of all tasks: what one task has come to is moved by its own calls only.
-/
import Kuku.Ai.Session
import Kuku.Theory.Protocol

namespace Kuku.Ai

open Kuku.Theory Function Option

variable {κ : Type}

namespace Op

def session : Op κ → Option κ
  | .startRun session => some session
  | .replaceMode session _ => some session
  | .rememberPathSnapshot session _ _ => some session
  | .writeEditorContext session _ => some session
  | .readEditorContext session => some session
  | .pushMessage session _ => some session
  | .readMessages session => some session
  | .streamTurn session _ => some session
  | .emit (.streamChunk session _) => some session
  | .emit (.done session _ _) => some session
  | .emit (.error session _) => some session
  | .emit (.toolStart session _ _) => some session
  | .emit (.toolEnd session _ _ _ _) => some session
  | .emit (.pendingApproval session _ _ _ _ _) => some session
  | .emit (.proxyCall session _ _ _ _) => some session
  | .callTool session _ _ _ => some session
  | .beginAwaitingApproval session _ => some session
  | .awaitDecision session _ _ _ => some session
  | .clearApproval session _ => some session
  | .setStatus session _ => some session
  | .applyMutation session _ => some session
  | .applySuccessfulMutation session _ => some session
  | .clearMutationSnapshots session _ => some session
  | .completeRun session => some session
  | _ => none

def mayFail : Op κ → Bool
  | .startRun _ => true
  | .backend => true
  | .authorizationHeader _ => true
  | .streamTurn _ _ => true
  | .nextItem _ => true
  | .applyMutation _ _ => true
  | _ => false

/-- A call after which a task is as far as before. -/
def quiet : Op κ → Bool
  | .replaceMode _ _ => true
  | .rememberPathSnapshot _ _ _ => true
  | .writeEditorContext _ _ => true
  | .readEditorContext _ => true
  | .config => true
  | .toolDescriptors => true
  | .host => true
  | .emit (.streamChunk _ _) => true
  | .emit (.toolStart _ _ _) => true
  | .emit (.toolEnd _ _ _ _ _) => true
  | .getNative _ => true
  | .callTool _ _ _ _ => true
  | .getProxy _ => true
  | .clearProxy _ => true
  | .clearApproval _ _ => true
  | .applySuccessfulMutation _ _ => true
  | .clearMutationSnapshots _ _ => true
  | _ => false

end Op

namespace Turn

/-- What a live turn may do next, besides staying in its session. -/
def PermitsNext (turn : LiveTurn κ) : Op κ → Prop
  | .pushMessage _ (.system _) => False
  | .pushMessage _ (.user _ _) => turn.unanswered = []
  | .pushMessage _ (.assistant _ _) => turn.unanswered = []
  | .pushMessage _ message => ∃ toolCall outcome, turn.unanswered.head? = some toolCall ∧
      message = toolResultOf toolCall outcome
  | .readMessages _ => turn.unanswered = []
  | .streamTurn _ request => ∃ history, turn.history = some history ∧
      request.messages = compactHistoryForModel history
  | .nextItem cancel => cancel = turn.cancel
  | .streamEnd cancel => cancel = turn.cancel
  | .emit (.pendingApproval _ callId _ _ _ _) =>
    ∃ receiver, turn.asking = .registered receiver callId
  | .emit (.proxyCall _ callId _ _ _) => ∃ receiver, turn.asking = .proxyRegistered receiver callId
  | .emit (.done _ _ _) => False
  | .emit (.error _ _) => False
  | .awaitProxy callId receiver cancel _ =>
    cancel = turn.cancel ∧ turn.asking = .proxyAsked receiver callId
  | .awaitDecision _ callId receiver cancel =>
    cancel = turn.cancel ∧ ∃ plan, turn.asking = .asked receiver callId plan
  | .setStatus _ status => status ≠ .idle
  | .applyMutation _ plan => ∃ receiver, turn.asking = .applying receiver plan
  | .isCancelled cancel => cancel = turn.cancel
  | .completeRun _ => turn.unanswered = [] ∨ turn.abandoned = true
  | _ => True

def Permits : Turn κ → Op κ → Prop
  | _, .startRun _ => True
  | .live turn, op => (∀ session, op.session = some session → session = turn.session) ∧
      PermitsNext turn op
  | .outside, .completeRun _ => True
  | .ended _, .emit (.error _ _) => True
  | .ended deferred, .emit (.done _ finishReason _) => deferred = true → finishReason = .cancelled
  | _, _ => False

end Turn

/-- **The protocol of a turn.** -/
def protocol (κ : Type) : Protocol (Turn κ) (Op.Res (κ := κ)) AiError where
  permits := Turn.Permits
  after := Turn.after
  answers op answer := op.mayFail = false → ∃ value, answer = .ok value

/-! ## The steps of a turn -/

section Steps

variable {α β : Type} {turn now : LiveTurn κ} {session : κ}
  {post : Except AiError β → Turn κ → Prop}

variable {op : Op κ} {f : op.Res → Program κ β}

/-- A quiet call of a live turn. -/
theorem keeps_quiet (isQuiet : op.quiet = true)
    (inSession : ∀ session, op.session = some session → session = now.session)
    (continues : ∀ value, (protocol κ).Keeps post (f value) (.live now)) :
    (protocol κ).Keeps post (run op >>= f) (.live now) := by
  have stays : ∀ answer, (protocol κ).after (.live now) op answer = .live now := by
    intro answer
    cases op with
    | emit event => cases event <;> first | rfl | nomatch isQuiet
    | _ => first | rfl | (cases answer <;> rfl) | nomatch isQuiet
  have infallible : op.mayFail = false := by
    cases op <;> first | rfl | nomatch isQuiet
  have permitted : (protocol κ).permits (.live now) op := by
    cases op with
    | emit event => cases event <;> first | exact ⟨inSession, trivial⟩ | nomatch isQuiet
    | _ => first | exact ⟨inSession, trivial⟩ | nomatch isQuiet
  apply Protocol.Keeps.call permitted
  · intro error answered
    obtain ⟨value, isValue⟩ := answered infallible
    cases isValue
  · intro value _
    rw [stays]
    exact continues value

/-- What a live turn may do next it may do in its session. -/
theorem permits_live (inSession : ∀ session, op.session = some session → session = now.session)
    (next : Turn.PermitsNext now op) : Turn.Permits (.live now) op := by
  cases op <;> first | exact trivial | exact ⟨inSession, next⟩

/-- A call of a live turn, by what it leaves. -/
theorem keeps_fallible (inSession : ∀ session, op.session = some session → session = now.session)
    (next : Turn.PermitsNext now op)
    (fails : ∀ error, post (.error error) (Turn.after (.live now) op (.error error)))
    (continues : ∀ value,
      (protocol κ).Keeps post (f value) (Turn.after (.live now) op (.ok value))) :
    (protocol κ).Keeps post (run op >>= f) (.live now) :=
  Protocol.Keeps.call (permits_live inSession next) (fun error _ => fails error)
    (fun value _ => continues value)

/-- An infallible call of a live turn, by what it leaves. -/
theorem keeps_call (inSession : ∀ session, op.session = some session → session = now.session)
    (infallible : op.mayFail = false) (next : Turn.PermitsNext now op)
    (continues : ∀ value,
      (protocol κ).Keeps post (f value) (Turn.after (.live now) op (.ok value))) :
    (protocol κ).Keeps post (run op >>= f) (.live now) := by
  apply Protocol.Keeps.call (permits_live inSession next)
  · intro error answered
    obtain ⟨value, isValue⟩ := answered infallible
    cases isValue
  · intro value _
    exact continues value

/-- A turn that has done nothing but handle a call. -/
def Within (turn : LiveTurn κ) : Turn κ → Prop
  | .live now => now.session = turn.session ∧ now.cancel = turn.cancel ∧
      now.history = turn.history ∧ now.unanswered = turn.unanswered
  | _ => False

/-- Where a tool leaves the turn: a cancel that ends a call is remembered. -/
def Handled (turn : LiveTurn κ) (answer : Except AiError α) (stage : Turn κ) : Prop :=
  Within turn stage ∧ (answer = .error .cancelled → ∃ now, stage = .live now ∧ now.abandoned = true)

theorem Within.refl : Within turn (.live turn) := ⟨rfl, rfl, rfl, rfl⟩

theorem Handled.other {answer : Except AiError α} {stage : Turn κ} (within : Within turn stage)
    (isOther : answer ≠ .error .cancelled) : Handled turn answer stage :=
  ⟨within, fun isCancelled => absurd isCancelled isOther⟩

theorem Handled.cancelled (within : Within turn (.live now)) (abandoned : now.abandoned = true) :
    Handled turn (.error .cancelled : Except AiError α) (.live now) :=
  ⟨within, fun _ => ⟨now, rfl, abandoned⟩⟩

theorem Within.inSession (within : Within turn (.live now))
    (isSession : op.session = some turn.session ∨ op.session = none) :
    ∀ session, op.session = some session → session = now.session := by
  intro session isSome
  cases isSession with
  | inl same =>
    rw [same] at isSome
    cases isSome
    exact within.1.symm
  | inr isNone =>
    rw [isNone] at isSome
    cases isSome

end Steps

/-! ## The tools -/

section Tools

variable {turn now : LiveTurn κ}

theorem rememberApplied_keeps {operations : List MutationOp} {result : MutationApplyResult}
    (within : Within turn (.live now)) :
    (protocol κ).Keeps (fun answer stage => (∃ value, answer = .ok value) ∧ stage = .live now)
      (rememberApplied turn.session operations result) (.live now) := by
  have done : ∀ value : Unit, (protocol κ).Keeps
      (fun answer stage => (∃ value, answer = .ok value) ∧ stage = .live now)
      (Pure.pure value : Program κ Unit) (.live now) :=
    fun value => Protocol.Keeps.pure ⟨⟨value, rfl⟩, rfl⟩
  cases result with
  | applied summary warnings =>
    rw [rememberApplied, ← Prog.bind_pure (run _)]
    exact keeps_quiet rfl (within.inSession (.inl rfl)) done
  | partiallyApplied summary applied failed skipped warnings =>
    rw [rememberApplied, ← Prog.bind_pure (run _)]
    exact keeps_quiet rfl (within.inSession (.inl rfl)) done
  | conflict summary conflicts => exact done ()

theorem applyApproved_keeps {plan : MutationPlan} {receiver : Channel}
    (within : Within turn (.live now)) (approved : now.asking = .approved receiver plan) :
    (protocol κ).Keeps (Handled turn) (applyApproved turn.session turn.cancel plan) (.live now) := by
  unfold applyApproved
  apply keeps_quiet rfl (within.inSession (.inr rfl))
  intro host
  by_cases isHost : host = true
  · rw [if_pos isHost]
    refine keeps_call (within.inSession (.inl rfl)) rfl (by simp [Turn.PermitsNext]) ?_
    intro _
    have begun : Turn.after (.live now) (.setStatus turn.session .applying) (.ok ()) =
        .live { now with asking := .applying receiver plan } := by
      simp [Turn.after, Turn.afterLive, approved]
    rw [begun]
    have applying : Within turn (.live { now with asking := .applying receiver plan }) := within
    refine keeps_fallible (applying.inSession (.inl rfl)) ⟨receiver, rfl⟩ ?_ ?_
    · intro error
      by_cases isCancelled : error = .cancelled
      · subst isCancelled
        exact Handled.cancelled within rfl
      · cases error <;> first | exact absurd rfl isCancelled | exact Handled.other within (by simp)
    · intro applyResult
      have settled : Within turn (.live { now with asking := .nothing }) := within
      apply Protocol.Keeps.bind
      refine (rememberApplied_keeps settled).mono ?_
      rintro _ _ ⟨⟨value, rfl⟩, rfl⟩
      refine keeps_call (within.inSession (.inr rfl)) rfl within.2.1.symm ?_
      intro cancelled
      cases cancelled with
      | true => exact Protocol.Keeps.throw (Handled.cancelled within rfl)
      | false => exact Protocol.Keeps.pure (Handled.other within (by simp))
  · rw [if_neg isHost]
    exact Protocol.Keeps.throw (Handled.other within (by simp))

theorem decideAndApply_keeps {pending : PendingApproval} {receiver : Channel}
    (within : Within turn (.live now)) (registered : now.asking = .registered receiver pending.callId) :
    (protocol κ).Keeps (Handled turn) (decideAndApply turn.session turn.cancel pending receiver)
      (.live now) := by
  unfold decideAndApply
  refine keeps_call (within.inSession (.inl rfl)) rfl ⟨receiver, registered⟩ ?_
  intro _
  have shown : Turn.after (.live now) (.emit (.pendingApproval turn.session pending.callId
      pending.toolId pending.toolName pending.plan pending.previewText)) (.ok ()) =
      .live { now with asking := .asked receiver pending.callId pending.plan } := by
    simp [Turn.after, Turn.afterLive, registered]
  rw [shown]
  have asked : Within turn
      (.live { now with asking := .asked receiver pending.callId pending.plan }) := within
  refine keeps_call (asked.inSession (.inl rfl)) rfl ⟨within.2.1.symm, pending.plan, rfl⟩ ?_
  intro decision
  match decision with
  | .cancelled =>
    have ended : Within turn (.live { now with asking := .nothing, abandoned := true }) := within
    apply keeps_quiet rfl (ended.inSession (.inl rfl))
    intro _
    exact Protocol.Keeps.throw (Handled.cancelled ended rfl)
  | .ready none => exact Protocol.Keeps.throw (Handled.other within (by simp))
  | .ready (some .reject) => exact Protocol.Keeps.pure (Handled.other within (by simp))
  | .ready (some .approve) => exact applyApproved_keeps asked rfl

/-- **A gate hands over no plan but the one it has shown, once that is approved.** -/
theorem gateAndApply_keeps {pending : PendingApproval} (within : Within turn (.live now)) :
    (protocol κ).Keeps (Handled turn) (gateAndApply turn.session turn.cancel pending)
      (.live now) := by
  unfold gateAndApply
  refine keeps_call (within.inSession (.inl rfl)) rfl trivial ?_
  intro receiver
  apply Protocol.Keeps.catching
  have registered :
      Within turn (.live { now with asking := .registered receiver pending.callId }) := within
  refine (decideAndApply_keeps registered rfl).mono ?_
  rintro outcome stage ⟨decided, remembered⟩
  match stage, decided, remembered with
  | .live later, decided, remembered =>
    refine keeps_call (decided.inSession (.inl rfl)) rfl (by simp [Turn.PermitsNext]) ?_
    intro _
    exact Protocol.Keeps.ofExcept ⟨decided, remembered⟩

variable {toolCall : ModelToolCall} {mode : ChatMode}

theorem executeNativeTool_keeps {descriptor : ToolDescriptor} (within : Within turn (.live now)) :
    (protocol κ).Keeps (Handled turn)
      (executeNativeTool turn.session turn.cancel mode toolCall descriptor) (.live now) := by
  unfold executeNativeTool
  apply keeps_quiet rfl (within.inSession (.inr rfl))
  intro isRegistered
  by_cases isTrue : isRegistered = true
  · rw [if_pos isTrue]
    apply keeps_quiet rfl (within.inSession (.inl rfl))
    intro editorContext
    apply keeps_quiet rfl (within.inSession (.inl rfl))
    intro called
    match called with
    | .error error => exact Protocol.Keeps.pure (Handled.other within (by simp))
    | .ok result =>
      dsimp only
      cases result.mutation.filter fun _ => descriptor.access ≠ .readOnly with
      | none => exact Protocol.Keeps.pure (Handled.other within (by simp))
      | some plan => exact gateAndApply_keeps within
  · rw [if_neg isTrue]
    exact Protocol.Keeps.throw (Handled.other within (by simp))

theorem executeProxyTool_keeps {toolId : Str} (within : Within turn (.live now)) :
    (protocol κ).Keeps (Handled turn)
      (executeProxyTool turn.session turn.cancel toolCall toolId) (.live now) := by
  unfold executeProxyTool
  apply keeps_quiet rfl (within.inSession (.inr rfl))
  intro isRegistered
  by_cases isTrue : isRegistered = true
  · rw [if_pos isTrue]
    refine keeps_call (within.inSession (.inr rfl)) rfl trivial ?_
    intro receiver
    have registered :
        Within turn (.live { now with asking := .proxyRegistered receiver toolCall.callId }) :=
      within
    refine keeps_call (registered.inSession (.inl rfl)) rfl ⟨receiver, rfl⟩ ?_
    intro _
    have asked :
        Within turn (.live { now with asking := .proxyAsked receiver toolCall.callId }) := within
    apply keeps_quiet rfl (asked.inSession (.inr rfl))
    intro config
    refine keeps_call (asked.inSession (.inr rfl)) rfl ⟨within.2.1.symm, rfl⟩ ?_
    intro response
    have settled : Within turn (.live { now with asking := .nothing }) := within
    match response with
    | .cancelled =>
      have ended : Within turn (.live { now with asking := .nothing, abandoned := true }) := within
      apply keeps_quiet rfl (ended.inSession (.inr rfl))
      intro _
      exact Protocol.Keeps.throw (Handled.cancelled ended rfl)
    | .ready (.output result) => exact Protocol.Keeps.pure (Handled.other within (by simp))
    | .ready .dropped => exact Protocol.Keeps.pure (Handled.other within (by simp))
    | .ready .timedOut =>
      apply keeps_quiet rfl (settled.inSession (.inr rfl))
      intro _
      exact Protocol.Keeps.throw (Handled.other within (by simp))
  · rw [if_neg isTrue]
    exact Protocol.Keeps.pure (Handled.other within (by simp))

/-- Where a call of the model leaves the turn: only a cancel ends it, and is remembered. -/
def Answered (turn : LiveTurn κ) (answer : Except AiError (Str × Bool)) (stage : Turn κ) : Prop :=
  Within turn stage ∧ ∀ error, answer = .error error →
    ∃ now, stage = .live now ∧ now.abandoned = true

theorem toolOutcome_keeps {result : Except AiError (Str × Bool)} {stage : Turn κ}
    (handled : Handled turn result stage) :
    (protocol κ).Keeps (Answered turn) (toolOutcome result) stage := by
  match result, handled with
  | .ok outcome, ⟨within, _⟩ => exact Protocol.Keeps.pure ⟨within, by simp⟩
  | .error error, ⟨within, remembered⟩ =>
    by_cases isCancelled : error = .cancelled
    · subst isCancelled
      exact Protocol.Keeps.throw ⟨within, fun _ _ => remembered rfl⟩
    · cases error <;>
        first | exact absurd rfl isCancelled | exact Protocol.Keeps.pure ⟨within, by simp⟩

theorem toolCallOutcome_keeps {toolId : Str} {descriptor : Option ToolDescriptor}
    (within : Within turn (.live now)) :
    (protocol κ).Keeps (Answered turn)
      (toolCallOutcome turn.session turn.cancel mode toolCall toolId descriptor) (.live now) := by
  cases descriptor with
  | none => exact Protocol.Keeps.pure ⟨within, by simp⟩
  | some descriptor =>
    rw [toolCallOutcome]
    cases descriptor.source with
    | native =>
      apply Protocol.Keeps.catching
      exact (executeNativeTool_keeps within).mono fun _ _ => toolOutcome_keeps
    | proxy =>
      apply Protocol.Keeps.catching
      exact (executeProxyTool_keeps within).mono fun _ _ => toolOutcome_keeps

theorem handleToolCall_keeps {allowed : List ToolDescriptor} (within : Within turn (.live now)) :
    (protocol κ).Keeps (Answered turn)
      (handleToolCall turn.session turn.cancel mode allowed toolCall) (.live now) := by
  unfold handleToolCall
  apply keeps_quiet rfl (within.inSession (.inl rfl))
  intro _
  apply Protocol.Keeps.bind
  refine (toolCallOutcome_keeps within).mono ?_
  intro answer stage answered
  match answer, stage, answered with
  | .error error, _, answered => exact answered
  | .ok outcome, .live later, ⟨decided, _⟩ =>
    apply keeps_quiet rfl (decided.inSession (.inl rfl))
    intro _
    exact Protocol.Keeps.pure ⟨decided, by simp⟩

end Tools

/-! ## The rounds -/

section Rounds

variable {α : Type} {now : LiveTurn κ} {session : κ} {cancel : Token}

/-- Where a part of a turn leaves it: with every call answered, unless a call has ended it. -/
def Settled (session : κ) (cancel : Token) : Except AiError α → Turn κ → Prop
  | .ok _, .live now => now.session = session ∧ now.cancel = cancel ∧ now.unanswered = []
  | .error _, .live now => now.session = session ∧ (now.unanswered = [] ∨ now.abandoned = true)
  | _, _ => False

/-- The turn is where it was. -/
def Unmoved (now : LiveTurn κ) (_ : Except AiError α) (stage : Turn κ) : Prop := stage = .live now

theorem inSession_of {op : Op κ} (same : now.session = session)
    (isSession : op.session = some session ∨ op.session = none) :
    ∀ session, op.session = some session → session = now.session := by
  subst same
  exact Within.refl.inSession isSession

theorem remoteHeader_keeps {refresh : Bool} :
    (protocol κ).Keeps (Unmoved now) (remoteHeader refresh) (.live now) := by
  unfold remoteHeader
  apply keeps_quiet rfl (inSession_of rfl (.inr rfl))
  intro host
  by_cases isHost : host = true
  · rw [if_pos isHost]
    refine keeps_fallible (inSession_of rfl (.inr rfl)) trivial (fun error => rfl) ?_
    intro header
    cases header with
    | some header => exact Protocol.Keeps.pure rfl
    | none => exact Protocol.Keeps.throw rfl
  · rw [if_neg isHost]
    exact Protocol.Keeps.throw rfl

variable {config : AiConfig}

theorem requestHeader_keeps :
    (protocol κ).Keeps (Unmoved now) (requestHeader config) (.live now) := by
  unfold requestHeader
  cases config.provider with
  | remote => exact remoteHeader_keeps
  | gemini => exact Protocol.Keeps.pure rfl
  | openAi => exact Protocol.Keeps.pure rfl

variable (same : now.session = session)

include same

/-- A request carries the history as it was read, compacted. -/
theorem openStream_keeps {request : CompletionTurnRequest} {history : List ChatMessage}
    (read : now.history = some history)
    (compacted : request.messages = compactHistoryForModel history) :
    (protocol κ).Keeps (Unmoved now) (openStream session config request) (.live now) := by
  have asked : ∀ request : CompletionTurnRequest,
      request.messages = compactHistoryForModel history →
      (protocol κ).Keeps (Unmoved now) (run (.streamTurn session request)) (.live now) := by
    intro request compacted
    have permitted : Turn.Permits (.live now) (.streamTurn session request) :=
      permits_live (inSession_of same (.inl rfl)) ⟨history, read, compacted⟩
    refine Protocol.Keeps.lastCall permitted ?_
    intro answer _
    cases answer <;> rfl
  unfold openStream
  apply Protocol.Keeps.catching
  refine (asked request compacted).mono ?_
  rintro opened _ rfl
  cases opened with
  | ok stream => exact Protocol.Keeps.pure rfl
  | error error =>
    dsimp only
    by_cases retried : error = .unauthorized ∧ config.provider = .remote
    · rw [if_pos retried]
      apply Protocol.Keeps.bind
      refine remoteHeader_keeps.mono ?_
      rintro refreshed _ rfl
      cases refreshed with
      | ok refreshed => exact asked _ compacted
      | error error => rfl
    · rw [if_neg retried]
      exact Protocol.Keeps.throw rfl

theorem collect_keeps {items : Nat} {round : Round} (isCancel : now.cancel = cancel) :
    (protocol κ).Keeps (Unmoved now) (collect session cancel items round) (.live now) := by
  induction items generalizing round with
  | zero =>
    unfold collect
    refine keeps_call (inSession_of same (.inr rfl)) rfl isCancel.symm ?_
    intro ended
    cases ended with
    | cancelled => exact Protocol.Keeps.throw rfl
    | ready _ => exact Protocol.Keeps.pure rfl
  | succ items ih =>
    unfold collect
    refine keeps_fallible (inSession_of same (.inr rfl)) isCancel.symm (fun error => rfl) ?_
    intro item
    match item with
    | .cancelled => exact Protocol.Keeps.throw rfl
    | .ready (.textDelta delta) =>
      apply keeps_quiet rfl (inSession_of same (.inl rfl))
      intro _
      exact ih
    | .ready (.toolCalls calls) => exact ih
    | .ready (.finished finishReason usage) => exact ih

theorem storeResponse_keeps {round : Round} (answered : now.unanswered = []) :
    (protocol κ).Keeps (fun answer stage => (∃ value, answer = .ok value) ∧
        stage = .live { now with unanswered := round.toolCalls })
      (storeResponse session round) (.live now) := by
  unfold storeResponse
  by_cases isStored : round.text ≠ [] ∨ round.toolCalls ≠ []
  · rw [if_pos isStored, ← Prog.bind_pure (run _)]
    refine keeps_call (inSession_of same (.inl rfl)) rfl answered ?_
    intro value
    exact Protocol.Keeps.pure ⟨⟨value, rfl⟩, rfl⟩
  · rw [if_neg isStored]
    simp only [ne_eq, not_or, not_not] at isStored
    refine Protocol.Keeps.pure ⟨⟨(), rfl⟩, ?_⟩
    rw [isStored.2, ← answered]

/-- **The calls of a response are answered one by one, in order.** -/
theorem answerToolCalls_keeps {mode : ChatMode} {allowed : List ToolDescriptor}
    {toolCalls : List ModelToolCall} (isCancel : now.cancel = cancel)
    (left : now.unanswered = toolCalls) :
    (protocol κ).Keeps (Settled session cancel)
      (answerToolCalls session cancel mode allowed toolCalls) (.live now) := by
  induction toolCalls generalizing now with
  | nil => exact Protocol.Keeps.pure ⟨same, isCancel, left⟩
  | cons toolCall rest ih =>
    subst same isCancel
    unfold answerToolCalls
    apply Protocol.Keeps.bind
    refine (handleToolCall_keeps Within.refl).mono ?_
    intro answer stage answered
    match answer, stage, answered with
    | .error error, .live later, ⟨within, remembered⟩ =>
      obtain ⟨_, ⟨⟩, abandoned⟩ := remembered error rfl
      exact ⟨within.1, .inr abandoned⟩
    | .ok outcome, .live later, ⟨within, _⟩ =>
      have isHead : later.unanswered = toolCall :: rest := within.2.2.2.trans left
      refine keeps_call (within.inSession (.inl rfl)) rfl
        ⟨toolCall, outcome, by rw [isHead]; rfl, rfl⟩ ?_
      intro _
      have isRest : later.unanswered.tail = rest := by
        rw [isHead]
        rfl
      exact ih within.1 within.2.1 isRest

theorem rounds_keeps {mode : ChatMode} {allowed : List ToolDescriptor} {left : Nat}
    {usage : Option TokenUsage} (isCancel : now.cancel = cancel) (answered : now.unanswered = []) :
    (protocol κ).Keeps (Settled session cancel)
      (rounds session config mode allowed cancel left usage) (.live now) := by
  induction left generalizing now usage with
  | zero => exact Protocol.Keeps.pure ⟨same, isCancel, answered⟩
  | succ left ih =>
    unfold rounds
    refine keeps_call (inSession_of same (.inl rfl)) rfl answered ?_
    intro messages
    -- from here on the turn is the one that has read its history
    obtain ⟨turn, isTurn⟩ : ∃ turn : LiveTurn κ, turn = { now with history := some messages } :=
      ⟨_, rfl⟩
    have sameTurn : turn.session = session := by rw [isTurn]; exact same
    have cancelTurn : turn.cancel = cancel := by rw [isTurn]; exact isCancel
    have answeredTurn : turn.unanswered = [] := by rw [isTurn]; exact answered
    have readTurn : turn.history = some messages := by rw [isTurn]
    have stopped : ∀ {stage : Turn κ} {error : AiError}, stage = .live turn →
        Settled session cancel (.error error : Except AiError (FinishReason × Option TokenUsage))
          stage := by
      rintro _ error rfl
      exact ⟨sameTurn, .inl answeredTurn⟩
    change (protocol κ).Keeps _ _ (.live { now with history := some messages })
    rw [← isTurn]
    apply Protocol.Keeps.bind
    refine requestHeader_keeps.mono ?_
    intro header stage unmoved
    cases header with
    | error error => exact stopped unmoved
    | ok header =>
      subst unmoved
      apply Protocol.Keeps.bind
      refine (openStream_keeps sameTurn readTurn rfl).mono ?_
      intro stream stage unmoved
      cases stream with
      | error error => exact stopped unmoved
      | ok stream =>
        subst unmoved
        apply Protocol.Keeps.bind
        refine (collect_keeps sameTurn cancelTurn).mono ?_
        intro collected stage unmoved
        cases collected with
        | error error => exact stopped unmoved
        | ok round =>
          subst unmoved
          apply Protocol.Keeps.bind
          refine (storeResponse_keeps sameTurn answeredTurn).mono ?_
          rintro _ _ ⟨⟨value, rfl⟩, rfl⟩
          dsimp only
          by_cases noCalls : round.toolCalls = []
          · rw [if_pos noCalls]
            exact Protocol.Keeps.pure ⟨sameTurn, cancelTurn, noCalls⟩
          · rw [if_neg noCalls]
            have stored : ({ turn with unanswered := round.toolCalls } : LiveTurn κ).session =
                session := sameTurn
            apply Protocol.Keeps.bind
            refine (answerToolCalls_keeps stored cancelTurn rfl).mono ?_
            intro answer stage settled
            match answer, stage, settled with
            | .error error, .live later, settled => exact settled
            | .ok (), .live later, settled => exact ih settled.1 settled.2.1 settled.2.2

theorem rememberEmbeddedFileSnapshots_keeps {files : List EmbeddedFileContext} :
    (protocol κ).Keeps (fun answer stage => (∃ value, answer = .ok value) ∧ stage = .live now)
      (rememberEmbeddedFileSnapshots session files) (.live now) := by
  induction files with
  | nil => exact Protocol.Keeps.pure ⟨⟨(), rfl⟩, rfl⟩
  | cons file rest ih =>
    unfold rememberEmbeddedFileSnapshots
    apply keeps_quiet rfl (inSession_of same (.inl rfl))
    intro _
    exact ih

omit same

theorem runStarted_keeps {message : SendMessage κ} (same : now.session = message.session)
    (isCancel : now.cancel = cancel) (answered : now.unanswered = []) :
    (protocol κ).Keeps (Settled message.session cancel) (runStarted message cancel) (.live now) := by
  unfold runStarted
  apply keeps_quiet rfl (inSession_of same (.inl rfl))
  intro previousMode
  apply Protocol.Keeps.bind
  refine (rememberEmbeddedFileSnapshots_keeps same).mono ?_
  rintro _ _ ⟨⟨value, rfl⟩, rfl⟩
  apply keeps_quiet rfl (inSession_of same (.inl rfl))
  intro _
  refine keeps_call (inSession_of same (.inl rfl)) rfl answered ?_
  intro _
  refine keeps_fallible (inSession_of same (.inr rfl)) trivial
    (fun error => ⟨same, .inl answered⟩) ?_
  intro _
  apply keeps_quiet rfl (inSession_of same (.inr rfl))
  intro config
  apply keeps_quiet rfl (inSession_of same (.inr rfl))
  intro descriptors
  exact rounds_keeps same isCancel answered

end Rounds

/-! ## The turn -/

/-- A turn comes to `complete_run` from where it was refused, or settled. -/
def Finishable (session : κ) (stage : Turn κ) : Prop :=
  stage = .outside ∨ ∃ now, stage = .live now ∧ now.session = session ∧
    (now.unanswered = [] ∨ now.abandoned = true)

variable {stage : Turn κ}

theorem Settled.finishable {α : Type} {session : κ} {cancel : Token} {answer : Except AiError α}
    (settled : Settled session cancel answer stage) : Finishable session stage := by
  match answer, stage, settled with
  | .ok _, .live now, settled => exact .inr ⟨now, rfl, settled.1, .inl settled.2.2⟩
  | .error _, .live now, settled => exact .inr ⟨now, rfl, settled⟩

theorem runTurnInner_keeps {message : SendMessage κ} :
    (protocol κ).Keeps (fun _ => Finishable message.session) (runTurnInner message) stage := by
  have permitted : (protocol κ).permits stage (.startRun message.session) := by
    cases stage <;> exact trivial
  unfold runTurnInner
  refine Protocol.Keeps.call permitted ?_ ?_
  · intro error _
    exact .inl rfl
  · intro cancel _
    obtain ⟨turn, isTurn⟩ : ∃ turn : LiveTurn κ,
        turn = { session := message.session, cancel } := ⟨_, rfl⟩
    have started : (protocol κ).after stage (.startRun message.session) (.ok cancel) =
        .live turn := by
      rw [isTurn]
      rfl
    have same : turn.session = message.session := by rw [isTurn]
    have isCancel : turn.cancel = cancel := by rw [isTurn]
    have answered : turn.unanswered = [] := by rw [isTurn]
    rw [started]
    exact (runStarted_keeps same isCancel answered).mono fun _ _ => Settled.finishable

theorem finalizeRun_keeps {session : κ} {result : Except AiError (FinishReason × Option TokenUsage)}
    (finishable : Finishable session stage) :
    (protocol κ).Keeps (fun _ stage => stage = .outside) (finalizeRun session result) stage := by
  have permitted : Turn.Permits stage (.completeRun session) := by
    obtain rfl | ⟨now, rfl, same, settled⟩ := finishable
    · trivial
    · exact permits_live (inSession_of same (.inl rfl)) settled
  have done : ∀ (deferred : Bool) (finishReason : FinishReason) (usage : Option TokenUsage),
      (deferred = true → finishReason = .cancelled) →
      (protocol κ).Keeps (fun _ stage => stage = .outside)
        (run (.emit (.done session finishReason usage))) (.ended deferred) := by
    intro deferred finishReason usage reported
    exact Protocol.Keeps.lastCall reported fun _ _ => rfl
  unfold finalizeRun
  refine Protocol.Keeps.call permitted ?_ ?_
  · intro error answered
    obtain ⟨value, isValue⟩ := answered rfl
    cases isValue
  · intro deferred _
    have ended : (protocol κ).after stage (.completeRun session) (.ok deferred) =
        .ended deferred := by cases stage <;> rfl
    rw [ended]
    match result with
    | .ok (finishReason, usage) =>
      exact done deferred _ usage fun isDeferred => by simp [isDeferred]
    | .error error =>
      refine Protocol.Keeps.call trivial ?_ ?_
      · intro error answered
        obtain ⟨value, isValue⟩ := answered rfl
        cases isValue
      · intro _ _
        exact done deferred _ none fun isDeferred => by simp [isDeferred]

/-- **Every turn keeps to the protocol**, wherever its task was left before, and ends outside. -/
theorem runTurn_keeps (message : SendMessage κ) (stage : Turn κ) :
    (protocol κ).Keeps (fun _ stage => stage = .outside) (runTurn message) stage := by
  unfold runTurn
  apply Protocol.Keeps.catching
  exact runTurnInner_keeps.mono fun _ _ => finalizeRun_keeps

/-! ## The runs -/

section Runs

variable {ι : Type} {hash : Str → Str}

theorem perform_ok [DecidableEq κ] {op : Op κ} (infallible : op.mayFail = false) (how : How) (s : AiState κ) :
    ∃ value, (s.perform hash op how).1 = .ok value := by
  cases op <;> first | exact ⟨_, rfl⟩ | nomatch infallible

@[simp] theorem exec_turns [DecidableEq ι] [DecidableEq κ] (agent : ι) (op : Op κ) (how : How) (s : Observed ι κ) :
    (s.exec hash agent op how).2.turns = Function.update s.turns agent
      ((s.turns agent).after op (s.exec hash agent op how).1) := rfl

theorem dropTask_turns [DecidableEq ι] [DecidableEq κ] (agent : ι) (s : Observed ι κ) :
    (dropTask agent s).turns = Function.update s.turns agent .outside := by
  unfold dropTask
  dsimp only
  split
  · split <;> rfl
  · rfl

theorem command_turns [DecidableEq κ] {event : Command κ} {s s' : Observed ι κ}
    (acted : command event s = some s') :
    s'.turns = s.turns := by
  cases event with
  | cancel session =>
    cases acted
    rfl
  | reply receiver approved =>
    obtain ⟨_, _, rfl⟩ := map_eq_some_iff.mp acted
    rfl
  | submit receiver result =>
    obtain ⟨_, _, rfl⟩ := map_eq_some_iff.mp acted
    rfl

/-- **In every run, every task keeps to the protocol.** -/
theorem follows (ι κ : Type) [DecidableEq ι] [DecidableEq κ] (hash : Str → Str) :
    (tasks ι κ hash).Follows (protocol κ) (fun agent s => s.turns agent)
      (fun _ stage => stage = .outside) where
  answers agent op how s infallible := perform_ok infallible how s.state
  advances agent op how s := by
    change (s.exec hash agent op how).2.turns agent = _
    rw [exec_turns, update_self]
    rfl
  others agent other op how s differs := by
    change (s.exec hash agent op how).2.turns other = _
    rw [exec_turns, update_of_ne differs]
  crashes agent other s differs := by
    change (dropTask agent s).turns other = _
    rw [dropTask_turns, update_of_ne differs]
  env agent event s s' acted := by
    rw [command_turns acted]
  starts agent message stage := runTurn_keeps message stage

end Runs

end Kuku.Ai
