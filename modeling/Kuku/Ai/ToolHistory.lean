/-
# Ai.ToolHistory -- every request carries its tool calls with their results

A provider takes a history only if each response with tool calls is followed by the result
of each call, in order, under the same ids.  The turn stores the response before it runs
the calls, and one result after each; a cancel that ends a call leaves the results of it
and of the later calls out, and the next request of the session carries the gap.

`tool_history_of_answered` says that this, and a refused turn that resets a session in use,
are the only ways: in every other run every request is well formed, compacted or not, and
`encodedAlike_toolResultOf` that both encoders give a call and its result the same id.
-/
import Kuku.Ai.LiveRun

namespace Kuku.Ai

open Kuku.Theory List Function AiState Option

/-! ## What a provider is sent -/

/-- A tool call, as `rig` sends it. -/
structure RigToolCall where
  id : Str
  callId : Option Str
  name : Str
  arguments : Str

inductive RigMessage where
  | user (text : Str)
  | toolResult (id : Str) (callId : Option Str) (output : Str)
  | assistant (text : Option Str) (toolCalls : List RigToolCall)

def rigToolCall (call : ModelToolCall) : RigToolCall where
  id := call.toolCallId.getD call.callId
  callId := call.providerCallId.or (some call.callId)
  name := call.toolName
  arguments := call.arguments

/-- `into_rig_message`, of the two providers the desktop calls itself. -/
def intoRigMessage : ChatMessage → Except AiError RigMessage
  | .system _ =>
    .error (.invalidArguments "System messages should be passed via the system prompt".toList)
  | .user content _ => .ok (.user content)
  | .toolResult callId _ output _ toolCallId providerCallId =>
    .ok (.toolResult (toolCallId.getD callId) providerCallId output)
  | .assistant content toolCalls =>
    if content = [] ∧ toolCalls = [] then
      .error (.invalidArguments "Assistant message cannot be empty".toList)
    else
      .ok (.assistant (if content = [] then none else some content) (toolCalls.map rigToolCall))

inductive Part where
  | text (text : Str)
  | functionCall (id name arguments : Str) (thoughtSignature : Option (List UInt8))
  | functionResponse (id name result : Str) (isError : Bool)

inductive Role where
  | user
  | model

structure Content where
  role : Role
  parts : List Part

def firstNonEmpty : List Str → Str
  | [] => []
  | value :: values => if value ≠ [] then value else firstNonEmpty values

/-- The id both ends of a call are given; a field that is absent from the message is empty. -/
def providerId (callId : Str) (toolCallId providerCallId : Option Str) : Str :=
  firstNonEmpty [providerCallId.getD [], toolCallId.getD [], callId]

/-- `messageToContent`, of the server, on a message as the desktop sends it. -/
def messageToContent : ChatMessage → Option Content
  | .system content =>
    if Chars.trim content = [] then none
    else some ⟨.user, [.text ("System:\n".toList ++ content)]⟩
  | .user content _ => if Chars.trim content = [] then none else some ⟨.user, [.text content]⟩
  | .assistant content toolCalls =>
    some ⟨.model, (if content = [] then [] else [.text content]) ++ toolCalls.map fun call =>
      .functionCall (providerId call.callId call.toolCallId call.providerCallId) call.toolName
        call.arguments call.signature⟩
  | .toolResult callId toolName output isError toolCallId providerCallId =>
    some ⟨.user,
      [.functionResponse (providerId callId toolCallId providerCallId) toolName output isError]⟩

/-- A result is sent under the ids of its call.  `rig` has a second id, which a result has
only if the provider gave one. -/
structure EncodedAlike (call : ModelToolCall) (message : ChatMessage) : Prop where
  rig : ∃ callId output, intoRigMessage message = .ok (.toolResult (rigToolCall call).id callId output) ∧
    (callId = (rigToolCall call).callId ↔ call.providerCallId.isSome = true)
  server : ∃ name result isError, messageToContent message = some ⟨.user, [.functionResponse
    (providerId call.callId call.toolCallId call.providerCallId) name result isError]⟩

theorem encodedAlike_toolResultOf (call : ModelToolCall) (outcome : Str × Bool) :
    EncodedAlike call (toolResultOf call outcome) where
  rig := by
    refine ⟨call.providerCallId, outcome.1, rfl, ?_⟩
    cases isProvided : call.providerCallId with
    | none => simp [rigToolCall, isProvided]
    | some provided => simp [rigToolCall, isProvided]
  server := ⟨call.toolName, outcome.1, outcome.2, rfl⟩

/-! ## Well-formed histories -/

/-- A message that belongs to no tool call. -/
def ChatMessage.plain : ChatMessage → Bool
  | .system _ => true
  | .user _ _ => true
  | _ => false

/-- The result of a call. -/
structure Answers (call : ModelToolCall) (message : ChatMessage) : Prop where
  isToolResult : message.isToolResult = true
  encoded : EncodedAlike call message

/-- **A history with every call answered**: each response is followed by one result for each
of its calls, in order, and no result stands anywhere else. -/
inductive ToolHistory : List ChatMessage → Prop
  | nil : ToolHistory []
  | plain {message : ChatMessage} {rest : List ChatMessage} (isPlain : message.plain = true)
      (tail : ToolHistory rest) : ToolHistory (message :: rest)
  | response {content : Str} {toolCalls : List ModelToolCall} {results rest : List ChatMessage}
      (answered : List.Forall₂ Answers toolCalls results) (tail : ToolHistory rest) :
      ToolHistory (.assistant content toolCalls :: (results ++ rest))

namespace ToolHistory

variable {messages more : List ChatMessage}

theorem append (first : ToolHistory messages) (second : ToolHistory more) :
    ToolHistory (messages ++ more) := by
  induction first with
  | nil => exact second
  | plain isPlain _ ih => exact .plain isPlain ih
  | response answered _ ih =>
    rw [cons_append, append_assoc]
    exact .response answered ih

theorem push_plain {message : ChatMessage} (history : ToolHistory messages)
    (isPlain : message.plain = true) : ToolHistory (messages ++ [message]) :=
  history.append (.plain isPlain .nil)

theorem notUser_of_results {toolCalls : List ModelToolCall} {results : List ChatMessage}
    (answered : List.Forall₂ Answers toolCalls results) :
    ∀ message ∈ results, (!message.isUser) = true := by
  induction answered with
  | nil => simp
  | cons answers _ ih =>
    intro message member
    rcases mem_cons.mp member with rfl | isLater
    · cases message with
      | user content context => nomatch answers.isToolResult
      | _ => rfl
    · exact ih message isLater

/-- Skipping to the next user message passes over whole responses only. -/
theorem dropWhile_results {results rest : List ChatMessage}
    (notUser : ∀ message ∈ results, (!message.isUser) = true) :
    (results ++ rest).dropWhile (fun m => !m.isUser) = rest.dropWhile fun m => !m.isUser := by
  induction results with
  | nil => rfl
  | cons message results ih =>
    have skipped : message.isUser = false := by
      simpa using notUser message mem_cons_self
    rw [cons_append, dropWhile_cons_of_pos (by simp [skipped])]
    exact ih fun later member => notUser later (mem_cons_of_mem message member)

/-- **What follows a user message is well formed**, wherever one starts to look for it. -/
theorem fromUser (history : ToolHistory messages) (n : Nat) :
    ToolHistory ((messages.drop n).dropWhile fun m => !m.isUser) := by
  induction history generalizing n with
  | nil =>
    rw [drop_nil]
    exact .nil
  | @plain message rest isPlain tail ih =>
    cases n with
    | zero =>
      cases isUser : message.isUser with
      | true =>
        rw [drop_zero, dropWhile_cons_of_neg (by simp [isUser])]
        exact .plain isPlain tail
      | false =>
        rw [drop_zero, dropWhile_cons_of_pos (by simp [isUser])]
        exact ih 0
    | succ n => exact ih n
  | @response content toolCalls results rest answered tail ih =>
    have notUser := notUser_of_results answered
    cases n with
    | zero =>
      rw [drop_zero, dropWhile_cons_of_pos rfl, dropWhile_results notUser]
      exact ih 0
    | succ n =>
      rw [drop_succ_cons, drop_append, dropWhile_results]
      · exact ih (n - results.length)
      · intro message member
        exact notUser message (mem_of_mem_drop member)

end ToolHistory

theorem summary_toolHistory {messages summary : List ChatMessage} {maxBytes : Nat}
    (isSummary : buildHistorySummaryMessages messages maxBytes = some summary) :
    ToolHistory summary := by
  unfold buildHistorySummaryMessages at isSummary
  dsimp only at isSummary
  split at isSummary
  · cases isSummary
  · obtain ⟨text, _, rfl⟩ := map_eq_some_iff.mp isSummary
    exact .plain rfl (.response .nil .nil)

variable {messages : List ChatMessage}

/-- **Compaction keeps a history well formed**: it cuts before a user message, and what it
puts in front has no calls. -/
theorem compactHistoryForModel_toolHistory (history : ToolHistory messages) :
    ToolHistory (compactHistoryForModel messages) := by
  unfold compactHistoryForModel
  dsimp only
  split
  · exact history
  · refine ToolHistory.append ?_ (history.fromUser _)
    cases isSummary : buildHistorySummaryMessages _ _ with
    | none => exact .nil
    | some summary => exact summary_toolHistory isSummary

/-- A history whose last response still lacks the results of these calls. -/
def Pending (unanswered : List ModelToolCall) (messages : List ChatMessage) : Prop :=
  (unanswered = [] ∧ ToolHistory messages) ∨
    ∃ done content answered results, ToolHistory done ∧
      messages = done ++ .assistant content (answered ++ unanswered) :: results ∧
      List.Forall₂ Answers answered results

theorem Pending.toolHistory (pending : Pending [] messages) :
    ToolHistory messages := by
  obtain ⟨_, history⟩ | ⟨done, content, answered, results, history, rfl, answers⟩ := pending
  · exact history
  · rw [append_nil]
    exact history.append (append_nil results ▸ .response answers .nil)

theorem Pending.push_response (history : ToolHistory messages) (content : Str)
    (toolCalls : List ModelToolCall) :
    Pending toolCalls (messages ++ [.assistant content toolCalls]) :=
  .inr ⟨messages, content, [], [], history, rfl, .nil⟩

theorem Pending.push_result {call : ModelToolCall} {rest : List ModelToolCall}
    {message : ChatMessage} (pending : Pending (call :: rest) messages)
    (answers : Answers call message) : Pending rest (messages ++ [message]) := by
  obtain ⟨isNil, _⟩ | ⟨done, content, answered, results, history, rfl, already⟩ := pending
  · cases isNil
  · refine .inr ⟨done, content, answered ++ [call], results ++ [message], history, ?_, ?_⟩
    · rw [append_assoc answered]
      simp
    · exact rel_append already (.cons answers .nil)

/-! ## The condition -/

section Condition

variable {ι κ : Type}

/-- A call that would end the turn because it was cancelled. -/
def endsTurn (s : AiState κ) (how : How) : Op κ → Bool
  | .awaitProxy _ _ cancel _ => how.cancelFirst && s.cancelled cancel
  | .awaitDecision _ _ _ cancel => how.cancelFirst && s.cancelled cancel
  | .isCancelled cancel => s.cancelled cancel
  | .applyMutation _ _ => (how.apply matches .error .cancelled)
  | _ => false

/-- A refused turn that would reset a session in use. -/
def resetsOther (s : Observed ι κ) (agent : ι) : Op κ → Bool
  | .completeRun session =>
    (s.turns agent matches .outside) && (s.state.sessions session).control.status ≠ .idle
  | _ => false

/-- No refused turn completes while its session is in use, and no cancel is taken up inside
a tool call. -/
def callsAnswered : RunCondition ι κ where
  start _ _ _ := True
  call agent s op how := s.state.ready how op = true ∧ resetsOther s agent op = false ∧
    endsTurn s.state how op = false
  env _ _ := True

end Condition

/-! ## The invariant -/

section Invariant

variable {ι κ : Type}

structure HistoryInvariant (s : Observed ι κ) : Prop where
  run : RunInvariant s
  idle : ∀ session, (s.state.sessions session).control.status = .idle →
    ToolHistory (s.state.sessions session).messages
  live : ∀ agent turn, s.turns agent = .live turn → turn.abandoned = false ∧
    Pending turn.unanswered (s.state.sessions turn.session).messages
  read : ∀ agent turn history, s.turns agent = .live turn → turn.history = some history →
    ToolHistory history
  requests : ∀ session messages, .request session messages ∈ s.log → ToolHistory messages

theorem HistoryInvariant.initial (mode : κ → ChatMode) :
    HistoryInvariant (Observed.initial mode : Observed ι κ) where
  run := .initial mode
  idle _ _ := .nil
  live _ _ isLive := nomatch isLive
  read _ _ _ isLive := nomatch isLive
  requests _ _ member := nomatch member

/-- A call that changes what is stored, or what the turn knows of it. -/
def Op.stores : Op κ → Bool
  | .pushMessage _ _ => true
  | .readMessages _ => true
  | op => op.bounds

variable {op : Op κ}

theorem stores_of (notPush : ¬ ∃ session message, op = .pushMessage session message)
    (notRead : ¬ ∃ session, op = .readMessages session) (bounds : op.bounds = false) :
    op.stores = false := by
  cases op with
  | pushMessage session message => exact absurd ⟨session, message, rfl⟩ notPush
  | readMessages session => exact absurd ⟨session, rfl⟩ notRead
  | _ => exact bounds

/-- What a turn knows of the stored history. -/
structure SameHistory (before after : LiveTurn κ) : Prop where
  unanswered : after.unanswered = before.unanswered
  history : after.history = before.history
  abandoned : after.abandoned = before.abandoned

variable {how : How}

theorem AiState.select_ready {α : Type} {s : AiState κ} {cancel : Token} (value : α)
    (goesOn : (how.cancelFirst && s.cancelled cancel) = false) :
    s.select how cancel value = .ready value := by
  unfold AiState.select
  rw [if_neg]
  rintro ⟨first, isCancelled⟩
  simp [first, isCancelled] at goesOn

variable {hash : Str → Str}

theorem afterLive_sameHistory [DecidableEq κ] {running : LiveTurn κ} {s : AiState κ}
    (quiet : op.stores = false) (goesOn : endsTurn s how op = false) :
    SameHistory running (Turn.afterLive running op (s.perform hash op how).1) := by
  cases op with
  | startRun session => cases quiet
  | completeRun session => cases quiet
  | pushMessage session message => cases quiet
  | readMessages session => cases quiet
  | emit event =>
    cases event with
    | pendingApproval session callId toolId toolName mutation previewText =>
      simp only [Turn.afterLive]
      split <;> exact ⟨rfl, rfl, rfl⟩
    | proxyCall session callId toolId toolName arguments =>
      simp only [Turn.afterLive]
      split <;> exact ⟨rfl, rfl, rfl⟩
    | _ => exact ⟨rfl, rfl, rfl⟩
  | awaitProxy callId receiver cancel timeoutMs =>
    simp only [AiState.perform, AiState.awaitProxy, select_ready _ goesOn]
    exact ⟨rfl, rfl, rfl⟩
  | awaitDecision session callId receiver cancel =>
    simp only [AiState.perform, select_ready _ goesOn]
    cases s.approvalSent receiver with
    | none => exact ⟨rfl, rfl, rfl⟩
    | some decision =>
      cases decision
      · simp only [Turn.afterLive]
        split <;> exact ⟨rfl, rfl, rfl⟩
      · exact ⟨rfl, rfl, rfl⟩
  | setStatus session status =>
    cases status with
    | applying =>
      simp only [Turn.afterLive]
      split <;> exact ⟨rfl, rfl, rfl⟩
    | _ => exact ⟨rfl, rfl, rfl⟩
  | applyMutation session plan =>
    simp only [AiState.perform]
    simp only [endsTurn] at goesOn
    generalize how.apply = applied at goesOn
    cases applied with
    | ok result => exact ⟨rfl, rfl, rfl⟩
    | error error => cases error <;> first | exact ⟨rfl, rfl, rfl⟩ | cases goesOn
  | isCancelled cancel =>
    have notCancelled : s.cancelled cancel = false := goesOn
    simp only [AiState.perform, notCancelled]
    exact ⟨rfl, rfl, rfl⟩
  | backend => exact ⟨rfl, rfl, rfl⟩
  | _ => exact ⟨rfl, rfl, rfl⟩

theorem perform_messages [DecidableEq κ] {s : AiState κ}
    (notPush : ∀ session message, op ≠ .pushMessage session message) (other : κ) :
    ((s.perform hash op how).2.sessions other).messages = (s.sessions other).messages := by
  cases op with
  | pushMessage session message => exact absurd rfl (notPush session message)
  | startRun session =>
    by_cases isIdle : (s.sessions session).control.status = .idle
    · simp only [AiState.perform, AiState.startRun, SessionRuntime.startRun, isIdle]
      refine setSession_keeps SessionRuntime.messages ?_ other
      rfl
    · simp [AiState.perform, AiState.startRun, SessionRuntime.startRun, isIdle]
  | _ => first | rfl | (refine setSession_keeps SessionRuntime.messages ?_ other; rfl)

/-- A session becomes idle by `complete_run` only. -/
theorem perform_idle [DecidableEq κ] {s : AiState κ} {other : κ}
    (notComplete : op ≠ .completeRun other)
    (notIdle : ∀ session status, op = .setStatus session status → status ≠ .idle)
    (isIdle : ((s.perform hash op how).2.sessions other).control.status = .idle) :
    (s.sessions other).control.status = .idle := by
  cases bounds : op.bounds with
  | false => exact (perform_sameRun bounds notIdle other).status isIdle
  | true =>
    cases op with
    | startRun session =>
      by_cases wasIdle : (s.sessions session).control.status = .idle
      · simp only [AiState.perform, AiState.startRun, SessionRuntime.startRun, wasIdle] at isIdle
        by_cases same : other = session
        · rw [same]
          exact wasIdle
        · exact (setSession_other _ same) ▸ isIdle
      · simpa [AiState.perform, AiState.startRun, SessionRuntime.startRun, wasIdle] using isIdle
    | completeRun session =>
      have differs : other ≠ session := fun same => notComplete (by rw [same])
      exact (setSession_other _ differs) ▸ isIdle
    | _ => cases bounds

variable {s : Observed ι κ} {agent : ι}

theorem setStatus_notIdle (permitted : (s.turns agent).Permits op) :
    ∀ session status, op = .setStatus session status → status ≠ .idle := by
  rintro session status rfl
  exact permits_setStatus permitted

theorem permits_pushMessage {turn : Turn κ} {session : κ} {message : ChatMessage}
    (permitted : turn.Permits (.pushMessage session message)) :
    ∃ running, turn = .live running ∧ session = running.session ∧
      Turn.PermitsNext running (.pushMessage session message) := by
  cases turn with
  | outside => nomatch permitted
  | live running => exact ⟨running, rfl, permitted.1 session rfl, permitted.2⟩
  | ended deferred => nomatch permitted

theorem HistoryInvariant.settled (inv : HistoryInvariant s) {turn : LiveTurn κ}
    (isLive : s.turns agent = .live turn) (answered : turn.unanswered = [] ∨ turn.abandoned = true) :
    ToolHistory (s.state.sessions turn.session).messages := by
  obtain ⟨goesOn, pending⟩ := inv.live agent turn isLive
  have isNil : turn.unanswered = [] := answered.resolve_right (by simp [goesOn])
  rw [isNil] at pending
  exact pending.toolHistory

theorem entry_request {answer : Except AiError op.Res} {session : κ} {messages : List ChatMessage}
    (isNew : s.entry agent op answer = some (.request session messages)) :
    ∃ request, op = .streamTurn session request ∧ messages = request.messages := by
  unfold Observed.entry at isNew
  split at isNew <;>
    first
      | (cases isNew; exact ⟨_, rfl, rfl⟩)
      | cases isNew
      | (split at isNew <;> cases isNew)

section Steps

variable [DecidableEq ι] [DecidableEq κ] {hash : Str → Str} {s : Observed ι κ} {agent : ι}
  {op : Op κ} {how : How}

/-- A message is stored by the one turn that is live in the session. -/
theorem exec_messages (permitted : (s.turns agent).Permits op)
    {other : κ} (notLive : ∀ turn, s.turns agent = .live turn → turn.session ≠ other) :
    ((s.exec hash agent op how).2.state.sessions other).messages =
      (s.state.sessions other).messages := by
  by_cases isPush : ∃ session message, op = .pushMessage session message
  · obtain ⟨session, message, rfl⟩ := isPush
    obtain ⟨running, isLive, rfl, _⟩ := permits_pushMessage permitted
    exact congrArg SessionRuntime.messages (setSession_other _ (notLive running isLive).symm)
  · exact perform_messages (fun session message isPushed => isPush ⟨session, message, isPushed⟩) other

/-- An idle session has every call answered. -/
theorem exec_idle (inv : HistoryInvariant s) (permitted : (s.turns agent).Permits op)
    (resets : resetsOther s agent op = false) (session : κ)
    (isIdle : ((s.exec hash agent op how).2.state.sessions session).control.status = .idle) :
    ToolHistory ((s.exec hash agent op how).2.state.sessions session).messages := by
  by_cases completes : op = .completeRun session
  · subst completes
    have same : ((s.exec hash agent (.completeRun session) how).2.state.sessions session).messages =
        (s.state.sessions session).messages :=
      perform_messages (by simp) session
    rw [same]
    obtain isOutside | ⟨running, isLive, rfl⟩ := permits_completeRun permitted
    · refine inv.idle session ?_
      simpa [resetsOther, isOutside] using resets
    · rw [isLive] at permitted
      exact inv.settled isLive permitted.2
  · have wasIdle := perform_idle completes (setStatus_notIdle permitted) isIdle
    rw [exec_messages permitted]
    · exact inv.idle session wasIdle
    · rintro turn isLive rfl
      exact (inv.run.task agent).notIdle turn isLive wasIdle

variable {later : LiveTurn κ}

theorem own_live (isLive : (s.exec hash agent op how).2.turns agent = .live later) :
    (∃ session, op = .startRun session ∧ later.session = session ∧ later.unanswered = [] ∧
      later.history = none ∧ later.abandoned = false ∧
      (s.state.sessions session).control.status = .idle) ∨
    ∃ running, s.turns agent = .live running ∧ op.bounds = false ∧
      later = Turn.afterLive running op (s.state.perform hash op how).1 := by
  rw [exec_turns, update_self] at isLive
  cases bounds : op.bounds with
  | false =>
    obtain ⟨running, wasLive, isLater⟩ := live_of_after bounds isLive
    exact .inr ⟨running, wasLive, rfl, isLater⟩
  | true =>
    cases op with
    | startRun session =>
      by_cases isIdle : (s.state.sessions session).control.status = .idle
      · simp only [Observed.exec, AiState.perform, AiState.startRun, SessionRuntime.startRun,
          isIdle] at isLive
        cases isLive
        exact .inl ⟨session, rfl, rfl, rfl, rfl, rfl, isIdle⟩
      · simp [Observed.exec, AiState.perform, AiState.startRun, SessionRuntime.startRun, isIdle,
          Turn.after] at isLive
    | completeRun session => cases isLive
    | _ => cases bounds

/-- What the turn that makes a call then lacks results for. -/
theorem own_pending (inv : HistoryInvariant s) (permitted : (s.turns agent).Permits op)
    (goesOn : endsTurn s.state how op = false)
    (isLive : (s.exec hash agent op how).2.turns agent = .live later) :
    later.abandoned = false ∧ Pending later.unanswered
      ((s.exec hash agent op how).2.state.sessions later.session).messages := by
  obtain ⟨session, rfl, rfl, isNil, _, isFalse, isIdle⟩ | ⟨running, wasLive, bounds, rfl⟩ :=
    own_live isLive
  · have same : ((s.exec hash agent (.startRun later.session) how).2.state.sessions
        later.session).messages = (s.state.sessions later.session).messages :=
      perform_messages (by simp) later.session
    rw [isNil, same]
    exact ⟨isFalse, .inl ⟨rfl, inv.idle later.session isIdle⟩⟩
  · obtain ⟨wasFalse, pending⟩ := inv.live agent running wasLive
    rw [afterLive_session.1]
    by_cases isPush : ∃ session message, op = .pushMessage session message
    · obtain ⟨session, message, rfl⟩ := isPush
      obtain ⟨other, isOther, rfl, next⟩ := permits_pushMessage permitted
      cases wasLive.symm.trans isOther
      have pushed : ((s.exec hash agent (.pushMessage running.session message) how).2.state.sessions
          running.session).messages = (s.state.sessions running.session).messages ++ [message] := by
        change ((s.state.setSession running.session _).sessions running.session).messages = _
        rw [setSession_same]
        rfl
      rw [pushed]
      cases message with
      | system content => nomatch next
      | user content context =>
        have isNil : running.unanswered = [] := next
        refine ⟨wasFalse, .inl ⟨isNil, ?_⟩⟩
        exact (inv.settled wasLive (.inl isNil)).push_plain rfl
      | assistant content toolCalls =>
        refine ⟨wasFalse, ?_⟩
        exact Pending.push_response (inv.settled wasLive (.inl next)) content toolCalls
      | toolResult callId toolName output isError toolCallId providerCallId =>
        obtain ⟨call, outcome, isHead, isResult⟩ := next
        obtain ⟨rest, isRest⟩ : ∃ rest, running.unanswered = call :: rest :=
          List.head?_eq_some_iff.mp isHead
        refine ⟨wasFalse, ?_⟩
        change Pending running.unanswered.tail _
        rw [isRest] at pending ⊢
        rw [isResult]
        exact pending.push_result ⟨rfl, encodedAlike_toolResultOf call outcome⟩
    · have same : ((s.exec hash agent op how).2.state.sessions running.session).messages =
          (s.state.sessions running.session).messages :=
        perform_messages (fun session message isPushed => isPush ⟨session, message, isPushed⟩)
          running.session
      rw [same]
      by_cases isRead : ∃ session, op = .readMessages session
      · obtain ⟨session, rfl⟩ := isRead
        exact ⟨wasFalse, pending⟩
      · have quiet : op.stores = false := stores_of isPush isRead bounds
        have kept : SameHistory running
            (Turn.afterLive running op (s.state.perform hash op how).1) :=
          afterLive_sameHistory quiet goesOn
        rw [kept.abandoned, kept.unanswered]
        exact ⟨wasFalse, pending⟩

/-- What the turn that makes a call then has read. -/
theorem own_read (inv : HistoryInvariant s) (permitted : (s.turns agent).Permits op)
    (goesOn : endsTurn s.state how op = false) {history : List ChatMessage}
    (isLive : (s.exec hash agent op how).2.turns agent = .live later)
    (isRead : later.history = some history) : ToolHistory history := by
  obtain ⟨session, rfl, _, _, isNone, _⟩ | ⟨running, wasLive, bounds, rfl⟩ := own_live isLive
  · rw [isNone] at isRead
    cases isRead
  · by_cases reads : ∃ session, op = .readMessages session
    · obtain ⟨session, rfl⟩ := reads
      cases isRead
      rw [wasLive] at permitted
      cases permitted.1 session rfl
      exact inv.settled wasLive (.inl permitted.2)
    · by_cases isPush : ∃ session message, op = .pushMessage session message
      · obtain ⟨session, message, rfl⟩ := isPush
        refine inv.read agent running history wasLive ?_
        cases message <;> exact isRead
      · have quiet : op.stores = false := stores_of isPush reads bounds
        have kept : SameHistory running
            (Turn.afterLive running op (s.state.perform hash op how).1) :=
          afterLive_sameHistory quiet goesOn
        exact inv.read agent running history wasLive (kept.history ▸ isRead)

theorem HistoryInvariant.call (inv : HistoryInvariant s) (permitted : (s.turns agent).Permits op)
    (resets : resetsOther s agent op = false) (goesOn : endsTurn s.state how op = false) :
    HistoryInvariant (s.exec hash agent op how).2 := by
  have others : ∀ other, other ≠ agent →
      (s.exec hash agent op how).2.turns other = s.turns other := by
    intro other differs
    rw [exec_turns, update_of_ne differs]
  constructor
  case run =>
    refine inv.run.call permitted ?_
    rintro session rfl isOutside other turn isLive rfl
    have isIdle : (s.state.sessions turn.session).control.status = .idle := by
      simpa [resetsOther, isOutside] using resets
    exact (inv.run.task other).notIdle turn isLive isIdle
  case idle => exact exec_idle inv permitted resets
  case live =>
    intro other turn isLive
    by_cases same : other = agent
    · subst same
      exact own_pending inv permitted goesOn isLive
    · rw [others other same] at isLive
      rw [exec_messages permitted]
      · exact inv.live other turn isLive
      · intro running agentLive sameSession
        exact same (inv.run.single other agent turn running isLive agentLive sameSession.symm)
  case read =>
    intro other turn history isLive isRead
    by_cases same : other = agent
    · subst same
      exact own_read inv permitted goesOn isLive isRead
    · rw [others other same] at isLive
      exact inv.read other turn history isLive isRead
  case requests =>
    intro session messages member
    change _ ∈ (s.entry agent op _).toList ++ s.log at member
    rcases mem_append.mp member with isNew | isOld
    · obtain ⟨request, rfl, rfl⟩ := entry_request (mem_toList.mp isNew)
      cases isTurn : s.turns agent with
      | live running =>
        rw [isTurn] at permitted
        obtain ⟨history, isRead, isCompacted⟩ := permitted.2
        rw [isCompacted]
        exact compactHistoryForModel_toolHistory (inv.read agent running history isTurn isRead)
      | outside =>
        rw [isTurn] at permitted
        nomatch permitted
      | ended deferred =>
        rw [isTurn] at permitted
        nomatch permitted
    · exact inv.requests session messages isOld

end Steps

/-- A step that starts no run, stores nothing and asks for nothing. -/
theorem HistoryInvariant.unmoved {s s' : Observed ι κ} (inv : HistoryInvariant s)
    (run : RunInvariant s')
    (turns : ∀ agent turn, s'.turns agent = .live turn → s.turns agent = .live turn)
    (idle : ∀ session, (s'.state.sessions session).control.status = .idle →
      (s.state.sessions session).control.status = .idle)
    (messages : ∀ session,
      (s'.state.sessions session).messages = (s.state.sessions session).messages)
    (log : ∀ session messages, .request session messages ∈ s'.log →
      .request session messages ∈ s.log) : HistoryInvariant s' where
  run
  idle session isIdle := messages session ▸ inv.idle session (idle session isIdle)
  live agent turn isLive := messages turn.session ▸ inv.live agent turn (turns agent turn isLive)
  read agent turn history isLive := inv.read agent turn history (turns agent turn isLive)
  requests session sent member := inv.requests session sent (log session sent member)

theorem HistoryInvariant.drop [DecidableEq ι] [DecidableEq κ] (inv : HistoryInvariant s) :
    HistoryInvariant (dropTask agent s) := by
  refine inv.unmoved inv.run.drop ?_ ?_ ?_ ?_
  · intro other turn isLive
    rw [dropTask_turns] at isLive
    by_cases same : other = agent
    · subst same
      rw [update_self] at isLive
      cases isLive
    · rwa [update_of_ne same] at isLive
  · intro session isIdle
    unfold dropTask at isIdle
    dsimp only at isIdle
    split at isIdle
    · split at isIdle
      · rename_i turn _ _
        by_cases same : session = turn.session
        · subst same
          rw [setSession_same] at isIdle
          cases isIdle
        · rwa [setSession_other _ same] at isIdle
      · exact isIdle
    · exact isIdle
  · intro session
    unfold dropTask
    dsimp only
    split
    · split
      · refine setSession_keeps SessionRuntime.messages ?_ session
        rfl
      · rfl
    · rfl
  · intro session messages member
    have same : (dropTask agent s).log = s.log := by
      unfold dropTask
      dsimp only
      split
      · split <;> rfl
      · rfl
    rwa [same] at member

theorem SessionRuntime.cancel_messages {runtime : SessionRuntime} :
    runtime.cancel.2.messages = runtime.messages := by
  unfold SessionRuntime.cancel
  split <;> rfl

theorem HistoryInvariant.command [DecidableEq κ] {event : Command κ} {s s' : Observed ι κ}
    (inv : HistoryInvariant s) (acted : Ai.command event s = some s') : HistoryInvariant s' := by
  have turns : ∀ agent turn, s'.turns agent = .live turn → s.turns agent = .live turn := by
    intro agent turn isLive
    rwa [command_turns acted] at isLive
  have run := inv.run.command acted
  cases event with
  | cancel session =>
    cases acted
    refine inv.unmoved run turns ?_ ?_ (fun _ _ member => member)
    · intro other isIdle
      change ((s.state.cancel session).sessions other).control.status = _ at isIdle
      rw [cancel_sessions] at isIdle
      by_cases same : other = session
      · subst same
        rwa [update_self, SessionRuntime.cancel_status] at isIdle
      · rwa [update_of_ne same] at isIdle
    · intro other
      change ((s.state.cancel session).sessions other).messages = _
      rw [cancel_sessions]
      by_cases same : other = session
      · subst same
        rw [update_self, SessionRuntime.cancel_messages]
      · rw [update_of_ne same]
  | reply receiver approved =>
    obtain ⟨⟨session, callId⟩, _, rfl⟩ := map_eq_some_iff.mp acted
    refine inv.unmoved run turns ?_ ?_ (by simp)
    · intro other isIdle
      exact resolveApproval_control s.state session callId approved other ▸ isIdle
    · intro other
      dsimp only
      unfold AiState.resolveApproval
      split
      · rfl
      · change SessionRuntime.messages ((s.state.setSession session
          ((s.state.sessions session).clearApproval callId)).sessions other) = _
        refine setSession_keeps SessionRuntime.messages ?_ other
        rfl
  | submit receiver result =>
    obtain ⟨callId, _, rfl⟩ := map_eq_some_iff.mp acted
    have same : (s.state.resolveProxy callId result).sessions = s.state.sessions := by
      unfold AiState.resolveProxy
      split <;> rfl
    refine inv.unmoved run turns ?_ ?_ (by simp)
    · intro other isIdle
      exact same ▸ isIdle
    · intro other
      exact congrArg (fun sessions => (sessions other).messages) same

end Invariant

/-! ## Every run -/

section Runs

variable {ι κ : Type} [DecidableEq ι] [DecidableEq κ] {hash : Str → Str}
  {c : Machine.Config (Observed ι κ) ι (Op.Res (κ := κ)) AiError Unit}

theorem historyInvariant_of_reachable
    (reached : (system ι κ hash).ReachableBy callsAnswered.meets c) : HistoryInvariant c.shared := by
  refine (follows ι κ hash).invariant ?_ ?_ (fun _ _ => HistoryInvariant.drop)
    (fun _ _ _ inv _ acted => inv.command acted) reached
  · rintro s ⟨mode, rfl⟩
    exact .initial mode
  · intro agent op how s inv isAllowed permitted
    exact inv.call permitted isAllowed.2.1 isAllowed.2.2

/-- **Every request carries a well-formed tool history**, in every run of any number of turns
in which no refused turn completes while its session is in use and no cancel is taken up
inside a tool call. -/
theorem tool_history_of_answered (reached : (system ι κ hash).ReachableBy callsAnswered.meets c)
    {session : κ} {messages : List ChatMessage}
    (requested : .request session messages ∈ c.shared.log) : ToolHistory messages :=
  (historyInvariant_of_reachable reached).requests session messages requested

/-! ## Where it fails, and where it holds -/

def sampleCall : ModelToolCall := { callId := ['c'], toolName := ['w'], arguments := ['{', '}'] }

def samplePlan : MutationPlan := ⟨['p'], [.createFile ['f'] ['x']]⟩

def sampleTool : ToolDescriptor := ⟨['t'], ['w'], [], [], [], .proposesMutation, .native⟩

/-- Up to its first request: the model answers with so many items. -/
def ask (agent : Fin 3) (items : Nat) (tools : List ToolDescriptor) :
    List (Machine.Label (Fin 3) (SendMessage Unit) How (Command Unit)) :=
  .start agent sampleMessage :: .call agent {} :: .call agent {} :: .call agent {} ::
    .call agent {} :: .call agent {} :: .call agent {} ::
    .call agent { toolDescriptors := tools } :: .call agent {} ::
    [.call agent { stream := .ok items }]

/-- The model asks for the sample call, and the response is stored. -/
def respond (agent : Fin 3) : List (Machine.Label (Fin 3) (SendMessage Unit) How (Command Unit)) :=
  [.call agent { item := .ok (.toolCalls [sampleCall]) }, .call agent {}, .call agent {}]

/-- The tool is called and its plan is shown. -/
def propose (agent : Fin 3) : List (Machine.Label (Fin 3) (SendMessage Unit) How (Command Unit)) :=
  [.call agent {}, .call agent {}, .call agent {},
    .call agent { tool := .ok ⟨[], some samplePlan, none⟩ }, .call agent {}, .call agent {}]

def lastRequest (s : Observed (Fin 3) Unit) : Option (List ChatMessage) :=
  s.log.findSome? fun
    | .request _ messages => some messages
    | _ => none

theorem request_of_lastRequest {s : Observed (Fin 3) Unit} {messages : List ChatMessage}
    (isLast : lastRequest s = some messages) : .request () messages ∈ s.log := by
  obtain ⟨entry, member, isRequest⟩ := exists_of_findSome?_eq_some isLast
  cases entry with
  | request session sent =>
    cases isRequest
    exact member
  | _ => cases isRequest

/-- A turn is cancelled while its plan waits for approval; the next turn of the session asks
the model with a call that has no result. -/
theorem not_tool_history_after_cancel :
    ∃ c messages, (system (Fin 3) Unit id).ReachableBy scheduling.meets c ∧
      .request () messages ∈ c.shared.log ∧ ¬ ToolHistory messages := by
  have ran : (runSample (fun _ s op how => s.state.ready how op) (fun _ _ => true)
      (ask 0 1 [sampleTool] ++ respond 0 ++ propose 0 ++ .env (.cancel ()) ::
        List.replicate 6 (.call 0 {}) ++ ask 1 0 [])).map (fun c => lastRequest c.shared) =
      some (some [.user ['h', 'i'] (some {}), .assistant [] [sampleCall],
        .user ['h', 'i'] (some {})]) := by
    decide +kernel
  obtain ⟨c, reached, observed⟩ := map_eq_some_iff.mp ran
  refine ⟨c, _, reachable_of_runSample reached, request_of_lastRequest observed, ?_⟩
  intro history
  generalize isSent : [ChatMessage.user ['h', 'i'] (some {}), .assistant [] [sampleCall],
    .user ['h', 'i'] (some {})] = sent at history
  cases history with
  | nil => cases isSent
  | plain isPlain tail =>
    cases isSent
    generalize isRest : [ChatMessage.assistant [] [sampleCall], .user ['h', 'i'] (some {})] = rest
      at tail
    cases tail with
    | nil => cases isRest
    | plain isPlain tail =>
      cases isRest
      cases isPlain
    | @response content toolCalls results rest answered tail =>
      obtain ⟨isResponse, isResults⟩ := List.cons.inj isRest
      cases isResponse
      cases answered with
      | cons answers _ =>
        obtain ⟨isUser, _⟩ := List.cons.inj isResults
        rw [← isUser] at answers
        cases answers.isToolResult
  | response answered tail => cases isSent

/-- A call of a tool that is not available is answered, and the second request carries it with
its result. -/
theorem tool_history_of_answered_call :
    ∃ c messages, (system (Fin 3) Unit id).ReachableBy callsAnswered.meets c ∧
      .request () messages ∈ c.shared.log ∧ messages.length = 3 ∧ ToolHistory messages := by
  have ran : (runSample
      (fun agent s op how => s.state.ready how op && !resetsOther s agent op &&
        !endsTurn s.state how op) (fun _ _ => true)
      (ask 0 1 [] ++ respond 0 ++ List.replicate 5 (.call 0 {}))).map
        (fun c => (lastRequest c.shared).map List.length) = some (some 3) := by
    decide +kernel
  obtain ⟨c, reached, observed⟩ := map_eq_some_iff.mp ran
  obtain ⟨messages, isLast, isThree⟩ := map_eq_some_iff.mp observed
  have reachable : (system (Fin 3) Unit id).ReachableBy callsAnswered.meets c := by
    refine Machine.reachable_of_checks (fun _ _ _ => trivial) ?_ (fun _ _ _ => trivial)
      ⟨⟨fun _ => .agent, rfl⟩, fun _ => rfl⟩ reached
    intro agent s op how isChecked
    simpa [callsAnswered, and_assoc] using isChecked
  have requested := request_of_lastRequest isLast
  exact ⟨c, messages, reachable, requested, isThree, tool_history_of_answered reachable requested⟩

end Runs

end Kuku.Ai
