/-
# Ai.Session -- the turns of all sessions, among cancels and replies

Every `ai_send_message` spawns a task that runs one turn (`run_turn`).  The tasks share the
records of the sessions, the broker of the proxy tools and the channels their waits hang
on; the user interface cancels, resolves approvals and submits proxy results at any time.
A task is a program over the calls below, each of them one step.

What is outside the repository, or free, answers as a `How` says: the configuration, the
model, the tools, the host, and which branch of a `select!` goes first.  A stream of a model
is the number of items it still has.  A call that waits is made when it can return: this is
`scheduling`, the one condition on every run.

`perform` is what the code does in one call.  `Observed` adds what the code does not keep:
for each task its `Turn`, how far it has come, and the `log` of what was shown, answered,
decided and applied.
-/
import Kuku.Ai.Runtime
import Kuku.Theory.Program

namespace Kuku.Ai

open Kuku.Theory

/-! ## The calls -/

/-- What a task tells the user interface. -/
inductive Event (κ : Type) where
  | streamChunk (session : κ) (delta : Str)
  | done (session : κ) (finishReason : FinishReason) (usage : Option TokenUsage)
  | error (session : κ) (error : AiError)
  | toolStart (session : κ) (toolCall : ModelToolCall) (toolId : Str)
  | toolEnd (session : κ) (toolCall : ModelToolCall) (toolId output : Str) (isError : Bool)
  | pendingApproval (session : κ) (callId toolId toolName : Str) (mutation : MutationPlan)
      (previewText : Option Str)
  | proxyCall (session : κ) (callId toolId toolName arguments : Str)

inductive Op (κ : Type) where
  | startRun (session : κ)
  | replaceMode (session : κ) (mode : ChatMode)
  | rememberPathSnapshot (session : κ) (path : Str) (snapshot : PathSnapshot)
  | writeEditorContext (session : κ) (context : EditorContext)
  | readEditorContext (session : κ)
  | pushMessage (session : κ) (message : ChatMessage)
  | readMessages (session : κ)
  | backend
  | config
  | toolDescriptors
  | host
  | authorizationHeader (refresh : Bool)
  | streamTurn (session : κ) (request : CompletionTurnRequest)
  | nextItem (cancel : Token)
  | streamEnd (cancel : Token)
  | emit (event : Event κ)
  | getNative (name : Str)
  | callTool (session : κ) (mode : ChatMode) (context : EditorContext) (toolCall : ModelToolCall)
  | getProxy (name : Str)
  | registerPending (callId : Str)
  | awaitProxy (callId : Str) (receiver : Channel) (cancel : Token) (timeoutMs : Nat)
  | clearProxy (callId : Str)
  | beginAwaitingApproval (session : κ) (callId : Str)
  | awaitDecision (session : κ) (callId : Str) (receiver : Channel) (cancel : Token)
  | clearApproval (session : κ) (callId : Str)
  | setStatus (session : κ) (status : SessionStatus)
  | applyMutation (session : κ) (plan : MutationPlan)
  | applySuccessfulMutation (session : κ) (operations : List MutationOp)
  | clearMutationSnapshots (session : κ) (operations : List MutationOp)
  | isCancelled (cancel : Token)
  | completeRun (session : κ)

/-- The answer of a `select!` between a cancelled token and something else. -/
inductive Selected (α : Type) where
  | cancelled
  | ready (value : α)

inductive ProxyAnswer where
  | output (result : ProxyToolResult)
  | dropped
  | timedOut

abbrev Op.Res {κ : Type} : Op κ → Type
  | startRun _ => Token
  | replaceMode _ _ => ChatMode
  | readEditorContext _ => EditorContext
  | readMessages _ => List ChatMessage
  | config => AiConfig
  | toolDescriptors => List ToolDescriptor
  | host => Bool
  | authorizationHeader _ => Option Str
  | streamTurn _ _ => Nat
  | nextItem _ => Selected CompletionEvent
  | streamEnd _ => Selected Unit
  | getNative _ => Bool
  | callTool _ _ _ _ => Except ToolError NativeToolResult
  | getProxy _ => Bool
  | registerPending _ => Channel
  | awaitProxy _ _ _ _ => Selected ProxyAnswer
  | beginAwaitingApproval _ _ => Channel
  | awaitDecision _ _ _ _ => Selected (Option ApprovalDecision)
  | applyMutation _ _ => MutationApplyResult
  | isCancelled _ => Bool
  | completeRun _ => Bool
  | _ => Unit

/-- How a call goes, where the code leaves it open. -/
structure How where
  cancelFirst : Bool := true
  timedOut : Bool := false
  backend : Except AiError Unit := .ok ()
  config : AiConfig := ⟨.gemini, [], 12, 15000⟩
  toolDescriptors : List ToolDescriptor := []
  host : Bool := true
  header : Except AiError (Option Str) := .ok none
  stream : Except AiError Nat := .ok 0
  item : Except AiError CompletionEvent := .ok (.finished .stop none)
  registered : Bool := true
  tool : Except ToolError NativeToolResult := .ok ⟨[], none, none⟩
  apply : Except AiError MutationApplyResult := .ok (.applied [] [])

/-! ## What a turn does -/

section Program

variable {κ : Type}

abbrev Program (κ : Type) (α : Type) : Type := Prog (Op.Res (κ := κ)) AiError α

/-- One call. -/
abbrev run (op : Op κ) : Program κ op.Res := Prog.perform op

def toolNotAllowedMessage (toolName : Str) (mode : ChatMode) : Str :=
  "Tool '".toList ++ toolName ++ "' is not available in ".toList ++ modeLabel mode ++
    " mode for this turn.".toList

def fallbackToolId (toolName : Str) : Str :=
  if toolName.contains '.' then toolName else "builtin.".toList ++ toolName

def warningsLine (warnings : List Str) : List Str :=
  if warnings = [] then [] else ["Warnings: ".toList ++ Chars.join "; ".toList warnings]

def listLine (label : String) (items : List Str) : List Str :=
  if items = [] then [] else [label.toList ++ Chars.join ", ".toList items]

def describeApplyResult : MutationApplyResult → Str
  | .applied summary warnings =>
    Chars.join ['\n'] (["Applied: ".toList ++ summary] ++ warningsLine warnings)
  | .partiallyApplied summary applied failed skipped warnings =>
    Chars.join ['\n'] (["Partially applied: ".toList ++ summary] ++
      listLine "Applied: " applied ++ listLine "Failed: " failed ++
      listLine "Skipped: " skipped ++ warningsLine warnings)
  | .conflict summary conflicts =>
    "Conflict: ".toList ++ summary ++ ". ".toList ++ Chars.join ", ".toList
      (conflicts.map fun item => item.path ++ " (".toList ++ item.reason ++ ")".toList)

structure PendingApproval where
  callId : Str
  toolId : Str
  toolName : Str
  plan : MutationPlan
  previewText : Option Str

/-- What a session then knows of the plan's paths. -/
def rememberApplied (session : κ) (operations : List MutationOp) :
    MutationApplyResult → Program κ Unit
  | .applied _ _ => run (.applySuccessfulMutation session operations)
  | .partiallyApplied _ _ _ _ _ => run (.clearMutationSnapshots session operations)
  | .conflict _ _ => pure ()

/-- What follows an approval, up to the status that `RestoreStreaming` writes. -/
def applyApproved (session : κ) (cancel : Token) (plan : MutationPlan) :
    Program κ (Str × Bool) := do
  let host ← run .host
  if host then
    run (.setStatus session .applying)
    let applyResult ← run (.applyMutation session plan)
    rememberApplied session plan.operations applyResult
    let cancelled ← run (.isCancelled cancel)
    if cancelled then .throw .cancelled
    else pure (describeApplyResult applyResult, applyResult.isConflict)
  else .throw .hostUnavailable

/-- The wait for a decision and what follows it. -/
def decideAndApply (session : κ) (cancel : Token) (pending : PendingApproval)
    (approvalRx : Channel) : Program κ (Str × Bool) := do
  run (.emit (.pendingApproval session pending.callId pending.toolId pending.toolName
    pending.plan pending.previewText))
  let decision ← run (.awaitDecision session pending.callId approvalRx cancel)
  match decision with
  | .cancelled => do
    run (.clearApproval session pending.callId)
    .throw .cancelled
  | .ready none => .throw .approvalNotFound
  | .ready (some .reject) => pure ("Rejected by user".toList, true)
  | .ready (some .approve) => applyApproved session cancel pending.plan

/-- `gate_and_apply`: however the middle ends, the drop of `RestoreStreaming` ends it. -/
def gateAndApply (session : κ) (cancel : Token) (pending : PendingApproval) :
    Program κ (Str × Bool) := do
  let approvalRx ← run (.beginAwaitingApproval session pending.callId)
  let outcome ← (decideAndApply session cancel pending approvalRx).catching
  run (.setStatus session .streaming)
  .ofExcept outcome

def executeNativeTool (session : κ) (cancel : Token) (mode : ChatMode) (toolCall : ModelToolCall)
    (descriptor : ToolDescriptor) : Program κ (Str × Bool) := do
  let registered ← run (.getNative toolCall.toolName)
  if registered then
    let editorContext ← run (.readEditorContext session)
    let called ← run (.callTool session mode editorContext toolCall)
    match called with
    | .error error => pure (error.message, true)
    | .ok result =>
      match result.mutation.filter fun _ => descriptor.access ≠ .readOnly with
      | none => pure (result.text, false)
      | some plan =>
        gateAndApply session cancel
          ⟨toolCall.callId, descriptor.toolId, toolCall.toolName, plan, result.previewText⟩
  else .throw (.toolNotFound toolCall.toolName)

def executeProxyTool (session : κ) (cancel : Token) (toolCall : ModelToolCall) (toolId : Str) :
    Program κ (Str × Bool) := do
  let registered ← run (.getProxy toolCall.toolName)
  if registered then
    let receiver ← run (.registerPending toolCall.callId)
    run (.emit (.proxyCall session toolCall.callId toolId toolCall.toolName toolCall.arguments))
    let config ← run .config
    let response ← run (.awaitProxy toolCall.callId receiver cancel config.proxyToolTimeoutMs)
    match response with
    | .cancelled => do
      run (.clearProxy toolCall.callId)
      .throw .cancelled
    | .ready (.output result) => pure (result.output, result.isError)
    | .ready .dropped => pure ("Proxy tool responder dropped".toList, true)
    | .ready .timedOut => do
      run (.clearProxy toolCall.callId)
      .throw (.proxyTimeout toolCall.toolName)
  else pure ("Proxy tool ".toList ++ toolCall.toolName ++ " is not registered".toList, true)

/-- An error of a tool is its output; only a cancel ends the turn. -/
def toolOutcome : Except AiError (Str × Bool) → Program κ (Str × Bool)
  | .ok outcome => pure outcome
  | .error .cancelled => .throw .cancelled
  | .error error => pure (error.message, true)

def toolCallOutcome (session : κ) (cancel : Token) (mode : ChatMode) (toolCall : ModelToolCall)
    (toolId : Str) : Option ToolDescriptor → Program κ (Str × Bool)
  | none => pure (toolNotAllowedMessage toolCall.toolName mode, true)
  | some descriptor =>
    match descriptor.source with
    | .native => do
      let result ← (executeNativeTool session cancel mode toolCall descriptor).catching
      toolOutcome result
    | .proxy => do
      let result ← (executeProxyTool session cancel toolCall toolId).catching
      toolOutcome result

def handleToolCall (session : κ) (cancel : Token) (mode : ChatMode)
    (allowed : List ToolDescriptor) (toolCall : ModelToolCall) : Program κ (Str × Bool) := do
  let descriptor := allowed.find? fun tool => tool.name = toolCall.toolName
  let toolId := (descriptor.map (·.toolId)).getD (fallbackToolId toolCall.toolName)
  run (.emit (.toolStart session toolCall toolId))
  let outcome ← toolCallOutcome session cancel mode toolCall toolId descriptor
  run (.emit (.toolEnd session toolCall toolId outcome.1 outcome.2))
  pure outcome

/-- The message that answers a call. -/
def toolResultOf (toolCall : ModelToolCall) (outcome : Str × Bool) : ChatMessage :=
  .toolResult toolCall.callId toolCall.toolName outcome.1 outcome.2 toolCall.toolCallId
    toolCall.providerCallId

def answerToolCalls (session : κ) (cancel : Token) (mode : ChatMode)
    (allowed : List ToolDescriptor) : List ModelToolCall → Program κ Unit
  | [] => pure ()
  | toolCall :: rest => do
    let outcome ← handleToolCall session cancel mode allowed toolCall
    run (.pushMessage session (toolResultOf toolCall outcome))
    answerToolCalls session cancel mode allowed rest

def remoteHeader (refresh : Bool) : Program κ (Option Str) := do
  let host ← run .host
  if host then
    let header ← run (.authorizationHeader refresh)
    match header with
    | some header => pure (some header)
    | none => .throw .notConfigured
  else .throw .hostUnavailable

/-- `stream_turn`, once more with a fresh header when the provider is remote and the first
one was not accepted. -/
def openStream (session : κ) (config : AiConfig) (request : CompletionTurnRequest) :
    Program κ Nat := do
  let opened ← (run (.streamTurn session request)).catching
  match opened with
  | .ok stream => pure stream
  | .error error =>
    if error = .unauthorized ∧ config.provider = .remote then do
      let refreshed ← remoteHeader true
      run (.streamTurn session { request with authorizationHeader := refreshed })
    else .throw error

/-- What one response of the model adds up to. -/
structure Round where
  text : Str := []
  toolCalls : List ModelToolCall := []
  finishReason : FinishReason := .stop
  usage : Option TokenUsage := none

def Round.add (round : Round) : CompletionEvent → Round
  | .textDelta delta => { round with text := round.text ++ delta }
  | .toolCalls calls => { round with toolCalls := round.toolCalls ++ calls }
  | .finished finishReason usage => { round with finishReason := finishReason, usage }

def collect (session : κ) (cancel : Token) : Nat → Round → Program κ Round
  | 0, round => do
    let ended ← run (.streamEnd cancel)
    match ended with
    | .cancelled => .throw .cancelled
    | .ready () => pure round
  | items + 1, round => do
    let item ← run (.nextItem cancel)
    match item with
    | .cancelled => .throw .cancelled
    | .ready (.textDelta delta) => do
      run (.emit (.streamChunk session delta))
      collect session cancel items (round.add (.textDelta delta))
    | .ready event => collect session cancel items (round.add event)

def storeResponse (session : κ) (round : Round) : Program κ Unit :=
  if round.text ≠ [] ∨ round.toolCalls ≠ [] then
    run (.pushMessage session (.assistant round.text round.toolCalls))
  else pure ()

def requestHeader (config : AiConfig) : Program κ (Option Str) :=
  match config.provider with
  | .remote => remoteHeader false
  | _ => pure none

/-- The rounds of a turn: ask the model, answer its calls, ask again. -/
def rounds (session : κ) (config : AiConfig) (mode : ChatMode) (allowed : List ToolDescriptor)
    (cancel : Token) : Nat → Option TokenUsage → Program κ (FinishReason × Option TokenUsage)
  | 0, finalUsage => pure (.toolRoundLimit, finalUsage)
  | left + 1, _ => do
    let messages ← run (.readMessages session)
    let authorizationHeader ← requestHeader config
    let stream ← openStream session config
      ⟨config.model, compactHistoryForModel messages, allowed, authorizationHeader⟩
    let round ← collect session cancel stream {}
    storeResponse session round
    if round.toolCalls = [] then pure (round.finishReason, round.usage)
    else do
      answerToolCalls session cancel mode allowed round.toolCalls
      rounds session config mode allowed cancel left round.usage

def rememberEmbeddedFileSnapshots (session : κ) : List EmbeddedFileContext → Program κ Unit
  | [] => pure ()
  | file :: rest => do
    run (.rememberPathSnapshot session file.path ⟨file.checksum, false⟩)
    rememberEmbeddedFileSnapshots session rest

/-- `ai_send_message`. -/
structure SendMessage (κ : Type) where
  session : κ
  mode : ChatMode
  content : Str
  editorContext : EditorContext := {}

/-- `run_turn_inner`, once `start_run` has given out a token. -/
def runStarted (message : SendMessage κ) (cancel : Token) :
    Program κ (FinishReason × Option TokenUsage) := do
  let previousMode ← run (.replaceMode message.session message.mode)
  rememberEmbeddedFileSnapshots message.session message.editorContext.embeddedFiles
  run (.writeEditorContext message.session message.editorContext)
  run (.pushMessage message.session (.user
    (contentWithTurnContext previousMode message.mode message.content message.editorContext)
    (some message.editorContext)))
  run .backend
  let config ← run .config
  let descriptors ← run .toolDescriptors
  rounds message.session config message.mode (allowedTools message.mode descriptors) cancel
    config.roundLimit none

def runTurnInner (message : SendMessage κ) : Program κ (FinishReason × Option TokenUsage) := do
  let cancel ← run (.startRun message.session)
  runStarted message cancel

def finalizeRun (session : κ) (result : Except AiError (FinishReason × Option TokenUsage)) :
    Program κ Unit := do
  let deferredCancel ← run (.completeRun session)
  match result with
  | .ok (finishReason, usage) =>
    run (.emit (.done session (if deferredCancel then .cancelled else finishReason) usage))
  | .error error => do
    run (.emit (.error session error))
    run (.emit (.done session
      (if error = .cancelled ∨ deferredCancel then .cancelled else .error) none))

def runTurn (message : SendMessage κ) : Program κ Unit := do
  let result ← (runTurnInner message).catching
  finalizeRun message.session result

end Program

/-! ## What a call does -/

/-- What the tasks share. -/
structure AiState (κ : Type) where
  sessions : κ → SessionRuntime
  proxyPending : Str → Option Channel
  approvalSent : Channel → Option ApprovalDecision
  proxySent : Channel → Option ProxyToolResult
  cancelled : Token → Bool
  nextToken : Token
  nextChannel : Channel

namespace AiState

variable {κ : Type}

def initial (mode : κ → ChatMode) : AiState κ where
  sessions session := .new (mode session)
  proxyPending _ := none
  approvalSent _ := none
  proxySent _ := none
  cancelled _ := false
  nextToken := 0
  nextChannel := 0

def select {α : Type} (s : AiState κ) (how : How) (cancel : Token) (value : α) : Selected α :=
  if how.cancelFirst ∧ s.cancelled cancel then .cancelled else .ready value

def awaitProxy (s : AiState κ) (how : How) (receiver : Channel) (cancel : Token) :
    Selected ProxyAnswer :=
  s.select how cancel
    (match s.proxySent receiver with
      | some result => .output result
      | none => if how.timedOut then .timedOut else .dropped)

variable [DecidableEq κ]

def setSession (s : AiState κ) (session : κ) (runtime : SessionRuntime) : AiState κ :=
  { s with sessions := Function.update s.sessions session runtime }

def cancelToken (s : AiState κ) : Option Token → AiState κ
  | some token => { s with cancelled := Function.update s.cancelled token true }
  | none => s

def startRun (s : AiState κ) (session : κ) : Except AiError Token × AiState κ :=
  match (s.sessions session).startRun s.nextToken with
  | .error error => (.error error, s)
  | .ok runtime =>
    (.ok s.nextToken, { s.setSession session runtime with nextToken := s.nextToken + 1 })

def registerPending (s : AiState κ) (callId : Str) : AiState κ :=
  { s with
    proxyPending := Function.update s.proxyPending callId (some s.nextChannel)
    nextChannel := s.nextChannel + 1 }

def beginAwaitingApproval (s : AiState κ) (session : κ) (callId : Str) : AiState κ :=
  { s.setSession session ((s.sessions session).beginAwaitingApproval callId s.nextChannel) with
    nextChannel := s.nextChannel + 1 }

/-- **One call.** -/
def perform (hash : Str → Str) (op : Op κ) (how : How) (s : AiState κ) :
    Except AiError op.Res × AiState κ :=
  match op with
  | .startRun session => s.startRun session
  | .replaceMode session mode =>
    (.ok ((s.sessions session).replaceMode mode).1,
      s.setSession session ((s.sessions session).replaceMode mode).2)
  | .rememberPathSnapshot session path snapshot =>
    (.ok (), s.setSession session ((s.sessions session).rememberPathSnapshot path snapshot))
  | .writeEditorContext session context =>
    (.ok (), s.setSession session { s.sessions session with editorContext := context })
  | .readEditorContext session => (.ok (s.sessions session).editorContext, s)
  | .pushMessage session message =>
    (.ok (), s.setSession session ((s.sessions session).pushMessage message))
  | .readMessages session => (.ok (s.sessions session).messages, s)
  | .backend => (how.backend, s)
  | .config => (.ok how.config, s)
  | .toolDescriptors => (.ok how.toolDescriptors, s)
  | .host => (.ok how.host, s)
  | .authorizationHeader _ => (how.header, s)
  | .streamTurn _ _ => (how.stream, s)
  | .nextItem cancel =>
    (match s.select how cancel how.item with
      | .cancelled => .ok .cancelled
      | .ready (.ok event) => .ok (.ready event)
      | .ready (.error error) => .error error, s)
  | .streamEnd cancel => (.ok (s.select how cancel ()), s)
  | .emit _ => (.ok (), s)
  | .getNative _ => (.ok how.registered, s)
  | .callTool _ _ _ _ => (.ok how.tool, s)
  | .getProxy _ => (.ok how.registered, s)
  | .registerPending callId => (.ok s.nextChannel, s.registerPending callId)
  | .awaitProxy _ receiver cancel _ => (.ok (s.awaitProxy how receiver cancel), s)
  | .clearProxy callId =>
    (.ok (), { s with proxyPending := Function.update s.proxyPending callId none })
  | .beginAwaitingApproval session callId =>
    (.ok s.nextChannel, s.beginAwaitingApproval session callId)
  | .awaitDecision _ _ receiver cancel =>
    (.ok (s.select how cancel (s.approvalSent receiver)), s)
  | .clearApproval session callId =>
    (.ok (), s.setSession session ((s.sessions session).clearApproval callId))
  | .setStatus session status =>
    (.ok (), s.setSession session ((s.sessions session).setStatus status))
  | .applyMutation _ _ => (how.apply, s)
  | .applySuccessfulMutation session operations =>
    (.ok (), s.setSession session ((s.sessions session).applySuccessfulMutation hash operations))
  | .clearMutationSnapshots session operations =>
    (.ok (), s.setSession session ((s.sessions session).clearMutationSnapshots operations))
  | .isCancelled cancel => (.ok (s.cancelled cancel), s)
  | .completeRun session =>
    (.ok (s.sessions session).completeRun.1,
      s.setSession session (s.sessions session).completeRun.2)

/-- A wait is over: its channel was answered, or lost its sender, or the wait ran out. -/
def ready (s : AiState κ) (how : How) : Op κ → Bool
  | .awaitDecision session callId receiver cancel =>
    (how.cancelFirst && s.cancelled cancel) || (s.approvalSent receiver).isSome ||
      (s.sessions session).approvals callId ≠ some receiver
  | .awaitProxy callId receiver cancel _ =>
    (how.cancelFirst && s.cancelled cancel) || how.timedOut || (s.proxySent receiver).isSome ||
      s.proxyPending callId ≠ some receiver
  | _ => true

/-! ### The commands of the user interface -/

/-- `ai_cancel`. -/
def cancel (s : AiState κ) (session : κ) : AiState κ :=
  (s.setSession session (s.sessions session).cancel.2).cancelToken (s.sessions session).cancel.1

/-- `ai_resolve_approval`: the sender under the call id is taken and used. -/
def resolveApproval (s : AiState κ) (session : κ) (callId : Str) (approved : Bool) : AiState κ :=
  match (s.sessions session).approvals callId with
  | none => s
  | some receiver =>
    { s.setSession session ((s.sessions session).clearApproval callId) with
      approvalSent := Function.update s.approvalSent receiver
        (some (if approved then .approve else .reject)) }

/-- `ai_submit_proxy_tool_result`. -/
def resolveProxy (s : AiState κ) (callId : Str) (result : ProxyToolResult) : AiState κ :=
  match s.proxyPending callId with
  | none => s
  | some receiver =>
    { s with
      proxyPending := Function.update s.proxyPending callId none
      proxySent := Function.update s.proxySent receiver (some result) }

end AiState

/-! ## What is recorded of a run -/

/-- Where a task stands with the tool call it is handling. -/
inductive Asking where
  | nothing
  | registered (receiver : Channel) (callId : Str)
  | asked (receiver : Channel) (callId : Str) (plan : MutationPlan)
  | approved (receiver : Channel) (plan : MutationPlan)
  | applying (receiver : Channel) (plan : MutationPlan)
  | proxyRegistered (receiver : Channel) (callId : Str)
  | proxyAsked (receiver : Channel) (callId : Str)

/-- A turn that is past `start_run` and has not come to `complete_run`: `history` is what it
read for its next request, `unanswered` the calls of the last response that have no result
yet, and `abandoned` that a tool call has ended the turn. -/
structure LiveTurn (κ : Type) where
  session : κ
  cancel : Token
  history : Option (List ChatMessage) := none
  unanswered : List ModelToolCall := []
  asking : Asking := .nothing
  abandoned : Bool := false

/-- How far a task has come. -/
inductive Turn (κ : Type) where
  | outside
  | live (turn : LiveTurn κ)
  | ended (deferred : Bool)

namespace Turn

variable {κ : Type}

def asking : Turn κ → Asking
  | .live turn => turn.asking
  | _ => .nothing

def isLiveIn [DecidableEq κ] (session : κ) : Turn κ → Bool
  | .live turn => turn.session = session
  | _ => false

/-- A live turn after a call and its answer. -/
def afterLive (turn : LiveTurn κ) : (op : Op κ) → Except AiError op.Res → LiveTurn κ
  | .readMessages _, .ok messages => { turn with history := some messages }
  | .pushMessage _ (.assistant _ toolCalls), _ => { turn with unanswered := toolCalls }
  | .pushMessage _ (.toolResult _ _ _ _ _ _), _ =>
    { turn with unanswered := turn.unanswered.tail }
  | .registerPending callId, .ok receiver =>
    { turn with asking := .proxyRegistered receiver callId }
  | .beginAwaitingApproval _ callId, .ok receiver =>
    { turn with asking := .registered receiver callId }
  | .emit (.pendingApproval _ callId _ _ plan _), _ =>
    match turn.asking with
    | .registered receiver _ => { turn with asking := .asked receiver callId plan }
    | _ => turn
  | .emit (.proxyCall _ callId _ _ _), _ =>
    match turn.asking with
    | .proxyRegistered receiver _ => { turn with asking := .proxyAsked receiver callId }
    | _ => turn
  | .awaitProxy _ _ _ _, .ok .cancelled => { turn with asking := .nothing, abandoned := true }
  | .awaitProxy _ _ _ _, _ => { turn with asking := .nothing }
  | .awaitDecision _ _ _ _, .ok .cancelled =>
    { turn with asking := .nothing, abandoned := true }
  | .awaitDecision _ _ _ _, .ok (.ready (some .approve)) =>
    match turn.asking with
    | .asked receiver _ plan => { turn with asking := .approved receiver plan }
    | _ => turn
  | .awaitDecision _ _ _ _, _ => { turn with asking := .nothing }
  | .setStatus _ .applying, _ =>
    match turn.asking with
    | .approved receiver plan => { turn with asking := .applying receiver plan }
    | _ => turn
  | .applyMutation _ _, .error .cancelled => { turn with asking := .nothing, abandoned := true }
  | .applyMutation _ _, _ => { turn with asking := .nothing }
  | .isCancelled _, .ok true => { turn with abandoned := true }
  | _, _ => turn

/-- **A task after a call and its answer.** -/
def after (turn : Turn κ) (op : Op κ) (answer : Except AiError op.Res) : Turn κ :=
  match op, answer with
  | .startRun session, .ok cancel => .live { session, cancel }
  | .startRun _, .error _ => .outside
  | .completeRun _, .ok deferred => .ended deferred
  | .emit (.done _ _ _), _ => .outside
  | op, answer =>
    match turn with
    | .live running => .live (afterLive running op answer)
    | other => other

end Turn

inductive Entry (κ : Type) where
  | request (session : κ) (messages : List ChatMessage)
  | asked (receiver : Channel) (session : κ) (callId : Str) (plan : MutationPlan)
  | replied (receiver : Channel) (approved : Bool)
  | decided (receiver : Channel) (approved cancelled : Bool)
  | applying (receiver : Channel) (cancelled : Bool)
  | applied (receiver : Option Channel) (plan : MutationPlan)
  | proxyAsked (receiver : Channel) (callId : Str)
  | submitted (receiver : Channel) (result : ProxyToolResult)
  | delivered (receiver : Channel) (result : ProxyToolResult)
  | done (session : κ) (cancelledApplying : Bool) (finishReason : FinishReason)

/-- The state and its record: `cancelRequested` and `cancelledApplying` are of the turn a task
is in, `log` is newest first. -/
structure Observed (ι κ : Type) where
  state : AiState κ
  turns : ι → Turn κ
  cancelRequested : ι → Bool
  cancelledApplying : ι → Bool
  log : List (Entry κ)

namespace Observed

variable {ι κ : Type}

def initial (mode : κ → ChatMode) : Observed ι κ where
  state := .initial mode
  turns _ := .outside
  cancelRequested _ := false
  cancelledApplying _ := false
  log := []

/-- What the log keeps of a call. -/
@[grind =] def entry (s : Observed ι κ) (agent : ι) :
    (op : Op κ) → Except AiError op.Res → Option (Entry κ)
  | .streamTurn session request, _ => some (.request session request.messages)
  | .emit (.pendingApproval session callId _ _ plan _), _ =>
    match (s.turns agent).asking with
    | .registered receiver _ => some (.asked receiver session callId plan)
    | _ => none
  | .emit (.proxyCall _ callId _ _ _), _ =>
    match (s.turns agent).asking with
    | .proxyRegistered receiver _ => some (.proxyAsked receiver callId)
    | _ => none
  | .emit (.done session finishReason _), _ =>
    some (.done session (s.cancelledApplying agent) finishReason)
  | .awaitDecision _ _ receiver cancel, .ok (.ready (some decision)) =>
    some (.decided receiver (decision = .approve) (s.state.cancelled cancel))
  | .awaitProxy _ receiver _ _, .ok (.ready (.output result)) => some (.delivered receiver result)
  | .setStatus _ .applying, _ =>
    match s.turns agent with
    | .live ⟨_, cancel, _, _, .approved receiver _, _⟩ =>
      some (.applying receiver (s.state.cancelled cancel))
    | _ => none
  | .applyMutation _ plan, _ =>
    match (s.turns agent).asking with
    | .applying receiver _ => some (.applied (some receiver) plan)
    | _ => some (.applied none plan)
  | _, _ => none

/-- The question an approval event asked: its session and its call id. -/
def question (s : Observed ι κ) (receiver : Channel) : Option (κ × Str) :=
  s.log.findSome? fun
    | .asked other session callId _ => if other = receiver then some (session, callId) else none
    | _ => none

/-- The call id of a proxy event. -/
def proxyQuestion (s : Observed ι κ) (receiver : Channel) : Option Str :=
  s.log.findSome? fun
    | .proxyAsked other callId => if other = receiver then some callId else none
    | _ => none

variable [DecidableEq ι] [DecidableEq κ]

/-- No cancel has been asked for yet: where a turn starts, and where it has ended. -/
def forget (s : Observed ι κ) (agent : ι) : Observed ι κ :=
  { s with
    cancelRequested := Function.update s.cancelRequested agent false
    cancelledApplying := Function.update s.cancelledApplying agent false }

def forgetting (s : Observed ι κ) (agent : ι) : Op κ → Observed ι κ
  | .startRun _ => s.forget agent
  | .emit (.done _ _ _) => s.forget agent
  | _ => s

def record (s : Observed ι κ) (agent : ι) (op : Op κ) (answer : Except AiError op.Res) :
    Observed ι κ :=
  { s.forgetting agent op with
    turns := Function.update s.turns agent ((s.turns agent).after op answer)
    log := (s.entry agent op answer).toList ++ s.log }

/-- **One call of one task.** -/
def exec (hash : Str → Str) (agent : ι) (op : Op κ) (how : How) (s : Observed ι κ) :
    Except AiError op.Res × Observed ι κ :=
  ((s.state.perform hash op how).1,
    { s.record agent op (s.state.perform hash op how).1 with
      state := (s.state.perform hash op how).2 })

/-- `ai_cancel`, and the live turns it is meant for. -/
def cancel (s : Observed ι κ) (session : κ) : Observed ι κ :=
  { s with
    state := s.state.cancel session
    cancelRequested := fun agent => s.cancelRequested agent || (s.turns agent).isLiveIn session
    cancelledApplying := fun agent => s.cancelledApplying agent ||
      ((s.turns agent).isLiveIn session && (s.state.sessions session).control.status = .applying) }

end Observed

/-- What the user interface does.  A reply is to an event it was shown, however long ago
and however often it was replied to. -/
inductive Command (κ : Type) where
  | cancel (session : κ)
  | reply (event : Channel) (approved : Bool)
  | submit (event : Channel) (result : ProxyToolResult)

section System

variable {ι κ : Type}

def command [DecidableEq κ] : Command κ → Observed ι κ → Option (Observed ι κ)
  | .cancel session, s => some (s.cancel session)
  | .reply event approved, s =>
    (s.question event).map fun (session, callId) =>
      { s with
        state := s.state.resolveApproval session callId approved
        log := .replied event approved :: s.log }
  | .submit event result, s =>
    (s.proxyQuestion event).map fun callId =>
      { s with
        state := s.state.resolveProxy callId result
        log := .submitted event result :: s.log }

/-- A task is dropped: a gate it was in restores the status. -/
def dropTask [DecidableEq ι] [DecidableEq κ] (agent : ι) (s : Observed ι κ) : Observed ι κ :=
  let dropped := { s.forget agent with turns := Function.update s.turns agent .outside }
  match s.turns agent with
  | .live turn =>
    let runtime := s.state.sessions turn.session
    if runtime.control.status = .awaitingApproval ∨ runtime.control.status = .applying then
      { dropped with state := s.state.setSession turn.session (runtime.setStatus .streaming) }
    else dropped
  | _ => dropped

/-- Tasks `ι` that run the turns of sessions `κ`. -/
def tasks (ι κ : Type) [DecidableEq ι] [DecidableEq κ] (hash : Str → Str) :
    Machine (Observed ι κ) ι (SendMessage κ) How (Command κ) (Op.Res (κ := κ)) AiError Unit where
  program _ message := runTurn message
  exec := Observed.exec hash
  crash := dropTask
  env := command

abbrev RunCondition (ι κ : Type) :=
  Machine.Condition (Observed ι κ) ι (SendMessage κ) How (Command κ) (Op κ)

/-- What holds of every run: a wait goes on until it is over. -/
def scheduling : RunCondition ι κ where
  start _ _ _ := True
  call _ s op how := s.state.ready how op
  env _ _ := True

/-- The runs of the application, all sessions new. -/
def system (ι κ : Type) [DecidableEq ι] [DecidableEq κ] (hash : Str → Str) :=
  (tasks ι κ hash).system fun s => ∃ mode, s = Observed.initial mode

end System

end Kuku.Ai
