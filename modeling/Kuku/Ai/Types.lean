/-
# Ai.Types -- what a session says to the model, to the tools and to the host

The messages of a conversation, the tool calls of a model, the plans a tool proposes
and what the host answers to them, and the errors of a turn with the texts they are
shown with.

The arguments of a tool call are JSON, which the session only passes on and measures;
here they are the text `serde_json` writes for them.
-/
import Kuku.Theory.Chars

namespace Kuku.Ai

open Kuku.Theory

/-- A `String`. -/
abbrev Str := List Char

inductive ChatMode where
  | ask
  | agent
  | inline
  deriving DecidableEq

structure EmbeddedFileContext where
  path : Str
  content : Str
  checksum : Str
  sizeBytes : Nat
  deriving DecidableEq

structure EditorContext where
  activeFile : Option Str := none
  selectedText : Option Str := none
  embeddedFiles : List EmbeddedFileContext := []
  openTabs : List Str := []
  deriving DecidableEq

structure ModelToolCall where
  callId : Str
  toolName : Str
  arguments : Str
  signature : Option (List UInt8) := none
  toolCallId : Option Str := none
  providerCallId : Option Str := none
  deriving DecidableEq

structure TokenUsage where
  inputTokens : Nat
  outputTokens : Nat
  totalTokens : Nat
  cachedInputTokens : Nat
  deriving DecidableEq

inductive FinishReason where
  | stop
  | toolCalls
  | toolRoundLimit
  | cancelled
  | error
  deriving DecidableEq

inductive ChatMessage where
  | system (content : Str)
  | user (content : Str) (editorContext : Option EditorContext)
  | assistant (content : Str) (toolCalls : List ModelToolCall)
  | toolResult (callId toolName output : Str) (isError : Bool)
      (toolCallId providerCallId : Option Str)
  deriving DecidableEq

def ChatMessage.isUser : ChatMessage → Bool
  | .user _ _ => true
  | _ => false

def ChatMessage.isToolResult : ChatMessage → Bool
  | .toolResult .. => true
  | _ => false

/-! ## Tools -/

inductive ToolAccess where
  | readOnly
  | proposesMutation
  deriving DecidableEq

inductive ToolSource where
  | native
  | proxy

structure ToolDescriptor where
  toolId : Str
  name : Str
  description : Str
  parameters : Str
  category : Str
  access : ToolAccess
  source : ToolSource

def inlineEditToolId : Str := "builtin.edit_file".toList

def allowedTools (mode : ChatMode) (descriptors : List ToolDescriptor) : List ToolDescriptor :=
  match mode with
  | .agent => descriptors
  | .ask => descriptors.filter fun tool => tool.access = .readOnly
  | .inline => descriptors.filter fun tool =>
    tool.access = .readOnly ∨ tool.toolId = inlineEditToolId ∨ tool.name = "edit_file".toList

structure ProxyToolResult where
  output : Str
  isError : Bool

/-! ## Plans -/

inductive MutationOp where
  | createFile (path content : Str)
  | createDirectory (path : Str)
  | replaceFile (path content expectedChecksum : Str)
  | deleteFile (path expectedChecksum : Str)
  | deleteDirectory (path expectedChecksum : Str)
  | renameFile (source target : Str)

structure MutationPlan where
  summary : Str
  operations : List MutationOp

structure NativeToolResult where
  text : Str
  mutation : Option MutationPlan
  previewText : Option Str

structure ConflictItem where
  path : Str
  reason : Str
  expected : Option Str := none
  actual : Option Str := none

inductive MutationApplyResult where
  | applied (summary : Str) (warnings : List Str)
  | partiallyApplied (summary : Str) (applied failed skipped warnings : List Str)
  | conflict (summary : Str) (conflicts : List ConflictItem)

def MutationApplyResult.isConflict : MutationApplyResult → Bool
  | .conflict _ _ => true
  | _ => false

/-! ## Errors -/

inductive AiError where
  | notConfigured
  | sessionNotFound
  | sessionBusy
  | cancelled
  | hostUnavailable
  | approvalNotFound
  | unauthorized
  | providerInit (text : Str)
  | providerError (text : Str)
  | invalidArguments (text : Str)
  | toolNotFound (name : Str)
  | proxyTimeout (name : Str)
  | state (text : Str)
  | io (text : Str)
  deriving DecidableEq

/-- `Display`. -/
def AiError.message : AiError → Str
  | .notConfigured =>
    "AI is not configured. Choose a connection in Settings and add its API key or model.".toList
  | .sessionNotFound => "AI session not found.".toList
  | .sessionBusy => "AI session is already running.".toList
  | .cancelled => "AI request was cancelled.".toList
  | .hostUnavailable => "AI host is not registered.".toList
  | .approvalNotFound => "Approval request not found.".toList
  | .unauthorized => "Authorization expired or invalid.".toList
  | .providerInit text => "Provider init failed: ".toList ++ text
  | .providerError text => "Provider request failed: ".toList ++ text
  | .invalidArguments text => "Invalid arguments: ".toList ++ text
  | .toolNotFound name => "Tool not found: ".toList ++ name
  | .proxyTimeout name => "Proxy tool timeout: ".toList ++ name
  | .state text => "State error: ".toList ++ text
  | .io text => "I/O error: ".toList ++ text

inductive ToolError where
  | invalidArguments (text : Str)
  | executionFailed (text : Str)
  deriving DecidableEq

def ToolError.message : ToolError → Str
  | .invalidArguments text => "Invalid tool arguments: ".toList ++ text
  | .executionFailed text => "Tool execution failed: ".toList ++ text

/-! ## The provider -/

inductive ProviderKind where
  | gemini
  | openAi
  | remote
  deriving DecidableEq

/-- What a turn reads of `AiConfig`. -/
structure AiConfig where
  provider : ProviderKind
  model : Str
  roundLimit : Nat
  proxyToolTimeoutMs : Nat

structure CompletionTurnRequest where
  model : Str
  messages : List ChatMessage
  tools : List ToolDescriptor
  authorizationHeader : Option Str

inductive CompletionEvent where
  | textDelta (delta : Str)
  | toolCalls (calls : List ModelToolCall)
  | finished (finishReason : FinishReason) (usage : Option TokenUsage)
  deriving DecidableEq

end Kuku.Ai
