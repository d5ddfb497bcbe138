/-
# Ai.StreamTranslation -- a streamed turn, from the provider's chunks to the session

The server reads the chunks of the model, forwards their text at once and keeps their
function calls back until the stream has ended well; the desktop reads the responses of the
server and hands the session one event for each.

What the SDKs do is a parameter: the text of a chunk, the two conversions of arguments, and
the random bytes of a call that came without an id.
-/
import Kuku.Ai.Session

namespace Kuku.Ai.Remote

open Kuku.Theory

/-! ## Upstream -/

/-- `genai.FunctionCall`, over the maps its arguments are. -/
structure FunctionCall (Args : Type) where
  id : Str
  name : Str
  args : Args

structure Part (Args : Type) where
  text : Str := []
  thought : Bool := false
  functionCall : Option (FunctionCall Args) := none
  thoughtSignature : Option (List UInt8) := none

/-- `genai.Candidate`: the parts of its content, where it has one. -/
structure Candidate (Args : Type) where
  content : Option (List (Option (Part Args))) := none
  finishReason : Str := []

structure UsageMetadata where
  promptTokenCount : Int
  candidatesTokenCount : Int
  totalTokenCount : Int

/-- `genai.GenerateContentResponse`. -/
structure Chunk (Args : Type) where
  candidates : List (Option (Candidate Args)) := []
  usageMetadata : Option UsageMetadata := none

/-- What the stream of the SDK yields at once: an error, or a chunk that may be `nil`. -/
abbrev Item (Args : Type) := Except Str (Option (Chunk Args))

/-! ## On the wire -/

structure ProtoModelToolCall (Struct : Type) where
  callId : Option Str
  toolName : Option Str
  arguments : Option Struct
  signature : Option (List UInt8)
  toolCallId : Option Str
  providerCallId : Option Str

inductive ProtoFinishReason where
  | unspecified
  | stop
  | toolCalls

inductive EnumValue (α : Type) where
  | known (value : α)
  | unknown (value : Int)

structure ProtoTokenUsage where
  inputTokens : Option Nat
  outputTokens : Option Nat
  totalTokens : Option Nat
  cachedInputTokens : Option Nat := none

inductive ProtoCompleteEvent (Struct : Type) where
  | textDelta (text : Option Str)
  | toolCalls (toolCalls : List (ProtoModelToolCall Struct))
  | finished (finishReason : Option (EnumValue ProtoFinishReason)) (usage : Option ProtoTokenUsage)

structure CompleteResponse (Struct : Type) where
  event : Option (ProtoCompleteEvent Struct)

inductive ErrorCode where
  | unauthenticated
  | other (name : Str)

structure ConnectError where
  code : ErrorCode
  message : Option Str

/-- What the SDKs answer. -/
structure Sdk (Args Struct : Type) where
  /-- `chunk.Text()`. -/
  text : Chunk Args → Str
  /-- `structpb.NewStruct`. -/
  newStruct : Args → Except Str Struct
  /-- `serde_json::to_value`, as text; `Null` where it fails. -/
  structToJson : Struct → Str
  /-- The eight bytes of the n-th `rand.Read`, in hex. -/
  rand : Nat → Option Str

variable {Args Struct : Type} (sdk : Sdk Args Struct)

/-! ## The server -/

def newCallId (drawn : Nat) (name : Str) (index : Nat) : Str :=
  match sdk.rand drawn with
  | some raw => name ++ '-' :: raw
  | none => name ++ '-' :: Chars.ofNat index

/-- The loop over the parts of one candidate; `drawn` counts the reads of random bytes. -/
def extractParts : List (Option (Part Args) × Nat) → Nat →
    Except Str (List (ProtoModelToolCall Struct) × Nat)
  | [], drawn => .ok ([], drawn)
  | (none, _) :: parts, drawn => extractParts parts drawn
  | (some part, index) :: parts, drawn =>
    match part.functionCall with
    | none => extractParts parts drawn
    | some call =>
      let id := if call.id = [] then newCallId sdk drawn call.name index else call.id
      match sdk.newStruct call.args with
      | .error error =>
        .error ("decode gemini function call arguments: ".toList ++ error)
      | .ok args =>
        match extractParts parts (if call.id = [] then drawn + 1 else drawn) with
        | .error error => .error error
        | .ok (calls, drawn) =>
          .ok (⟨some id, some call.name, some args, part.thoughtSignature, some id,
            some id⟩ :: calls, drawn)

def extractCandidates : List (Option (Candidate Args)) → Nat →
    Except Str (List (ProtoModelToolCall Struct) × Nat)
  | [], drawn => .ok ([], drawn)
  | none :: candidates, drawn => extractCandidates candidates drawn
  | some candidate :: candidates, drawn =>
    match extractParts sdk ((candidate.content.getD []).zipIdx) drawn with
    | .error error => .error error
    | .ok (calls, drawn) =>
      match extractCandidates candidates drawn with
      | .error error => .error error
      | .ok (more, drawn) => .ok (calls ++ more, drawn)

def extractToolCalls (response : Chunk Args) (drawn : Nat) :
    Except Str (List (ProtoModelToolCall Struct) × Nat) :=
  extractCandidates sdk response.candidates drawn

def isMissingFinishReason (reason : Str) : Bool :=
  reason = [] ∨ reason = "FINISH_REASON_UNSPECIFIED".toList

def terminalFinishReason (response : Chunk Args) : Option Str :=
  response.candidates.findSome? fun candidate =>
    match candidate with
    | none => none
    | some candidate =>
      if isMissingFinishReason candidate.finishReason then none
      else some candidate.finishReason

/-- `uint64` of a signed count. -/
def uint64 (n : Int) : Nat := (n % 2 ^ 64).toNat

def extractUsage (usage : UsageMetadata) : ProtoTokenUsage where
  inputTokens := some (uint64 usage.promptTokenCount)
  outputTokens := some (uint64 usage.candidatesTokenCount)
  totalTokens := some (uint64 usage.totalTokenCount)

/-- What `translateGenerateContentStream` keeps between two chunks. -/
structure Seen (Struct : Type) where
  toolCalls : List (ProtoModelToolCall Struct) := []
  lastUsage : Option UsageMetadata := none
  sawAnyOutput : Bool := false
  sawTerminalFinish : Bool := false
  drawn : Nat := 0

def Seen.read (seen : Seen Struct) (chunk : Chunk Args) : Except Str (Seen Struct) :=
  match extractToolCalls sdk chunk seen.drawn with
  | .error error => .error error
  | .ok (calls, drawn) =>
    .ok {
      toolCalls := seen.toolCalls ++ calls
      lastUsage := chunk.usageMetadata.or seen.lastUsage
      sawAnyOutput := seen.sawAnyOutput || sdk.text chunk ≠ [] || calls ≠ []
      sawTerminalFinish := seen.sawTerminalFinish || (terminalFinishReason chunk).isSome
      drawn }

def textDelta (text : Str) : CompleteResponse Struct := ⟨some (.textDelta (some text))⟩

/-- The text of a chunk, forwarded immediately. -/
def forwarded (chunk : Chunk Args) : List (Except Str (CompleteResponse Struct)) :=
  if sdk.text chunk ≠ [] then [.ok (textDelta (sdk.text chunk))] else []

/-- What is yielded once the stream has ended; `ctxErr` is `ctx.Err()`. -/
def Seen.finish (ctxErr : Option Str) (seen : Seen Struct) :
    List (Except Str (CompleteResponse Struct)) :=
  if !seen.sawAnyOutput then
    [.error "gemini response did not include text or tool calls".toList]
  else if !seen.sawTerminalFinish then
    match ctxErr with
    | some error =>
      [.error ("gemini stream ended before terminal finish reason: ".toList ++ error)]
    | none => [.error "gemini stream ended before terminal finish reason".toList]
  else
    (if seen.toolCalls ≠ [] then [.ok ⟨some (.toolCalls seen.toolCalls)⟩] else []) ++
      [.ok ⟨some (.finished
        (some (.known (if seen.toolCalls ≠ [] then .toolCalls else .stop)))
        (seen.lastUsage.map extractUsage))⟩]

def translateGenerateContentStream (ctxErr : Option Str) :
    List (Item Args) → Seen Struct → List (Except Str (CompleteResponse Struct))
  | [], seen => seen.finish ctxErr
  | .error error :: _, _ => [.error ("genai stream: ".toList ++ error)]
  | .ok none :: stream, seen => translateGenerateContentStream ctxErr stream seen
  | .ok (some chunk) :: stream, seen =>
    forwarded sdk chunk ++
      match seen.read sdk chunk with
      | .error error => [.error error]
      | .ok seen => translateGenerateContentStream ctxErr stream seen

/-- The loop of `Handler.Complete`: what is sent, and what the call returns. -/
def complete : List (Except Str (CompleteResponse Struct)) →
    List (CompleteResponse Struct) × Option ConnectError
  | [] => ([], none)
  | .error _ :: _ => ([], some ⟨.other "Internal".toList, some "internal error".toList⟩)
  | .ok event :: events => (event :: (complete events).1, (complete events).2)

/-! ## The desktop -/

def modelToolCallFrom (call : ProtoModelToolCall Struct) : ModelToolCall :=
  { call with
    callId := call.callId.getD []
    toolName := call.toolName.getD []
    arguments := (call.arguments.map sdk.structToJson).getD "null".toList }

def ErrorCode.debug : ErrorCode → Str
  | .unauthenticated => "Unauthenticated".toList
  | .other name => name

def connectToAiError (error : ConnectError) : AiError :=
  match error.code with
  | .unauthenticated => .unauthorized
  | code => .providerError ("Remote AI request failed: ".toList ++ error.message.getD code.debug)

def finishReasonFrom : Option (EnumValue ProtoFinishReason) → FinishReason
  | some (.known .toolCalls) => .toolCalls
  | _ => .stop

def tokenUsageFrom (usage : ProtoTokenUsage) : TokenUsage where
  inputTokens := usage.inputTokens.getD 0
  outputTokens := usage.outputTokens.getD 0
  totalTokens := usage.totalTokens.getD 0
  cachedInputTokens := usage.cachedInputTokens.getD 0

/-- The event of a message, and whether a finished one has been seen.  The `Result` of the
source is always `Ok`. -/
def completionEventFromProtoMessage (message : CompleteResponse Struct) (sawFinished : Bool) :
    Option CompletionEvent × Bool :=
  match message.event with
  | none => (none, sawFinished)
  | some (.textDelta text) =>
    ((text.filter fun text => text ≠ []).map .textDelta, sawFinished)
  | some (.toolCalls calls) =>
    if calls = [] then (none, sawFinished)
    else (some (.toolCalls (calls.map (modelToolCallFrom sdk))), sawFinished)
  | some (.finished finishReason usage) =>
    (some (.finished (finishReasonFrom finishReason) (usage.map tokenUsageFrom)), true)

def ensureFinishedEvent (sawFinished : Bool) : Except AiError Unit :=
  if sawFinished then .ok ()
  else .error (.providerError "remote stream ended without finished event".toList)

/-- The event loop of `RemoteBackend::stream_turn`, over what the server sent. -/
def streamTurn : List (CompleteResponse Struct) → Option ConnectError → Bool →
    List (Except AiError CompletionEvent)
  | [], some failure, _ => [.error (connectToAiError failure)]
  | [], none, sawFinished =>
    match ensureFinishedEvent sawFinished with
    | .ok () => []
    | .error error => [.error error]
  | message :: messages, failure, sawFinished =>
    ((completionEventFromProtoMessage sdk message sawFinished).1.map .ok).toList ++
      streamTurn messages failure (completionEventFromProtoMessage sdk message sawFinished).2

/-- A streamed turn, from what the model streams to what the session reads. -/
def translatedTurn (ctxErr : Option Str) (upstream : List (Item Args)) :
    List (Except AiError CompletionEvent) :=
  streamTurn sdk (complete (translateGenerateContentStream sdk ctxErr upstream {})).1
    (complete (translateGenerateContentStream sdk ctxErr upstream {})).2 false

end Kuku.Ai.Remote
