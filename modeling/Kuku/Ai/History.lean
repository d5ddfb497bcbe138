/-
# Ai.History -- what a turn stores, and what of it the model is shown

A turn stores the user's message together with what the editor shows: the mode it was
written in, the active file, the selection, the attached files.  Before every request
the history is compacted: the last turns are kept, what is older becomes a summary of
two messages, and both together stay below a cap.
-/
import Kuku.Ai.Types

namespace Kuku.Ai

open Kuku.Theory Chars

def historyHardCapBytes : Nat := 64 * 1024
def historySummaryMaxBytes : Nat := 8 * 1024
def historyMinRawUserTurns : Nat := 3
def historySummaryItemMaxBytes : Nat := 320
def historySummaryMaxRequests : Nat := 3
def historySummaryMaxToolResults : Nat := 3
def historySummaryMaxAssistantReplies : Nat := 2
def historySummaryMaxOpenTabs : Nat := 4
def historySummaryMaxAttachments : Nat := 3

def historySummaryContextMessage : Str :=
  ("[Internal context: Earlier conversation turns were compacted to stay within the " ++
    "context budget. The next assistant message is a background summary of omitted " ++
    "history. Treat it as prior conversation context, not as a new user request.]").toList

def historySummaryAssistantPrefix : Str := "Background summary of earlier conversation:\n".toList

def userMessageMarker : Str := "--- USER MESSAGE ---\n".toList

/-! ## The user's message -/

def modeLabel : ChatMode → Str
  | .ask => "Ask".toList
  | .agent => "Agent".toList
  | .inline => "Inline".toList

def modeNotice (previousMode runMode : ChatMode) : Str :=
  "[Internal context: The user switched AI mode from ".toList ++ modeLabel previousMode ++
    " to ".toList ++ modeLabel runMode ++ " before this message. Use the current ".toList ++
    modeLabel runMode ++ " mode instructions and available tools for this turn.]".toList

def contentWithModeNotice (previousMode runMode : ChatMode) (content : Str) : Str :=
  if previousMode = runMode then content
  else modeNotice previousMode runMode ++ "\n\n".toList ++ content

/-- A trimmed text, unless nothing is left. -/
def filled (text : Str) : Option Str :=
  if trim text = [] then none else some (trim text)

def selectedTextContext (context : EditorContext) : Option Str :=
  context.selectedText.filter fun text => trim text ≠ []

def escapePromptAttr (value : Str) : Str :=
  replaceChar '"' ['\\', '"'] (replaceChar '\\' ['\\', '\\'] value)

def activeEditorContextBlock (context : EditorContext) : Option Str :=
  let activeFile := context.activeFile.bind filled
  let openTabs := (context.openTabs.filterMap filled).foldl
    (fun tabs path => if tabs.contains path then tabs else tabs ++ [path]) []
  if activeFile.isNone ∧ openTabs = [] then none
  else
    some ("[Internal context: The user is working in the editor. Resolve references like ".toList ++
      "'this document' against the active file first. Open tabs provide nearby document ".toList ++
      "context by path only; they are not attached as full content.]".toList ++
      (match activeFile with
        | some file => "\n\nActive file: ".toList ++ escapePromptAttr file
        | none => []) ++
      (if openTabs = [] then []
        else "\nOpen tabs:".toList ++ openTabs.flatMap fun path =>
          "\n- ".toList ++ escapePromptAttr path))

def selectedTextBlock (selectedText : Str) (activeFile : Option Str) : Str :=
  let activeFile := activeFile.getD []
  let guidance :=
    if activeFile = [] then
      "This selected text is a focus excerpt, not a full document.".toList
    else
      "This selected text is a focus excerpt from the active file, not the full document. ".toList ++
        "If you need to modify ".toList ++ activeFile ++
        ", read the full active file before proposing edits and preserve all unrelated ".toList ++
        "content outside the target section.".toList
  "[Internal context: The user selected text in the active editor. ".toList ++ guidance ++
    "]\n\n--- BEGIN SELECTED TEXT activeFile=\"".toList ++ escapePromptAttr activeFile ++
    "\" sizeBytes=\"".toList ++ ofNat (len selectedText) ++ "\" ---\n".toList ++
    selectedText ++ (if selectedText.getLast? = some '\n' then [] else ['\n']) ++
    "--- END SELECTED TEXT ---".toList

def embeddedFileBlock (file : EmbeddedFileContext) : Str :=
  "\n\n--- BEGIN ATTACHED FILE path=\"".toList ++ escapePromptAttr file.path ++
    "\" checksum=\"".toList ++ escapePromptAttr file.checksum ++ "\" sizeBytes=\"".toList ++
    ofNat file.sizeBytes ++ "\" ---\n".toList ++ file.content ++
    (if file.content.getLast? = some '\n' then [] else ['\n']) ++
    "--- END ATTACHED FILE path=\"".toList ++ escapePromptAttr file.path ++ "\" ---".toList

def embeddedFilesContext (files : List EmbeddedFileContext) : Str :=
  "[Internal context: The user attached ".toList ++ ofNat files.length ++
    " vault markdown ".toList ++ (if files.length = 1 then "file" else "files").toList ++
    ". Treat them as user-provided context. Paths are vault-relative. ".toList ++
    "Attached files are already available in this user message.]".toList ++
    files.flatMap embeddedFileBlock

def contentWithTurnContext (previousMode runMode : ChatMode) (content : Str)
    (context : EditorContext) : Str :=
  let selectedText := selectedTextContext context
  let activeEditorContext := activeEditorContextBlock context
  if selectedText.isNone ∧ context.embeddedFiles = [] ∧ activeEditorContext.isNone then
    contentWithModeNotice previousMode runMode content
  else
    join "\n\n".toList
      ((if previousMode = runMode then [] else [modeNotice previousMode runMode]) ++
        activeEditorContext.toList ++
        (selectedText.map fun text => selectedTextBlock text context.activeFile).toList ++
        (if context.embeddedFiles = [] then []
          else [embeddedFilesContext context.embeddedFiles]) ++
        [userMessageMarker ++ content])

/-! ## The summary of what is left out -/

def truncateTextBytes (text : Str) (maxBytes : Nat) : Str :=
  if maxBytes = 0 then []
  else if len text ≤ maxBytes then text
  else if maxBytes ≤ 3 then List.replicate maxBytes '.'
  else takeBytes (maxBytes - 3) text ++ "...".toList

def normalizeSummaryText (text : Str) : Str := join [' '] (splitWhitespace text)

/-- One item of the summary, on one line and cut. -/
def summaryExcerpt (text : Str) : Str :=
  truncateTextBytes (normalizeSummaryText text) historySummaryItemMaxBytes

def extractUserRequest (content : Str) : Str := (afterLast userMessageMarker content).getD content

def summaryEditorContextSuffix (context : EditorContext) : Option Str :=
  let openTabs := join ", ".toList
    ((context.openTabs.filterMap filled).take historySummaryMaxOpenTabs)
  let details : List Str :=
    ((context.activeFile.bind filled).map fun file => "active file ".toList ++ file).toList ++
    ((selectedTextContext context).map fun text =>
      "selected excerpt ".toList ++ ofNat (len text) ++ "B".toList).toList ++
    (if context.embeddedFiles = [] then []
      else ["attached ".toList ++ join ", ".toList
        ((context.embeddedFiles.take historySummaryMaxAttachments).map (·.path))]) ++
    (if openTabs = [] then [] else ["open tabs ".toList ++ openTabs])
  if details = [] then none
  else some (" [context: ".toList ++ join "; ".toList details ++ "]".toList)

def summaryUserMessage : ChatMessage → Option Str
  | .user content context =>
    let request := summaryExcerpt (extractUserRequest content)
    if request = [] then none
    else some (request ++ (context.bind summaryEditorContextSuffix).getD [])
  | _ => none

def summaryToolResultMessage : ChatMessage → Option Str
  | .toolResult _ toolName output isError _ _ =>
    let excerpt := summaryExcerpt output
    if excerpt = [] then
      some (toolName ++ " ".toList ++ (if isError then "returned an error" else "completed").toList)
    else
      some (toolName ++ " ".toList ++ (if isError then "resulted in error" else "result").toList ++
        ": ".toList ++ excerpt)
  | _ => none

def summaryAssistantMessage : ChatMessage → Option Str
  | .assistant content toolCalls =>
    let excerpt := summaryExcerpt content
    let toolNames := toolCalls.foldl
      (fun names call =>
        if names.contains call.toolName then names else names ++ [call.toolName]) []
    let parts : List Str :=
      (if excerpt = [] then [] else [excerpt]) ++
      (if toolCalls = [] then [] else ["tool calls: ".toList ++ join ", ".toList toolNames])
    if parts = [] then none else some (join " | ".toList parts)
  | _ => none

/-- `push_summary_section`: the lines are newest first. -/
def summarySection (heading : Str) (lines : List Str) : List Str :=
  if lines = [] then []
  else [heading ++ ['\n'] ++ join ['\n'] (lines.reverse.map fun line => "- ".toList ++ line)]

def buildHistorySummary (messages : List ChatMessage) (maxBytes : Nat) : Option Str :=
  if messages = [] ∨ maxBytes < 128 then none
  else
    let assistants := messages.filter fun
      | .assistant _ _ => true
      | _ => false
    let results := messages.filter fun
      | .toolResult _ _ _ _ _ _ => true
      | _ => false
    let counts := "Summarized earlier turns: ".toList ++
      ofNat (messages.filter ChatMessage.isUser).length ++ " user, ".toList ++
      ofNat assistants.length ++ " assistant, ".toList ++
      ofNat results.length ++ " tool result.".toList
    let sections := [counts] ++
      summarySection "Recent omitted user requests:".toList
        ((messages.reverse.filterMap summaryUserMessage).take historySummaryMaxRequests) ++
      summarySection "Recent omitted tool outcomes:".toList
        ((messages.reverse.filterMap summaryToolResultMessage).take historySummaryMaxToolResults) ++
      summarySection "Recent omitted assistant replies:".toList
        ((messages.reverse.filterMap summaryAssistantMessage).take
          historySummaryMaxAssistantReplies)
    let summary := truncateTextBytes (join "\n\n".toList sections) maxBytes
    if trim summary = [] then none else some summary

def buildHistorySummaryMessages (messages : List ChatMessage) (maxBytes : Nat) :
    Option (List ChatMessage) :=
  let overhead := len historySummaryContextMessage + len historySummaryAssistantPrefix
  if maxBytes ≤ overhead then none
  else
    (buildHistorySummary messages (maxBytes - overhead)).map fun summary =>
      [.user historySummaryContextMessage none,
        .assistant (historySummaryAssistantPrefix ++ summary) []]

/-! ## Compaction -/

def modelToolCallInputSize (call : ModelToolCall) : Nat :=
  len call.callId + len call.toolName + len call.arguments +
    (call.signature.map List.length).getD 0 + (call.toolCallId.map len).getD 0 +
    (call.providerCallId.map len).getD 0

def modelInputSize : ChatMessage → Nat
  | .system content => len content
  | .user content _ => len content
  | .assistant content toolCalls => len content + (toolCalls.map modelToolCallInputSize).sum
  | .toolResult callId toolName output _ toolCallId providerCallId =>
    len callId + len toolName + len output +
      (toolCallId.map len).getD 0 + (providerCallId.map len).getD 0

/-- How many of the newest messages are kept: the first loop, over the messages newest
first, with the bytes and the user turns kept so far. -/
def keptCount : List ChatMessage → (keptBytes keptUserTurns : Nat) → Nat
  | [], _, _ => 0
  | message :: older, keptBytes, keptUserTurns =>
    if historyMinRawUserTurns ≤ keptUserTurns ∧
        keptBytes + modelInputSize message > historyHardCapBytes then 0
    else
      1 + keptCount older (keptBytes + modelInputSize message)
        (if message.isUser then keptUserTurns + 1 else keptUserTurns)

def compactHistoryForModel (messages : List ChatMessage) : List ChatMessage :=
  let kept := keptCount messages.reverse 0 0
  if kept = messages.length then messages
  else
    -- a tool result does not come without its call, nor a reply without its request
    let keptMessages := (messages.drop (messages.length - kept)).dropWhile fun m => !m.isUser
    let omitted := messages.take (messages.length - keptMessages.length)
    let keptBytes := (keptMessages.map modelInputSize).sum
    (buildHistorySummaryMessages omitted
      (min (historyHardCapBytes - keptBytes) historySummaryMaxBytes)).getD [] ++ keptMessages

end Kuku.Ai
