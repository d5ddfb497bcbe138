/-
# Ai.StreamGrammar -- what the session reads of a streamed turn

Text deltas, the calls at most once and all of them, and `Finished` at the very end; or text
deltas and an error.  `translated_turn` says which of the two a stream comes to.

The calls are held back on the server, so that a turn that is cut short is a turn without
calls: `calls_only_of_whole` is what keeps tools from running on it.
-/
import Kuku.Ai.StreamTranslation

namespace Kuku.Ai.Remote

open Kuku.Theory List Function

variable {Args Struct : Type} (sdk : Sdk Args Struct)

/-! ## What a stream says -/

/-- A function call of the model, with the signature that stands beside it. -/
abbrev Asked (Args : Type) := FunctionCall Args × Option (List UInt8)

def Part.asked (part : Part Args) : Option (Asked Args) :=
  part.functionCall.map fun call => (call, part.thoughtSignature)

def partCalls (parts : List (Option (Part Args))) : List (Asked Args) :=
  parts.filterMap fun part => part.bind Part.asked

def Candidate.parts (candidate : Candidate Args) : List (Option (Part Args)) :=
  candidate.content.getD []

def candidateCalls (candidates : List (Option (Candidate Args))) : List (Asked Args) :=
  candidates.flatMap fun candidate => partCalls ((candidate.map Candidate.parts).getD [])

def chunks (upstream : List (Item Args)) : List (Chunk Args) :=
  upstream.filterMap fun item => item.toOption.join

def upstreamText (upstream : List (Item Args)) : Str := (chunks upstream).flatMap sdk.text

def functionCalls (upstream : List (Item Args)) : List (Asked Args) :=
  (chunks upstream).flatMap fun chunk => candidateCalls chunk.candidates

def latestUsage (upstream : List (Item Args)) : Option UsageMetadata :=
  (chunks upstream).reverse.findSome? Chunk.usageMetadata

def hasTerminalFinish (upstream : List (Item Args)) : Prop :=
  ∃ chunk ∈ chunks upstream, (terminalFinishReason chunk).isSome

def fails (upstream : List (Item Args)) : Prop := ∃ error, .error error ∈ upstream

/-- All calls have arguments that `structpb` can hold. -/
def decodes (asked : List (Asked Args)) : Prop :=
  ∀ call ∈ asked, ∃ args, sdk.newStruct call.1.args = .ok args

/-- A call of the session carries a call of the model. -/
structure Carries (asked : Asked Args) (call : ModelToolCall) : Prop where
  toolName : call.toolName = asked.1.name
  callId : asked.1.id ≠ [] → call.callId = asked.1.id
  isNamed : call.callId ≠ []
  arguments : ∃ args, sdk.newStruct asked.1.args = .ok args ∧ call.arguments = sdk.structToJson args
  signature : call.signature = asked.2
  toolCallId : call.toolCallId = some call.callId
  providerCallId : call.providerCallId = some call.callId

/-! ## What the session reads -/

def deltas (texts : List Str) : List (Except AiError CompletionEvent) :=
  texts.map fun text => .ok (.textDelta text)

/-- The whole turn: its text, its calls once and in order, and the end. -/
def IsWhole (upstream : List (Item Args)) (items : List (Except AiError CompletionEvent)) :
    Prop :=
  ∃ texts calls,
    items = deltas texts ++
      (if calls ≠ [] then [.ok (.toolCalls calls)] else []) ++
      [.ok (.finished (if calls ≠ [] then .toolCalls else .stop)
        ((latestUsage upstream).map fun usage => tokenUsageFrom (extractUsage usage)))] ∧
    texts.flatten = upstreamText sdk upstream ∧
    List.Forall₂ (Carries sdk) (functionCalls upstream) calls

/-- A turn cut short: text, and an error last. -/
def IsCutShort (upstream : List (Item Args)) (items : List (Except AiError CompletionEvent)) :
    Prop :=
  ∃ texts error, items = deltas texts ++ [.error error] ∧
    texts.flatten <+: upstreamText sdk upstream

/-- What a stream must be for the whole turn to be passed on. -/
structure IsComplete (upstream : List (Item Args)) : Prop where
  noError : ¬ fails upstream
  finished : hasTerminalFinish upstream
  decodes : decodes sdk (functionCalls upstream)
  hasOutput : upstreamText sdk upstream ≠ [] ∨ functionCalls upstream ≠ []

/-! ## Calls -/

section Calls

/-- A call on the wire, as the session gets it. -/
def Holds (asked : Asked Args) (call : ProtoModelToolCall Struct) : Prop :=
  Carries sdk asked (modelToolCallFrom sdk call)

variable {sdk}

theorem newCallId_ne (drawn : Nat) (name : Str) (index : Nat) :
    newCallId sdk drawn name index ≠ [] := by
  unfold newCallId
  split <;> simp

theorem decodes_of_held {asked : List (Asked Args)} {calls : List (ProtoModelToolCall Struct)}
    (held : List.Forall₂ (Holds sdk) asked calls) : decodes sdk asked := by
  induction held with
  | nil => exact nofun
  | cons carried _ ih =>
    obtain ⟨args, isArgs, -⟩ := carried.arguments
    exact forall_mem_cons.mpr ⟨⟨args, isArgs⟩, ih⟩

variable (sdk) in
theorem extractParts_spec (parts : List (Option (Part Args) × Nat)) (drawn : Nat) :
    (∃ calls drawn', extractParts sdk parts drawn = .ok (calls, drawn') ∧
      List.Forall₂ (Holds sdk) (partCalls (parts.map Prod.fst)) calls) ∨
    (∃ error, extractParts sdk parts drawn = .error error) ∧
      ¬ decodes sdk (partCalls (parts.map Prod.fst)) := by
  induction parts generalizing drawn with
  | nil => exact .inl ⟨[], drawn, rfl, .nil⟩
  | cons head parts ih =>
    obtain ⟨part, index⟩ := head
    cases part with
    | none => exact ih drawn
    | some part =>
      cases isCall : part.functionCall with
      | none =>
        have skipped : partCalls (((some part, index) :: parts).map Prod.fst) =
            partCalls (parts.map Prod.fst) := by
          simp [partCalls, Part.asked, isCall]
        rw [skipped]
        simpa only [extractParts, isCall] using ih drawn
      | some call =>
        have asked : partCalls (((some part, index) :: parts).map Prod.fst) =
            (call, part.thoughtSignature) :: partCalls (parts.map Prod.fst) := by
          simp [partCalls, Part.asked, isCall]
        rw [asked]
        simp only [extractParts, isCall]
        cases isArgs : sdk.newStruct call.args with
        | error error =>
          refine .inr ⟨⟨_, rfl⟩, fun all => ?_⟩
          obtain ⟨args, isOk⟩ := all _ mem_cons_self
          rw [isArgs] at isOk
          cases isOk
        | ok args =>
          obtain ⟨calls, drawn', extracted, held⟩ | ⟨⟨error, failed⟩, undecoded⟩ :=
            ih (if call.id = [] then drawn + 1 else drawn)
          · simp only [extracted]
            refine .inl ⟨_, _, rfl, .cons ?_ held⟩
            refine ⟨rfl, fun given => if_neg given, ?_, ⟨args, isArgs, rfl⟩, rfl, rfl, rfl⟩
            change (if call.id = [] then _ else _) ≠ []
            split_ifs with isEmpty
            · exact newCallId_ne drawn call.name index
            · exact isEmpty
          · simp only [failed]
            exact .inr ⟨⟨_, rfl⟩, fun all =>
              undecoded fun call member => all call (mem_cons_of_mem _ member)⟩

theorem decodes_append {first second : List (Asked Args)} :
    decodes sdk (first ++ second) ↔ decodes sdk first ∧ decodes sdk second :=
  forall_mem_append

variable (sdk) in
theorem extractCandidates_spec (candidates : List (Option (Candidate Args))) (drawn : Nat) :
    (∃ calls drawn', extractCandidates sdk candidates drawn = .ok (calls, drawn') ∧
      List.Forall₂ (Holds sdk) (candidateCalls candidates) calls) ∨
    (∃ error, extractCandidates sdk candidates drawn = .error error) ∧
      ¬ decodes sdk (candidateCalls candidates) := by
  induction candidates generalizing drawn with
  | nil => exact .inl ⟨[], drawn, rfl, .nil⟩
  | cons candidate candidates ih =>
    cases candidate with
    | none => exact ih drawn
    | some candidate =>
      have asked : candidateCalls (some candidate :: candidates) =
          partCalls candidate.parts ++ candidateCalls candidates := rfl
      have plain : ((candidate.content.getD []).zipIdx).map Prod.fst = candidate.parts :=
        zipIdx_map_fst 0 _
      have first := extractParts_spec sdk ((candidate.content.getD []).zipIdx) drawn
      rw [plain] at first
      rw [asked, decodes_append]
      simp only [extractCandidates]
      obtain ⟨calls, drawn', extracted, held⟩ | ⟨⟨error, failed⟩, undecoded⟩ := first
      · simp only [extracted]
        obtain ⟨more, drawn'', rest, heldMore⟩ | ⟨⟨error, failed⟩, undecoded⟩ := ih drawn'
        · simp only [rest]
          exact .inl ⟨_, _, rfl, rel_append held heldMore⟩
        · simp only [failed]
          exact .inr ⟨⟨_, rfl⟩, fun all => undecoded all.2⟩
      · simp only [failed]
        exact .inr ⟨⟨_, rfl⟩, fun all => undecoded all.1⟩

end Calls

/-! ## The server's stream -/

section Server

variable {sdk}

theorem chunks_append (first second : List (Item Args)) :
    chunks (first ++ second) = chunks first ++ chunks second :=
  filterMap_append

theorem upstreamText_append (first second : List (Item Args)) :
    upstreamText sdk (first ++ second) = upstreamText sdk first ++ upstreamText sdk second := by
  simp only [upstreamText, chunks_append, flatMap_append]

theorem functionCalls_append (first second : List (Item Args)) :
    functionCalls (first ++ second) = functionCalls first ++ functionCalls second := by
  simp only [functionCalls, chunks_append, flatMap_append]

theorem latestUsage_append (first second : List (Item Args)) :
    latestUsage (first ++ second) = (latestUsage second).or (latestUsage first) := by
  simp only [latestUsage, chunks_append, reverse_append, findSome?_append]

theorem hasTerminalFinish_append (first second : List (Item Args)) :
    hasTerminalFinish (first ++ second) ↔ hasTerminalFinish first ∨ hasTerminalFinish second := by
  simp only [hasTerminalFinish, chunks_append, mem_append, or_and_right, exists_or]

/-- Reading some of a stream brings one state to the other. -/
structure Reads (sdk : Sdk Args Struct) (upstream : List (Item Args))
    (seen seen' : Seen Struct) : Prop where
  toolCalls : ∃ calls, seen'.toolCalls = seen.toolCalls ++ calls ∧
    List.Forall₂ (Holds sdk) (functionCalls upstream) calls
  lastUsage : seen'.lastUsage = (latestUsage upstream).or seen.lastUsage
  sawAnyOutput : seen'.sawAnyOutput = true ↔
    seen.sawAnyOutput = true ∨ upstreamText sdk upstream ≠ [] ∨ functionCalls upstream ≠ []
  sawTerminalFinish : seen'.sawTerminalFinish = true ↔
    seen.sawTerminalFinish = true ∨ hasTerminalFinish upstream

theorem Reads.refl (seen : Seen Struct) : Reads sdk [] seen seen where
  toolCalls := ⟨[], (append_nil _).symm, .nil⟩
  lastUsage := rfl
  sawAnyOutput := by simp [upstreamText, functionCalls, chunks]
  sawTerminalFinish := by simp [hasTerminalFinish, chunks]

theorem Reads.trans {first second : List (Item Args)} {seen seen' seen'' : Seen Struct}
    (early : Reads sdk first seen seen') (late : Reads sdk second seen' seen'') :
    Reads sdk (first ++ second) seen seen'' where
  toolCalls := by
    obtain ⟨calls, hasCalls, held⟩ := early.toolCalls
    obtain ⟨more, hasMore, heldMore⟩ := late.toolCalls
    refine ⟨calls ++ more, by rw [hasMore, hasCalls, append_assoc], ?_⟩
    rw [functionCalls_append]
    exact rel_append held heldMore
  lastUsage := by
    rw [late.lastUsage, early.lastUsage, latestUsage_append, Option.or_assoc]
  sawAnyOutput := by
    rw [late.sawAnyOutput, early.sawAnyOutput, upstreamText_append, functionCalls_append]
    simp only [ne_eq, append_eq_nil_iff]
    tauto
  sawTerminalFinish := by
    rw [late.sawTerminalFinish, early.sawTerminalFinish, hasTerminalFinish_append, or_assoc]

variable {upstream : List (Item Args)}

theorem Reads.skip {seen seen' : Seen Struct} (reads : Reads sdk upstream seen seen') :
    Reads sdk (.ok none :: upstream) seen seen' := { reads with }

theorem chunks_one (chunk : Chunk Args) : chunks [.ok (some chunk)] = [chunk] := rfl

theorem functionCalls_one (chunk : Chunk Args) :
    functionCalls [.ok (some chunk)] = candidateCalls chunk.candidates :=
  append_nil _

theorem upstreamText_one (chunk : Chunk Args) :
    upstreamText sdk [.ok (some chunk)] = sdk.text chunk :=
  append_nil _

variable (sdk) in
/-- One chunk: it is read with all its calls, or one of its calls has arguments that cannot
be passed on. -/
theorem Seen.read_spec (seen : Seen Struct) (chunk : Chunk Args) :
    (∃ seen', seen.read sdk chunk = .ok seen' ∧ Reads sdk [.ok (some chunk)] seen seen') ∨
    (∃ error, seen.read sdk chunk = .error error) ∧
      ¬ decodes sdk (functionCalls [.ok (some chunk)]) := by
  simp only [Seen.read, extractToolCalls]
  obtain ⟨calls, drawn, extracted, held⟩ | ⟨⟨error, failed⟩, undecoded⟩ :=
    extractCandidates_spec sdk chunk.candidates seen.drawn
  · simp only [extracted]
    refine .inl ⟨_, rfl, ?_⟩
    have sameEmpty : calls ≠ [] ↔ functionCalls [.ok (some chunk)] ≠ [] := by
      rw [functionCalls_one, ← length_pos_iff, ← length_pos_iff, held.length_eq]
    constructor
    case toolCalls => exact ⟨calls, rfl, functionCalls_one chunk ▸ held⟩
    case lastUsage => cases isUsage : chunk.usageMetadata <;> simp [latestUsage, chunks_one, isUsage]
    case sawAnyOutput =>
      rw [upstreamText_one, ← sameEmpty]
      simp [or_assoc]
    case sawTerminalFinish => simp [hasTerminalFinish, chunks_one]
  · simp only [failed]
    exact .inr ⟨⟨_, rfl⟩, functionCalls_one chunk ▸ undecoded⟩

/-- The responses that forward some texts. -/
def forwards (texts : List Str) : List (Except Str (CompleteResponse Struct)) :=
  texts.map fun text => .ok (textDelta text)

variable (sdk) in
theorem forwarded_eq (chunk : Chunk Args) :
    ∃ texts, forwarded sdk chunk = forwards texts ∧
      (∀ text ∈ texts, text ≠ []) ∧ texts.flatten = sdk.text chunk := by
  unfold forwarded
  split_ifs with hasText
  · exact ⟨[sdk.text chunk], rfl, by simpa using hasText, append_nil _⟩
  · exact ⟨[], rfl, nofun, (not_not.mp hasText).symm⟩

/-- A stream that is read to its end: the texts are forwarded, and then it is finished. -/
def ReadOut (sdk : Sdk Args Struct) (ctxErr : Option Str) (upstream : List (Item Args))
    (seen : Seen Struct) (items : List (Except Str (CompleteResponse Struct))) : Prop :=
  ∃ texts seen', items = forwards texts ++ seen'.finish ctxErr ∧ (∀ text ∈ texts, text ≠ []) ∧
    texts.flatten = upstreamText sdk upstream ∧ Reads sdk upstream seen seen'

/-- A stream that is given up: some of its texts are forwarded, and then comes an error. -/
def GivenUp (sdk : Sdk Args Struct) (upstream : List (Item Args))
    (items : List (Except Str (CompleteResponse Struct))) : Prop :=
  ∃ texts error, items = forwards texts ++ [.error error] ∧ (∀ text ∈ texts, text ≠ []) ∧
    texts.flatten <+: upstreamText sdk upstream

theorem fails_cons_ok {chunk : Option (Chunk Args)} :
    fails (.ok chunk :: upstream) ↔ fails upstream := by
  simp [fails]

theorem ReadOut.cons {ctxErr : Option Str} {chunk : Chunk Args} {seen seen' : Seen Struct}
    {items : List (Except Str (CompleteResponse Struct))}
    (early : Reads sdk [.ok (some chunk)] seen seen')
    (late : ReadOut sdk ctxErr upstream seen' items) :
    ReadOut sdk ctxErr (.ok (some chunk) :: upstream) seen (forwarded sdk chunk ++ items) := by
  obtain ⟨texts, seen'', rfl, solid, hasText, reads⟩ := late
  obtain ⟨first, isForwarded, firstSolid, hasFirst⟩ := forwarded_eq sdk chunk
  refine ⟨first ++ texts, seen'', ?_, forall_mem_append.mpr ⟨firstSolid, solid⟩, ?_,
    early.trans reads⟩
  · rw [isForwarded, forwards, forwards, forwards, map_append, append_assoc]
  · rw [flatten_append, hasFirst, hasText]
    rfl

theorem GivenUp.cons {chunk : Chunk Args} {items : List (Except Str (CompleteResponse Struct))}
    (late : GivenUp sdk upstream items) :
    GivenUp sdk (.ok (some chunk) :: upstream) (forwarded sdk chunk ++ items) := by
  obtain ⟨texts, error, rfl, solid, hasText⟩ := late
  obtain ⟨first, isForwarded, firstSolid, hasFirst⟩ := forwarded_eq sdk chunk
  refine ⟨first ++ texts, error, ?_, forall_mem_append.mpr ⟨firstSolid, solid⟩, ?_⟩
  · rw [isForwarded, forwards, forwards, forwards, map_append, append_assoc]
  · rw [flatten_append, hasFirst]
    exact (prefix_append_right_inj _).mpr hasText

variable (sdk) in
/-- The whole stream, by induction on what is left of it. -/
theorem translate_spec (ctxErr : Option Str) (upstream : List (Item Args)) (seen : Seen Struct) :
    ReadOut sdk ctxErr upstream seen (translateGenerateContentStream sdk ctxErr upstream seen) ∧
      ¬ fails upstream ∧ decodes sdk (functionCalls upstream) ∨
    GivenUp sdk upstream (translateGenerateContentStream sdk ctxErr upstream seen) ∧
      (fails upstream ∨ ¬ decodes sdk (functionCalls upstream)) := by
  induction upstream generalizing seen with
  | nil => exact .inl ⟨⟨[], seen, rfl, nofun, rfl, .refl seen⟩, nofun, nofun⟩
  | cons item upstream ih =>
    match item with
    | .error error =>
      exact .inr ⟨⟨[], _, rfl, nofun, nil_prefix⟩, .inl ⟨error, mem_cons_self⟩⟩
    | .ok none =>
      rw [fails_cons_ok]
      obtain ⟨⟨texts, seen', items, solid, hasText, reads⟩, whole⟩ | broken := ih seen
      · exact .inl ⟨⟨texts, seen', items, solid, hasText, reads.skip⟩, whole⟩
      · exact .inr broken
    | .ok (some chunk) =>
      have split : functionCalls (.ok (some chunk) :: upstream) =
          functionCalls [.ok (some chunk)] ++ functionCalls upstream :=
        functionCalls_append [_] upstream
      rw [fails_cons_ok, split, decodes_append]
      simp only [translateGenerateContentStream]
      obtain ⟨seen', isRead, early⟩ | ⟨⟨error, failed⟩, undecoded⟩ := seen.read_spec sdk chunk
      · simp only [isRead]
        have decoded : decodes sdk (functionCalls [.ok (some chunk)]) := by
          obtain ⟨calls, -, held⟩ := early.toolCalls
          exact decodes_of_held held
        obtain ⟨late, noError, decodes⟩ | ⟨late, broken⟩ := ih seen'
        · exact .inl ⟨late.cons early, noError, decoded, decodes⟩
        · exact .inr ⟨late.cons, broken.imp_right fun undecoded all => undecoded all.2⟩
      · simp only [failed]
        exact .inr ⟨GivenUp.cons ⟨[], error, rfl, nofun, nil_prefix⟩,
          .inr fun all => undecoded all.1⟩

end Server

/-! ## The desktop's events -/

section Desktop

variable {sdk}

/-- What the desktop makes of the items of the server. -/
def readTurn (sdk : Sdk Args Struct) (items : List (Except Str (CompleteResponse Struct))) :
    List (Except AiError CompletionEvent) :=
  streamTurn sdk (complete items).1 (complete items).2 false

theorem readTurn_forwards (texts : List Str) (solid : ∀ text ∈ texts, text ≠ [])
    (items : List (Except Str (CompleteResponse Struct))) :
    readTurn sdk (forwards texts ++ items) = deltas texts ++ readTurn sdk items := by
  induction texts with
  | nil => rfl
  | cons text texts ih =>
    obtain ⟨isSolid, rest⟩ := forall_mem_cons.mp solid
    have event : completionEventFromProtoMessage sdk (textDelta text) false =
        (some (.textDelta text), false) := by
      simp [completionEventFromProtoMessage, textDelta, isSolid]
    have unfolded : readTurn sdk (forwards (text :: texts) ++ items) =
        ((completionEventFromProtoMessage sdk (textDelta text) false).1.map .ok).toList ++
          streamTurn sdk (complete (forwards texts ++ items)).1
            (complete (forwards texts ++ items)).2
            (completionEventFromProtoMessage sdk (textDelta text) false).2 := rfl
    rw [unfolded, event]
    exact congrArg (.ok (.textDelta text) :: ·) (ih rest)

variable (sdk) in
theorem readTurn_error (error : Str) : ∃ failure, readTurn sdk [.error error] = [.error failure] :=
  ⟨_, rfl⟩

/-- The end of a stream, where it has brought something and has finished. -/
theorem readTurn_finish {ctxErr : Option Str} {seen : Seen Struct}
    (output : seen.sawAnyOutput = true) (finished : seen.sawTerminalFinish = true) :
    readTurn sdk (seen.finish ctxErr) =
      (if seen.toolCalls ≠ [] then
        [.ok (.toolCalls (seen.toolCalls.map (modelToolCallFrom sdk)))] else []) ++
      [.ok (.finished (if seen.toolCalls ≠ [] then .toolCalls else .stop)
        (seen.lastUsage.map fun usage => tokenUsageFrom (extractUsage usage)))] := by
  by_cases noCalls : seen.toolCalls = []
  · simp [readTurn, Seen.finish, output, finished, noCalls, complete, streamTurn,
      completionEventFromProtoMessage, finishReasonFrom, ensureFinishedEvent, comp_def]
  · simp [readTurn, Seen.finish, output, finished, noCalls, complete, streamTurn,
      completionEventFromProtoMessage, finishReasonFrom, ensureFinishedEvent, comp_def]

variable (sdk) in
/-- The end of a stream that has brought nothing, or has not finished. -/
theorem readTurn_unfinished {ctxErr : Option Str} {seen : Seen Struct}
    (lacking : ¬ (seen.sawAnyOutput = true ∧ seen.sawTerminalFinish = true)) :
    ∃ failure, readTurn sdk (seen.finish ctxErr) = [.error failure] := by
  unfold Seen.finish
  cases output : seen.sawAnyOutput with
  | false => exact readTurn_error sdk _
  | true =>
    cases finished : seen.sawTerminalFinish with
    | true => exact absurd ⟨output, finished⟩ lacking
    | false =>
      cases ctxErr with
      | none => exact readTurn_error sdk _
      | some error => exact readTurn_error sdk _

end Desktop

/-! ## A turn as the session reads it -/

/-- A streamed turn is translated without loss: a complete one is whole, and any other one
is cut short. -/
theorem translated_turn (ctxErr : Option Str) (upstream : List (Item Args)) :
    (IsComplete sdk upstream → IsWhole sdk upstream (translatedTurn sdk ctxErr upstream)) ∧
    (¬ IsComplete sdk upstream → IsCutShort sdk upstream (translatedTurn sdk ctxErr upstream)) := by
  change (_ → IsWhole sdk upstream (readTurn sdk _)) ∧ (_ → IsCutShort sdk upstream (readTurn sdk _))
  obtain ⟨⟨texts, seen, items, solid, hasText, reads⟩, noError, decoded⟩ |
    ⟨⟨texts, error, items, solid, hasText⟩, broken⟩ :=
    translate_spec sdk ctxErr upstream {}
  · obtain ⟨calls, hasCalls, held⟩ := reads.toolCalls
    have isCalls : seen.toolCalls = calls := hasCalls
    have isUsage : seen.lastUsage = latestUsage upstream := by
      rw [reads.lastUsage]
      exact Option.or_none
    have output : seen.sawAnyOutput = true ↔
        upstreamText sdk upstream ≠ [] ∨ functionCalls upstream ≠ [] := by
      simpa using reads.sawAnyOutput
    have finished : seen.sawTerminalFinish = true ↔ hasTerminalFinish upstream := by
      simpa using reads.sawTerminalFinish
    rw [items, readTurn_forwards texts solid]
    constructor
    · intro isComplete
      refine ⟨texts, calls.map (modelToolCallFrom sdk), ?_, hasText, ?_⟩
      · rw [readTurn_finish (output.mpr isComplete.hasOutput)
          (finished.mpr isComplete.finished), isCalls, isUsage, append_assoc]
        simp only [ne_eq, map_eq_nil_iff]
      · exact List.forall₂_map_right_iff.mpr held
    · intro isPartial
      obtain ⟨failure, hasFailed⟩ := readTurn_unfinished sdk
        fun both => isPartial ⟨noError, finished.mp both.2, decoded, output.mp both.1⟩
      exact ⟨texts, failure, by rw [hasFailed], hasText ▸ prefix_rfl⟩
  · rw [items, readTurn_forwards texts solid]
    obtain ⟨failure, hasFailed⟩ := readTurn_error sdk error
    constructor
    · intro isComplete
      obtain isError | undecoded := broken
      · exact absurd isError isComplete.noError
      · exact absurd isComplete.decodes undecoded
    · intro _
      exact ⟨texts, failure, by rw [hasFailed], hasText⟩

/-! ## A turn without a word -/

/-- The SDKs, for calls without arguments: the text of a chunk is that of its first
candidate, less its thoughts. -/
def sampleSdk : Sdk Unit Unit where
  text chunk := (chunk.candidates.head?.join.map fun candidate =>
    candidate.parts.flatMap fun part =>
      (part.map fun part => if part.thought then [] else part.text).getD []).getD []
  newStruct _ := .ok ()
  structToJson _ := "{}".toList
  rand _ := some "00000000000000ff".toList

/-- The model stops at once. -/
def silentTurn : List (Item Unit) :=
  [.ok (some { candidates := [some { finishReason := "STOP".toList }] })]

/-- A stream that neither fails nor lacks a finish reason, and is an error all the same. -/
theorem silent_turn_cut_short :
    ¬ fails silentTurn ∧ hasTerminalFinish silentTurn ∧
      ¬ IsWhole sampleSdk silentTurn (translatedTurn sampleSdk none silentTurn) := by
  refine ⟨by simp [fails, silentTurn], ⟨_, mem_cons_self, by decide⟩, ?_⟩
  rintro ⟨texts, calls, items, -⟩
  have isError : translatedTurn sampleSdk none silentTurn =
      [.error (.providerError "Remote AI request failed: internal error".toList)] := by
    decide
  have isLast := congrArg List.getLast? (isError.symm.trans items)
  rw [getLast?_append_of_ne_nil _ (cons_ne_nil _ _)] at isLast
  cases isLast

/-- A text, then a call of the second candidate, then the end. -/
def sampleTurn : List (Item Unit) :=
  [.ok (some { candidates := [some { content := some [some { text := "so".toList }] },
     some { content := some [some { functionCall := some ⟨[], "ls".toList, ()⟩ }] }] }),
   .ok none,
   .ok (some { candidates := [some { finishReason := "STOP".toList }] })]

theorem sample_turn_whole :
    IsWhole sampleSdk sampleTurn (translatedTurn sampleSdk none sampleTurn) :=
  (translated_turn sampleSdk none sampleTurn).1
    { noError := by simp [fails, sampleTurn]
      finished := ⟨_, mem_cons_of_mem _ mem_cons_self, by decide⟩
      decodes := fun _ _ => ⟨(), rfl⟩
      hasOutput := .inl (by decide) }

example : translatedTurn sampleSdk none sampleTurn = [.ok (.textDelta "so".toList),
     .ok (.toolCalls [⟨"ls-00000000000000ff".toList, "ls".toList, "{}".toList, none,
       some "ls-00000000000000ff".toList, some "ls-00000000000000ff".toList⟩]),
     .ok (.finished .toolCalls none)] := by
  decide

end Kuku.Ai.Remote
