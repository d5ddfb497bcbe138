/-
# Ai.Compaction -- what compaction leaves of a conversation

`compactHistoryForModel` keeps the newest messages: as many as bring three turns of the user,
and more while they fit under the cap.  The cut is moved to a message of the user, so no tool
result loses its call, and the summary of the rest takes only what the cap leaves.
-/
import Kuku.Ai.History

namespace Kuku.Ai

open Kuku.Theory List Chars

/-! ## Cutting texts -/

theorem len_append (a b : Str) : len (a ++ b) = len a + len b := by
  simp [len]

theorem takeBytes_spec (bytes : Nat) (text : Str) :
    takeBytes bytes text <+: text ∧ len (takeBytes bytes text) ≤ bytes := by
  induction text generalizing bytes with
  | nil => exact ⟨prefix_rfl, Nat.zero_le _⟩
  | cons c rest ih =>
    rw [takeBytes]
    split
    · rename_i fits
      obtain ⟨isPrefix, bound⟩ := ih (bytes - c.utf8Size)
      refine ⟨(prefix_cons_inj c).mpr isPrefix, ?_⟩
      simp only [len, map_cons, sum_cons] at bound ⊢
      omega
    · exact ⟨List.nil_prefix, Nat.zero_le _⟩

/-- A cut text: whole, or dots behind a part of it that ends at a character. -/
structure Truncated (text : Str) (maxBytes : Nat) (cut : Str) : Prop where
  bound : len cut ≤ maxBytes
  shape : cut = text ∨ ∃ kept dots, cut = kept ++ dots ∧ kept <+: text ∧ ∀ c ∈ dots, c = '.'

theorem truncateTextBytes_truncated (text : Str) (maxBytes : Nat) :
    Truncated text maxBytes (truncateTextBytes text maxBytes) := by
  have dots : ∀ n, len (List.replicate n '.') = n := by
    intro n
    induction n with
    | zero => rfl
    | succ n ih =>
      rw [replicate_succ, len, map_cons, sum_cons, ← len, ih]
      exact Nat.add_comm 1 n
  unfold truncateTextBytes
  split_ifs with none whole few
  · exact ⟨Nat.zero_le _, .inr ⟨[], [], rfl, nil_prefix, fun _ none => nomatch none⟩⟩
  · exact ⟨whole, .inl rfl⟩
  · refine ⟨(dots maxBytes).le, .inr ⟨[], _, rfl, nil_prefix, ?_⟩⟩
    exact fun c among => eq_of_mem_replicate among
  · obtain ⟨isPrefix, bound⟩ := takeBytes_spec (maxBytes - 3) text
    have areDots : ∀ c ∈ "...".toList, c = '.' := by
      intro c among
      simpa using among
    refine ⟨?_, .inr ⟨_, _, rfl, isPrefix, areDots⟩⟩
    have three : len "...".toList = 3 := by decide
    rw [len_append, three]
    omega

/-! ## The size of the summary -/

def totalSize (messages : List ChatMessage) : Nat := (messages.map modelInputSize).sum

/-- A summary: the note for the model, and its text as a message of the assistant. -/
def IsSummary (messages : List ChatMessage) : Prop :=
  messages = [] ∨ ∃ summary, messages =
    [.user historySummaryContextMessage none,
      .assistant (historySummaryAssistantPrefix ++ summary) []]

variable {messages : List ChatMessage}

theorem len_buildHistorySummary {maxBytes : Nat} {summary : Str}
    (built : buildHistorySummary messages maxBytes = some summary) :
    len summary ≤ maxBytes := by
  unfold buildHistorySummary at built
  split at built
  · exact nomatch built
  · simp only at built
    split at built
    · exact nomatch built
    · rw [← Option.some.inj built]
      exact (truncateTextBytes_truncated _ _).bound

theorem buildHistorySummaryMessages_spec (messages : List ChatMessage) (maxBytes : Nat) :
    IsSummary ((buildHistorySummaryMessages messages maxBytes).getD []) ∧
      totalSize ((buildHistorySummaryMessages messages maxBytes).getD []) ≤ maxBytes := by
  unfold buildHistorySummaryMessages
  simp only
  split
  · exact ⟨.inl rfl, Nat.zero_le _⟩
  · rename_i enough
    cases built : buildHistorySummary messages (maxBytes -
        (len historySummaryContextMessage + len historySummaryAssistantPrefix)) with
    | none => exact ⟨.inl rfl, Nat.zero_le _⟩
    | some summary =>
      have bound := len_buildHistorySummary built
      refine ⟨.inr ⟨summary, rfl⟩, ?_⟩
      rw [Option.map_some, Option.getD_some]
      simp only [totalSize, modelInputSize, map_cons, map_nil, sum_cons, sum_nil, len_append]
      omega

/-! ## The first loop -/

section Loop

variable {newest : List ChatMessage} {keptBytes keptUserTurns : Nat}

theorem keptCount_le : keptCount newest keptBytes keptUserTurns ≤ newest.length := by
  induction newest generalizing keptBytes keptUserTurns with
  | nil => exact Nat.le_refl 0
  | cons message older ih =>
    rw [keptCount]
    split
    · exact Nat.zero_le _
    · rw [length_cons, Nat.add_comm]
      exact Nat.succ_le_succ ih

theorem turns_cons {message : ChatMessage} {older : List ChatMessage} :
    (if message.isUser then keptUserTurns + 1 else keptUserTurns) +
        older.countP ChatMessage.isUser =
      keptUserTurns + (message :: older).countP ChatMessage.isUser := by
  rw [countP_cons]
  split <;> omega

/-- The loop stops early only with three turns. -/
theorem turns_of_keptCount_lt (stopped : keptCount newest keptBytes keptUserTurns < newest.length) :
    historyMinRawUserTurns ≤ keptUserTurns +
      (newest.take (keptCount newest keptBytes keptUserTurns)).countP ChatMessage.isUser := by
  induction newest generalizing keptBytes keptUserTurns with
  | nil => exact absurd stopped (Nat.lt_irrefl 0)
  | cons message older ih =>
    rw [keptCount] at stopped ⊢
    split
    · rename_i isFull
      exact isFull.1
    · rename_i notFull
      rw [if_neg notFull, length_cons, Nat.add_comm] at stopped
      have rest := ih (Nat.lt_of_succ_lt_succ stopped)
      rwa [Nat.add_comm 1, take_succ_cons, ← turns_cons]

/-- With three turns kept, the loop stays under the cap. -/
theorem size_of_turns (enough : historyMinRawUserTurns ≤ keptUserTurns)
    (under : keptBytes ≤ historyHardCapBytes) :
    keptBytes + totalSize (newest.take (keptCount newest keptBytes keptUserTurns)) ≤
      historyHardCapBytes := by
  induction newest generalizing keptBytes keptUserTurns with
  | nil => exact under
  | cons message older ih =>
    rw [keptCount]
    split
    · exact under
    · rename_i notFull
      have fits : keptBytes + modelInputSize message ≤ historyHardCapBytes := by
        by_contra exceeds
        exact notFull ⟨enough, by omega⟩
      have more : historyMinRawUserTurns ≤
          if message.isUser then keptUserTurns + 1 else keptUserTurns := by
        split <;> omega
      have rest := ih more fits
      rw [Nat.add_comm 1, take_succ_cons, totalSize, map_cons, sum_cons]
      rw [totalSize] at rest
      omega

/-- The messages down to the third turn exceed the cap by themselves. -/
def LastTurnsExceed (newest : List ChatMessage) (keptBytes keptUserTurns : Nat) : Prop :=
  ∃ last message older, newest = last ++ message :: older ∧ message.isUser = true ∧
    keptUserTurns + (last ++ [message]).countP ChatMessage.isUser = historyMinRawUserTurns ∧
    historyHardCapBytes < keptBytes + totalSize (last ++ [message])

theorem LastTurnsExceed.cons {message : ChatMessage}
    (exceed : LastTurnsExceed newest (keptBytes + modelInputSize message)
      (if message.isUser then keptUserTurns + 1 else keptUserTurns)) :
    LastTurnsExceed (message :: newest) keptBytes keptUserTurns := by
  obtain ⟨last, third, older, rfl, isUser, isThird, size⟩ := exceed
  refine ⟨message :: last, third, older, rfl, isUser, ?_, ?_⟩
  · rwa [cons_append, ← turns_cons]
  · rw [cons_append, totalSize, map_cons, sum_cons]
    rw [totalSize] at size
    omega

theorem size_of_keptCount (few : keptUserTurns < historyMinRawUserTurns) :
    keptBytes + totalSize (newest.take (keptCount newest keptBytes keptUserTurns)) ≤
        historyHardCapBytes ∨
      keptUserTurns + newest.countP ChatMessage.isUser < historyMinRawUserTurns ∨
      LastTurnsExceed newest keptBytes keptUserTurns := by
  induction newest generalizing keptBytes keptUserTurns with
  | nil => exact .inr (.inl few)
  | cons message older ih =>
    have goesOn : ¬ (historyMinRawUserTurns ≤ keptUserTurns ∧
        keptBytes + modelInputSize message > historyHardCapBytes) := fun full => by omega
    rw [keptCount, if_neg goesOn, Nat.add_comm 1, take_succ_cons, totalSize, map_cons,
      sum_cons, ← totalSize, ← Nat.add_assoc]
    by_cases isThird : historyMinRawUserTurns ≤
        if message.isUser then keptUserTurns + 1 else keptUserTurns
    · -- this message is the third turn
      have isUser : message.isUser = true := by
        by_contra notUser
        rw [if_neg notUser] at isThird
        omega
      rw [if_pos isUser] at isThird ⊢
      by_cases under : keptBytes + modelInputSize message ≤ historyHardCapBytes
      · exact .inl (size_of_turns isThird under)
      · refine .inr (.inr ⟨[], message, older, rfl, isUser, ?_, ?_⟩)
        · rw [nil_append, countP_cons_of_pos isUser, countP_nil]
          omega
        · simp only [nil_append, totalSize, map_cons, map_nil, sum_cons, sum_nil]
          omega
    · rcases ih (Nat.lt_of_not_le isThird) with
        under | isFew | exceed
      · exact .inl under
      · exact .inr (.inl (turns_cons ▸ isFew))
      · exact .inr (.inr exceed.cons)

end Loop

/-! ## Tool results and their calls -/

/-- The message is the assistant's and calls the tool that the result answers. -/
def ChatMessage.Calls (call result : ChatMessage) : Prop :=
  ∃ content toolCalls callId toolName output isError toolCallId providerCallId,
    call = .assistant content toolCalls ∧
      result = .toolResult callId toolName output isError toolCallId providerCallId ∧
      callId ∈ toolCalls.map ModelToolCall.callId

/-- Every tool result follows the message that calls it, behind other results only. -/
def Paired (messages : List ChatMessage) : Prop :=
  ∀ before result after, messages = before ++ result :: after → result.isToolResult = true →
    ∃ older call between, before = older ++ call :: between ∧ call.Calls result ∧
      ∀ other ∈ between, other.isToolResult = true

theorem Paired.left {before after : List ChatMessage} (paired : Paired (before ++ after)) :
    Paired before := by
  rintro older result newer rfl isResult
  exact paired older result (newer ++ after) (by simp) isResult

/-- A cut at a message of the user takes no result from its call. -/
theorem Paired.right {before after : List ChatMessage} {first : ChatMessage}
    (paired : Paired (before ++ first :: after)) (isUser : first.isUser = true) :
    Paired (first :: after) := by
  intro older result newer isSplit isResult
  obtain ⟨earlier, call, between, isBefore, calls, results⟩ := paired (before ++ older) result newer
    (by rw [isSplit, append_assoc]) isResult
  cases older with
  | nil =>
    obtain ⟨rfl, -⟩ := List.cons.inj isSplit
    cases first <;> simp [ChatMessage.isUser, ChatMessage.isToolResult] at isUser isResult
  | cons head older =>
    obtain ⟨rfl, -⟩ := List.cons.inj isSplit
    rw [append_eq_append_iff] at isBefore
    rcases isBefore with ⟨more, rfl, isRest⟩ | ⟨more, rfl, isRest⟩
    · cases more with
      | nil =>
        rw [nil_append, List.cons.injEq] at isRest
        obtain ⟨rfl, rfl⟩ := isRest
        exact ⟨[], _, _, rfl, calls, results⟩
      | cons x more =>
        obtain ⟨rfl, rfl⟩ := List.cons.inj isRest
        exact ⟨_ :: more, call, between, rfl, calls, results⟩
    · cases more with
      | nil =>
        rw [nil_append, List.cons.injEq] at isRest
        obtain ⟨rfl, rfl⟩ := isRest
        exact ⟨[], _, _, rfl, calls, results⟩
      | cons x more =>
        -- the call stands before the cut, so the user's message is one of the results
        obtain ⟨rfl, rfl⟩ := List.cons.inj isRest
        have isResultToo := results first (by simp)
        cases first <;> simp [ChatMessage.isUser, ChatMessage.isToolResult] at isUser isResultToo

/-! ## Compaction -/

/-- The last three turns of the user, from the first of them on, exceed the cap. -/
def LastThreeTurnsExceed (messages : List ChatMessage) : Prop :=
  ∃ older message newer, messages = older ++ message :: newer ∧ message.isUser = true ∧
    (message :: newer).countP ChatMessage.isUser = historyMinRawUserTurns ∧
    historyHardCapBytes < totalSize (message :: newer)

/-- A summary, and a proper suffix from a message of the user on. -/
structure Compacted (messages compacted : List ChatMessage) (summary omitted kept : List ChatMessage) :
    Prop where
  split : messages = omitted ++ kept
  proper : omitted ≠ []
  joined : compacted = summary ++ kept
  isSummary : IsSummary summary
  first : kept.head?.any ChatMessage.isUser
  turns : historyMinRawUserTurns ≤ kept.countP ChatMessage.isUser
  pairedOmitted : Paired messages → Paired omitted
  pairedKept : Paired messages → Paired kept

theorem totalSize_reverse (messages : List ChatMessage) :
    totalSize messages.reverse = totalSize messages := by
  rw [totalSize, totalSize, map_reverse, sum_reverse]

theorem LastTurnsExceed.reverse (exceed : LastTurnsExceed messages.reverse 0 0) :
    LastThreeTurnsExceed messages := by
  obtain ⟨last, message, older, isSplit, isUser, turns, size⟩ := exceed
  refine ⟨older.reverse, message, last.reverse, ?_, isUser, ?_, ?_⟩
  · have reversed := congrArg List.reverse isSplit
    simpa using reversed
  · rw [Nat.zero_add, countP_append, countP_singleton] at turns
    rw [countP_cons, countP_reverse]
    exact turns
  · rw [Nat.zero_add, ← totalSize_reverse, reverse_append] at size
    exact size

theorem dropWhile_spec (some : 0 < messages.countP ChatMessage.isUser) :
    ∃ first rest skipped, messages.dropWhile (fun m => !m.isUser) = first :: rest ∧
      messages = skipped ++ first :: rest ∧ first.isUser = true ∧
      (first :: rest).countP ChatMessage.isUser = messages.countP ChatMessage.isUser := by
  induction messages with
  | nil => exact absurd some (Nat.lt_irrefl 0)
  | cons message messages ih =>
    cases isUser : message.isUser with
    | true => exact ⟨message, messages, [], by simp [isUser], rfl, isUser, rfl⟩
    | false =>
      have isRest : (message :: messages).countP ChatMessage.isUser =
          messages.countP ChatMessage.isUser := countP_cons_of_neg (by simp [isUser])
      obtain ⟨first, rest, skipped, dropped, isSplit, isFirst, turns⟩ := ih (isRest ▸ some)
      refine ⟨first, rest, message :: skipped, by simp [isUser, dropped], ?_, isFirst, ?_⟩
      · rw [cons_append, ← isSplit]
      · rw [turns, isRest]

theorem totalSize_append (a b : List ChatMessage) :
    totalSize (a ++ b) = totalSize a + totalSize b := by
  rw [totalSize, map_append, sum_append, totalSize, totalSize]

/-- What the first loop keeps, oldest first. -/
def newestKept (messages : List ChatMessage) : List ChatMessage :=
  messages.drop (messages.length - keptCount messages.reverse 0 0)

theorem newestKept_reverse :
    messages.reverse.take (keptCount messages.reverse 0 0) = (newestKept messages).reverse := by
  rw [newestKept, take_reverse]

theorem keptCount_le_length : keptCount messages.reverse 0 0 ≤ messages.length := by
  have bound : keptCount messages.reverse 0 0 ≤ messages.reverse.length := keptCount_le
  rwa [length_reverse] at bound

/-- Where the loop stops early, the summary takes what the kept messages leave of the cap. -/
theorem compacted_of_lt (stopped : keptCount messages.reverse 0 0 < messages.length) :
    ∃ summary omitted kept,
      Compacted messages (compactHistoryForModel messages) summary omitted kept ∧
      totalSize summary ≤ historyHardCapBytes - totalSize kept ∧
      totalSize kept ≤ totalSize (newestKept messages) := by
  have stops : keptCount messages.reverse 0 0 < messages.reverse.length := by
    rwa [length_reverse]
  have turns := turns_of_keptCount_lt stops
  rw [newestKept_reverse, countP_reverse, Nat.zero_add] at turns
  obtain ⟨first, rest, skipped, dropped, isSplit, isUser, sameTurns⟩ :=
    dropWhile_spec (Nat.lt_of_lt_of_le (by decide) turns)
  have isWhole : messages =
      messages.take (messages.length - keptCount messages.reverse 0 0) ++ newestKept messages :=
    (take_append_drop _ _).symm
  generalize isOlder :
    messages.take (messages.length - keptCount messages.reverse 0 0) = older at isWhole
  have olderSome : older ≠ [] := by
    rintro rfl
    have := congrArg List.length isOlder
    rw [length_take, length_nil] at this
    omega
  have isMessages : messages = (older ++ skipped) ++ first :: rest := by
    rw [append_assoc, ← isSplit, ← isWhole]
  have isOmitted : messages.take (messages.length - (first :: rest).length) = older ++ skipped := by
    have isLength : messages.length - (first :: rest).length = (older ++ skipped).length := by
      conv => lhs; rw [isMessages]
      rw [length_append, Nat.add_sub_cancel]
    rw [isLength]
    conv => lhs; rw [isMessages]
    exact take_left
  have summary := buildHistorySummaryMessages_spec (older ++ skipped)
    (min (historyHardCapBytes - totalSize (first :: rest)) historySummaryMaxBytes)
  have isCompacted : compactHistoryForModel messages =
      (buildHistorySummaryMessages (older ++ skipped)
        (min (historyHardCapBytes - totalSize (first :: rest)) historySummaryMaxBytes)).getD [] ++
        first :: rest := by
    have cut : ∀ kept, (newestKept messages).dropWhile (fun m => !m.isUser) = kept →
        compactHistoryForModel messages =
          (buildHistorySummaryMessages (messages.take (messages.length - kept.length))
            (min (historyHardCapBytes - totalSize kept) historySummaryMaxBytes)).getD [] ++
            kept := by
      rintro kept rfl
      exact if_neg stopped.ne
    rw [cut _ dropped, isOmitted]
  refine ⟨_, older ++ skipped, first :: rest, ?_, summary.2.trans (min_le_left _ _), ?_⟩
  · exact
      { split := isMessages
        proper := by simp [olderSome]
        joined := isCompacted
        isSummary := summary.1
        first := by simpa using isUser
        turns := sameTurns ▸ turns
        pairedOmitted := fun paired => (isMessages ▸ paired).left
        pairedKept := fun paired => (isMessages ▸ paired).right isUser }
  · rw [isSplit, totalSize_append]
    exact Nat.le_add_left _ _

/-- **The history is left whole, or is a summary and the last turns; three turns stay, and above
the cap nothing else does.** -/
theorem compact_history (messages : List ChatMessage) :
    (compactHistoryForModel messages = messages ∨
        ∃ summary omitted kept,
          Compacted messages (compactHistoryForModel messages) summary omitted kept) ∧
      (totalSize (compactHistoryForModel messages) ≤ historyHardCapBytes ∨
        messages.countP ChatMessage.isUser < historyMinRawUserTurns ∨
        LastThreeTurnsExceed messages) ∧
      ∀ text maxBytes, Truncated text maxBytes (truncateTextBytes text maxBytes) := by
  have limits : totalSize (newestKept messages) ≤ historyHardCapBytes ∨
      messages.countP ChatMessage.isUser < historyMinRawUserTurns ∨
      LastThreeTurnsExceed messages := by
    have size := @size_of_keptCount messages.reverse 0 0 (by decide)
    rw [newestKept_reverse, totalSize_reverse, countP_reverse, Nat.zero_add, Nat.zero_add] at size
    exact size.imp_right (Or.imp_right LastTurnsExceed.reverse)
  rcases keptCount_le_length.eq_or_lt with isAll | stopped
  · have isWhole : compactHistoryForModel messages = messages := by
      unfold compactHistoryForModel
      exact if_pos isAll
    refine ⟨.inl isWhole, ?_, truncateTextBytes_truncated⟩
    rw [newestKept, isAll, Nat.sub_self, drop_zero] at limits
    rwa [isWhole]
  · obtain ⟨summary, omitted, kept, compacted, summarySize, keptSize⟩ := compacted_of_lt stopped
    refine ⟨.inr ⟨summary, omitted, kept, compacted⟩, ?_, truncateTextBytes_truncated⟩
    refine limits.imp_left fun under => ?_
    rw [compacted.joined, totalSize_append]
    omega

/-- One message of the user above the cap stays. -/
theorem compact_history_above_cap : ¬ ∀ messages : List ChatMessage,
    0 < messages.countP ChatMessage.isUser → Paired messages →
    totalSize (compactHistoryForModel messages) ≤ historyHardCapBytes ∨
      LastThreeTurnsExceed messages := by
  intro claim
  have long : ∀ n, len (List.replicate n 'a') = n := by
    intro n
    induction n with
    | zero => rfl
    | succ n ih =>
      rw [replicate_succ, len, map_cons, sum_cons, ← len, ih]
      exact Nat.add_comm 1 n
  have paired : Paired [.user (List.replicate 65537 'a') none] := by
    rintro before result after isSplit isResult
    cases before with
    | nil =>
      obtain ⟨rfl, -⟩ := List.cons.inj isSplit
      exact nomatch isResult
    | cons first before =>
      have isNil := (List.cons.inj isSplit).2
      simp at isNil
  have whole : compactHistoryForModel [.user (List.replicate 65537 'a') none] =
      [.user (List.replicate 65537 'a') none] := rfl
  rcases claim _ (by decide +kernel) paired with under | ⟨older, message, newer, isSplit, -, turns, -⟩
  · rw [whole, totalSize, map_singleton, sum_singleton, modelInputSize, long,
      historyHardCapBytes] at under
    omega
  · have total := congrArg List.length isSplit
    have few := countP_le_length (p := ChatMessage.isUser) (l := message :: newer)
    rw [turns, historyMinRawUserTurns] at few
    rw [length_append, length_singleton] at total
    omega

end Kuku.Ai
