/-
# Search.ChunkWindows -- the windows that the parts of a text are cut from

Each round of `split_chunk_text` trims one window of the text.  A window that is not the last ends
more than the overlap behind its start (`add_lt_splitEnd`), so that the next one starts exactly the
overlap before that end: whatever is no longer than the overlap is inside one window.
-/
import Kuku.Search.Extract

namespace Kuku.Search.Indexer

open Kuku.Theory List Option

def windowsFrom (chars : List Char) (start : Nat) : List (Nat × Nat) :=
  if _ : start < chars.length then
    let stop := splitEnd chars start
    (start, stop) ::
      if stop = chars.length then [] else windowsFrom chars (nextStart start stop)
  else []
termination_by chars.length - start
decreasing_by
  have := lt_nextStart (lt_splitEnd ‹start < chars.length›).1
  omega

def windows (input : List Char) : List (Nat × Nat) :=
  if input.length ≤ chunkMaxChars then [(0, input.length)] else windowsFrom input 0

def windowText (chars : List Char) (window : Nat × Nat) : List Char :=
  Chars.trim ((chars.drop window.1).take (window.2 - window.1))

variable {chars input : List Char} {start : Nat}

theorem add_lt_splitEnd (inside : start < chars.length)
    (more : splitEnd chars start ≠ chars.length) :
    start + chunkOverlapChars < splitEnd chars start := by
  have part := lt_splitEnd inside
  by_cases long : start + chunkMaxChars < chars.length
  · rw [splitEnd, min_eq_left long.le, if_pos long, chunkMaxChars, chunkOverlapChars]
    cases found : findBoundary chars start (start + 1000) with
    | none =>
      rw [getD_none]
      omega
    | some idx =>
      simp only [findBoundary, targetSplitChars, chunkOverlapChars, or_eq_some_iff] at found
      rw [getD_some]
      rcases found with near | ⟨-, far⟩
      · have := lastBoundary_ge near
        omega
      · have := lastBoundary_ge far
        omega
  · rw [splitEnd, min_eq_right (not_lt.mp long), if_neg (lt_irrefl _)] at more
    exact absurd rfl more

/-- The next window starts the overlap before the end of this one, and ends behind it. -/
theorem nextStart_splitEnd (inside : start < chars.length)
    (more : splitEnd chars start ≠ chars.length) :
    nextStart start (splitEnd chars start) = splitEnd chars start - chunkOverlapChars ∧
      start < splitEnd chars start - chunkOverlapChars ∧
      splitEnd chars start < splitEnd chars (nextStart start (splitEnd chars start)) := by
  have far := add_lt_splitEnd inside more
  have isNext : nextStart start (splitEnd chars start) =
      splitEnd chars start - chunkOverlapChars := by
    rw [nextStart, if_neg (by omega)]
  have part := lt_splitEnd inside
  refine ⟨isNext, by omega, ?_⟩
  rw [isNext]
  by_cases isLast : splitEnd chars (splitEnd chars start - chunkOverlapChars) = chars.length
  · omega
  · have := add_lt_splitEnd (by omega) isLast
    omega

theorem windowsFrom_range {window : Nat × Nat} (among : window ∈ windowsFrom chars start) :
    start ≤ window.1 ∧ splitEnd chars start ≤ window.2 ∧ window.2 ≤ chars.length ∧
      window.1 < window.2 ∧ window.2 ≤ window.1 + chunkMaxChars := by
  fun_induction windowsFrom chars start with
  | case1 start inside stop ih =>
    subst stop
    have part := lt_splitEnd inside
    rcases mem_cons.mp among with rfl | later
    · exact ⟨le_rfl, le_rfl, part.2.1, part.1, part.2.2⟩
    · split_ifs at later with isLast
      · exact nomatch later
      · have further := ih later
        have next := nextStart_splitEnd inside isLast
        omega
  | case2 => exact nomatch among

theorem windowsFrom_increasing (chars : List Char) (start : Nat) :
    (windowsFrom chars start).Pairwise fun a b => a.1 < b.1 ∧ a.2 < b.2 := by
  fun_induction windowsFrom chars start with
  | case1 start inside stop ih =>
    subst stop
    refine pairwise_cons.mpr ⟨fun window later => ?_, ?_⟩
    · split_ifs at later with isLast
      · exact nomatch later
      · have further := windowsFrom_range later
        have next := nextStart_splitEnd inside isLast
        omega
    · split_ifs
      · exact .nil
      · exact ih
  | case2 => exact .nil

/-- **What is no longer than the overlap is inside one window.** -/
theorem exists_window {i length : Nat} (short : length ≤ chunkOverlapChars)
    (fits : i + length ≤ chars.length) (inside : start < chars.length) (from' : start ≤ i) :
    ∃ window ∈ windowsFrom chars start, window.1 ≤ i ∧ i + length ≤ window.2 := by
  fun_induction windowsFrom chars start with
  | case1 start _ stop ih =>
    subst stop
    by_cases here : i + length ≤ splitEnd chars start
    · exact ⟨_, mem_cons_self, from', here⟩
    · have part := lt_splitEnd inside
      have isMore : splitEnd chars start ≠ chars.length := by omega
      have next := nextStart_splitEnd inside isMore
      rw [if_neg isMore]
      obtain ⟨window, among, before, behind⟩ := ih (by omega) (by omega)
      exact ⟨window, mem_cons_of_mem _ among, before, behind⟩
  | case2 => contradiction

theorem splitFrom_eq (chars : List Char) (start : Nat) : splitFrom chars start =
    ((windowsFrom chars start).map (windowText chars)).filter fun text => text ≠ [] := by
  fun_induction windowsFrom chars start with
  | case1 start inside stop ih =>
    subst stop
    rw [splitFrom, dif_pos inside]
    simp only [trimmedPart, map_cons, filter_cons, windowText, decide_not]
    split_ifs <;> simp_all
  | case2 start outside =>
    rw [splitFrom, dif_neg outside]
    rfl

theorem windows_range {window : Nat × Nat} (among : window ∈ windows input) :
    window.1 ≤ window.2 ∧ window.2 ≤ input.length ∧ window.2 ≤ window.1 + chunkMaxChars := by
  unfold windows at among
  split_ifs at among with short
  · rw [mem_singleton] at among
    subst among
    omega
  · have := windowsFrom_range among
    omega

theorem splitChunkText_sublist (input : List Char) :
    (splitChunkText input).Sublist ((windows input).map (windowText input)) := by
  unfold splitChunkText windows
  split_ifs
  · simp [windowText]
  · rw [splitFrom_eq]
    exact filter_sublist

/-- The part of a window that is not blank. -/
theorem windowText_mem {window : Nat × Nat} (among : window ∈ windows input) {i : Nat} {c : Char}
    (here : window.1 ≤ i) (before : i < window.2) (isAt : input[i]? = some c)
    (visible : Text.isSpace c = false) : windowText input window ∈ splitChunkText input := by
  obtain ⟨part, isPart⟩ := trimmedPart_of_visible here before isAt visible
  unfold splitChunkText
  unfold windows at among
  split_ifs at among ⊢
  · rw [mem_singleton] at among ⊢
    rw [among]
    simp [windowText]
  · rw [splitFrom_eq, mem_filter, decide_eq_true_eq]
    refine ⟨mem_map_of_mem among, fun isBlank => ?_⟩
    unfold trimmedPart at isPart
    exact absurd (isPart.symm.trans (if_pos isBlank)) (cons_ne_nil _ _)

theorem length_trim_le (text : List Char) : (Chars.trim text).length ≤ text.length :=
  (List.rdropWhile_prefix ..).length_le.trans (dropWhile_suffix ..).length_le

theorem part_eq {part : List Char} (among : part ∈ splitChunkText input) :
    Chars.trim part = part ∧ part.length ≤ chunkMaxChars := by
  obtain ⟨window, isWindow, rfl⟩ := mem_map.mp ((splitChunkText_sublist input).subset among)
  have := windows_range isWindow
  refine ⟨trim_trim _, (length_trim_le _).trans ?_⟩
  rw [length_take]
  omega

/-! ## The ranges of the chunks -/

def State.chunks (s : State) : List ExtractedChunk := s.sections.flatMap Section.chunks

/-- The ranges of the chunks follow each other, and end before the cursor. -/
structure Ranged (s : State) : Prop where
  apart : s.chunks.Pairwise fun a b => a.globalEnd < b.globalStart
  behind : ∀ chunk ∈ s.chunks, chunk.globalStart ≤ chunk.globalEnd ∧ chunk.globalEnd < s.cursor

section Ranged

variable {lowercase : List Char → List Char} {kind : ChunkKind} {s : State}

theorem chunks_pushChunk (sections : List Section) (chunk : ExtractedChunk) :
    (pushChunk sections chunk).flatMap Section.chunks =
      sections.flatMap Section.chunks ++ [chunk] := by
  rcases sections.eq_nil_or_concat with rfl | ⟨init, last, rfl⟩
  · rfl
  · simp [pushChunk_concat]

theorem Ranged.congr {s' : State} (ranged : Ranged s) (chunks : s'.chunks = s.chunks)
    (cursor : s'.cursor = s.cursor) : Ranged s' :=
  ⟨chunks ▸ ranged.apart, chunks ▸ cursor ▸ ranged.behind⟩

theorem Ranged.appendPart (ranged : Ranged s) (rawPart : List Char) :
    Ranged (appendPart lowercase kind s rawPart) := by
  unfold Indexer.appendPart
  dsimp only
  split_ifs with isBlank
  · exact ranged
  · constructor
    · simp only [State.chunks, chunks_pushChunk]
      refine pairwise_append.mpr ⟨ranged.apart, pairwise_singleton _ _, ?_⟩
      intro a isA b isB
      rw [mem_singleton.mp isB]
      exact (ranged.behind a isA).2
    · simp only [State.chunks, chunks_pushChunk]
      intro chunk among
      rcases mem_append.mp among with old | isNew
      · have := ranged.behind chunk old
        omega
      · rw [mem_singleton.mp isNew]
        dsimp only
        omega

theorem Ranged.appendChunk (ranged : Ranged s) (raw : List Char) :
    Ranged (appendChunk lowercase kind raw s) := by
  unfold Indexer.appendChunk
  induction splitChunkText raw generalizing s with
  | nil => exact ranged
  | cons part rest ih => exact ih (ranged.appendPart part)

theorem Ranged.flush (ranged : Ranged s) : Ranged (flushBuffer lowercase s) := by
  unfold flushBuffer
  split
  · exact ranged
  · dsimp only
    split_ifs
    · exact ranged.congr rfl rfl
    · split
      · apply Ranged.appendChunk
        refine ranged.congr ?_ rfl
        simp [openSection, State.chunks]
      all_goals
        apply Ranged.appendChunk
        exact ranged.congr rfl rfl

theorem Ranged.run (ranged : Ranged s) (events : List Event) : Ranged (run lowercase s events) := by
  unfold Indexer.run
  induction events generalizing s with
  | nil => exact ranged
  | cons event rest ih =>
    refine ih ?_
    unfold step
    split
    all_goals first | exact ranged.flush | exact ranged.congr rfl rfl

end Ranged

/-- **Chunk splitting covers the text.** -/
theorem splitChunkText_covers (input : List Char) :
    (∀ part ∈ splitChunkText input, Chars.trim part = part ∧ part.length ≤ chunkMaxChars) ∧
    (splitChunkText input).Sublist ((windows input).map (windowText input)) ∧
    (∀ window ∈ windows input, window.1 ≤ window.2 ∧ window.2 ≤ input.length) ∧
    ((windows input).Pairwise fun a b => a.1 < b.1 ∧ a.2 < b.2) ∧
    (∀ (i : Nat) (c : Char), input[i]? = some c → Text.isSpace c = false →
      ∃ window ∈ windows input, (window.1 ≤ i ∧ i < window.2) ∧
        windowText input window ∈ splitChunkText input) ∧
    (∀ i length : Nat, length ≤ chunkOverlapChars → i + length ≤ input.length →
      ∃ window ∈ windows input, window.1 ≤ i ∧ i + length ≤ window.2) ∧
    (∀ lowercase kind s, Ranged s → Ranged (appendChunk lowercase kind input s)) ∧
    ∀ lowercase parsed, ((extractDocument lowercase parsed).sections.flatMap
      Section.chunks).Pairwise fun a b => a.globalEnd < b.globalStart := by
  have within : ∀ i length : Nat, length ≤ chunkOverlapChars → i + length ≤ input.length →
      ∃ window ∈ windows input, window.1 ≤ i ∧ i + length ≤ window.2 := by
    intro i length short fits
    unfold windows
    split_ifs
    · exact ⟨_, mem_singleton_self _, Nat.zero_le i, fits⟩
    · exact exists_window short fits (by omega) (Nat.zero_le i)
  refine ⟨fun part among => part_eq among, splitChunkText_sublist input,
    fun window among => ⟨(windows_range among).1, (windows_range among).2.1⟩, ?_, ?_, within,
    fun lowercase kind s ranged => ranged.appendChunk input, fun lowercase parsed => ?_⟩
  · unfold windows
    split_ifs
    · exact pairwise_singleton _ _
    · exact windowsFrom_increasing input 0
  · intro i c isAt visible
    obtain ⟨isInside, -⟩ := List.getElem?_eq_some_iff.mp isAt
    obtain ⟨window, among, here, before⟩ := within i 1 (by decide) isInside
    exact ⟨window, among, ⟨here, before⟩, windowText_mem among here before isAt visible⟩
  · have initially : Ranged (initial parsed.frontmatter) := ⟨.nil, fun _ none => nomatch none⟩
    exact ((initially.run _).flush).apart

end Kuku.Search.Indexer
