/-
# Search.Snippet -- the excerpt a search hit shows

`build_snippet` looks for the query in the lower case of the text and cuts its excerpt out of
the text itself; a character whose lower case is several ones moves the match.
`build_snippet_for_range` cuts around a range of bytes.  `snippets_sound_iff` says when the first
one shows the match; the second one always shows its range.
-/
import Kuku.Search.Chunk
import Kuku.Theory.Spans

namespace Kuku.Search.Indexer

open Kuku.Theory List Option Chars Nat Spans Text

/-- `str::to_lowercase`: every character has its lower case, which for a final sigma depends on
the characters around it. -/
structure Lowercase where
  pieces : List Char → List (List Char)
  length_pieces : ∀ text, (pieces text).length = text.length
  pieces_ne_nil : ∀ text, ∀ piece ∈ pieces text, piece ≠ []

def Lowercase.lowercase (lower : Lowercase) (text : List Char) : List Char :=
  (lower.pieces text).flatten

def snippetRadius : Nat := 80

/-- A slice of the characters of a text. -/
structure Window where
  start : Nat
  stop : Nat

/-- The slice with a mark where the text is cut; `none` is a slice out of bounds. -/
def Window.excerpt (rawChars : List Char) (window : Window) : Option (List Char) :=
  if window.start ≤ window.stop ∧ window.stop ≤ rawChars.length then
    some ((if 0 < window.start then ['…'] else []) ++
      (rawChars.drop window.start).take (window.stop - window.start) ++
      (if window.stop < rawChars.length then ['…'] else []))
  else none

/-- The slice around a match that follows `prefixChars` characters. -/
def matchWindow (length prefixChars matched : Nat) : Window :=
  ⟨prefixChars - snippetRadius, min (prefixChars + matched + snippetRadius) length⟩

/-- `iter().take(..)` -/
def headWindow (length : Nat) : Window := ⟨0, min (snippetRadius * 2) length⟩

section Build

variable (lower : Lowercase)

def buildSnippet (rawText query : List Char) : Option (List Char) :=
  let trimmed := trim rawText
  if trimmed = [] then some []
  else
    let normalizedQuery := normalizeText lower.lowercase query
    if normalizedQuery = [] then some (trimmed.take (snippetRadius * 2))
    else
      match cut normalizedQuery (lower.lowercase trimmed) with
      | some (before, _) =>
        (matchWindow trimmed.length before.length normalizedQuery.length).excerpt trimmed
      | none =>
        some (trimmed.take (snippetRadius * 2) ++
          if snippetRadius * 2 < trimmed.length then ['…'] else [])

/-- The characters of the text that `build_snippet` takes. -/
def snippetWindow (rawText query : List Char) : Window :=
  let trimmed := trim rawText
  let normalizedQuery := normalizeText lower.lowercase query
  if normalizedQuery = [] then headWindow trimmed.length
  else
    match cut normalizedQuery (lower.lowercase trimmed) with
    | some (before, _) => matchWindow trimmed.length before.length normalizedQuery.length
    | none => headWindow trimmed.length

end Build

/-! ## Ranges of bytes -/

def isCharBoundary (text : List Char) (byte : Nat) : Bool :=
  text.inits.any fun front => len front = byte

def snapToCharBoundary (text : List Char) : Nat → Nat
  | 0 => 0
  | byte + 1 =>
    if isCharBoundary text (byte + 1) then byte + 1 else snapToCharBoundary text byte

/-- `text[..byte]`, which is out of bounds inside a character. -/
def sliceTo (text : List Char) (byte : Nat) : Option (List Char) :=
  text.inits.find? fun front => len front = byte

def buildSnippetForRange (rawText : List Char) (startByte endByte : Nat) : Option (List Char) :=
  let trimmed := trim rawText
  if trimmed = [] then some []
  else do
    let clampedStart := snapToCharBoundary trimmed (min startByte (len trimmed))
    let clampedEnd := snapToCharBoundary trimmed (min (max endByte clampedStart) (len trimmed))
    let start ← sliceTo trimmed clampedStart
    let stop ← sliceTo trimmed clampedEnd
    (Window.mk (start.length - snippetRadius)
      (min (stop.length + snippetRadius) trimmed.length)).excerpt trimmed

/-! ## What a snippet shows -/

/-- The text between two marks: it has the characters from `first` up to `last`, with at most
`SNIPPET_RADIUS` around them, and an ellipsis exactly where it is cut. -/
structure Shows (raw : List Char) (first last : Nat) (window : Window) (text : List Char) :
    Prop where
  starts : window.start ≤ first
  stops : last ≤ window.stop
  inside : window.stop ≤ raw.length
  leading : first ≤ window.start + snippetRadius
  trailing : window.stop ≤ last + snippetRadius
  isText : text = (if 0 < window.start then ['…'] else []) ++
    (raw.drop window.start).take (window.stop - window.start) ++
    (if window.stop < raw.length then ['…'] else [])

section Matches

variable (lower : Lowercase) (raw : List Char)

def Lowercase.sizes : List Nat := (lower.pieces raw).map List.length

/-- The character whose lower case is at a place. -/
def sourceStart (place : Nat) : Nat := ended (lower.sizes raw) place

/-- The characters whose lower case begins before a place. -/
def sourceStop (place : Nat) : Nat := begun (lower.sizes raw) place

end Matches

/-- `build_snippet` returns, and shows the characters whose lower case matched. -/
def SnippetSound (lower : Lowercase) (rawText query : List Char) : Prop :=
  ∃ text, buildSnippet lower rawText query = some text ∧
    ∀ before after, cut (normalizeText lower.lowercase query)
        (lower.lowercase (trim rawText)) = some (before, after) →
      Shows (trim rawText) (sourceStart lower (trim rawText) before.length)
        (sourceStop lower (trim rawText)
          (before.length + (normalizeText lower.lowercase query).length))
        (snippetWindow lower rawText query) text

/-- `build_snippet_for_range` returns, and shows the characters of the bytes. -/
def RangeSound (rawText : List Char) (startByte endByte : Nat) : Prop :=
  ∃ text window, buildSnippetForRange rawText startByte endByte = some text ∧
    Shows (trim rawText)
      (ended ((trim rawText).map Char.utf8Size) startByte)
      (max (ended ((trim rawText).map Char.utf8Size) startByte)
        (begun ((trim rawText).map Char.utf8Size) endByte)) window text

/-- An empty query, in a text of at most `SNIPPET_RADIUS` characters; or one whose first match
the lower case moves by at most `SNIPPET_RADIUS`, and not at all at its end if as many characters
follow it. -/
def KeepsPlace (lower : Lowercase) (rawText query : List Char) : Prop :=
  let trimmed := trim rawText
  let normalizedQuery := normalizeText lower.lowercase query
  ∀ before after, cut normalizedQuery (lower.lowercase trimmed) = some (before, after) →
    if normalizedQuery = [] then trimmed.length ≤ snippetRadius
    else
      before.length ≤ sourceStart lower trimmed before.length + snippetRadius ∧
        (before.length + normalizedQuery.length ≤
            sourceStop lower trimmed (before.length + normalizedQuery.length) ∨
          trimmed.length ≤
            sourceStop lower trimmed (before.length + normalizedQuery.length) + snippetRadius)

section Sound

variable {lower : Lowercase} {rawText query raw before : List Char} {first last : Nat}
  {window : Window} {text : List Char}

theorem sizes_pos (lower : Lowercase) (raw : List Char) : ∀ size ∈ lower.sizes raw, 0 < size := by
  simp only [Lowercase.sizes, List.mem_map]
  rintro _ ⟨piece, among, rfl⟩
  exact length_pos_iff.mpr (lower.pieces_ne_nil raw piece among)

theorem length_sizes (lower : Lowercase) (raw : List Char) :
    (lower.sizes raw).length = raw.length := by
  rw [Lowercase.sizes, length_map, lower.length_pieces]

/-- A window around the match is cut out and shows it. -/
theorem shows_excerpt (raw : List Char) (window : Window) (starts : window.start ≤ first) (ordered : first ≤ last)
    (stops : last ≤ window.stop) (inside : window.stop ≤ raw.length)
    (leading : first ≤ window.start + snippetRadius)
    (trailing : window.stop ≤ last + snippetRadius) :
    ∃ text, window.excerpt raw = some text ∧ Shows raw first last window text := by
  refine ⟨_, if_pos ⟨by omega, inside⟩, starts, stops, inside, leading, trailing, rfl⟩

theorem cut_nil (lowered : List Char) : cut [] lowered = some ([], lowered) := by
  cases lowered <;> rfl

theorem cut_of_nil {needle : List Char} (visible : needle ≠ []) : cut needle [] = none :=
  if_neg visible

theorem lowercase_nil : lower.lowercase [] = [] := by
  have isNil : lower.pieces [] = [] := length_eq_zero_iff.mp (lower.length_pieces [])
  rw [Lowercase.lowercase, isNil, flatten_nil]

/-- Of an empty query the first characters are shown, without an ellipsis. -/
theorem sound_of_empty (isEmpty : normalizeText lower.lowercase query = []) :
    buildSnippet lower rawText query = some ((trim rawText).take (snippetRadius * 2)) := by
  unfold buildSnippet
  dsimp only
  rw [if_pos isEmpty]
  split
  · rename_i isNil
    rw [isNil, take_nil]
  · rfl

theorem shows_head_iff : Shows raw 0 0 (headWindow raw.length) (raw.take (snippetRadius * 2)) ↔
    raw.length ≤ snippetRadius := by
  constructor
  · intro shows
    have trailing := shows.trailing
    unfold headWindow snippetRadius at trailing
    dsimp only at trailing
    unfold snippetRadius
    omega
  · intro short
    have isWindow : headWindow raw.length = ⟨0, raw.length⟩ := by
      rw [headWindow, min_eq_right (by omega)]
    rw [isWindow]
    refine ⟨le_refl _, zero_le _, le_refl _, zero_le _, ?_, ?_⟩
    · rw [zero_add]
      exact short
    · have isHead : raw.take (snippetRadius * 2) = raw := take_of_length_le (by omega)
      have isWhole : (raw.drop 0).take (raw.length - 0) = raw := take_of_length_le (le_refl _)
      rw [isHead, if_neg (lt_irrefl _), if_neg (lt_irrefl _), isWhole]
      simp

theorem snippetSound_of_match (visible : normalizeText lower.lowercase query ≠ [])
    {after : List Char} (isCut : cut (normalizeText lower.lowercase query)
      (lower.lowercase (trim rawText)) = some (before, after)) :
    buildSnippet lower rawText query = (snippetWindow lower rawText query).excerpt (trim rawText) ∧
      snippetWindow lower rawText query = matchWindow (trim rawText).length before.length
        (normalizeText lower.lowercase query).length := by
  have isWindow : snippetWindow lower rawText query = matchWindow (trim rawText).length
      before.length (normalizeText lower.lowercase query).length := by
    unfold snippetWindow
    dsimp only
    rw [if_neg visible, isCut]
  have nonempty : trim rawText ≠ [] := by
    intro isNil
    rw [isNil, lowercase_nil, cut_of_nil visible] at isCut
    cases isCut
  refine ⟨?_, isWindow⟩
  rw [isWindow, buildSnippet]
  dsimp only
  rw [if_neg nonempty, if_neg visible, isCut]

theorem source_bounds (lower : Lowercase) (raw : List Char) (place matched : Nat) :
    sourceStart lower raw place ≤ sourceStop lower raw (place + matched) ∧
      sourceStart lower raw place ≤ place ∧
      sourceStop lower raw (place + matched) ≤ place + matched ∧
      sourceStop lower raw (place + matched) ≤ raw.length := by
  have positive := sizes_pos lower raw
  refine ⟨?_, ended_le positive, begun_le positive, ?_⟩
  · exact (ended_mono (le_add_right place matched)).trans (ended_le_begun positive)
  · rw [← length_sizes lower raw]
    exact begun_le_length

/-- **A snippet is sound** exactly where lower-casing keeps the place of the match. -/
theorem snippetSound_iff : SnippetSound lower rawText query ↔ KeepsPlace lower rawText query := by
  unfold SnippetSound KeepsPlace
  dsimp only
  by_cases isEmpty : normalizeText lower.lowercase query = []
  · have positive := sizes_pos lower (trim rawText)
    have noStart : sourceStart lower (trim rawText) 0 = 0 := Nat.le_zero.mp (ended_le positive)
    have noStop : sourceStop lower (trim rawText) 0 = 0 := begun_zero
    have isWindow : snippetWindow lower rawText query = headWindow (trim rawText).length :=
      if_pos isEmpty
    rw [isWindow, sound_of_empty isEmpty, isEmpty, cut_nil, ← shows_head_iff]
    constructor
    · rintro ⟨text, isText, shows⟩ before after isCut
      cases isText
      have shown := shows [] _ rfl
      rw [length_nil, noStart, add_zero, noStop] at shown
      rw [if_pos rfl]
      exact shown
    · intro keeps
      refine ⟨_, rfl, ?_⟩
      rintro _ _ ⟨⟩
      rw [length_nil, noStart, add_zero, noStop]
      have shown := keeps [] _ rfl
      rwa [if_pos rfl] at shown
  · cases isCut : cut (normalizeText lower.lowercase query) (lower.lowercase (trim rawText)) with
    | none =>
      refine iff_of_true ?_ nofun
      have returns : ∃ text, buildSnippet lower rawText query = some text := by
        unfold buildSnippet
        dsimp only
        rw [if_neg isEmpty, isCut]
        split <;> exact ⟨_, rfl⟩
      exact returns.imp fun text isText => ⟨isText, nofun⟩
    | some parts =>
      obtain ⟨before, after⟩ := parts
      obtain ⟨isExcerpt, isWindow⟩ := snippetSound_of_match isEmpty isCut
      obtain ⟨ordered, ofStart, ofStop, inText⟩ := source_bounds lower (trim rawText)
        before.length (normalizeText lower.lowercase query).length
      rw [isExcerpt, isWindow]
      constructor
      · rintro ⟨text, -, shows⟩ _ _ ⟨⟩
        obtain ⟨starts, -, -, -, trailing, -⟩ := shows before after rfl
        unfold matchWindow at starts trailing
        dsimp only at starts trailing
        rw [if_neg isEmpty]
        omega
      · intro keeps
        have kept := keeps before after rfl
        rw [if_neg isEmpty] at kept
        obtain ⟨starts, trailing⟩ := kept
        obtain ⟨text, isText, shows⟩ := shows_excerpt (trim rawText)
          (matchWindow (trim rawText).length before.length
            (normalizeText lower.lowercase query).length)
          (by unfold matchWindow; dsimp only; omega) ordered
          (by unfold matchWindow; dsimp only; omega)
          (by unfold matchWindow; dsimp only; omega)
          (by unfold matchWindow; dsimp only; omega)
          (by unfold matchWindow; dsimp only; omega)
        refine ⟨text, isText, ?_⟩
        rintro _ _ ⟨⟩
        exact shows

end Sound

/-! ## The snippet of a range -/

section Bytes

variable {text front : List Char} {byte count : Nat}

theorem utf8Sizes_pos (text : List Char) : ∀ size ∈ text.map Char.utf8Size, 0 < size := by
  simp only [List.mem_map]
  rintro _ ⟨c, -, rfl⟩
  exact Char.utf8Size_pos c

theorem len_take (text : List Char) (count : Nat) :
    len (text.take count) = offset (text.map Char.utf8Size) count := by
  rw [len, map_take]
  rfl

theorem isCharBoundary_iff : isCharBoundary text byte = true ↔
    ∃ count ≤ text.length, offset (text.map Char.utf8Size) count = byte := by
  simp only [isCharBoundary, List.any_eq_true, mem_inits, decide_eq_true_eq]
  constructor
  · rintro ⟨front, isFront, isByte⟩
    refine ⟨front.length, isFront.length_le, ?_⟩
    rw [← len_take, ← prefix_iff_eq_take.mp isFront, isByte]
  · rintro ⟨count, -, isByte⟩
    exact ⟨text.take count, take_prefix _ _, by rw [len_take, isByte]⟩

/-- The boundary at or before a byte ends the characters that end by it. -/
theorem snapToCharBoundary_eq (text : List Char) (byte : Nat) : snapToCharBoundary text byte =
    offset (text.map Char.utf8Size) (ended (text.map Char.utf8Size) byte) := by
  induction byte with
  | zero => exact (Nat.le_zero.mp (offset_ended _ 0)).symm
  | succ byte ih =>
    have inside : ended (text.map Char.utf8Size) (byte + 1) ≤ text.length := by
      have := ended_le_length (text.map Char.utf8Size) (byte + 1)
      rwa [length_map] at this
    rw [snapToCharBoundary]
    split
    · rename_i boundary
      obtain ⟨count, few, isByte⟩ := isCharBoundary_iff.mp boundary
      rw [← isByte, ended_offset (utf8Sizes_pos text) (by rwa [length_map])]
    · rename_i notBoundary
      rw [ih]
      congr 1
      refine le_antisymm (ended_mono (le_succ byte)) ?_
      have upTo := offset_ended (text.map Char.utf8Size) (byte + 1)
      have other : offset (text.map Char.utf8Size)
          (ended (text.map Char.utf8Size) (byte + 1)) ≠ byte + 1 :=
        fun same => notBoundary (isCharBoundary_iff.mpr ⟨_, inside, same⟩)
      have before : offset (text.map Char.utf8Size)
          (ended (text.map Char.utf8Size) (byte + 1)) ≤ byte := by omega
      have later : ended (text.map Char.utf8Size) _ ≤ ended _ _ := ended_mono before
      rwa [ended_offset (utf8Sizes_pos text) (by rwa [length_map])] at later

theorem sliceTo_offset (few : count ≤ text.length) :
    sliceTo text (offset (text.map Char.utf8Size) count) = some (text.take count) := by
  unfold sliceTo
  cases found : text.inits.find? fun front =>
      len front = offset (text.map Char.utf8Size) count with
  | none =>
    have absent := List.find?_eq_none.mp found (text.take count)
      ((mem_inits _ _).mpr (List.take_prefix _ _))
    exact absurd (decide_eq_true (len_take text count)) absent
  | some front =>
    have isFront := (mem_inits _ _).mp (mem_of_find?_eq_some found)
    have isByte : len front = offset (text.map Char.utf8Size) count := by
      simpa using find?_some found
    have isTake := prefix_iff_eq_take.mp isFront
    rw [isTake, len_take] at isByte
    have same := congrArg (ended (text.map Char.utf8Size)) isByte
    have frontFew := isFront.length_le
    rw [ended_offset (utf8Sizes_pos text) (by rwa [length_map]),
      ended_offset (utf8Sizes_pos text) (by rwa [length_map])] at same
    rw [isTake, same]

/-- A snapped offset cuts the text where it should. -/
theorem sliceTo_snap (text : List Char) (byte : Nat) :
    sliceTo text (snapToCharBoundary text byte) =
      some (text.take (ended (text.map Char.utf8Size) byte)) := by
  have few := ended_le_length (text.map Char.utf8Size) byte
  rw [length_map] at few
  rw [snapToCharBoundary_eq, sliceTo_offset few]

/-- No character ends behind the text. -/
theorem ended_min_len : ended (text.map Char.utf8Size) (min byte (len text)) =
    ended (text.map Char.utf8Size) byte := by
  have isWhole : len text = offset (text.map Char.utf8Size) text.length := by
    rw [← len_take, take_length]
  rcases le_total byte (len text) with inside | behind
  · rw [min_eq_left inside]
  · have few := ended_le_length (text.map Char.utf8Size) byte
    have most : ended (text.map Char.utf8Size) (len text) ≤
        ended (text.map Char.utf8Size) byte := ended_mono behind
    have all : ended (text.map Char.utf8Size) (len text) = text.length := by
      rw [isWhole]
      exact ended_offset (utf8Sizes_pos text) (by rw [length_map])
    rw [length_map] at few
    rw [min_eq_right behind]
    omega

/-- The later of two places ends as many characters as they do. -/
theorem ended_max (sizes : List Nat) (a b : Nat) :
    ended sizes (max a b) = max (ended sizes a) (ended sizes b) := by
  rcases le_total a b with less | more
  · rw [max_eq_right less, max_eq_right (ended_mono less)]
  · rw [max_eq_left more, max_eq_left (ended_mono more)]

/-- **A range snippet is sound**, whatever the bytes are. -/
theorem rangeSound (rawText : List Char) (startByte endByte : Nat) :
    RangeSound rawText startByte endByte := by
  unfold RangeSound buildSnippetForRange
  generalize trim rawText = text
  dsimp only
  by_cases isNil : text = []
  · subst isNil
    refine ⟨[], ⟨0, 0⟩, if_pos rfl, ?_⟩
    exact ⟨zero_le _, zero_le _, zero_le _, zero_le _, zero_le _, rfl⟩
  · rw [if_neg isNil]
    have fewStart := ended_le_length (text.map Char.utf8Size) startByte
    have fewBegun : begun (text.map Char.utf8Size) endByte ≤ _ := begun_le_length
    have fewEnded := ended_le_length (text.map Char.utf8Size) endByte
    have within : ended (text.map Char.utf8Size) endByte ≤ _ := ended_le_begun (utf8Sizes_pos text)
    have atMost : begun (text.map Char.utf8Size) endByte ≤ _ := begun_le_ended_succ
    have isStart := sliceTo_snap text (min startByte (len text))
    have isStop := sliceTo_snap text (min (max endByte
      (snapToCharBoundary text (min startByte (len text)))) (len text))
    have startEnded : ended (text.map Char.utf8Size)
        (snapToCharBoundary text (min startByte (len text))) =
          ended (text.map Char.utf8Size) startByte := by
      rw [snapToCharBoundary_eq, ended_offset (utf8Sizes_pos text)
        (ended_le_length _ _), ended_min_len]
    rw [ended_min_len] at isStart
    rw [ended_min_len, ended_max, startEnded] at isStop
    rw [length_map] at fewStart fewBegun fewEnded
    rw [isStart, isStop]
    generalize ended (text.map Char.utf8Size) startByte = first at fewStart
    generalize ended (text.map Char.utf8Size) endByte = ended at fewEnded within atMost
    generalize begun (text.map Char.utf8Size) endByte = begun at fewBegun within atMost
    simp only [bind_eq_bind, bind_some, length_take, min_eq_left fewStart,
      min_eq_left (Nat.max_le.mpr ⟨fewEnded, fewStart⟩)]
    obtain ⟨excerpt, isExcerpt, shows⟩ := shows_excerpt text
      ⟨first - snippetRadius, min (max ended first + snippetRadius) text.length⟩
      (sub_le _ _) (le_max_left first begun) (by unfold snippetRadius; dsimp only; omega)
      (min_le_right _ _) (by dsimp only; omega) (by dsimp only; omega)
    exact ⟨excerpt, _, isExcerpt, shows⟩

end Bytes

/-- **Snippets never panic and show the match** exactly where lower-casing keeps its place. -/
theorem snippets_sound_iff (lower : Lowercase) (rawText query : List Char) :
    (SnippetSound lower rawText query ∧
      ∀ startByte endByte, RangeSound rawText startByte endByte) ↔
      KeepsPlace lower rawText query := by
  rw [and_iff_left (rangeSound rawText), snippetSound_iff]

/-! ## A letter of two -/

/-- The lower case of ASCII and of `İ`, which is two characters. -/
def dottedLower : Lowercase where
  pieces text := text.map fun c =>
    if c = 'İ' then ['i', '\u0307'] else [asciiLowerChar c]
  length_pieces text := length_map _
  pieces_ne_nil text piece among := by
    obtain ⟨c, -, rfl⟩ := List.mem_map.mp among
    split <;> exact cons_ne_nil _ _

/-- A hundred of them put the match behind the end of the text. -/
def dottedText : List Char := List.replicate 100 'İ' ++ ['a']

theorem dotted_panics : ¬ ∀ (lower : Lowercase) (rawText query : List Char),
    SnippetSound lower rawText query ∧
      ∀ startByte endByte, RangeSound rawText startByte endByte := by
  intro always
  obtain ⟨⟨text, isText, -⟩, -⟩ := always dottedLower dottedText ['a']
  have panics : buildSnippet dottedLower dottedText ['a'] = none := by decide +kernel
  rw [panics] at isText
  cases isText

end Kuku.Search.Indexer
