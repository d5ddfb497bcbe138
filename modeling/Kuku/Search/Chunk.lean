/-
# Search.Chunk -- the parts of a block of text

`split_chunk_text` leaves a text of up to `CHUNK_MAX_CHARS` characters whole and cuts a longer
one into overlapping parts, at the ends of sentences where it finds them.  A text of visible
ends is one part or more, and one exactly when it is left whole (`length_splitChunkText`).
-/
import Kuku.Theory.Chars

namespace Kuku.Search.Indexer

open Kuku.Theory List Option Chars

def chunkMaxChars : Nat := 1000

def chunkOverlapChars : Nat := 100

def targetSplitChars : Nat := 850

def isBoundary (ch : Char) : Bool := ch ∈ ['\n', '.', '!', '?', '。', '！', '？']

/-- `for idx in (first..last).rev()`: the last cut behind a boundary. -/
def lastBoundary (chars : List Char) (first last : Nat) : Option Nat :=
  (List.range' first (last - first)).reverse.find? fun idx => chars[idx - 1]?.any isBoundary

/-- Near the end of the part, or else anywhere behind the overlap. -/
def findBoundary (chars : List Char) (start upper : Nat) : Option Nat :=
  let target := min (start + targetSplitChars) upper
  let fallbackStart := min (start + chunkOverlapChars + 1) target
  (lastBoundary chars target upper).or (lastBoundary chars fallbackStart target)

def splitEnd (chars : List Char) (start : Nat) : Nat :=
  let upper := min (start + chunkMaxChars) chars.length
  if upper < chars.length then (findBoundary chars start upper).getD upper else upper

def nextStart (start stop : Nat) : Nat :=
  if stop - chunkOverlapChars ≤ start then stop else stop - chunkOverlapChars

variable {chars : List Char}

theorem lastBoundary_ge {first last idx : Nat} (found : lastBoundary chars first last = some idx) :
    first ≤ idx ∧ idx < last := by
  have among := mem_of_find?_eq_some found
  rw [mem_reverse, mem_range'_1] at among
  omega

theorem lt_of_findBoundary {start upper idx : Nat}
    (found : findBoundary chars start upper = some idx) : start < idx ∧ idx < upper := by
  simp only [findBoundary, targetSplitChars, chunkOverlapChars, or_eq_some_iff] at found
  rcases found with near | ⟨-, far⟩
  · have := lastBoundary_ge near
    omega
  · have := lastBoundary_ge far
    omega

/-- A part ends behind its start and inside the text. -/
theorem lt_splitEnd {start : Nat} (inside : start < chars.length) :
    start < splitEnd chars start ∧ splitEnd chars start ≤ chars.length ∧
      splitEnd chars start ≤ start + chunkMaxChars := by
  have wide : start < min (start + chunkMaxChars) chars.length := by
    rw [chunkMaxChars]
    omega
  simp only [splitEnd]
  split_ifs
  · cases found : findBoundary chars start (min (start + chunkMaxChars) chars.length) with
    | some idx =>
      have := lt_of_findBoundary found
      rw [getD_some]
      omega
    | none =>
      rw [getD_none]
      omega
  · omega

theorem lt_nextStart {start stop : Nat} (less : start < stop) :
    start < nextStart start stop ∧ nextStart start stop ≤ stop := by
  unfold nextStart
  split <;> omega

def trimmedPart (chars : List Char) (start stop : Nat) : List (List Char) :=
  let trimmed := trim ((chars.drop start).take (stop - start))
  if trimmed = [] then [] else [trimmed]

/-- The parts from `start`. -/
def splitFrom (chars : List Char) (start : Nat) : List (List Char) :=
  if _ : start < chars.length then
    let stop := splitEnd chars start
    trimmedPart chars start stop ++
      if stop = chars.length then [] else splitFrom chars (nextStart start stop)
  else []
termination_by chars.length - start
decreasing_by
  have := lt_nextStart (lt_splitEnd ‹start < chars.length›).1
  omega

def splitChunkText (input : List Char) : List (List Char) :=
  if input.length ≤ chunkMaxChars then [trim input] else splitFrom input 0

/-! ## normalize.rs -/

/-- `\s+` replaced by one space. -/
def collapseSpaces : List Char → List Char
  | [] => []
  | c :: rest =>
    if Text.isSpace c then
      if (rest.head?.any Text.isSpace) then collapseSpaces rest else ' ' :: collapseSpaces rest
    else c :: collapseSpaces rest

def normalizeText (lowercase : List Char → List Char) (input : List Char) : List Char :=
  lowercase (collapseSpaces (trim input))

variable {input : List Char}

theorem collapseSpaces_ne_nil (nonempty : input ≠ []) : collapseSpaces input ≠ [] := by
  induction input with
  | nil => exact absurd rfl nonempty
  | cons c rest ih =>
    rw [collapseSpaces]
    split_ifs with isSpace more
    · apply ih
      rintro rfl
      simp at more
    · exact cons_ne_nil _ _
    · exact cons_ne_nil _ _

/-! ## How many parts -/

theorem trim_eq_nil : trim input = [] ↔ ∀ c ∈ input, Text.isSpace c = true := by
  rw [trim, rdropWhile_eq_nil_iff]
  constructor
  · intro all c among
    by_contra visible
    have kept : c ∈ input.dropWhile Text.isSpace := by
      rw [← takeWhile_append_dropWhile (p := Text.isSpace) (l := input)] at among
      rcases mem_append.mp among with front | back
      · exact absurd (mem_takeWhile_imp front) visible
      · exact back
    exact visible (all c kept)
  · exact fun all c kept => all c (dropWhile_sublist _ |>.subset kept)

theorem trimmedPart_of_visible {start stop i : Nat} {c : Char} (here : start ≤ i)
    (before : i < stop) (isAt : chars[i]? = some c) (visible : Text.isSpace c = false) :
    ∃ part, trimmedPart chars start stop = [part] := by
  unfold trimmedPart
  rw [if_neg]
  · exact ⟨_, rfl⟩
  · intro isBlank
    have among : c ∈ (chars.drop start).take (stop - start) := by
      apply mem_of_getElem? (i := i - start)
      rw [getElem?_take_of_lt (by omega), getElem?_drop, Nat.add_sub_cancel' here, isAt]
    rw [trim_eq_nil.mp isBlank c among] at visible
    exact Bool.noConfusion visible

section Visible

variable {chars : List Char} {first last : Char}

/-- A visible end reaches the last part. -/
theorem splitFrom_ne_nil (isLast : chars[chars.length - 1]? = some last)
    (visible : Text.isSpace last = false) {start : Nat} (inside : start < chars.length) :
    splitFrom chars start ≠ [] := by
  induction left : chars.length - start using Nat.strongRecOn generalizing start with
  | ind n ih =>
    have part := lt_splitEnd inside
    rw [splitFrom, dif_pos inside]
    by_cases isEnd : splitEnd chars start = chars.length
    · obtain ⟨text, isText⟩ := trimmedPart_of_visible (by omega : start ≤ chars.length - 1)
        (by omega : chars.length - 1 < splitEnd chars start) isLast visible
      simp [isText]
    · have next := lt_nextStart part.1
      have more := ih (chars.length - nextStart start (splitEnd chars start)) (by omega)
        (by omega : nextStart start (splitEnd chars start) < chars.length) rfl
      simp [isEnd, more]

/-- A text too long for one part is two or more. -/
theorem two_le_length_splitFrom (long : chunkMaxChars < chars.length)
    (isFirst : chars[0]? = some first) (visibleFirst : Text.isSpace first = false)
    (isLast : chars[chars.length - 1]? = some last) (visible : Text.isSpace last = false) :
    2 ≤ (splitFrom chars 0).length := by
  have nonempty : 0 < chars.length := by omega
  have part := lt_splitEnd nonempty
  have next := lt_nextStart part.1
  have notEnd : splitEnd chars 0 ≠ chars.length := by omega
  have more := splitFrom_ne_nil isLast visible
    (by omega : nextStart 0 (splitEnd chars 0) < chars.length)
  obtain ⟨text, isText⟩ := trimmedPart_of_visible (Nat.le_refl 0) part.1 isFirst visibleFirst
  rw [splitFrom, dif_pos nonempty]
  simp only [isText, if_neg notEnd, length_append, length_singleton]
  have := length_pos_iff.mpr more
  omega

end Visible

theorem trim_first (nonempty : trim input ≠ []) :
    ∃ c, (trim input)[0]? = some c ∧ Text.isSpace c = false := by
  obtain ⟨c, rest, isCons⟩ := exists_cons_of_ne_nil nonempty
  obtain ⟨cut, isCut⟩ := rdropWhile_prefix Text.isSpace (l := input.dropWhile Text.isSpace)
  have isHead : (input.dropWhile Text.isSpace).head? = some c := by
    rw [← isCut]
    change (trim input ++ cut).head? = some c
    rw [isCons]
    rfl
  have visible := head?_dropWhile_not Text.isSpace input
  rw [isHead] at visible
  exact ⟨c, by rw [isCons]; rfl, visible⟩

theorem trim_last (nonempty : trim input ≠ []) :
    ∃ c, (trim input)[(trim input).length - 1]? = some c ∧ Text.isSpace c = false := by
  have visible := rdropWhile_last_not Text.isSpace (input.dropWhile Text.isSpace) nonempty
  refine ⟨(trim input).getLast nonempty, ?_, eq_false_of_ne_true visible⟩
  rw [← getLast?_eq_getElem?, getLast?_eq_some_getLast nonempty]

theorem trim_trim (input : List Char) : trim (trim input) = trim input := by
  by_cases isNil : trim input = []
  · rw [isNil]
    rfl
  · obtain ⟨c, isFirst, visible⟩ := trim_first isNil
    have front : (trim input).dropWhile Text.isSpace = trim input := by
      obtain ⟨x, rest, isCons⟩ := exists_cons_of_ne_nil isNil
      rw [isCons] at isFirst ⊢
      obtain rfl := Option.some.inj isFirst
      exact dropWhile_cons_of_neg (by simp [visible])
    rw [trim, front]
    exact rdropWhile_idempotent _ _

/-- **A trimmed text is one part exactly when it has no more than `CHUNK_MAX_CHARS` characters,
and never none.** -/
theorem length_splitChunkText (nonempty : trim input ≠ []) :
    1 ≤ (splitChunkText (trim input)).length ∧
      ((splitChunkText (trim input)).length = 1 ↔ (trim input).length ≤ chunkMaxChars) := by
  unfold splitChunkText
  split
  · rename_i short
    simp [short]
  · rename_i long
    obtain ⟨first, isFirst, visibleFirst⟩ := trim_first nonempty
    obtain ⟨last, isLast, visible⟩ := trim_last nonempty
    have many := two_le_length_splitFrom (by omega) isFirst visibleFirst isLast visible
    exact ⟨by omega, iff_of_false (by omega) long⟩

theorem trimmed_of_mem_splitFrom {chars part : List Char} {start : Nat}
    (among : part ∈ splitFrom chars start) : part ≠ [] ∧ trim part = part := by
  induction left : chars.length - start using Nat.strongRecOn generalizing start with
  | ind n ih =>
    rw [splitFrom] at among
    split at among
    · rename_i inside
      have stop := lt_splitEnd inside
      have next := lt_nextStart stop.1
      rcases mem_append.mp among with own | later
      · simp only [trimmedPart] at own
        split_ifs at own with isNil
        · exact nomatch own
        · rw [mem_singleton] at own
          exact own ▸ ⟨isNil, trim_trim _⟩
      · split at later
        · exact nomatch later
        · exact ih _ (by omega) later rfl
    · exact nomatch among

theorem trim_part_ne_nil {input part : List Char} (nonempty : trim input ≠ [])
    (among : part ∈ splitChunkText (trim input)) : trim part ≠ [] := by
  unfold splitChunkText at among
  split at among
  · rw [mem_singleton] at among
    rwa [among, trim_trim, trim_trim]
  · obtain ⟨isPart, same⟩ := trimmed_of_mem_splitFrom among
    rwa [same]

end Kuku.Search.Indexer
