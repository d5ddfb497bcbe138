/-
# Knowledge.Snippet -- the excerpt a search hit shows

`make_snippet` looks for the query in the normalized body and cuts its excerpt out of the
body.  Both are counted in characters, but not in the same text: composition makes the
normalized text shorter than the body, and lower-casing makes it longer.

`snippet_wellFormed_iff` says how far the two counts may differ.
-/
import Kuku.Knowledge.Crates

namespace Kuku.Knowledge

open Kuku.Theory List

set_option autoImplicit false

def snippetMaxChars : Nat := 240
def snippetLeadingChars : Nat := 120

section Search

-- the other crates, and `char::to_lowercase`
variable (crates : Crates) (toLowercase : Char → Chars)

def normalizeSearchText (value : String) : Chars := (crates.nfc value).toList.flatMap toLowercase

/-- The characters of the normalized body in front of the query. -/
def firstMatchStartChar (body : String) (normalizedQuery : Chars) : Option Nat :=
  (Text.cut normalizedQuery (normalizeSearchText crates toLowercase body)).map fun parts =>
    parts.1.length

end Search

/-! ## The excerpt -/

/-- `content_start` and `content_end`. -/
structure SnippetRange where
  start : Nat
  stop : Nat

/-- The range that is cut out of a body of `length` characters. -/
def snippetRange (length matchStart : Nat) : SnippetRange :=
  let contentStart := matchStart - snippetLeadingChars
  let prefixLen := if 0 < contentStart then 3 else 0
  let firstContentEnd := min length (contentStart + (snippetMaxChars - prefixLen))
  let suffixLen := if firstContentEnd < length then 3 else 0
  ⟨contentStart, min length (contentStart + (snippetMaxChars - prefixLen - suffixLen))⟩

namespace SnippetRange

variable (range : SnippetRange) (body : Chars)

def leadingMark : Chars := if 0 < range.start then ['.', '.', '.'] else []

def trailingMark : Chars := if range.stop < body.length then ['.', '.', '.'] else []

/-- `chars[content_start..content_end]`, which is out of range if it starts after its end. -/
def slice : Option Chars :=
  if range.start ≤ range.stop ∧ range.stop ≤ body.length then
    some ((body.drop range.start).take (range.stop - range.start))
  else none

end SnippetRange

section Search

variable (crates : Crates) (toLowercase : Char → Chars)

def snippetRangeOf (body : String) (normalizedQuery : Chars) : SnippetRange :=
  snippetRange body.toList.length
    ((firstMatchStartChar crates toLowercase body normalizedQuery).getD 0)

/-- `none` is an index out of range. -/
def makeSnippet (body : String) (normalizedQuery : Chars) : Option Chars :=
  if body.toList.isEmpty then some []
  else
    let range := snippetRangeOf crates toLowercase body normalizedQuery
    (range.slice body.toList).map fun slice =>
      range.leadingMark ++ slice ++ range.trailingMark body.toList

/-! ## Well formed snippets -/

/-- The character of the body at which a place of the normalized body is: what stands in front
of it does not fill the normalized text up to that place. -/
def sourceStart (body : String) (normalizedStart : Nat) : Nat :=
  Nat.findGreatest
    (fun index => (normalizeSearchText crates toLowercase
      (String.ofList (body.toList.take index))).length ≤ normalizedStart)
    body.toList.length

/-- A snippet is a range of the body between marks for what is left out, and starts at most
`SNIPPET_LEADING_CHARS` in front of the match. -/
structure WellFormedSnippet (body : String) (normalizedQuery text : Chars)
    (range : SnippetRange) : Prop where
  ordered : range.start ≤ range.stop
  inside : range.stop ≤ body.toList.length
  isText : text = range.leadingMark ++
    (body.toList.drop range.start).take (range.stop - range.start) ++ range.trailingMark body.toList
  bounded : text.length ≤ snippetMaxChars
  shows : ∀ matched,
    firstMatchStartChar crates toLowercase body normalizedQuery = some matched →
      range.start ≤ sourceStart crates toLowercase body matched ∧
        sourceStart crates toLowercase body matched ≤ range.start + snippetLeadingChars

def MakesWellFormedSnippet (body : String) (normalizedQuery : Chars) : Prop :=
  ∃ text, makeSnippet crates toLowercase body normalizedQuery = some text ∧
    WellFormedSnippet crates toLowercase body normalizedQuery text
      (snippetRangeOf crates toLowercase body normalizedQuery)

/-- Normalization adds no more than `SNIPPET_LEADING_CHARS` characters in front of the first
match, and takes none away unless the match is that close to the start of the body. -/
def KeepsCount (body : String) (normalizedQuery : Chars) : Prop :=
  ∀ before after,
    Text.cut normalizedQuery (normalizeSearchText crates toLowercase body) = some (before, after) →
      before.length ≤ sourceStart crates toLowercase body before.length + snippetLeadingChars ∧
        (sourceStart crates toLowercase body before.length ≤ before.length ∨
          sourceStart crates toLowercase body before.length ≤ snippetLeadingChars)

end Search

section Range

variable {length matchStart : Nat} {body : Chars}

theorem snippetRange_stop_le : (snippetRange length matchStart).stop ≤ length := Nat.min_le_left _ _

theorem snippetRange_ordered (inside : matchStart - snippetLeadingChars ≤ length) :
    (snippetRange length matchStart).start ≤ (snippetRange length matchStart).stop := by
  unfold snippetLeadingChars at inside
  dsimp only [snippetRange]
  unfold snippetLeadingChars snippetMaxChars
  omega

/-- The marks have their place in the limit. -/
theorem snippet_room {start prefixLen suffixLen : Nat}
    (isPrefix : prefixLen = if 0 < start then 3 else 0)
    (isSuffix : suffixLen = if min length (start + (240 - prefixLen)) < length then 3 else 0) :
    (if 0 < start then 3 else 0) +
        (min length (start + (240 - prefixLen - suffixLen)) - start) +
        (if min length (start + (240 - prefixLen - suffixLen)) < length then 3 else 0) ≤ 240 := by
  split_ifs at isPrefix isSuffix ⊢ <;> omega

theorem snippetRange_bounded {text : Chars} {range : SnippetRange}
    (isRange : range = snippetRange body.length matchStart)
    (isText : text = range.leadingMark ++ (body.drop range.start).take (range.stop - range.start) ++
      range.trailingMark body) :
    text.length ≤ snippetMaxChars := by
  subst isRange isText
  have taken : ((body.drop (snippetRange body.length matchStart).start).take
      ((snippetRange body.length matchStart).stop -
        (snippetRange body.length matchStart).start)).length ≤
      (snippetRange body.length matchStart).stop - (snippetRange body.length matchStart).start := by
    rw [length_take]
    exact Nat.min_le_left _ _
  rw [length_append, length_append]
  have leading : (snippetRange body.length matchStart).leadingMark.length =
      if 0 < (snippetRange body.length matchStart).start then 3 else 0 := by
    rw [SnippetRange.leadingMark, apply_ite List.length]
    rfl
  have trailing : ((snippetRange body.length matchStart).trailingMark body).length =
      if (snippetRange body.length matchStart).stop < body.length then 3 else 0 := by
    rw [SnippetRange.trailingMark, apply_ite List.length]
    rfl
  rw [leading, trailing]
  refine (Nat.add_le_add_right (Nat.add_le_add_left taken _) _).trans ?_
  exact snippet_room rfl rfl

end Range

section Search

variable {crates : Crates} {toLowercase : Char → Chars} {body : String} {normalizedQuery : Chars}

theorem sourceStart_le (matched : Nat) :
    sourceStart crates toLowercase body matched ≤ body.toList.length :=
  Nat.findGreatest_le _

/-- A range that is in order is cut out without an index out of range. -/
theorem makeSnippet_of_ordered
    (ordered : (snippetRangeOf crates toLowercase body normalizedQuery).start ≤
      (snippetRangeOf crates toLowercase body normalizedQuery).stop) :
    ∃ text, makeSnippet crates toLowercase body normalizedQuery = some text ∧
      text = (snippetRangeOf crates toLowercase body normalizedQuery).leadingMark ++
        (body.toList.drop (snippetRangeOf crates toLowercase body normalizedQuery).start).take
          ((snippetRangeOf crates toLowercase body normalizedQuery).stop -
            (snippetRangeOf crates toLowercase body normalizedQuery).start) ++
          (snippetRangeOf crates toLowercase body normalizedQuery).trailingMark body.toList := by
  have inside : (snippetRangeOf crates toLowercase body normalizedQuery).stop ≤
      body.toList.length := snippetRange_stop_le
  generalize isRange : snippetRangeOf crates toLowercase body normalizedQuery = range at *
  by_cases isEmpty : body.toList.isEmpty
  · refine ⟨[], by rw [makeSnippet, if_pos isEmpty], ?_⟩
    rw [List.isEmpty_iff] at isEmpty
    rw [isEmpty, length_nil] at inside
    have noStart : range.start = 0 := by omega
    rw [isEmpty, SnippetRange.leadingMark, SnippetRange.trailingMark, noStart]
    simp
  · refine ⟨_, ?_, rfl⟩
    simp only [makeSnippet, if_neg isEmpty, isRange, SnippetRange.slice]
    rw [if_pos ⟨ordered, inside⟩]
    rfl

/-- **When snippets are well formed.**  In particular there is no index out of range. -/
theorem snippet_wellFormed_iff (crates : Crates) (toLowercase : Char → Chars) (body : String)
    (normalizedQuery : Chars) :
    MakesWellFormedSnippet crates toLowercase body normalizedQuery ↔
      KeepsCount crates toLowercase body normalizedQuery := by
  have matched_iff : ∀ matched,
      firstMatchStartChar crates toLowercase body normalizedQuery = some matched ↔
        ∃ before after, Text.cut normalizedQuery (normalizeSearchText crates toLowercase body) =
          some (before, after) ∧ before.length = matched := by
    intro matched
    simp [firstMatchStartChar]
  have isStart : ∀ matched,
      firstMatchStartChar crates toLowercase body normalizedQuery = some matched →
        (snippetRangeOf crates toLowercase body normalizedQuery).start =
          matched - snippetLeadingChars := by
    intro matched isMatched
    rw [snippetRangeOf, isMatched]
    rfl
  constructor
  · rintro ⟨text, -, wellFormed⟩ before after isCut
    have isMatched := (matched_iff _).mpr ⟨before, after, isCut, rfl⟩
    obtain ⟨notAfter, close⟩ := wellFormed.shows _ isMatched
    rw [isStart _ isMatched] at notAfter close
    simp only [snippetLeadingChars] at notAfter close ⊢
    omega
  · intro keeps
    have shows : ∀ matched,
        firstMatchStartChar crates toLowercase body normalizedQuery = some matched →
          (snippetRangeOf crates toLowercase body normalizedQuery).start ≤
              sourceStart crates toLowercase body matched ∧
            sourceStart crates toLowercase body matched ≤
              (snippetRangeOf crates toLowercase body normalizedQuery).start +
                snippetLeadingChars := by
      intro matched isMatched
      obtain ⟨before, after, isCut, rfl⟩ := (matched_iff matched).mp isMatched
      obtain ⟨added, lost⟩ := keeps before after isCut
      rw [isStart _ isMatched]
      simp only [snippetLeadingChars] at added lost ⊢
      omega
    have ordered : (snippetRangeOf crates toLowercase body normalizedQuery).start ≤
        (snippetRangeOf crates toLowercase body normalizedQuery).stop := by
      apply snippetRange_ordered
      cases isMatched : firstMatchStartChar crates toLowercase body normalizedQuery with
      | none => exact Nat.zero_le _
      | some matched =>
        have start := (shows matched isMatched).1
        rw [isStart _ isMatched] at start
        exact start.trans (sourceStart_le matched)
    obtain ⟨text, made, isText⟩ := makeSnippet_of_ordered ordered
    exact ⟨text, made, ordered, snippetRange_stop_le, isText, snippetRange_bounded rfl isText, shows⟩

end Search

/-! ## A body that normalization makes longer -/

/-- The lower case of `İ` is an `i` and a combining dot. -/
def sampleToLowercase (c : Char) : Chars :=
  if c = 'İ' then ['i', '\u0307'] else [c]

def dottedBody (dotted : Nat) : String := String.ofList (List.replicate dotted 'İ' ++ ['x'])

theorem firstMatch_dottedBody (dotted : Nat) :
    firstMatchStartChar composedCrates sampleToLowercase (dottedBody dotted) ['x'] =
      some (dotted * 2) := by
  have isText : normalizeSearchText composedCrates sampleToLowercase (dottedBody dotted) =
      (List.replicate dotted ['i', '\u0307']).flatten ++ ['x'] := by
    change (dottedBody dotted).toList.flatMap sampleToLowercase = _
    rw [dottedBody, String.toList_ofList, flatMap_append, flatMap_def, map_replicate]
    rfl
  have absent : 'x' ∉ (List.replicate dotted ['i', '\u0307']).flatten := by
    simp
  rw [firstMatchStartChar, isText, Text.cut_singleton absent]
  simp

/-- The match is found so far behind the end of the body that the excerpt would start there. -/
theorem makeSnippet_dottedBody {dotted : Nat} (long : 121 < dotted) :
    makeSnippet composedCrates sampleToLowercase (dottedBody dotted) ['x'] = none := by
  have length : (dottedBody dotted).toList.length = dotted + 1 := by
    rw [dottedBody, String.toList_ofList]
    simp
  have some : (dottedBody dotted).toList.isEmpty = false := by
    rw [dottedBody, String.toList_ofList]
    simp
  have start : (snippetRangeOf composedCrates sampleToLowercase (dottedBody dotted) ['x']).start =
      dotted * 2 - snippetLeadingChars := by
    rw [snippetRangeOf, firstMatch_dottedBody]
    rfl
  have stop : (snippetRangeOf composedCrates sampleToLowercase (dottedBody dotted) ['x']).stop ≤
      dotted + 1 :=
    length ▸ snippetRange_stop_le
  have disordered : ¬ ((snippetRangeOf composedCrates sampleToLowercase (dottedBody dotted)
      ['x']).start ≤ (snippetRangeOf composedCrates sampleToLowercase (dottedBody dotted)
        ['x']).stop) := by
    rw [start]
    unfold snippetLeadingChars
    omega
  simp only [makeSnippet, some, SnippetRange.slice, disordered, false_and, if_false,
    Option.map_none, Bool.false_eq_true]

theorem snippet_out_of_range :
    ∃ crates toLowercase body normalizedQuery, normalizedQuery ≠ [] ∧
      makeSnippet crates toLowercase body normalizedQuery = none ∧
      ¬ MakesWellFormedSnippet crates toLowercase body normalizedQuery := by
  refine ⟨composedCrates, sampleToLowercase, dottedBody 122, ['x'], by decide,
    makeSnippet_dottedBody (by decide), ?_⟩
  rintro ⟨text, made, -⟩
  rw [makeSnippet_dottedBody (by decide)] at made
  cases made

end Kuku.Knowledge
