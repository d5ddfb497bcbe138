/-
# Search.WikilinkScan -- the wikilinks of a text

`extract_wikilinks` masks the code of the text and scans the rest for `[[`.  What stands between
an opening and the next `]]` is a candidate; the scan goes on behind it, whether it is a link or
not.  An opening that no `]]` follows in its line is passed over.
-/
import Kuku.Search.Writer

namespace Kuku.Search.Indexer

open Kuku.Theory List Option

/-! ## Masking code -/

def countRun (needle : Char) (chars : List Char) : Nat := (chars.takeWhile (· = needle)).length

def maskChar (ch : Char) : Char := if ch = '\n' ∨ ch = '\r' then ch else ' '

/-- The fence that begins a line. -/
def detectFenceStart (lineStart : Bool) (chars : List Char) : Option (Char × Nat) :=
  match chars with
  | [] => none
  | ch :: _ =>
    if (ch = '`' ∨ ch = '~') ∧ lineStart = true ∧ 3 ≤ countRun ch chars then
      some (ch, countRun ch chars)
    else none

/-- A line up to and with its end, and what follows it. -/
def takeLine : List Char → List Char × List Char
  | [] => ([], [])
  | ch :: rest => if ch = '\n' then ([ch], rest) else (ch :: (takeLine rest).1, (takeLine rest).2)

/-- A fenced block after its first character, with its last line, and what follows it. -/
def takeFenced (fenceChar : Char) (fenceLen : Nat) : (lineStart : Bool) → List Char →
    List Char × List Char
  | _, [] => ([], [])
  | lineStart, ch :: rest =>
    if lineStart = true ∧ fenceLen ≤ countRun fenceChar (ch :: rest) then takeLine (ch :: rest)
    else
      let later := takeFenced fenceChar fenceLen (ch = '\n') rest
      (ch :: later.1, later.2)

/-- What stands before the first place where at least so many backticks follow, and what
follows there. -/
def findBacktickRun (runLen : Nat) : List Char → Option (List Char × List Char)
  | [] => none
  | ch :: rest =>
    if ch = '`' ∧ runLen ≤ countRun '`' (ch :: rest) then some ([], ch :: rest)
    else (findBacktickRun runLen rest).map fun found => (ch :: found.1, found.2)

/-- The code that begins a text, if it begins with code, and what follows it. -/
def takeCode (lineStart : Bool) (chars : List Char) : Option (List Char × List Char) :=
  match detectFenceStart lineStart chars with
  | some (fenceChar, fenceLen) =>
    let later := takeFenced fenceChar fenceLen false chars.tail
    some (chars.take 1 ++ later.1, later.2)
  | none =>
    if chars.head? = some '`' then
      let runLen := countRun '`' chars
      (findBacktickRun runLen (chars.drop runLen)).map fun found =>
        (chars.take runLen ++ found.1 ++ found.2.take runLen, found.2.drop runLen)
    else none

theorem takeLine_append (chars : List Char) : (takeLine chars).1 ++ (takeLine chars).2 = chars := by
  induction chars with
  | nil => rfl
  | cons ch rest ih =>
    rw [takeLine]
    split
    · rfl
    · exact congrArg (ch :: ·) ih

theorem takeFenced_append {fenceChar : Char} {fenceLen : Nat} (lineStart : Bool)
    (chars : List Char) : (takeFenced fenceChar fenceLen lineStart chars).1 ++
      (takeFenced fenceChar fenceLen lineStart chars).2 = chars := by
  induction chars generalizing lineStart with
  | nil => rfl
  | cons ch rest ih =>
    rw [takeFenced]
    split
    · exact takeLine_append _
    · exact congrArg (ch :: ·) (ih _)

theorem findBacktickRun_append {runLen : Nat} {chars before later : List Char}
    (found : findBacktickRun runLen chars = some (before, later)) : before ++ later = chars := by
  induction chars generalizing before with
  | nil => cases found
  | cons ch rest ih =>
    rw [findBacktickRun] at found
    split at found
    · cases found
      rfl
    · obtain ⟨⟨first, last⟩, isFound, isPair⟩ := map_eq_some_iff.mp found
      cases isPair
      exact congrArg (ch :: ·) (ih isFound)

variable {chars code after : List Char} {lineStart : Bool}

variable (taken : takeCode lineStart chars = some (code, after))

include taken

theorem takeCode_append : code ++ after = chars := by
  unfold takeCode at taken
  split at taken
  · cases taken
    rw [append_assoc, takeFenced_append]
    cases chars <;> rfl
  · split at taken
    · obtain ⟨⟨before, later⟩, isFound, isPair⟩ := map_eq_some_iff.mp taken
      cases isPair
      have whole := findBacktickRun_append isFound
      simp only [append_assoc, take_append_drop, whole]
    · cases taken

theorem takeCode_ne_nil : code ≠ [] := by
  unfold takeCode at taken
  cases chars with
  | nil => cases taken
  | cons ch rest =>
    split at taken
    · cases taken
      simp
    · split at taken
      · rename_i isTick
        obtain ⟨⟨before, later⟩, -, isPair⟩ := map_eq_some_iff.mp taken
        cases isPair
        simp only [head?_cons, Option.some.injEq] at isTick
        subst isTick
        simp [countRun]
      · cases taken

theorem takeCode_length : after.length < chars.length := by
  have nonempty := length_pos_of_ne_nil (takeCode_ne_nil taken)
  rw [← takeCode_append taken, length_append]
  omega

omit taken

/-- `mask_code_regions`, from a place that begins a line or not. -/
def maskFrom (lineStart : Bool) (chars : List Char) : List Char :=
  match _taken : takeCode lineStart chars with
  | some (code, after) =>
    code.map maskChar ++ maskFrom (code.getLast? = some '\n') after
  | none =>
    match chars with
    | [] => []
    | ch :: rest => ch :: maskFrom (ch = '\n') rest
termination_by chars.length
decreasing_by
  · exact takeCode_length _taken
  · exact Nat.lt_succ_self _

def maskCodeRegions (input : List Char) : List Char := maskFrom true input

/-- Without a backtick or a tilde there is no code. -/
theorem maskFrom_plain {chars : List Char} (noTick : '`' ∉ chars) (noTilde : '~' ∉ chars)
    (lineStart : Bool) : maskFrom lineStart chars = chars := by
  induction chars generalizing lineStart with
  | nil => rw [maskFrom]; rfl
  | cons ch rest ih =>
    obtain ⟨notTick, restNoTick⟩ := not_or.mp (mt mem_cons.mpr noTick)
    obtain ⟨notTilde, restNoTilde⟩ := not_or.mp (mt mem_cons.mpr noTilde)
    have none : takeCode lineStart (ch :: rest) = none := by
      simp [takeCode, detectFenceStart, Ne.symm notTick, Ne.symm notTilde]
    rw [maskFrom]
    split
    · rename_i taken
      rw [none] at taken
      cases taken
    · exact congrArg (ch :: ·) (ih restNoTick restNoTilde _)

/-! ## Scanning for links -/

/-- A candidate up to its `]]`, and what follows it. -/
def findClosing : List Char → Option (List Char × List Char)
  | ']' :: ']' :: after => some ([], after)
  | '\n' :: _ | '\r' :: _ => none
  | ch :: rest => (findClosing rest).map fun found => (ch :: found.1, found.2)
  | [] => none

theorem findClosing_append {text content after : List Char}
    (found : findClosing text = some (content, after)) :
    content ++ ']' :: ']' :: after = text := by
  fun_induction findClosing text generalizing content with
  | case1 after =>
    cases found
    rfl
  | case2 | case3 | case5 => cases found
  | case4 ch rest _ _ _ ih =>
    obtain ⟨⟨first, last⟩, isFound, isPair⟩ := map_eq_some_iff.mp found
    cases isPair
    exact congrArg (ch :: ·) (ih isFound)

theorem findClosing_length {text content after : List Char}
    (found : findClosing text = some (content, after)) : after.length < text.length := by
  rw [← findClosing_append found, length_append, length_cons, length_cons]
  omega

/-- What the loop of `scan_text_for_wikilinks` passes to `finalize_candidate`. -/
def candidates : List Char → List (List Char)
  | '[' :: '[' :: rest =>
    match _found : findClosing rest with
    | some (content, after) => content :: candidates after
    | none => candidates rest
  | _ :: rest => candidates rest
  | [] => []
termination_by text => text.length
decreasing_by
  · have shorter := findClosing_length _found
    rw [length_cons, length_cons]
    omega
  all_goals
    simp only [length_cons]
    omega

/-- The target and the alias of a candidate: before and behind its first bar. -/
def splitBar (content : List Char) : List Char × Option (List Char) := (content.takeWhile (· ≠ '|'),
    if '|' ∈ content then some (content.dropWhile (· ≠ '|')).tail else none)

def finalizeCandidate (target : List Char) (linkAlias : Option (List Char)) :
    Option (List Char × Option (List Char)) :=
  if Chars.trim target = [] then none
  else
    match linkAlias with
    | none => some (Chars.trim target, none)
    | some value =>
      if Chars.trim value = [] then none else some (Chars.trim target, some (Chars.trim value))

def finalized (content : List Char) : Option (List Char × Option (List Char)) :=
  finalizeCandidate (splitBar content).1 (splitBar content).2

def scanTextForWikilinks (input : List Char) : List (List Char × Option (List Char)) :=
  (candidates input).filterMap finalized

def extractWikilinks (markdown : List Char) : List ExtractedWikilink :=
  (scanTextForWikilinks (maskCodeRegions markdown)).mapIdx fun ordinal link =>
    ⟨link.1, link.2, ordinal⟩

end Kuku.Search.Indexer
