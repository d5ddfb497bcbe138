/-
# Markdown.Wikilink -- the wikilink construct of the editor's parser

The tokenizer is tried at a `[` and reads `[[target]]` or `[[target|alias]]`, code by code; a
closing bracket ends the target or the alias and must be followed by another one.  Where it
refuses, the parser goes on with the next character (`wikilinks`).
-/
import Kuku.Theory.Chars

namespace Kuku.Markdown

open List Option

structure WikiLink where
  target : List Char
  linkAlias : Option (List Char)

/-- What the tokenizer does with the next code. -/
inductive WikilinkState where
  | start
  | openSecondBracket
  | targetStart
  | targetInside
  | aliasStart
  | aliasInside
  | closeSecondBracket

def isEofOrLineEnding : Option Char → Bool
  | none => true
  | some c => c = '\r' || c = '\n'

def isOpenBracket (code : Option Char) : Bool := code = some '['

def isCloseBracket (code : Option Char) : Bool := code = some ']'

variable {c : Char}

theorem ends_iff : isEofOrLineEnding c = true ↔ c = '\r' ∨ c = '\n' := by
  simp [isEofOrLineEnding]

theorem closes_iff : isCloseBracket c = true ↔ c = ']' := by
  simp [isCloseBracket]

/-- `tokenizer`, with what it has read of the link. -/
@[simp] def tokenizeFrom (link : WikiLink) : WikilinkState → List Char → Option (WikiLink × List Char)
  | .start, c :: rest =>
    if !isOpenBracket c then none else tokenizeFrom link .openSecondBracket rest
  | .openSecondBracket, c :: rest =>
    if !isOpenBracket c then none else tokenizeFrom link .targetStart rest
  | .targetStart, c :: rest =>
    if isEofOrLineEnding c || isCloseBracket c || c = '|' then none
    else tokenizeFrom { link with target := [c] } .targetInside rest
  | .targetInside, c :: rest =>
    if isEofOrLineEnding c then none
    else if c = '|' then tokenizeFrom link .aliasStart rest
    else if isCloseBracket c then tokenizeFrom link .closeSecondBracket rest
    else tokenizeFrom { link with target := link.target ++ [c] } .targetInside rest
  | .aliasStart, c :: rest =>
    if isEofOrLineEnding c || isCloseBracket c then none
    else tokenizeFrom { link with linkAlias := some [c] } .aliasInside rest
  | .aliasInside, c :: rest =>
    if isEofOrLineEnding c then none
    else if isCloseBracket c then tokenizeFrom link .closeSecondBracket rest
    else tokenizeFrom { link with linkAlias := link.linkAlias.map (· ++ [c]) } .aliasInside rest
  | .closeSecondBracket, c :: rest =>
    if !isCloseBracket c then none else some (link, rest)
  | _, [] => none

/-- The link that begins a text, and what follows it. -/
def tokenizer (text : List Char) : Option (WikiLink × List Char) :=
  tokenizeFrom ⟨[], none⟩ .start text

def handleWikilink (link : WikiLink) : List Char :=
  let inner :=
    match link.linkAlias with
    | some value => if value = [] then link.target else link.target ++ '|' :: value
    | none => link.target
  "[[".toList ++ inner ++ "]]".toList

/-! ## What the tokenizer reads -/

/-- No character ends the target, the alias or the line. -/
def Inert (text : List Char) : Prop := ∀ c ∈ text, c ≠ ']' ∧ c ≠ '\r' ∧ c ≠ '\n'

/-- The links that can be written as they are. -/
structure WikiLink.IsPlain (link : WikiLink) : Prop where
  target : Inert link.target ∧ '|' ∉ link.target ∧ link.target ≠ []
  linkAlias : ∀ value, link.linkAlias = some value → Inert value ∧ value ≠ []

theorem Inert.of_cons {text : List Char} (inert : Inert (c :: text)) :
    (c ≠ ']' ∧ c ≠ '\r' ∧ c ≠ '\n') ∧ Inert text :=
  forall_mem_cons.mp inert

/-- The text between the brackets. -/
def WikiLink.inner (link : WikiLink) : List Char :=
  link.target ++ link.linkAlias.elim [] fun value => '|' :: value

variable {link : WikiLink} {text after : List Char}

theorem tokenizeFrom_alias (link : WikiLink) (value : List Char) (inert : Inert text) :
    tokenizeFrom { link with linkAlias := some value } .aliasInside (text ++ ']' :: ']' :: after) =
      some ({ link with linkAlias := some (value ++ text) }, after) := by
  induction text generalizing value with
  | nil => simp [tokenizeFrom, isEofOrLineEnding, isCloseBracket]
  | cons c rest ih =>
    obtain ⟨⟨notClose, notReturn, notFeed⟩, restInert⟩ := inert.of_cons
    simp only [cons_append, tokenizeFrom, isEofOrLineEnding, isCloseBracket, notClose,
      notReturn, notFeed, Option.some.injEq, decide_false, Bool.or_self, Bool.false_eq_true,
      ↓reduceIte, map_some]
    rw [ih _ restInert, append_assoc]
    rfl

theorem tokenizeFrom_target (link : WikiLink) (value : List Char) (inert : Inert text)
    (noBar : '|' ∉ text) :
    tokenizeFrom { link with target := value } .targetInside (text ++ ']' :: ']' :: after) =
      some ({ link with target := value ++ text }, after) := by
  induction text generalizing value with
  | nil => simp [tokenizeFrom, isEofOrLineEnding, isCloseBracket]
  | cons c rest ih =>
    obtain ⟨⟨notClose, notReturn, notFeed⟩, restInert⟩ := inert.of_cons
    obtain ⟨notBar, restNoBar⟩ := not_or.mp (mt mem_cons.mpr noBar)
    simp only [cons_append, tokenizeFrom, isEofOrLineEnding, isCloseBracket, notClose,
      notReturn, notFeed, Ne.symm notBar, Option.some.injEq, decide_false, Bool.or_self,
      Bool.false_eq_true, ↓reduceIte]
    rw [ih _ restInert restNoBar, append_assoc]
    rfl

theorem tokenizeFrom_bar (link : WikiLink) (value : List Char) (inert : Inert text)
    (noBar : '|' ∉ text) :
    tokenizeFrom { link with target := value } .targetInside (text ++ '|' :: after) =
      tokenizeFrom { link with target := value ++ text } .aliasStart after := by
  induction text generalizing value with
  | nil => simp [tokenizeFrom, isEofOrLineEnding]
  | cons c rest ih =>
    obtain ⟨⟨notClose, notReturn, notFeed⟩, restInert⟩ := inert.of_cons
    obtain ⟨notBar, restNoBar⟩ := not_or.mp (mt mem_cons.mpr noBar)
    simp only [cons_append, tokenizeFrom, isEofOrLineEnding, isCloseBracket, notClose,
      notReturn, notFeed, Ne.symm notBar, Option.some.injEq, decide_false, Bool.or_self,
      Bool.false_eq_true, ↓reduceIte]
    rw [ih _ restInert restNoBar, append_assoc]
    rfl

/-- Every plain link is read back as it is. -/
theorem tokenizer_inner (isPlain : link.IsPlain) (after : List Char) :
    tokenizer ('[' :: '[' :: link.inner ++ ']' :: ']' :: after) = some (link, after) := by
  obtain ⟨target, linkAlias⟩ := link
  obtain ⟨⟨inert, noBar, visible⟩, aliasOk⟩ := isPlain
  simp only at inert noBar visible aliasOk
  cases target with
  | nil => exact absurd rfl visible
  | cons c rest =>
    obtain ⟨⟨notClose, notReturn, notFeed⟩, restInert⟩ := inert.of_cons
    obtain ⟨notBar, restNoBar⟩ := not_or.mp (mt mem_cons.mpr noBar)
    have opened : ∀ text, tokenizer ('[' :: '[' :: c :: text) =
        tokenizeFrom ⟨[c], none⟩ .targetInside text := by
      intro text
      simp [tokenizer, tokenizeFrom, isOpenBracket, isEofOrLineEnding, isCloseBracket, notClose,
        notReturn, notFeed, Ne.symm notBar]
    cases linkAlias with
    | none =>
      simp only [WikiLink.inner, elim_none, append_nil, cons_append]
      rw [opened]
      exact tokenizeFrom_target ⟨[c], none⟩ [c] restInert restNoBar
    | some value =>
      obtain ⟨valueInert, nonempty⟩ := aliasOk value rfl
      simp only [WikiLink.inner, elim_some, append_assoc, cons_append]
      rw [opened, tokenizeFrom_bar ⟨[c], none⟩ [c] restInert restNoBar]
      cases value with
      | nil => exact absurd rfl nonempty
      | cons d more =>
        obtain ⟨⟨notCloseToo, notReturnToo, notFeedToo⟩, moreInert⟩ := valueInert.of_cons
        simp only [cons_append, tokenizeFrom, isEofOrLineEnding, isCloseBracket,
          notCloseToo, notReturnToo, notFeedToo, Option.some.injEq, decide_false,
          Bool.or_self, Bool.false_eq_true, ↓reduceIte]
        exact tokenizeFrom_alias ⟨c :: rest, none⟩ [d] moreInert

variable {found : WikiLink}

theorem closing_of_tokenizeFrom
    (read : tokenizeFrom link .closeSecondBracket text = some (found, after)) :
    found = link ∧ text = ']' :: after := by
  cases text with
  | nil => cases read
  | cons c rest =>
    simp only [tokenizeFrom] at read
    by_cases isClose : c = ']'
    · subst isClose
      cases read
      exact ⟨rfl, rfl⟩
    · simp [closes_iff, isClose] at read

theorem alias_of_tokenizeFrom (link : WikiLink) (value : List Char)
    (read : tokenizeFrom { link with linkAlias := some value } .aliasInside text =
      some (found, after)) :
    ∃ more, Inert more ∧ text = more ++ ']' :: ']' :: after ∧
      found = { link with linkAlias := some (value ++ more) } := by
  induction text generalizing value with
  | nil => cases read
  | cons c rest ih =>
    simp only [tokenizeFrom, ends_iff, closes_iff] at read
    by_cases ends : c = '\r' ∨ c = '\n'
    · simp [ends] at read
    · rw [if_neg ends] at read
      by_cases isClose : c = ']'
      · subst isClose
        obtain ⟨rfl, rfl⟩ := closing_of_tokenizeFrom read
        exact ⟨[], nofun, rfl, by simp⟩
      · rw [if_neg isClose] at read
        obtain ⟨more, inert, isText, isFound⟩ := ih _ read
        refine ⟨c :: more, forall_mem_cons.mpr ⟨⟨isClose, not_or.mp ends⟩, inert⟩,
          congrArg (c :: ·) isText, ?_⟩
        rw [isFound, append_assoc]
        rfl

theorem target_of_tokenizeFrom (link : WikiLink) (value : List Char)
    (read : tokenizeFrom { link with target := value } .targetInside text = some (found, after)) :
    ∃ more, Inert more ∧ '|' ∉ more ∧
      ((text = more ++ ']' :: ']' :: after ∧ found = { link with target := value ++ more }) ∨
        ∃ rest, text = more ++ '|' :: rest ∧
          tokenizeFrom { link with target := value ++ more } .aliasStart rest =
            some (found, after)) := by
  induction text generalizing value with
  | nil => cases read
  | cons c rest ih =>
    simp only [tokenizeFrom, ends_iff, closes_iff] at read
    by_cases ends : c = '\r' ∨ c = '\n'
    · simp [ends] at read
    · rw [if_neg ends] at read
      by_cases isBar : c = '|'
      · subst isBar
        rw [if_pos rfl] at read
        refine ⟨[], nofun, nofun, .inr ⟨rest, rfl, ?_⟩⟩
        rw [append_nil]
        exact read
      · rw [if_neg isBar] at read
        by_cases isClose : c = ']'
        · subst isClose
          obtain ⟨rfl, rfl⟩ := closing_of_tokenizeFrom read
          exact ⟨[], nofun, nofun, .inl ⟨rfl, by simp⟩⟩
        · rw [if_neg isClose] at read
          obtain ⟨more, inert, noBar, isRead⟩ := ih _ read
          refine ⟨c :: more, forall_mem_cons.mpr ⟨⟨isClose, not_or.mp ends⟩, inert⟩, ?_, ?_⟩
          · rintro (_ | ⟨_, later⟩)
            · exact isBar rfl
            · exact noBar later
          · rw [append_assoc] at isRead
            rcases isRead with ⟨rfl, isFound⟩ | ⟨later, rfl, isFound⟩
            · exact .inl ⟨rfl, isFound⟩
            · exact .inr ⟨later, rfl, isFound⟩

/-- **What the tokenizer accepts**: a plain link between brackets. -/
theorem tokenizer_iff : tokenizer text = some (found, after) ↔
    found.IsPlain ∧ text = '[' :: '[' :: found.inner ++ ']' :: ']' :: after := by
  constructor
  · intro read
    match text with
    | [] => cases read
    | [c] =>
      simp only [tokenizer, tokenizeFrom] at read
      split at read <;> cases read
    | c :: d :: rest =>
      simp only [tokenizer, tokenizeFrom, isOpenBracket] at read
      by_cases first : c = '['
      · by_cases second : d = '['
        · subst first second
          simp only [decide_true, Bool.not_true, Bool.false_eq_true, ↓reduceIte] at read
          cases rest with
          | nil => cases read
          | cons e rest =>
            simp only [tokenizeFrom, ends_iff, closes_iff, Bool.or_eq_true, decide_eq_true_eq] at read
            by_cases refused : e = '\r' ∨ e = '\n' ∨ e = ']' ∨ e = '|'
            · rcases refused with rfl | rfl | rfl | rfl <;> cases read
            · obtain ⟨notReturn, notFeed, notClose, notBar⟩ := by
                simpa only [not_or] using refused
              rw [if_neg (by simp [notReturn, notFeed, notClose, notBar])] at read
              obtain ⟨more, inert, noBar, isRead⟩ := target_of_tokenizeFrom ⟨[], none⟩ [e] read
              have targetInert : Inert (e :: more) :=
                forall_mem_cons.mpr ⟨⟨notClose, notReturn, notFeed⟩, inert⟩
              have targetNoBar : '|' ∉ e :: more := by
                rintro (_ | ⟨_, later⟩)
                · exact notBar rfl
                · exact noBar later
              rcases isRead with ⟨rfl, rfl⟩ | ⟨later, rfl, isFound⟩
              · refine ⟨⟨⟨targetInert, targetNoBar, nofun⟩, nofun⟩, ?_⟩
                simp [WikiLink.inner]
              · cases later with
                | nil => cases isFound
                | cons g later =>
                  simp only [tokenizeFrom, ends_iff, closes_iff, Bool.or_eq_true] at isFound
                  by_cases isEnd : g = '\r' ∨ g = '\n' ∨ g = ']'
                  · rcases isEnd with rfl | rfl | rfl <;> cases isFound
                  · obtain ⟨gReturn, gFeed, gClose⟩ := by
                      simpa only [not_or] using isEnd
                    rw [if_neg (by simp [gReturn, gFeed, gClose])] at isFound
                    obtain ⟨value, valueInert, rfl, rfl⟩ :=
                      alias_of_tokenizeFrom ⟨e :: more, none⟩ [g] isFound
                    refine ⟨⟨⟨targetInert, targetNoBar, nofun⟩, ?_⟩, ?_⟩
                    · rintro _ ⟨⟩
                      exact ⟨forall_mem_cons.mpr ⟨⟨gClose, gReturn, gFeed⟩, valueInert⟩, nofun⟩
                    · simp [WikiLink.inner]
        · simp [first, second] at read
      · simp [first] at read
  · rintro ⟨isPlain, rfl⟩
    exact tokenizer_inner isPlain after

/-- What is written for a link that was read is read as the same link. -/
theorem tokenizer_handleWikilink (read : tokenizer text = some (found, after)) :
    tokenizer (handleWikilink found) = some (found, []) := by
  obtain ⟨isPlain, -⟩ := tokenizer_iff.mp read
  have written : handleWikilink found = '[' :: '[' :: found.inner ++ [']', ']'] := by
    obtain ⟨target, linkAlias⟩ := found
    cases linkAlias with
    | none => simp [handleWikilink, WikiLink.inner]
    | some value =>
      have nonempty := (isPlain.linkAlias value rfl).2
      simp [handleWikilink, WikiLink.inner, nonempty]
  rw [written]
  exact tokenizer_inner isPlain []

/-! ## The links of a line -/

theorem tokenizer_length (read : tokenizer text = some (link, after)) :
    after.length < text.length := by
  obtain ⟨-, rfl⟩ := tokenizer_iff.mp read
  simp only [length_append, length_cons]
  omega

/-- The tokenizer tried at each `[`, from left to right. -/
def wikilinks (text : List Char) : List WikiLink :=
  match _read : tokenizer text with
  | some (link, after) => link :: wikilinks after
  | none =>
    match text with
    | [] => []
    | _ :: rest => wikilinks rest
termination_by text.length
decreasing_by
  · exact tokenizer_length _read
  · exact Nat.lt_succ_self _

theorem wikilinks_of_read (read : tokenizer text = some (link, after)) :
    wikilinks text = link :: wikilinks after := by
  rw [wikilinks]
  split
  · rename_i isRead
    rw [read] at isRead
    cases isRead
    rfl
  · rename_i notRead
    rw [read] at notRead
    cases notRead

theorem wikilinks_of_refused {rest : List Char} (refused : tokenizer (c :: rest) = none) :
    wikilinks (c :: rest) = wikilinks rest := by
  rw [wikilinks]
  split
  · rename_i isRead
    rw [refused] at isRead
    cases isRead
  · rfl

@[simp] theorem wikilinks_nil : wikilinks [] = [] := by
  rw [wikilinks]
  rfl

end Kuku.Markdown
