/-
# Search.SameLinks -- the links of the index and the links of the editor

On a line without code the editor's parser finds a link in a candidate of the indexer or none,
and it ends where the candidate ends (`wikilinks_line`).  So the two lists of links are the same
exactly where they are the same candidate by candidate (`same_links_iff`): no candidate that is
a link has a single `]`, and no candidate that is none has an opening the parser accepts.
-/
import Kuku.Search.WikilinkScan
import Kuku.Markdown.Wikilink

namespace Kuku.Search.Indexer

open Kuku.Theory Kuku.Markdown List Option

/-! ## Candidates -/

/-- No `]]` ends before the one that follows. -/
def NoPair (content : List Char) : Prop :=
  (content ++ [']']).IsChain fun c d => ¬ (c = ']' ∧ d = ']')

theorem NoPair.tail {c : Char} {rest : List Char} (noPair : NoPair (c :: rest)) : NoPair rest :=
  List.IsChain.tail noPair

theorem noPair_of_findClosing {text content after : List Char}
    (found : findClosing text = some (content, after)) : NoPair content := by
  fun_induction findClosing text generalizing content with
  | case1 =>
    cases found
    exact isChain_singleton _
  | case2 | case3 | case5 => cases found
  | case4 ch rest notPair _ _ ih =>
    obtain ⟨⟨first, last⟩, isFound, isPair⟩ := map_eq_some_iff.mp found
    cases isPair
    have whole := findClosing_append isFound
    have later : NoPair first := ih isFound
    unfold NoPair at later ⊢
    cases first with
    | nil =>
      refine isChain_cons_cons.mpr ⟨?_, later⟩
      rintro ⟨isClose, -⟩
      exact notPair _ isClose whole.symm
    | cons d more =>
      refine isChain_cons_cons.mpr ⟨?_, later⟩
      rintro ⟨isClose, isCloseToo⟩
      subst isCloseToo
      exact notPair _ isClose whole.symm

theorem noPair_opening {content : List Char} (noPair : NoPair content) :
    NoPair ('[' :: '[' :: content) := by
  refine isChain_cons_cons.mpr ⟨by simp, isChain_cons.mpr ⟨?_, noPair⟩⟩
  rintro _ - ⟨isClose, -⟩
  cases isClose

/-- Where the first `]]` stands. -/
theorem closing_unique {a b x y : List Char} (noPair : NoPair a) (noClose : ']' ∉ b)
    (same : a ++ ']' :: ']' :: x = b ++ ']' :: ']' :: y) : a = b ∧ x = y := by
  induction a generalizing b with
  | nil =>
    cases b with
    | nil =>
      cases same
      exact ⟨rfl, rfl⟩
    | cons d more =>
      obtain ⟨isClose, -⟩ := List.cons.inj same
      exact absurd (isClose ▸ mem_cons_self) noClose
  | cons c rest ih =>
    cases b with
    | nil =>
      obtain ⟨isClose, isRest⟩ := List.cons.inj same
      unfold NoPair at noPair
      cases rest with
      | nil => exact absurd ⟨isClose, rfl⟩ (isChain_cons_cons.mp noPair).1
      | cons d more =>
        obtain ⟨isCloseToo, -⟩ := List.cons.inj isRest
        exact absurd ⟨isClose, isCloseToo⟩ (isChain_cons_cons.mp noPair).1
    | cons d more =>
      obtain ⟨rfl, isRest⟩ := List.cons.inj same
      obtain ⟨rfl, rfl⟩ := ih noPair.tail (mt (mem_cons_of_mem _) noClose) isRest
      exact ⟨rfl, rfl⟩

/-! ## The parser in a candidate -/

variable {link : WikiLink}

theorem inner_noClose (isPlain : link.IsPlain) : ']' ∉ link.inner := by
  obtain ⟨target, linkAlias⟩ := link
  intro among
  rcases mem_append.mp among with inTarget | inAlias
  · exact (isPlain.target.1 _ inTarget).1 rfl
  · cases linkAlias with
    | none => cases inAlias
    | some value =>
      rcases mem_cons.mp inAlias with isBar | inValue
      · cases isBar
      · exact ((isPlain.linkAlias value rfl).1 _ inValue).1 rfl

/-- The tokenizer does not see past the end of a candidate. -/
theorem tokenizer_candidate {content after rest : List Char} (noPair : NoPair content) :
    tokenizer (content ++ ']' :: ']' :: after) = some (link, rest) ↔
      (link.IsPlain ∧ content = '[' :: '[' :: link.inner) ∧ rest = after := by
  rw [tokenizer_iff]
  constructor
  · rintro ⟨isPlain, same⟩
    have noClose : ']' ∉ '[' :: '[' :: link.inner := by
      simpa using inner_noClose isPlain
    obtain ⟨isContent, isRest⟩ := closing_unique noPair noClose same
    exact ⟨⟨isPlain, isContent⟩, isRest.symm⟩
  · rintro ⟨⟨isPlain, rfl⟩, rfl⟩
    exact ⟨isPlain, rfl⟩

@[grind =] def firstLink : List Char → Option WikiLink
  | [] => none
  | c :: rest =>
    match tokenizer (c :: rest ++ [']', ']']) with
    | some (link, _) => some link
    | none => firstLink rest

theorem firstLink_eq_none {content : List Char} (noPair : NoPair content) :
    firstLink content = none ↔ ∀ before (link : WikiLink), link.IsPlain →
      content ≠ before ++ '[' :: '[' :: link.inner := by
  induction content with
  | nil => simp [firstLink]
  | cons c rest ih =>
    rw [firstLink]
    cases read : tokenizer (c :: rest ++ [']', ']']) with
    | some found =>
      obtain ⟨⟨isPlain, isContent⟩, -⟩ := (tokenizer_candidate noPair).mp read
      exact iff_of_false nofun fun none => none [] found.1 isPlain isContent
    | none =>
      dsimp only
      rw [ih noPair.tail]
      constructor
      · intro none before link isPlain isContent
        cases before with
        | nil =>
          have isRead : tokenizer (c :: rest ++ ']' :: ']' :: []) = some (link, []) :=
            (tokenizer_candidate noPair).mpr ⟨⟨isPlain, isContent⟩, rfl⟩
          rw [read] at isRead
          cases isRead
        | cons d more => exact none more link isPlain (List.cons.inj isContent).2
      · rintro none before link isPlain rfl
        exact none (c :: before) link isPlain rfl

theorem firstLink_some {content : List Char} (noPair : NoPair content)
    (isFirst : firstLink content = some link) : link.IsPlain := by
  induction content with
  | nil => cases isFirst
  | cons c rest ih =>
    rw [firstLink] at isFirst
    cases read : tokenizer (c :: rest ++ [']', ']']) with
    | some found =>
      rw [read] at isFirst
      cases isFirst
      exact ((tokenizer_candidate noPair).mp read).1.1
    | none =>
      rw [read] at isFirst
      exact ih noPair.tail isFirst

theorem wikilinks_candidate {content after : List Char} (noPair : NoPair content) :
    wikilinks (content ++ ']' :: ']' :: after) = (firstLink content).toList ++ wikilinks after := by
  induction content with
  | nil =>
    have refused : ∀ rest, tokenizer (']' :: rest) = none := fun _ => rfl
    rw [nil_append, wikilinks_of_refused (refused _), wikilinks_of_refused (refused _)]
    rfl
  | cons c rest ih =>
    rw [firstLink]
    cases read : tokenizer (c :: rest ++ [']', ']']) with
    | some found =>
      have isLink := ((tokenizer_candidate noPair).mp read).1
      rw [wikilinks_of_read ((tokenizer_candidate noPair).mpr ⟨isLink, rfl⟩)]
      rfl
    | none =>
      have refused : tokenizer (c :: (rest ++ ']' :: ']' :: after)) = none := by
        rw [eq_none_iff_forall_ne_some]
        rintro ⟨link, later⟩ isRead
        obtain ⟨isLink, -⟩ := (tokenizer_candidate noPair).mp isRead
        have isReadToo : tokenizer (c :: rest ++ ']' :: ']' :: []) = some (link, []) :=
          (tokenizer_candidate noPair).mpr ⟨isLink, rfl⟩
        rw [read] at isReadToo
        cases isReadToo
      rw [cons_append, wikilinks_of_refused refused]
      exact ih noPair.tail

/-- No line ends. -/
def IsLine (text : List Char) : Prop := '\n' ∉ text ∧ '\r' ∉ text

variable {text : List Char}

theorem findClosing_eq_none (isLine : IsLine text) (none : findClosing text = none) :
    ¬ [']', ']'] <:+: text := by
  fun_induction findClosing text with
  | case1 => cases none
  | case2 => exact absurd mem_cons_self isLine.1
  | case3 => exact absurd mem_cons_self isLine.2
  | case4 ch rest notPair _ _ ih =>
    have later := ih ⟨mt (mem_cons_of_mem _) isLine.1, mt (mem_cons_of_mem _) isLine.2⟩
      (map_eq_none_iff.mp none)
    intro infixed
    rcases infix_cons_iff.mp infixed with ⟨after, isPrefix⟩ | inRest
    · obtain ⟨isClose, isRest⟩ := List.cons.inj isPrefix
      exact notPair after isClose.symm isRest.symm
    · exact later inRest
  | case5 => simp

theorem candidates_unclosed (unclosed : ¬ [']', ']'] <:+: text) : candidates text = [] := by
  fun_induction candidates text with
  | case1 rest content after found =>
    refine absurd ⟨'[' :: '[' :: content, after, ?_⟩ unclosed
    rw [← findClosing_append found]
    simp
  | case2 rest _ ih => exact ih fun inRest => unclosed (infix_cons (infix_cons inRest))
  | case3 c rest _ ih => exact ih fun inRest => unclosed (infix_cons inRest)
  | case4 => rfl

theorem wikilinks_unclosed (unclosed : ¬ [']', ']'] <:+: text) : wikilinks text = [] := by
  induction text with
  | nil => exact wikilinks_nil
  | cons c rest ih =>
    have refused : tokenizer (c :: rest) = none := by
      rw [eq_none_iff_forall_ne_some]
      rintro ⟨link, after⟩ isRead
      refine unclosed ⟨'[' :: '[' :: link.inner, after, ?_⟩
      rw [(tokenizer_iff.mp isRead).2]
      simp
    rw [wikilinks_of_refused refused]
    exact ih fun inRest => unclosed (infix_cons inRest)

theorem IsLine.of_infix {text other : List Char} (isLine : IsLine text) (part : other <:+: text) :
    IsLine other :=
  ⟨fun among => isLine.1 (part.subset among), fun among => isLine.2 (part.subset among)⟩

/-- **The parser's links, candidate by candidate.** -/
theorem wikilinks_line (isLine : IsLine text) :
    wikilinks text = (candidates text).filterMap fun content => firstLink ('[' :: '[' :: content) := by
  fun_induction candidates text with
  | case1 rest content after found ih =>
    have whole := findClosing_append found
    have noPair := noPair_opening (noPair_of_findClosing found)
    have isText : '[' :: '[' :: rest = ('[' :: '[' :: content) ++ ']' :: ']' :: after := by
      rw [← whole]
      rfl
    have afterLine : IsLine after := isLine.of_infix
      ⟨('[' :: '[' :: content) ++ [']', ']'], [], by rw [isText]; simp⟩
    rw [isText, wikilinks_candidate noPair, ih afterLine, filterMap_cons]
    cases firstLink ('[' :: '[' :: content) <;> rfl
  | case2 rest none =>
    have restLine : IsLine rest := isLine.of_infix ⟨['[', '['], [], by simp⟩
    have unclosed := findClosing_eq_none restLine none
    rw [candidates_unclosed unclosed, wikilinks_unclosed]
    · rfl
    · intro infixed
      simp only [infix_cons_iff] at infixed
      rcases infixed with isPrefix | isPrefix | inRest
      · simp at isPrefix
      · simp at isPrefix
      · exact unclosed inRest
  | case3 c rest notOpening ih =>
    have restLine : IsLine rest := isLine.of_infix ⟨[c], [], by simp⟩
    have refused : tokenizer (c :: rest) = none := by
      rw [eq_none_iff_forall_ne_some]
      rintro ⟨link, after⟩ isRead
      obtain ⟨isOpen, isRest⟩ := List.cons.inj (tokenizer_iff.mp isRead).2
      exact notOpening _ isOpen isRest
    rw [wikilinks_of_refused refused]
    exact ih restLine
  | case4 => exact wikilinks_nil

/-! ## Candidate by candidate -/

/-- A link with target and alias trimmed. -/
def trimmed (link : WikiLink) : List Char × Option (List Char) :=
  (Chars.trim link.target, link.linkAlias.map Chars.trim)

def ofContent (content : List Char) : WikiLink := ⟨(splitBar content).1, (splitBar content).2⟩

/-- The target is visible, and so is the alias, if there is one. -/
def Visible (content : List Char) : Prop :=
  Chars.trim (splitBar content).1 ≠ [] ∧ ∀ value ∈ (splitBar content).2, Chars.trim value ≠ []

instance (content : List Char) : Decidable (Visible content) :=
  inferInstanceAs (Decidable (_ ∧ ∀ value ∈ (splitBar content).2, _))

/-- Indexer and editor agree on a candidate: a link has no single `]`, and what is none has no
opening from which a plain link goes on to the `]]`. -/
def ReadAlike (content : List Char) : Prop :=
  if Visible content then ']' ∉ content
  else ∀ before (link : WikiLink), link.IsPlain →
    '[' :: '[' :: content ≠ before ++ '[' :: '[' :: link.inner

theorem finalized_of_visible {content : List Char} (visible : Visible content) :
    finalized content = some (trimmed (ofContent content)) := by
  obtain ⟨target, linkAlias⟩ := visible
  unfold finalized finalizeCandidate trimmed ofContent
  rw [if_neg target]
  cases isAlias : (splitBar content).2 with
  | none => rfl
  | some value =>
    dsimp only
    rw [if_neg (linkAlias value isAlias)]
    rfl

theorem finalized_of_not_visible {content : List Char} (notVisible : ¬ Visible content) :
    finalized content = none := by
  unfold finalized finalizeCandidate
  split
  · rfl
  · rename_i target
    cases isAlias : (splitBar content).2 with
    | none =>
      refine absurd ⟨target, ?_⟩ notVisible
      rw [isAlias]
      nofun
    | some value =>
      dsimp only
      split
      · rfl
      · rename_i visible
        refine absurd ⟨target, ?_⟩ notVisible
        rw [isAlias]
        rintro _ ⟨⟩
        exact visible

theorem inner_ofContent (content : List Char) : (ofContent content).inner = content := by
  unfold ofContent WikiLink.inner splitBar
  dsimp only
  split
  · rename_i hasBar
    have opened : content.dropWhile (· ≠ '|') = '|' :: (content.dropWhile (· ≠ '|')).tail := by
      cases rest : content.dropWhile (· ≠ '|') with
      | nil =>
        have none := dropWhile_eq_nil_iff.mp rest '|' hasBar
        simp at none
      | cons c more =>
        have stops := head_dropWhile_not (· ≠ '|') (l := content)
          (by rw [rest]; exact cons_ne_nil _ _)
        simp only [rest, head_cons, decide_eq_false_iff_not, not_not] at stops
        rw [stops]
        rfl
    rw [elim_some, ← opened, takeWhile_append_dropWhile]
  · rename_i noBar
    rw [elim_none, append_nil, takeWhile_eq_self_iff]
    intro c among
    exact decide_eq_true fun isBar => noBar (isBar ▸ among)

theorem visible_of_trim (visible : Chars.trim text ≠ []) : text ≠ [] := by
  rintro rfl
  exact visible rfl

theorem plain_of_visible {content : List Char} (isLine : IsLine content)
    (visible : Visible content) (noClose : ']' ∉ content) : (ofContent content).IsPlain := by
  have inert : ∀ part : List Char, part ⊆ content → Inert part := by
    intro part inside c among
    refine ⟨?_, ?_, ?_⟩ <;> rintro rfl
    · exact noClose (inside among)
    · exact isLine.2 (inside among)
    · exact isLine.1 (inside among)
  refine ⟨⟨inert _ (takeWhile_subset _), ?_, visible_of_trim visible.1⟩, ?_⟩
  · intro hasBar
    simpa using mem_takeWhile_imp hasBar
  · intro value isAlias
    refine ⟨inert value ?_, visible_of_trim (visible.2 value isAlias)⟩
    simp only [ofContent, splitBar] at isAlias
    split at isAlias
    · cases isAlias
      exact fun c among => (dropWhile_sublist _).subset (mem_of_mem_tail among)
    · cases isAlias

/-- A candidate without a single `]` is read from its beginning. -/
theorem firstLink_of_visible {content : List Char} (isLine : IsLine content)
    (noPair : NoPair ('[' :: '[' :: content)) (visible : Visible content)
    (noClose : ']' ∉ content) :
    firstLink ('[' :: '[' :: content) = some (ofContent content) := by
  have read : tokenizer ('[' :: '[' :: content ++ [']', ']']) = some (ofContent content, []) :=
    (tokenizer_candidate noPair).mpr
      ⟨⟨plain_of_visible isLine visible noClose, by rw [inner_ofContent]⟩, rfl⟩
  rw [firstLink, read]

theorem mem_trim {c : Char} (among : c ∈ text) (solid : Text.isSpace c = false) :
    c ∈ Chars.trim text := by
  have inDropped : c ∈ text.dropWhile Text.isSpace := by
    rw [← takeWhile_append_dropWhile (p := Text.isSpace) (l := text)] at among
    rcases mem_append.mp among with inSpaces | inRest
    · rw [mem_takeWhile_imp inSpaces] at solid
      cases solid
    · exact inRest
  unfold Chars.trim List.rdropWhile
  rw [mem_reverse]
  rw [← mem_reverse, ← takeWhile_append_dropWhile (p := Text.isSpace)
    (l := (text.dropWhile Text.isSpace).reverse)] at inDropped
  rcases mem_append.mp inDropped with inSpaces | inRest
  · rw [mem_takeWhile_imp inSpaces] at solid
    cases solid
  · exact inRest

/-- A character of the link, in its target or in its alias. -/
def Occurs (c : Char) (link : List Char × Option (List Char)) : Prop :=
  c ∈ link.1 ∨ ∃ value, link.2 = some value ∧ c ∈ value

theorem occurs_of_mem {content : List Char} (hasClose : ']' ∈ content) :
    Occurs ']' (trimmed (ofContent content)) := by
  have solid : Text.isSpace ']' = false := by decide
  rw [← inner_ofContent content] at hasClose
  rcases mem_append.mp hasClose with inTarget | inAlias
  · exact .inl (mem_trim inTarget solid)
  · cases isAlias : (ofContent content).linkAlias with
    | none =>
      rw [isAlias] at inAlias
      cases inAlias
    | some value =>
      rw [isAlias, elim_some] at inAlias
      rcases mem_cons.mp inAlias with isBar | inValue
      · cases isBar
      · exact .inr ⟨Chars.trim value, by rw [trimmed, isAlias]; rfl, mem_trim inValue solid⟩

theorem trim_subset (text : List Char) : Chars.trim text ⊆ text := by
  intro c among
  have inReverse := (dropWhile_sublist _).subset (mem_reverse.mp among)
  exact (dropWhile_sublist _).subset (mem_reverse.mp inReverse)

theorem not_occurs_of_plain (isPlain : link.IsPlain) : ¬ Occurs ']' (trimmed link) := by
  rintro (inTarget | ⟨value, isAlias, inValue⟩)
  · exact (isPlain.target.1 _ (trim_subset _ inTarget)).1 rfl
  · obtain ⟨whole, isWhole, rfl⟩ := map_eq_some_iff.mp isAlias
    exact ((isPlain.linkAlias whole isWhole).1 _ (trim_subset _ inValue)).1 rfl

/-! ## The two lists -/

theorem filterMap_eq_iff {α β : Type} {f g : α → Option β} {l : List α}
    (keeps : ∀ a ∈ l, ∀ b, f a = some b → g a = some b) :
    l.filterMap f = l.filterMap g ↔ ∀ a ∈ l, f a = g a := by
  have shorter : ∀ l : List α, (∀ a ∈ l, ∀ b, f a = some b → g a = some b) →
      (l.filterMap f).length ≤ (l.filterMap g).length := by
    intro l keeps
    induction l with
    | nil => exact Nat.le_refl _
    | cons a rest ih =>
      obtain ⟨first, later⟩ := forall_mem_cons.mp keeps
      have restShorter := ih later
      rw [filterMap_cons, filterMap_cons]
      cases isF : f a with
      | some b =>
        rw [first b isF]
        exact Nat.succ_le_succ restShorter
      | none => cases g a <;> simp <;> omega
  constructor
  · intro same
    induction l with
    | nil => nofun
    | cons a rest ih =>
      obtain ⟨first, later⟩ := forall_mem_cons.mp keeps
      rw [filterMap_cons, filterMap_cons] at same
      cases isF : f a with
      | some b =>
        rw [isF, first b isF] at same
        exact forall_mem_cons.mpr ⟨by rw [isF, first b isF], ih later (List.cons.inj same).2⟩
      | none =>
        cases isG : g a with
        | none =>
          rw [isF, isG] at same
          exact forall_mem_cons.mpr ⟨by rw [isF, isG], ih later same⟩
        | some b =>
          rw [isF, isG] at same
          have restShorter := shorter rest later
          have sameLength := congrArg List.length same
          simp only [length_cons] at sameLength
          omega
  · exact filterMap_congr

theorem plain_of_wikilinks (among : link ∈ wikilinks text) :
    link.IsPlain := by
  fun_induction wikilinks text with
  | case1 text found after read ih =>
    rcases mem_cons.mp among with rfl | later
    · exact (tokenizer_iff.mp read).1
    · exact ih later
  | case2 => cases among
  | case3 c rest refused ih => exact ih among

theorem candidate_of_mem {text content : List Char} (isLine : IsLine text)
    (among : content ∈ candidates text) : NoPair ('[' :: '[' :: content) ∧ IsLine content := by
  fun_induction candidates text with
  | case1 rest first after found ih =>
    have whole := findClosing_append found
    rcases mem_cons.mp among with rfl | later
    · refine ⟨noPair_opening (noPair_of_findClosing found), isLine.of_infix
        ⟨['[', '['], ']' :: ']' :: after, by rw [← whole]; simp⟩⟩
    · exact ih (isLine.of_infix
        ⟨'[' :: '[' :: first ++ [']', ']'], [], by rw [← whole]; simp⟩) later
  | case2 rest _ ih => exact ih (isLine.of_infix ⟨['[', '['], [], by simp⟩) among
  | case3 c rest _ ih => exact ih (isLine.of_infix ⟨[c], [], by simp⟩) among
  | case4 => cases among

/-- A text between brackets: from a `[[` up to the next `]]`, the first of a line or, behind that
`]]`, a later one. -/
inductive Bracketed : List Char → List Char → Prop where
  | first {content : List Char} (after : List Char) : NoPair content →
      Bracketed ('[' :: '[' :: (content ++ ']' :: ']' :: after)) content
  | later {content after other : List Char} : NoPair content → Bracketed after other →
      Bracketed ('[' :: '[' :: (content ++ ']' :: ']' :: after)) other
  | skip {c : Char} {rest content : List Char} : ¬ ['[', '['] <+: c :: rest →
      Bracketed rest content → Bracketed (c :: rest) content

theorem findClosing_of_noPair {content : List Char} (noPair : NoPair content)
    (isLine : IsLine content) (after : List Char) :
    findClosing (content ++ ']' :: ']' :: after) = some (content, after) := by
  induction content with
  | nil => rfl
  | cons c rest ih =>
    have restLine : IsLine rest := isLine.of_infix ⟨[c], [], by simp⟩
    rw [cons_append, findClosing, ih noPair.tail restLine]
    · rfl
    · rintro more rfl isRest
      have apart : ∀ d ∈ (rest ++ [']']).head?, ¬ (']' = ']' ∧ d = ']') :=
        (isChain_cons.mp noPair).1
      cases rest with
      | nil => exact apart ']' rfl ⟨rfl, rfl⟩
      | cons d more => exact apart d rfl ⟨rfl, (List.cons.inj isRest).1⟩
    · rintro rfl
      exact isLine.1 mem_cons_self
    · rintro rfl
      exact isLine.2 mem_cons_self

theorem candidates_bracketed {content after : List Char} (noPair : NoPair content)
    (isLine : IsLine content) :
    candidates ('[' :: '[' :: (content ++ ']' :: ']' :: after)) = content :: candidates after := by
  rw [candidates]
  split
  · rename_i found
    rw [findClosing_of_noPair noPair isLine] at found
    cases found
    rfl
  · rename_i none
    rw [findClosing_of_noPair noPair isLine] at none
    cases none

theorem mem_candidates_iff {line content : List Char} (isLine : IsLine line) :
    content ∈ candidates line ↔ Bracketed line content := by
  constructor
  · intro among
    fun_induction candidates line with
    | case1 rest first after found ih =>
      have whole := findClosing_append found
      have noPair := noPair_of_findClosing found
      have afterLine : IsLine after := isLine.of_infix
        ⟨'[' :: '[' :: first ++ [']', ']'], [], by rw [← whole]; simp⟩
      rw [← whole]
      rcases mem_cons.mp among with rfl | later
      · exact .first after noPair
      · exact .later noPair (ih afterLine later)
    | case2 rest none =>
      have restLine : IsLine rest := isLine.of_infix ⟨['[', '['], [], by simp⟩
      rw [candidates_unclosed (findClosing_eq_none restLine none)] at among
      cases among
    | case3 c rest notOpening ih =>
      refine .skip ?_ (ih (isLine.of_infix ⟨[c], [], by simp⟩) among)
      rintro ⟨more, opened⟩
      obtain ⟨isOpen, isRest⟩ := List.cons.inj opened
      exact notOpening more isOpen.symm isRest.symm
    | case4 => cases among
  · intro bracketed
    induction bracketed with
    | first after noPair =>
      rw [candidates_bracketed noPair (isLine.of_infix ⟨['[', '['], ']' :: ']' :: after, by simp⟩)]
      exact mem_cons_self
    | @later content after other noPair _ ih =>
      rw [candidates_bracketed noPair (isLine.of_infix ⟨['[', '['], ']' :: ']' :: after, by simp⟩)]
      exact mem_cons_of_mem _
        (ih (isLine.of_infix ⟨'[' :: '[' :: content ++ [']', ']'], [], by simp⟩))
    | @skip c rest content notOpening _ ih =>
      rw [candidates]
      · exact ih (isLine.of_infix ⟨[c], [], by simp⟩)
      · rintro more rfl rfl
        exact notOpening ⟨more, rfl⟩

/-- The editor's links of a line are those that `extract_wikilinks` returns. -/
def SameLinks (line : List Char) : Prop := (wikilinks line).map trimmed =
    (extractWikilinks line).map fun link => (link.target, link.linkAlias)

instance (line : List Char) : Decidable (SameLinks line) := inferInstanceAs (Decidable (_ = _))

/-- What the editor writes for a link is read as the same link. -/
def LinksRoundTrip : Prop := ∀ text link after, tokenizer text = some (link, after) →
  tokenizer (handleWikilink link) = some (link, [])

theorem extractWikilinks_line {line : List Char} (noTick : '`' ∉ line) (noTilde : '~' ∉ line) :
    ((extractWikilinks line).map fun link => (link.target, link.linkAlias)) =
      (candidates line).filterMap finalized := by
  unfold extractWikilinks scanTextForWikilinks maskCodeRegions
  rw [maskFrom_plain noTick noTilde]
  refine ext_getElem? fun i => ?_
  rw [getElem?_map, getElem?_mapIdx, Option.map_map]
  cases ((candidates line).filterMap finalized)[i]? <;> rfl

/-- The indexer's reading of a candidate is the editor's. -/
def Agree (content : List Char) : Prop :=
  finalized content = (firstLink ('[' :: '[' :: content)).map trimmed

/-- Where the lists are the same, no link of the index has a `]`, since no link of the editor
has one. -/
theorem agree_of_same {line : List Char} (isLine : IsLine line)
    (same : (candidates line).filterMap finalized = (wikilinks line).map trimmed) :
    ∀ content ∈ candidates line, Agree content := by
  have keeps : ∀ content ∈ candidates line, ∀ link, finalized content = some link →
      (firstLink ('[' :: '[' :: content)).map trimmed = some link := by
    intro content among link isLink
    obtain ⟨noPair, contentLine⟩ := candidate_of_mem isLine among
    by_cases visible : Visible content
    · have isTrimmed := finalized_of_visible visible
      have inIndex := mem_filterMap.mpr ⟨content, among, isTrimmed⟩
      rw [same] at inIndex
      obtain ⟨seen, isSeen, sameLink⟩ := List.mem_map.mp inIndex
      have noClose : ']' ∉ content := by
        intro hasClose
        refine not_occurs_of_plain (plain_of_wikilinks isSeen) ?_
        rw [sameLink]
        exact occurs_of_mem hasClose
      rw [firstLink_of_visible contentLine noPair visible noClose, map_some, ← isTrimmed, isLink]
    · rw [finalized_of_not_visible visible] at isLink
      cases isLink
  rw [wikilinks_line isLine, map_filterMap] at same
  exact (filterMap_eq_iff keeps).mp same

theorem agree_iff {content : List Char} (isLine : IsLine content)
    (noPair : NoPair ('[' :: '[' :: content)) : Agree content ↔ ReadAlike content := by
  unfold Agree ReadAlike
  split
  · rename_i visible
    rw [finalized_of_visible visible]
    constructor
    · intro same hasClose
      obtain ⟨link, isFirst, sameLink⟩ := map_eq_some_iff.mp same.symm
      refine not_occurs_of_plain (firstLink_some noPair isFirst) ?_
      rw [sameLink]
      exact occurs_of_mem hasClose
    · intro noClose
      rw [firstLink_of_visible isLine noPair visible noClose, map_some]
  · rename_i notVisible
    rw [finalized_of_not_visible notVisible, ← firstLink_eq_none noPair, eq_comm, map_eq_none_iff]

/-- **Indexer and editor see the same links** of a line without code exactly where they agree on
every text between brackets. -/
theorem same_links_iff {line : List Char} (isLine : IsLine line) (noTick : '`' ∉ line)
    (noTilde : '~' ∉ line) :
    (SameLinks line ∧ LinksRoundTrip) ↔ ∀ content, Bracketed line content → ReadAlike content := by
  have roundTrip : LinksRoundTrip := fun _ _ _ => tokenizer_handleWikilink
  have alike : (∀ content ∈ candidates line, Agree content) ↔
      ∀ content, Bracketed line content → ReadAlike content := by
    simp only [← mem_candidates_iff isLine]
    refine forall₂_congr fun content among => ?_
    obtain ⟨noPair, contentLine⟩ := candidate_of_mem isLine among
    exact agree_iff contentLine noPair
  rw [and_iff_left roundTrip, ← alike]
  unfold SameLinks
  rw [extractWikilinks_line noTick noTilde]
  constructor
  · intro same
    exact agree_of_same isLine same.symm
  · intro agree
    rw [wikilinks_line isLine, map_filterMap]
    exact (filterMap_congr agree).symm

/-- A single bracket in the candidate: the index has a link that the editor does not show. -/
theorem single_bracket_apart :
    ¬ ∀ line : List Char, IsLine line → '`' ∉ line → '~' ∉ line → '\\' ∉ line →
      SameLinks line ∧ LinksRoundTrip := by
  intro always
  have same := (always "[[a] b]]".toList ⟨by decide, by decide⟩ (by decide) (by decide)
    (by decide)).1
  revert same
  decide +kernel

theorem same_links_of_plain_link :
    (SameLinks "see [[a|b]]".toList ∧ LinksRoundTrip) ↔
      ∀ content, Bracketed "see [[a|b]]".toList content → ReadAlike content :=
  same_links_iff ⟨by decide, by decide⟩ (by decide) (by decide)

end Kuku.Search.Indexer
