/-
# Search.Extract -- the sections of a markdown document

`extract_document` runs over the events of the markdown parser with a buffer for the block it
is in, a stack of headings and a cursor through the text of the chunks.  A heading that is not
blank opens a section; every chunk goes to the last one.

The events come as `Segment`s: between the start and the end of a heading the parser reports
inline events only.  `Outlined` is what the sections are after a list of segments.
-/
import Kuku.Search.Chunk
import Kuku.Search.Writer
import Kuku.Theory.Json
import Kuku.Theory.Outline

namespace Kuku.Search.Indexer

open Kuku.Theory List Chars Outline

structure FrontmatterEntry where
  key : List Char
  value : List Char

inductive ChunkKind where
  | prose
  | code
  | heading
  deriving DecidableEq

def ChunkKind.asStr : ChunkKind → List Char
  | .prose => "Prose".toList
  | .code => "Code".toList
  | .heading => "Heading".toList

structure ExtractedChunk where
  kind : ChunkKind
  text : List Char
  rawText : List Char
  globalStart : Nat
  globalEnd : Nat

structure Section where
  path : List (List Char)
  level : Nat
  chunks : List ExtractedChunk

structure ExtractedDocument where
  title : Option (List Char)
  frontmatter : List FrontmatterEntry
  sections : List Section
  wikilinks : List ExtractedWikilink
  normalizedText : List Char

/-! ## The events of the parser -/

inductive HeadingLevel where
  | h1 | h2 | h3 | h4 | h5 | h6

def HeadingLevel.asU8 : HeadingLevel → Nat
  | .h1 => 1
  | .h2 => 2
  | .h3 => 3
  | .h4 => 4
  | .h5 => 5
  | .h6 => 6

/-- The language of a code block is `none` where it is not fenced. -/
inductive Tag where
  | paragraph
  | heading (level : HeadingLevel)
  | codeBlock (lang : Option (List Char))
  | blockQuote
  | item
  | tableRow
  | other

inductive TagEnd where
  | paragraph
  | heading
  | codeBlock
  | blockQuote
  | item
  | tableRow
  | other

inductive Event where
  | start (tag : Tag)
  | stop (tag : TagEnd)
  | text (text : List Char)
  | code (text : List Char)
  | softBreak
  | hardBreak
  | rule
  | other

namespace Event

def isInline : Event → Bool
  | start .other | stop .other | text _ | code _ | softBreak | hardBreak | other => true
  | _ => false

def isHeading : Event → Bool
  | start (.heading _) | stop .heading => true
  | _ => false

/-- What an event adds to the text of its block. -/
def inlineText : Event → List Char
  | text words | code words => words
  | softBreak | hardBreak => ['\n']
  | _ => []

end Event

structure Heading where
  level : HeadingLevel
  content : List Event
  inline : ∀ event ∈ content, event.isInline

namespace Heading

variable (h : Heading)

def raw : List Char := h.content.flatMap Event.inlineText

def text : List Char := trim h.raw

def isBlank : Bool := h.raw.all Text.isSpace

def depth : Nat := h.level.asU8

def events : List Event := .start (.heading h.level) :: h.content ++ [.stop .heading]

end Heading

inductive Segment where
  | heading (h : Heading)
  | event (event : Event) (apart : event.isHeading = false)

namespace Segment

def events : Segment → List Event
  | heading h => h.events
  | event single _ => [single]

def heading? : Segment → Option Heading
  | heading h => some h
  | event _ _ => none

end Segment

/-- What `split_frontmatter`, `extract_wikilinks` and the parser find in a text. -/
structure Parsed where
  frontmatter : List FrontmatterEntry
  wikilinks : List ExtractedWikilink
  segments : List Segment

def Parsed.headings (parsed : Parsed) : List Heading := parsed.segments.filterMap Segment.heading?

/-! ## `extract_document` -/

inductive BlockKind where
  | paragraph
  | heading (level : Nat)
  | code
  | blockQuote
  | item
  | tableRow

structure BlockBuffer where
  kind : BlockKind
  raw : List Char

structure State where
  sections : List Section
  headingStack : List (List Char)
  buffer : Option BlockBuffer
  title : Option (List Char)
  cursor : Nat

/-- A chunk is pushed to the last section, which `ensure_section` gives. -/
def pushChunk (sections : List Section) (chunk : ExtractedChunk) : List Section :=
  match sections.getLast? with
  | none => [⟨[], 0, [chunk]⟩]
  | some last => sections.dropLast ++ [{ last with chunks := last.chunks ++ [chunk] }]

section Extract

variable (lowercase : List Char → List Char)

def appendPart (kind : ChunkKind) (s : State) (rawPart : List Char) : State :=
  let normalized := normalizeText lowercase rawPart
  if normalized = [] then s
  else
    let stop := s.cursor + rawPart.length
    { s with
      sections := pushChunk s.sections ⟨kind, normalized, rawPart, s.cursor, stop⟩
      cursor := stop + 1 }

def appendChunk (kind : ChunkKind) (rawText : List Char) (s : State) : State :=
  (splitChunkText rawText).foldl (appendPart lowercase kind) s

/-- The stack is popped down to `level - 1` headings. -/
def openSection (level : Nat) (raw : List Char) (s : State) : State :=
  let headingStack := s.headingStack.take (level - 1) ++ [raw]
  { s with
    title := s.title.or (some raw)
    headingStack
    sections := s.sections ++ [⟨headingStack, level, []⟩] }

def flushBuffer (s : State) : State :=
  match s.buffer with
  | none => s
  | some block =>
    let taken := { s with buffer := none }
    let raw := trim block.raw
    if raw = [] then taken
    else
      match block.kind with
      | .heading level => appendChunk lowercase .heading raw (openSection level raw taken)
      | .code => appendChunk lowercase .code raw taken
      | _ => appendChunk lowercase .prose raw taken

/-- The buffer that a start opens; the buffer it finds is dropped. -/
def startBlock : Tag → Option BlockBuffer
  | .paragraph => some ⟨.paragraph, []⟩
  | .heading level => some ⟨.heading level.asU8, []⟩
  | .codeBlock (some lang) => some ⟨.code, if lang = [] then [] else lang ++ ['\n']⟩
  | .codeBlock none => some ⟨.code, []⟩
  | .blockQuote => some ⟨.blockQuote, []⟩
  | .item => some ⟨.item, []⟩
  | .tableRow => some ⟨.tableRow, []⟩
  | .other => none

def BlockBuffer.push (text : List Char) (block : BlockBuffer) : BlockBuffer :=
  { block with raw := block.raw ++ text }

def step (s : State) (event : Event) : State :=
  match event with
  | .start tag => { s with buffer := (startBlock tag).or s.buffer }
  | .stop .other => s
  | .stop _ => flushBuffer lowercase s
  | .text text | .code text => { s with buffer := s.buffer.map (BlockBuffer.push text) }
  | .softBreak | .hardBreak => { s with buffer := s.buffer.map (BlockBuffer.push ['\n']) }
  | .rule => flushBuffer lowercase s
  | .other => s

def run (s : State) (events : List Event) : State := events.foldl (step lowercase) s

/-- Of two entries with one key the map keeps the later. -/
def frontmatterTitle (frontmatter : List FrontmatterEntry) : Option (List Char) :=
  (frontmatter.filter fun entry => entry.key = "title".toList).getLast?.map FrontmatterEntry.value

def initial (frontmatter : List FrontmatterEntry) : State :=
  ⟨[⟨[], 0, []⟩], [], none, frontmatterTitle frontmatter, 0⟩

def extractDocument (parsed : Parsed) : ExtractedDocument :=
  let events := parsed.segments.flatMap Segment.events
  let s := flushBuffer lowercase (run lowercase (initial parsed.frontmatter) events)
  { title := s.title
    frontmatter := parsed.frontmatter
    sections := s.sections
    wikilinks := parsed.wikilinks
    normalizedText := join [' ']
      (s.sections.flatMap fun own => own.chunks.map ExtractedChunk.text) }

end Extract

/-! ## Chunks that are appended -/

def ExtractedChunk.isHeading (chunk : ExtractedChunk) : Bool := chunk.kind = .heading

theorem Heading.isBlank_iff {h : Heading} : h.isBlank = true ↔ h.text = [] := by
  rw [isBlank, text, trim_eq_nil, all_eq_true]

theorem pushChunk_concat {sections : List Section} {last : Section} {chunk : ExtractedChunk} :
    pushChunk (sections ++ [last]) chunk =
      sections ++ [{ last with chunks := last.chunks ++ [chunk] }] := by
  simp [pushChunk]

/-- `new` is appended to the last section. -/
structure Appended (kind : ChunkKind) (new : List ExtractedChunk) (s s' : State) : Prop where
  sections : ∀ init last, s.sections = init ++ [last] →
    s'.sections = init ++ [{ last with chunks := last.chunks ++ new }]
  kinds : ∀ chunk ∈ new, chunk.kind = kind
  increasing : (new.map ExtractedChunk.globalStart).Pairwise (· < ·)
  inside : ∀ chunk ∈ new, s.cursor ≤ chunk.globalStart ∧ chunk.globalStart < s'.cursor
  forward : s.cursor ≤ s'.cursor
  headingStack : s'.headingStack = s.headingStack
  buffer : s'.buffer = s.buffer

section Append

variable {lowercase : List Char → List Char} {kind : ChunkKind} {s s' s'' : State}
  {new more : List ExtractedChunk}

theorem Appended.nil : Appended kind [] s s where
  sections := by
    intro init last isLast
    rw [isLast, append_nil]
  kinds := fun _ none => nomatch none
  increasing := List.Pairwise.nil
  inside := fun _ none => nomatch none
  forward := Nat.le_refl _
  headingStack := rfl
  buffer := rfl

theorem Appended.trans (first : Appended kind new s s') (second : Appended kind more s' s'') :
    Appended kind (new ++ more) s s'' where
  sections := by
    intro init last isLast
    rw [second.sections init _ (first.sections init last isLast), append_assoc]
  kinds := by
    intro chunk among
    exact (mem_append.mp among).elim (first.kinds chunk) (second.kinds chunk)
  increasing := by
    rw [map_append, pairwise_append]
    refine ⟨first.increasing, second.increasing, ?_⟩
    simp only [mem_map]
    rintro _ ⟨a, isNew, rfl⟩ _ ⟨b, isMore, rfl⟩
    exact (first.inside a isNew).2.trans_le (second.inside b isMore).1
  inside := by
    intro chunk among
    rcases mem_append.mp among with isNew | isMore
    · exact ⟨(first.inside chunk isNew).1, (first.inside chunk isNew).2.trans_le second.forward⟩
    · exact ⟨first.forward.trans (second.inside chunk isMore).1, (second.inside chunk isMore).2⟩
  forward := first.forward.trans second.forward
  headingStack := second.headingStack.trans first.headingStack
  buffer := second.buffer.trans first.buffer

theorem appendPart_appended {rawPart : List Char}
    (nonempty : normalizeText lowercase rawPart ≠ []) :
    Appended kind
      [⟨kind, normalizeText lowercase rawPart, rawPart, s.cursor, s.cursor + rawPart.length⟩]
      s (appendPart lowercase kind s rawPart) := by
  unfold appendPart
  rw [if_neg nonempty]
  constructor
  · intro init last isLast
    simp only [isLast, pushChunk_concat]
  · simp
  · exact pairwise_singleton _ _
  · intro chunk among
    rw [mem_singleton.mp among]
    simp only
    omega
  · simp only
    omega
  · rfl
  · rfl

theorem appendParts_appended {parts : List (List Char)}
    (nonempty : ∀ part ∈ parts, normalizeText lowercase part ≠ []) :
    ∃ new, new.length = parts.length ∧
      Appended kind new s (parts.foldl (appendPart lowercase kind) s) := by
  induction parts generalizing s with
  | nil => exact ⟨[], rfl, .nil⟩
  | cons part parts ih =>
    obtain ⟨new, isLength, appended⟩ := ih (s := appendPart lowercase kind s part)
      fun other later => nonempty other (mem_cons_of_mem _ later)
    have first : Appended kind _ s (appendPart lowercase kind s part) :=
      appendPart_appended (nonempty part mem_cons_self)
    exact ⟨_ :: new, by rw [length_cons, isLength, length_cons], first.trans appended⟩

variable (solid : ∀ text, text ≠ [] → lowercase text ≠ [])

include solid in
/-- A block that is not blank gives a chunk for each of its parts. -/
theorem appendChunk_appended {raw : List Char} (nonempty : trim raw ≠ []) :
    ∃ new, new.length = (splitChunkText (trim raw)).length ∧
      Appended kind new s (appendChunk lowercase kind (trim raw) s) :=
  appendParts_appended fun _ among =>
    solid _ (collapseSpaces_ne_nil (trim_part_ne_nil nonempty among))

end Append

/-! ## The sections after some headings -/

/-- The section that a heading opens. -/
structure Opens (h : Heading) (own : Section) : Prop where
  anchors : own.chunks.countP ExtractedChunk.isHeading = (splitChunkText h.text).length
  first : own.chunks.head?.any ExtractedChunk.isHeading

structure Outlined (hs : List Heading) (s : State) : Prop where
  stack : s.headingStack = Outline.stack Heading.depth Heading.text (Outline.kept Heading.isBlank hs)
  paths : s.sections.map Section.path =
    [] :: paths Heading.depth Heading.text (Outline.kept Heading.isBlank hs)
  opened : List.Forall₂ Opens (Outline.kept Heading.isBlank hs) s.sections.tail
  outside : ∀ block, s.buffer = some block → ∀ level, block.kind ≠ .heading level
  increasing : ((s.sections.flatMap Section.chunks).map ExtractedChunk.globalStart).Pairwise (· < ·)
  behind : ∀ chunk ∈ s.sections.flatMap Section.chunks, chunk.globalStart < s.cursor

section Outlined

variable {lowercase : List Char → List Char} {hs : List Heading} {h : Heading} {s s' : State}
  {kind : ChunkKind} {new : List ExtractedChunk}

theorem outlined_initial {frontmatter : List FrontmatterEntry} :
    Outlined [] (initial frontmatter) where
  stack := rfl
  paths := rfl
  opened := List.Forall₂.nil
  outside := fun _ none => nomatch none
  increasing := List.Pairwise.nil
  behind := fun _ none => nomatch none

theorem Outlined.ne_nil (outlined : Outlined hs s) : ∃ init last, s.sections = init ++ [last] := by
  have nonempty : s.sections ≠ [] := by
    intro isNil
    have paths := outlined.paths
    rw [isNil] at paths
    exact nomatch paths
  exact ⟨_, _, (dropLast_append_getLast nonempty).symm⟩

/-- Appended chunks stand behind all others. -/
theorem Appended.ordered {init : List Section} {last : Section}
    (appended : Appended kind new s s') (isLast : s.sections = init ++ [last])
    (increasing : ((s.sections.flatMap Section.chunks).map ExtractedChunk.globalStart).Pairwise
      (· < ·))
    (behind : ∀ chunk ∈ s.sections.flatMap Section.chunks, chunk.globalStart < s.cursor) :
    ((s'.sections.flatMap Section.chunks).map ExtractedChunk.globalStart).Pairwise (· < ·) ∧
      ∀ chunk ∈ s'.sections.flatMap Section.chunks, chunk.globalStart < s'.cursor := by
  have isAppended : s'.sections.flatMap Section.chunks =
      s.sections.flatMap Section.chunks ++ new := by
    rw [appended.sections init last isLast, isLast]
    simp
  rw [isAppended]
  constructor
  · rw [map_append, pairwise_append]
    refine ⟨increasing, appended.increasing, ?_⟩
    simp only [mem_map]
    rintro _ ⟨a, isOld, rfl⟩ _ ⟨b, isNew, rfl⟩
    exact (behind a isOld).trans_le (appended.inside b isNew).1
  · intro chunk among
    rcases mem_append.mp among with isOld | isNew
    · exact (behind chunk isOld).trans_le appended.forward
    · exact (appended.inside chunk isNew).2

theorem Opens.append {own : Section} (opens : Opens h own)
    (kinds : ∀ chunk ∈ new, chunk.isHeading = false) :
    Opens h { own with chunks := own.chunks ++ new } where
  anchors := by
    have none : new.countP ExtractedChunk.isHeading = 0 := by
      rw [countP_eq_zero]
      intro chunk among isHeading
      exact Bool.noConfusion ((kinds chunk among).symm.trans isHeading)
    rw [countP_append, none, Nat.add_zero, opens.anchors]
  first := by
    have first := opens.first
    cases isChunks : own.chunks with
    | nil => simp [isChunks] at first
    | cons chunk rest => simpa [isChunks] using first

theorem Outlined.append (outlined : Outlined hs s) (appended : Appended kind new s s')
    (isBody : kind ≠ .heading) : Outlined hs s' := by
  obtain ⟨init, last, isLast⟩ := outlined.ne_nil
  have sections := appended.sections init last isLast
  have ordered := appended.ordered isLast outlined.increasing outlined.behind
  have body : ∀ chunk ∈ new, chunk.isHeading = false := by
    intro chunk among
    rw [ExtractedChunk.isHeading, appended.kinds chunk among]
    exact decide_eq_false isBody
  refine ⟨appended.headingStack.trans outlined.stack, ?_, ?_, ?_, ordered.1, ordered.2⟩
  · have paths := outlined.paths
    rw [isLast] at paths
    rw [sections]
    simpa using paths
  · have opened := outlined.opened
    rw [isLast] at opened
    rw [sections]
    cases init with
    | nil => simpa using opened
    | cons first init =>
      simp only [cons_append, tail_cons] at opened ⊢
      have before := forall₂_take_append _ _ _ opened
      have atLast := forall₂_drop_append _ _ _ opened
      obtain ⟨h, isLast⟩ := length_eq_one_iff.mp atLast.length_eq
      rw [isLast] at atLast
      have opens := (List.forall₂_cons.mp atLast).1
      have whole := rel_append before (.cons (opens.append body) .nil)
      rw [← isLast] at whole
      rw [← take_append_drop init.length (Outline.kept Heading.isBlank hs)]
      exact whole
  · rw [appended.buffer]
    exact outlined.outside

variable (solid : ∀ text, text ≠ [] → lowercase text ≠ [])

include solid in
theorem Outlined.flush (outlined : Outlined hs s) : Outlined hs (flushBuffer lowercase s) := by
  unfold flushBuffer
  cases isBuffer : s.buffer with
  | none => exact outlined
  | some block =>
    have taken : Outlined hs { s with buffer := none } :=
      { outlined with outside := fun _ none => nomatch none }
    have body : ∀ {kind}, kind ≠ .heading → trim block.raw ≠ [] →
        Outlined hs (appendChunk lowercase kind (trim block.raw)
          { s with buffer := none }) := by
      intro kind isBody nonempty
      obtain ⟨new, -, appended⟩ := appendChunk_appended solid nonempty
      exact taken.append appended isBody
    simp only
    split_ifs with isNil
    · exact taken
    · split
      · rename_i level isHeading
        exact absurd isHeading (outlined.outside block isBuffer level)
      · exact body (by decide) isNil
      · exact body (by decide) isNil

include solid in
/-- An event outside the headings opens no section. -/
theorem Outlined.event (outlined : Outlined hs s) {event : Event}
    (apart : event.isHeading = false) : Outlined hs (step lowercase s event) := by
  have rebuffer : ∀ {buffer : Option BlockBuffer},
      (∀ block, buffer = some block → ∀ level, block.kind ≠ .heading level) →
      Outlined hs { s with buffer } := fun outside => { outlined with outside }
  have pushed : ∀ text block, s.buffer.map (BlockBuffer.push text) = some block →
      ∀ level, block.kind ≠ .heading level := by
    intro text block isPushed level
    obtain ⟨old, isOld, rfl⟩ := Option.map_eq_some_iff.mp isPushed
    exact outlined.outside old isOld level
  cases event with
  | start tag =>
    apply rebuffer
    intro block isBlock level
    rw [Option.or_eq_some_iff] at isBlock
    rcases isBlock with isStart | ⟨-, isOld⟩
    · cases tag with
      | heading => exact nomatch apart
      | codeBlock lang => cases lang <;> cases isStart <;> simp
      | other => exact nomatch isStart
      | paragraph | blockQuote | item | tableRow => cases isStart; simp
    · exact outlined.outside block isOld level
  | stop tag =>
    cases tag with
    | heading => exact nomatch apart
    | other => exact outlined
    | paragraph | codeBlock | blockQuote | item | tableRow => exact outlined.flush solid
  | text words | code words => exact rebuffer (pushed words)
  | softBreak | hardBreak => exact rebuffer (pushed _)
  | rule => exact outlined.flush solid
  | other => exact outlined

theorem step_inline {event : Event} (inline : event.isInline) {block : BlockBuffer}
    (isBuffer : s.buffer = some block) :
    step lowercase s event = { s with buffer := some (block.push event.inlineText) } := by
  have same : { s with buffer := some (block.push []) } = s := by
    rw [BlockBuffer.push, append_nil, ← isBuffer]
  cases event with
  | start tag =>
    cases tag <;> simp only [Event.isInline, Bool.false_eq_true] at inline
    exact same.symm
  | stop tag =>
    cases tag <;> simp only [Event.isInline, Bool.false_eq_true] at inline
    exact same.symm
  | text words | code words | softBreak | hardBreak =>
    simp [step, isBuffer, Event.inlineText]
  | rule => exact nomatch inline
  | other => exact same.symm

theorem run_inline {events : List Event} (inline : ∀ event ∈ events, event.isInline)
    {block : BlockBuffer} (isBuffer : s.buffer = some block) :
    run lowercase s events =
      { s with buffer := some (block.push (events.flatMap Event.inlineText)) } := by
  induction events generalizing s block with
  | nil =>
    rw [flatMap_nil, BlockBuffer.push, append_nil, ← isBuffer]
    rfl
  | cons event events ih =>
    rw [run, foldl_cons, ← run, step_inline (inline event mem_cons_self) isBuffer,
      ih (fun later among => inline later (mem_cons_of_mem _ among)) rfl]
    simp [BlockBuffer.push]

/-- A heading is flushed with the text between its ends. -/
theorem run_heading : run lowercase s h.events =
    if h.text = [] then { s with buffer := none }
    else appendChunk lowercase .heading h.text
      (openSection h.depth h.text { s with buffer := none }) := by
  rw [Heading.events, run, foldl_append, foldl_cons]
  change flushBuffer lowercase (run lowercase { s with buffer := some ⟨.heading h.depth, []⟩ }
    h.content) = _
  rw [run_inline h.inline rfl]
  rfl

/-- What a heading adds to the sections, once its chunks are known. -/
theorem Outlined.open (outlined : Outlined hs s) (isKept : h.isBlank = false)
    (appended : Appended .heading new (openSection h.depth h.text { s with buffer := none }) s')
    (isLength : new.length = (splitChunkText h.text).length) (nonempty : new ≠ []) :
    Outlined (hs ++ [h]) s' := by
  have sections := appended.sections s.sections _ rfl
  have opened : ((openSection h.depth h.text { s with buffer := none }).sections.flatMap
      Section.chunks) = s.sections.flatMap Section.chunks := by
    simp [openSection]
  have ordered := appended.ordered rfl (opened ▸ outlined.increasing) (opened ▸ outlined.behind)
  have isPath : s.headingStack.take (h.depth - 1) ++ [h.text] =
      Outline.push Heading.depth Heading.text (Outline.stack Heading.depth Heading.text
        (Outline.kept Heading.isBlank hs)) h := by
    rw [Outline.push, outlined.stack]
  have isAnchor : ∀ chunk ∈ new, chunk.isHeading = true := by
    intro chunk among
    exact decide_eq_true (appended.kinds chunk among)
  constructor
  · rw [kept_concat_of_kept isKept, stack_concat, ← isPath]
    exact appended.headingStack
  · rw [kept_concat_of_kept isKept, paths_concat, ← isPath, sections, map_append, outlined.paths]
    rfl
  · have nonemptySections : s.sections ≠ [] := by
      intro isNil
      have paths := outlined.paths
      rw [isNil] at paths
      cases paths
    rw [kept_concat_of_kept isKept, sections, tail_append_of_ne_nil nonemptySections]
    refine rel_append outlined.opened (.cons ⟨?_, ?_⟩ .nil)
    · rw [nil_append, ← isLength, countP_eq_length]
      exact isAnchor
    · obtain ⟨first, rest, isCons⟩ := exists_cons_of_ne_nil nonempty
      rw [nil_append, isCons]
      exact isAnchor first (isCons ▸ mem_cons_self)
  · rw [appended.buffer]
    exact fun _ none => by cases none
  · exact ordered.1
  · exact ordered.2

include solid in
theorem Outlined.heading (outlined : Outlined hs s) :
    Outlined (hs ++ [h]) (run lowercase s h.events) := by
  rw [run_heading]
  cases isBlank : h.isBlank with
  | true =>
    rw [if_pos (Heading.isBlank_iff.mp isBlank)]
    have same : Outline.kept Heading.isBlank (hs ++ [h]) = Outline.kept Heading.isBlank hs :=
      kept_concat_of_skipped isBlank
    exact
      { stack := same ▸ outlined.stack
        paths := same ▸ outlined.paths
        opened := same ▸ outlined.opened
        outside := fun _ none => nomatch none
        increasing := outlined.increasing
        behind := outlined.behind }
  | false =>
    have visible : h.text ≠ [] := by
      intro isNil
      rw [Heading.isBlank_iff.mpr isNil] at isBlank
      exact Bool.noConfusion isBlank
    rw [if_neg visible]
    obtain ⟨new, isLength, appended⟩ := appendChunk_appended
      (s := openSection h.depth h.text { s with buffer := none }) solid visible
    have parts := (length_splitChunkText visible).1
    have nonempty : new ≠ [] := ne_nil_of_length_pos (by rw [isLength]; exact parts)
    exact outlined.open isBlank appended isLength nonempty

include solid in
theorem Outlined.segments (outlined : Outlined hs s) (segments : List Segment) :
    Outlined (hs ++ segments.filterMap Segment.heading?)
      (run lowercase s (segments.flatMap Segment.events)) := by
  induction segments generalizing hs s with
  | nil => simpa [run] using outlined
  | cons segment segments ih =>
    rw [flatMap_cons, run, foldl_append, ← run, ← run]
    cases segment with
    | heading h =>
      have step := ih (outlined.heading (h := h) solid)
      rw [append_assoc] at step
      exact step
    | event event apart => exact ih (outlined.event solid apart)

include solid in
/-- **Every heading that is not blank has its section, in order.** -/
theorem outlined_extract (parsed : Parsed) : Outlined parsed.headings
    (flushBuffer lowercase (run lowercase (initial parsed.frontmatter)
      (parsed.segments.flatMap Segment.events))) :=
  (outlined_initial.segments solid parsed.segments).flush solid

end Outlined

/-! ## What the index stores -/

/-- The crates and functions that a document goes through. -/
structure Crates where
  lowercase : List Char → List Char
  lowercase_ne_nil : ∀ text, text ≠ [] → lowercase text ≠ []
  computeChecksum : List Char → List Char
  computeChecksum_injective : Function.Injective computeChecksum
  parse : List Char → Parsed
  metaToJson : List FrontmatterEntry → List Char
  pathFromJson : List Char → Option (List (List Char))
  pathFromJson_strings : ∀ path, pathFromJson (Json.strings path) = some path

def Section.row (own : Section) (chunk : ExtractedChunk) : IndexedChunkRow :=
  ⟨Json.strings own.path, chunk.kind.asStr, chunk.text, chunk.rawText, chunk.globalStart,
    chunk.globalEnd⟩

def Section.rows (own : Section) : List IndexedChunkRow := own.chunks.map own.row

namespace Crates

variable (crates : Crates)

def extract (markdown : List Char) : ExtractedDocument :=
  extractDocument crates.lowercase (crates.parse markdown)

/-- What `build_document` makes of it. -/
def library : Library where
  lowercase := crates.lowercase
  extractDocument markdown :=
    let extracted := crates.extract markdown
    { title := extracted.title
      metaJson := crates.metaToJson extracted.frontmatter
      chunks := extracted.sections.flatMap Section.rows
      wikilinks := extracted.wikilinks }
  computeChecksum := crates.computeChecksum
  computeChecksum_injective := crates.computeChecksum_injective

end Crates

end Kuku.Search.Indexer
