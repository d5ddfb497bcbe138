/-
# Search.Navigation -- from a search hit to its heading

`findSectionHeadingPosition` walks the headings of the editor with a stack of its own and
takes the heading whose path and ordinal the hit names.  The index was built from the same
headings by `extract_document`, which skips blank ones and stores a heading that is too long
as several chunks.  `leads_to_section_iff` says which headings leave the two in step.
-/
import Kuku.Markdown.Types
import Kuku.Search.Contents
import Kuku.Search.Extract
import Kuku.Search.Hits

namespace Kuku.Search

open Kuku.Theory Indexer List Function Option Outline

/-! ## navigation.ts -/

structure HeadingEntry where
  level : Nat
  text : List Char
  pos : Nat

structure HeadingNode where
  level : Nat
  textContent : List Char
  pos : Nat

def collectHeadingEntries (nodes : List HeadingNode) : List HeadingEntry :=
  nodes.map fun node => ⟨node.level, Markdown.trim node.textContent, node.pos + 1⟩

/-- The loop, with the stack and the matches so far. -/
def findFrom (sectionPath : List (List Char)) (sectionOrdinal : Nat) :
    List HeadingEntry → Nat → List HeadingEntry → Option Nat
  | _, _, [] => none
  | headingStack, matchedOrdinal, heading :: rest =>
    let headingStack := headingStack.take (heading.level - 1) ++ [heading]
    if headingStack.map HeadingEntry.text = sectionPath then
      if matchedOrdinal = sectionOrdinal then some heading.pos
      else findFrom sectionPath sectionOrdinal headingStack (matchedOrdinal + 1) rest
    else findFrom sectionPath sectionOrdinal headingStack matchedOrdinal rest

def findSectionHeadingPosition (headings : List HeadingEntry) (sectionPath : List (List Char))
    (sectionOrdinal : Nat) : Option Nat :=
  if sectionPath = [] then some 1 else findFrom sectionPath sectionOrdinal [] 0 headings

section Find

variable {path : List (List Char)} {ordinal : Nat} {headings done rest : List HeadingEntry}
  {headingStack : List HeadingEntry} {heading : HeadingEntry} {position : Nat}

abbrev entryStack (headings : List HeadingEntry) : List (List Char) :=
  stack HeadingEntry.level HeadingEntry.text headings

abbrev entryPaths (headings : List HeadingEntry) : List (List (List Char)) :=
  Outline.paths HeadingEntry.level HeadingEntry.text headings

theorem entryStack_concat : entryStack (headings ++ [heading]) =
    (entryStack headings).take (heading.level - 1) ++ [heading.text] :=
  stack_concat

theorem entryPaths_concat : entryPaths (headings ++ [heading]) =
    entryPaths headings ++ [entryStack (headings ++ [heading])] := by
  rw [entryStack_concat]
  exact paths_concat

/-- The heading is the one that the loop looks for. -/
def IsSought (path : List (List Char)) (ordinal : Nat) (before : List HeadingEntry)
    (heading : HeadingEntry) : Prop :=
  entryStack (before ++ [heading]) = path ∧ (entryPaths before).count path = ordinal

instance {before : List HeadingEntry} : Decidable (IsSought path ordinal before heading) :=
  inferInstanceAs (Decidable (_ ∧ _))

variable (isStack : headingStack.map HeadingEntry.text = entryStack done)

include isStack

theorem map_text_push :
    (headingStack.take (heading.level - 1) ++ [heading]).map HeadingEntry.text =
      entryStack (done ++ [heading]) := by
  rw [entryStack_concat, map_append, map_take, isStack, map_singleton]

theorem findFrom_cons :
    findFrom path ordinal headingStack ((entryPaths done).count path) (heading :: rest) =
      if IsSought path ordinal done heading then some heading.pos
      else findFrom path ordinal (headingStack.take (heading.level - 1) ++ [heading])
        ((entryPaths (done ++ [heading])).count path) rest := by
  have counted : (entryPaths (done ++ [heading])).count path =
      (entryPaths done).count path +
        if entryStack (done ++ [heading]) = path then 1 else 0 := by
    rw [entryPaths_concat, count_append, count_singleton]
    simp
  rw [findFrom]
  simp only [map_text_push isStack, counted, IsSought]
  by_cases isPath : entryStack (done ++ [heading]) = path
  · rw [if_pos isPath, if_pos isPath]
    simp [isPath]
  · rw [if_neg isPath, if_neg isPath, if_neg (fun both => isPath both.1), Nat.add_zero]

theorem findFrom_sound
    (found : findFrom path ordinal headingStack ((entryPaths done).count path) rest =
      some position) :
    ∃ before heading after, rest = before ++ heading :: after ∧ heading.pos = position ∧
      IsSought path ordinal (done ++ before) heading := by
  induction rest generalizing done headingStack with
  | nil => exact nomatch found
  | cons heading rest ih =>
    rw [findFrom_cons isStack] at found
    split at found
    · rename_i isSought
      exact ⟨[], heading, rest, rfl, Option.some.inj found, by rwa [append_nil]⟩
    · obtain ⟨before, other, after, rfl, isPos, isSought⟩ := ih (map_text_push isStack) found
      refine ⟨heading :: before, other, after, rfl, isPos, ?_⟩
      rwa [append_assoc] at isSought

/-- Before the heading that is sought no other one is. -/
theorem findFrom_complete {before after : List HeadingEntry}
    (isSought : IsSought path ordinal (done ++ before) heading) :
    findFrom path ordinal headingStack ((entryPaths done).count path)
      (before ++ heading :: after) = some heading.pos := by
  induction before generalizing done headingStack with
  | nil =>
    rw [append_nil] at isSought
    rw [nil_append, findFrom_cons isStack, if_pos isSought]
  | cons first before ih =>
    have isMore : done ++ first :: before = (done ++ [first]) ++ before := by simp
    rw [cons_append, findFrom_cons isStack, if_neg]
    · exact ih (map_text_push isStack) (isMore ▸ isSought)
    · rintro ⟨isPath, isOrdinal⟩
      have earlier : Outline.paths HeadingEntry.level HeadingEntry.text (done ++ [first]) <+:
          Outline.paths HeadingEntry.level HeadingEntry.text (done ++ [first] ++ before) :=
        Outline.paths_append_prefix
      have fewer := earlier.sublist.count_le path
      rw [← isMore] at fewer
      have atFirst : (entryPaths (done ++ [first])).count path =
          (entryPaths done).count path + 1 := by
        rw [entryPaths_concat, count_append, isPath, count_singleton_self]
      have total : (entryPaths (done ++ first :: before)).count path = ordinal := isSought.2
      change (entryPaths (done ++ [first])).count path ≤
        (entryPaths (done ++ first :: before)).count path at fewer
      omega

omit isStack

/-- **The position found is that of the heading with the path and the ordinal.** -/
theorem findSectionHeadingPosition_eq_some (isSection : path ≠ []) :
    findSectionHeadingPosition headings path ordinal = some position ↔
      ∃ before heading after, headings = before ++ heading :: after ∧ heading.pos = position ∧
        IsSought path ordinal before heading := by
  rw [findSectionHeadingPosition, if_neg isSection]
  have start : ([] : List HeadingEntry).map HeadingEntry.text = entryStack [] := rfl
  constructor
  · intro found
    exact findFrom_sound start found
  · rintro ⟨before, heading, after, rfl, rfl, isSought⟩
    exact findFrom_complete start isSought

end Find

/-! ## The anchors of a stored chunk -/

section Anchors

variable {db : Db} {docId : DocId} {own : Section} {before after : List Section}
  {front back : List ExtractedChunk} {chunk : ExtractedChunk} {path : List (List Char)}

/-- The heading chunks of the sections with a path. -/
def anchorsOf (path : List (List Char)) (sections : List Section) : Nat :=
  (sections.map fun other =>
    if other.path = path then other.chunks.countP ExtractedChunk.isHeading else 0).sum

theorem strings_inj (crates : Crates) {a b : List (List Char)}
    (same : Json.strings a = Json.strings b) : a = b := by
  have read := congrArg crates.pathFromJson same
  rw [crates.pathFromJson_strings, crates.pathFromJson_strings] at read
  exact Option.some.inj read

theorem isHeading_row : (ChunkRow.mk docId (own.row chunk)).isHeading = chunk.isHeading := by
  have isKind : ∀ kind : ChunkKind,
      decide (kind.asStr = "Heading".toList) = decide (kind = .heading) := by
    intro kind
    cases kind <;> decide
  exact isKind chunk.kind

/-- A section's share of the subquery. -/
def anchorsIn (path : List (List Char)) (last : Nat) (other : Section) : Nat :=
  other.chunks.countP fun x =>
    decide (other.path = path) && x.isHeading && decide (x.globalStart ≤ last)

variable {sections : List Section}

theorem anchors_eq_sum (crates : Crates)
    (stored : db.chunkRows.filter (fun row => row.docId = docId) =
      (sections.flatMap Section.rows).map (ChunkRow.mk docId)) :
    db.anchors ⟨docId, own.row chunk⟩ =
      (sections.map (anchorsIn own.path chunk.globalStart)).sum := by
  have isDoc : db.anchors ⟨docId, own.row chunk⟩ =
      (db.chunkRows.filter fun row => row.docId = docId).countP fun anchor =>
        decide (anchor.chunk.sectionPathJson = Json.strings own.path) && anchor.isHeading &&
          decide (anchor.chunk.globalStart ≤ chunk.globalStart) := by
    rw [countP_filter]
    apply countP_congr
    intro anchor _
    simp only [Section.row, Bool.and_eq_true, decide_eq_true_eq]
    constructor
    · rintro ⟨⟨⟨isDoc, isPath⟩, isHeading⟩, isBefore⟩
      exact ⟨⟨⟨of_decide_eq_true isPath, isHeading⟩, of_decide_eq_true isBefore⟩, isDoc⟩
    · rintro ⟨⟨⟨isPath, isHeading⟩, isBefore⟩, isDoc⟩
      exact ⟨⟨⟨isDoc, decide_eq_true isPath⟩, isHeading⟩, decide_eq_true isBefore⟩
  rw [isDoc, stored, countP_map, countP_flatMap]
  congr 1
  apply map_congr_left
  intro other _
  simp only [comp_apply, Section.rows, countP_map, anchorsIn]
  apply countP_congr
  intro x _
  have samePath : Json.strings other.path = Json.strings own.path ↔ other.path = own.path :=
    ⟨strings_inj crates, congrArg Json.strings⟩
  change (decide (Json.strings other.path = Json.strings own.path) &&
    (ChunkRow.mk docId (other.row x)).isHeading &&
    decide (x.globalStart ≤ chunk.globalStart)) = true ↔ _
  rw [isHeading_row, decide_eq_decide.mpr samePath]

theorem anchorsIn_before {last : Nat} {other : Section}
    (isBefore : ∀ x ∈ other.chunks, x.globalStart < last) : anchorsIn path last other =
      if other.path = path then other.chunks.countP ExtractedChunk.isHeading else 0 := by
  unfold anchorsIn
  split
  · rename_i isPath
    apply countP_congr
    intro x among
    simp [isPath, (isBefore x among).le]
  · rename_i isOther
    rw [countP_eq_zero]
    simp [isOther]

theorem countP_behind {last : Nat} {chunks : List ExtractedChunk} {p : Bool}
    (isBehind : ∀ x ∈ chunks, last < x.globalStart) :
    chunks.countP (fun x => p && x.isHeading && decide (x.globalStart ≤ last)) = 0 := by
  rw [countP_eq_zero]
  intro x among all
  have := isBehind x among
  simp only [Bool.and_eq_true, decide_eq_true_eq] at all
  omega

/-- **The anchors of a chunk are those of the earlier sections of its path, and the heading
chunks of its own section up to it.** -/
theorem anchors_eq (crates : Crates) (stored : db.chunkRows.filter (fun row => row.docId = docId) =
      ((before ++ own :: after).flatMap Section.rows).map (ChunkRow.mk docId))
    (increasing : (((before ++ own :: after).flatMap Section.chunks).map
      ExtractedChunk.globalStart).Pairwise (· < ·))
    (isSplit : own.chunks = front ++ chunk :: back) :
    db.anchors ⟨docId, own.row chunk⟩ =
      anchorsOf own.path before + (front ++ [chunk]).countP ExtractedChunk.isHeading := by
  rw [flatMap_append, flatMap_cons, isSplit, map_append, map_append,
    map_append, map_cons, pairwise_append, pairwise_append,
    pairwise_append, pairwise_cons] at increasing
  obtain ⟨-, ⟨⟨-, ⟨atBack, -⟩, atFront⟩, -, atAfter⟩, atBefore⟩ := increasing
  have isBefore : ∀ other ∈ before, ∀ x ∈ other.chunks, x.globalStart < chunk.globalStart := by
    intro other among x isChunk
    exact atBefore _ (List.mem_map_of_mem (mem_flatMap.mpr ⟨other, among, isChunk⟩)) _ (by simp)
  have isAfter : ∀ other ∈ after, ∀ x ∈ other.chunks, chunk.globalStart < x.globalStart := by
    intro other among x isChunk
    exact atAfter _ (by simp) _ (List.mem_map_of_mem (mem_flatMap.mpr ⟨other, among, isChunk⟩))
  have early : (before.map (anchorsIn own.path chunk.globalStart)) = before.map fun other =>
      if other.path = own.path then other.chunks.countP ExtractedChunk.isHeading else 0 :=
    map_congr_left fun other among => anchorsIn_before (isBefore other among)
  have late : (after.map (anchorsIn own.path chunk.globalStart)).sum = 0 := by
    apply sum_eq_zero
    intro n among
    obtain ⟨other, isOther, rfl⟩ := List.mem_map.mp among
    exact countP_behind (isAfter other isOther)
  have here : anchorsIn own.path chunk.globalStart own =
      (front ++ [chunk]).countP ExtractedChunk.isHeading := by
    have isFront : front.countP (fun x => decide (own.path = own.path) && x.isHeading &&
        decide (x.globalStart ≤ chunk.globalStart)) = front.countP ExtractedChunk.isHeading := by
      apply countP_congr
      intro x among
      have := atFront x.globalStart (List.mem_map_of_mem among) chunk.globalStart (by simp)
      simp [this.le]
    have isBack : back.countP (fun x => decide (own.path = own.path) && x.isHeading &&
        decide (x.globalStart ≤ chunk.globalStart)) = 0 :=
      countP_behind fun x among => atBack x.globalStart (List.mem_map_of_mem among)
    rw [anchorsIn, isSplit, countP_append, countP_cons, isFront, isBack, countP_append]
    cases isIt : chunk.isHeading <;> simp [isIt]
  rw [anchors_eq_sum crates stored, map_append, map_cons, sum_append,
    sum_cons, early, here, late, Nat.add_zero, anchorsOf]

theorem count_le_anchorsOf (anchored : ∀ other ∈ sections, other.path = path →
      1 ≤ other.chunks.countP ExtractedChunk.isHeading) :
    (sections.map Section.path).count path ≤ anchorsOf path sections := by
  induction sections with
  | nil => exact Nat.zero_le _
  | cons first rest ih =>
    have later := ih fun other among => anchored other (mem_cons_of_mem _ among)
    have here := anchored first mem_cons_self
    simp only [anchorsOf, map_cons, sum_cons, count_cons, beq_iff_eq] at later ⊢
    split
    · rename_i isPath
      have := here isPath
      omega
    · omega

theorem anchorsOf_eq_count (single : ∀ other ∈ sections, other.path = path →
      other.chunks.countP ExtractedChunk.isHeading = 1) :
    anchorsOf path sections = (sections.map Section.path).count path := by
  induction sections with
  | nil => rfl
  | cons first rest ih =>
    have later := ih fun other among => single other (mem_cons_of_mem _ among)
    have here := single first mem_cons_self
    simp only [anchorsOf, map_cons, sum_cons, count_cons, beq_iff_eq] at later ⊢
    split
    · rename_i isPath
      rw [here isPath, later, Nat.add_comm]
    · rw [later, Nat.zero_add, Nat.add_zero]

end Anchors

/-! ## The section of a heading -/

section Headings

variable {hs before after : List Heading} {h : Heading} {s : Indexer.State}

abbrev sectionStack (hs : List Heading) : List (List Char) :=
  stack Heading.depth Heading.text (Outline.kept Heading.isBlank hs)

abbrev sectionPaths (hs : List Heading) : List (List (List Char)) :=
  Outline.paths Heading.depth Heading.text (Outline.kept Heading.isBlank hs)

/-- The sections before that of a heading, and its own. -/
structure SectionOf (before : List Heading) (h : Heading) (sections : List Section)
    (own : Section) : Prop where
  path : own.path = sectionStack (before ++ [h])
  opens : Indexer.Opens h own
  paths : sections.map Section.path = [] :: sectionPaths before
  opened : ∀ other ∈ sections, other.path ≠ [] →
    ∃ x ∈ Outline.kept Heading.isBlank before, Indexer.Opens x other

theorem Indexer.Outlined.sectionOf (outlined : Outlined (before ++ h :: after) s)
    (isKept : h.isBlank = false) : ∃ earlier own later, s.sections = earlier ++ own :: later ∧
      earlier.length = (Outline.kept Heading.isBlank before).length + 1 ∧
      SectionOf before h earlier own := by
  generalize isK : Outline.kept Heading.isBlank before = kept
  have isAll : Outline.kept Heading.isBlank (before ++ h :: after) =
      kept ++ h :: Outline.kept Heading.isBlank after := by
    simp [← isK, Outline.kept, isKept]
  have isOne : Outline.kept Heading.isBlank (before ++ [h]) = kept ++ [h] := by
    rw [Outline.kept_concat_of_kept isKept, isK]
  have paths := outlined.paths
  have opened := outlined.opened
  rw [isAll] at paths opened
  cases isSections : s.sections with
  | nil =>
    rw [isSections] at paths
    cases paths
  | cons first rest =>
    rw [isSections, map_cons, List.cons.injEq] at paths
    rw [isSections, tail_cons] at opened
    have whole : kept ++ h :: Outline.kept Heading.isBlank after =
        (kept ++ [h]) ++ Outline.kept Heading.isBlank after := by simp
    have early : Outline.paths Heading.depth Heading.text (kept ++ [h]) <+:
        Outline.paths Heading.depth Heading.text
          (kept ++ [h] ++ Outline.kept Heading.isBlank after) :=
      Outline.paths_append_prefix
    obtain ⟨more, isMore⟩ := early
    rw [whole, ← isMore, paths_concat, ← stack_concat, append_assoc,
      singleton_append, map_eq_append_iff] at paths
    obtain ⟨isFirst, earlier, tail, rfl, earlierPaths, tailPaths⟩ := paths
    obtain ⟨own, later, rfl, ownPath, -⟩ := map_eq_cons_iff.mp tailPaths
    have isLength : earlier.length = kept.length := by
      have := congrArg List.length earlierPaths
      rwa [length_map, length_paths] at this
    have front := forall₂_take_append _ _ _ opened
    have back := forall₂_drop_append _ _ _ opened
    rw [isLength, take_left] at front
    rw [isLength, drop_left] at back
    refine ⟨first :: earlier, own, later, rfl, by rw [length_cons, isLength], ?_⟩
    constructor
    · rw [sectionStack, isOne, ownPath]
    · exact (List.forall₂_cons.mp back).1
    · rw [map_cons, isFirst, earlierPaths, sectionPaths, isK]
    · intro other among isSection
      rcases mem_cons.mp among with rfl | isEarlier
      · exact absurd isFirst isSection
      · obtain ⟨i, inside, rfl⟩ := mem_iff_getElem.mp isEarlier
        have inKept : i < kept.length := by omega
        have isIn : kept.get ⟨i, inKept⟩ ∈ kept := List.get_mem _ _
        rw [isK]
        exact ⟨kept.get ⟨i, inKept⟩, isIn, front.get inKept inside⟩

end Headings

/-! ## The editor's headings and the parser's -/

/-- The editor shows the headings that the parser reports. -/
structure Shows (nodes : List HeadingNode) (hs : List Heading) : Prop where
  same : nodes.map (fun node => (node.level, node.textContent)) = hs.map fun h => (h.depth, h.raw)
  ordered : (nodes.map HeadingNode.pos).Pairwise (· < ·)

def HeadingNode.isBlank (node : HeadingNode) : Bool := node.textContent.all Text.isSpace

/-- Where the heading stands that opens the section: the first section is open from the start,
each other one is opened by its heading that is not blank. -/
def openerPosition (nodes : List HeadingNode) : Nat → Option Nat
  | 0 => some 1
  | n + 1 => (Outline.kept HeadingNode.isBlank nodes)[n]?.map fun node => node.pos + 1

def editorText (h : Heading) : List Char := Markdown.trim h.raw

/-- Both trims agree, the heading is one chunk, and where blank headings stand right before it,
none has a smaller level and it goes at most one level down from the headings before them. -/
def IsFollowed (before : List Heading) (h : Heading) : Prop :=
  h.isBlank = false → (editorText h = h.text ∧ ∀ b ∈ before.rtakeWhile Heading.isBlank,
      h.depth ≤ b.depth ∧ h.depth ≤ depth Heading.depth (Outline.kept Heading.isBlank before) + 1) ∧
    h.text.length ≤ chunkMaxChars

/-- Both queries report the section of a row with one ordinal, and it leads to a position. -/
def LeadsTo (crates : Crates) (db : Db) (headings : List HeadingEntry) (row : ChunkRow)
    (path : List (List Char)) (position : Nat) : Prop :=
  ∃ ordinal,
    (∀ found limit snippetBuilder (i : Nat) (hit : SimpleSearchHit),
      (db.queryBodyHits crates.pathFromJson found limit snippetBuilder)[i]? = some hit →
      found[i]?.map Match.row = some row →
      hit.sectionPath = path ∧ hit.sectionOrdinal = ordinal) ∧
    (∀ visit, ∀ visited ∈ db.visitAdvancedBodyRows crates.pathFromJson visit,
      visited.docId = row.docId → visited.globalStart = row.chunk.globalStart →
      visited.sectionPath = path ∧ visited.sectionOrdinal = ordinal) ∧
    findSectionHeadingPosition headings path ordinal = some position

section Leads

variable {crates : Crates} {db : Db} {headings : List HeadingEntry} {row : ChunkRow}
  {path : List (List Char)} {position : Nat}

theorem strings_eq_nil_iff (crates : Crates) : path = [] ↔ Json.strings path = "[]".toList := by
  constructor
  · rintro rfl
    rfl
  · exact fun same => strings_inj crates (same.trans (rfl : _ = Json.strings []))

/-- **The two queries agree, so only the editor's search is left.** -/
theorem leadsTo_iff (among : row ∈ db.chunkRows)
    (isStored : row.chunk.sectionPathJson = Json.strings path)
    (distinct : ((db.chunkRows.filter fun r => r.docId = row.docId).map
      fun r => r.chunk.globalStart).Nodup) :
    LeadsTo crates db headings row path position ↔
      findSectionHeadingPosition headings path (db.sectionOrdinal row) = some position := by
  have isPath : row.sectionPath crates.pathFromJson = path := by
    rw [ChunkRow.sectionPath, isStored, crates.pathFromJson_strings, getD_some]
  constructor
  · rintro ⟨ordinal, hits, -, leads⟩
    have isOrdinal : db.sectionOrdinal row = ordinal := (hits [⟨row, 0⟩] 1 id 0 _ rfl rfl).2
    exact isOrdinal ▸ leads
  · intro leads
    refine ⟨db.sectionOrdinal row, ?_, ?_, leads⟩
    · intro found limit snippetBuilder i hit isHit isRow
      rw [Db.queryBodyHits, getElem?_map, map_eq_some_iff] at isHit
      obtain ⟨match_, isMatch, rfl⟩ := isHit
      have taken : found[i]? = some match_ := by
        rw [getElem?_take] at isMatch
        split at isMatch
        · exact isMatch
        · cases isMatch
      rw [taken, map_some, Option.some.injEq] at isRow
      rw [← isRow] at isPath
      exact ⟨isPath, by rw [Db.bodyHit, isRow]⟩
    · intro visit visited isVisited sameDoc sameStart
      obtain ⟨other, isOther, ordinal, rfl, agrees⟩ := mem_visitAdvancedBodyRows isVisited
      have isRow : other = row := inj_on_of_nodup_map distinct
        (mem_filter.mpr ⟨isOther, decide_eq_true sameDoc⟩)
        (mem_filter.mpr ⟨among, decide_eq_true rfl⟩) sameStart
      subst isRow
      have readable : other.IsReadable crates.pathFromJson := by
        rw [ChunkRow.IsReadable, isPath, isStored]
        exact strings_eq_nil_iff crates
      exact ⟨isPath, agrees readable distinct⟩

end Leads

/-! ## Where the editor finds a heading -/

section Editor

variable {hs before after : List Heading} {h : Heading} {nodes : List HeadingNode}

/-- The text has no visible character. -/
def IsHidden (text : List Char) : Prop := ∀ c ∈ text, Text.isSpace c = true

theorem depth_pos (h : Heading) : 1 ≤ h.depth := by
  rw [Heading.depth]
  cases h.level <;> decide

theorem editorText_hidden (h : Heading) (isBlank : h.isBlank = true) : IsHidden (editorText h) := by
  intro c among
  have inRaw : c ∈ h.raw := (dropWhile_sublist _).subset ((List.rdropWhile_prefix _ _).subset among)
  rw [Heading.isBlank, List.all_eq_true] at isBlank
  exact isBlank c inRaw

theorem text_visible (h : Heading) (isKept : h.isBlank = false) : ¬ IsHidden h.text := by
  intro hidden
  have nonempty : h.text ≠ [] := by
    intro isNil
    rw [Heading.isBlank_iff.mpr isNil] at isKept
    exact Bool.noConfusion isKept
  obtain ⟨c, isFirst, visible⟩ := trim_first nonempty
  rw [hidden c (mem_of_getElem? isFirst)] at visible
  exact Bool.noConfusion visible

/-- A row is found at one place of a list only. -/
theorem split_unique {α β : Type} {f : α → β} {a b c d : List α} {x y : α}
    (nodup : ((a ++ x :: b).map f).Nodup) (same : a ++ x :: b = c ++ y :: d) (here : f x = f y) :
    a = c ∧ x = y := by
  induction a generalizing c with
  | nil =>
    cases c with
    | nil => exact ⟨rfl, (List.cons.inj same).1⟩
    | cons z c =>
      obtain ⟨rfl, rfl⟩ := List.cons.inj same
      rw [nil_append, map_cons, nodup_cons] at nodup
      exact absurd (here ▸ List.mem_map_of_mem (by simp)) nodup.1
  | cons w a ih =>
    cases c with
    | nil =>
      obtain ⟨rfl, rfl⟩ := List.cons.inj same
      rw [cons_append, map_cons, nodup_cons] at nodup
      exact absurd (here ▸ List.mem_map_of_mem (by simp)) nodup.1
    | cons z c =>
      obtain ⟨rfl, rest⟩ := List.cons.inj same
      rw [cons_append, map_cons, nodup_cons] at nodup
      obtain ⟨rfl, rfl⟩ := ih nodup.2 rest
      exact ⟨rfl, rfl⟩

theorem map_collectHeadingEntries (same : nodes.map (fun node => (node.level, node.textContent)) =
      hs.map fun h => (h.depth, h.raw)) :
    (collectHeadingEntries nodes).map (fun entry => (entry.level, entry.text)) =
      hs.map fun h => (h.depth, editorText h) := by
  have trimmed := congrArg (List.map (Prod.map id Markdown.trim)) same
  rw [List.map_map, List.map_map] at trimmed
  rw [collectHeadingEntries, List.map_map]
  exact trimmed

theorem length_kept_eq (same : nodes.map (fun node => (node.level, node.textContent)) =
      hs.map fun h => (h.depth, h.raw)) :
    (Outline.kept HeadingNode.isBlank nodes).length = (Outline.kept Heading.isBlank hs).length := by
  have texts := congrArg (List.map Prod.snd) same
  rw [List.map_map, List.map_map] at texts
  have counted := congrArg (List.countP fun raw => !raw.all Text.isSpace) texts
  rw [countP_map, countP_map] at counted
  rw [Outline.kept, Outline.kept, ← countP_eq_length_filter, ← countP_eq_length_filter]
  exact counted

/-- The editor has the heading at a position, and finds it there under its own path and count. -/
structure FoundAt (nodes : List HeadingNode) (before : List Heading) (h : Heading)
    (position : Nat) : Prop where
  opener : h.isBlank = false →
    openerPosition nodes ((Outline.kept Heading.isBlank before).length + 1) = some position
  found : ∀ path ordinal, path ≠ [] →
    (findSectionHeadingPosition (collectHeadingEntries nodes) path ordinal = some position ↔
      stack Heading.depth editorText (before ++ [h]) = path ∧
        (Outline.paths Heading.depth editorText before).count path = ordinal)

theorem Shows.foundAt (shows : Shows nodes (before ++ h :: after)) :
    ∃ position, FoundAt nodes before h position := by
  have same := shows.same
  rw [map_append, map_cons, map_eq_append_iff] at same
  obtain ⟨front, tail, rfl, isFront, isTail⟩ := same
  obtain ⟨node, back, rfl, isNode, -⟩ := map_eq_cons_iff.mp isTail
  have isRaw : node.textContent = h.raw := congrArg Prod.snd isNode
  refine ⟨node.pos + 1, ?_, ?_⟩
  · intro isKept
    have nodeKept : node.isBlank = false := by
      rw [HeadingNode.isBlank, isRaw]
      exact isKept
    rw [openerPosition, ← length_kept_eq isFront, get_kept_of_split nodeKept]
    rfl
  · intro path ordinal isSection
    have isConcat : (front ++ [node]).map (fun node => (node.level, node.textContent)) =
        (before ++ [h]).map fun h => (h.depth, h.raw) := by
      rw [map_append, isFront, map_append, map_singleton, isNode]
      rfl
    have isStack : entryStack (collectHeadingEntries front ++
        [⟨node.level, Markdown.trim node.textContent, node.pos + 1⟩]) =
        stack Heading.depth editorText (before ++ [h]) := by
      have entries := stack_congr (map_collectHeadingEntries isConcat)
      rwa [collectHeadingEntries, map_append] at entries
    have isPaths : entryPaths (collectHeadingEntries front) =
        Outline.paths Heading.depth editorText before :=
      paths_congr (map_collectHeadingEntries isFront)
    rw [findSectionHeadingPosition_eq_some isSection, ← isStack, ← isPaths]
    constructor
    · rintro ⟨first, heading, last, isSplit, isPos, isSought⟩
      rw [collectHeadingEntries, map_append, map_cons] at isSplit
      have nodup : ((front.map (fun node => HeadingEntry.mk node.level
          (Markdown.trim node.textContent) (node.pos + 1)) ++
          ⟨node.level, Markdown.trim node.textContent, node.pos + 1⟩ ::
            back.map fun node => HeadingEntry.mk node.level (Markdown.trim node.textContent)
              (node.pos + 1)).map HeadingEntry.pos).Nodup := by
        have positions := (shows.ordered.imp fun {a b} less => less.ne)
        have moved := List.Nodup.map Nat.succ_injective positions
        simpa [comp_def] using moved
      obtain ⟨rfl, rfl⟩ := split_unique nodup isSplit isPos.symm
      exact isSought
    · intro isSought
      exact ⟨_, _, collectHeadingEntries back,
        by rw [collectHeadingEntries, map_append, map_cons]; rfl, rfl, isSought⟩

end Editor

/-! ## A hit leads to its section -/

/-- Every chunk of every section is reported with a path and an ordinal that lead to the heading
which opened the section. -/
def HitsLead (crates : Crates) (db : Db) (docId : DocId) (markdown : List Char)
    (nodes : List HeadingNode) : Prop :=
  ∀ (n : Nat) (own : Section) (chunk : ExtractedChunk),
    (crates.extract markdown).sections[n]? = some own → chunk ∈ own.chunks →
    ∃ position, openerPosition nodes n = some position ∧
      LeadsTo crates db (collectHeadingEntries nodes) ⟨docId, own.row chunk⟩ own.path position

section Document

variable {crates : Crates} {contents : DocId → Option File} {db : Db} {docId : DocId}
  {file : File} {nodes : List HeadingNode} {s : Indexer.State} {hs before after : List Heading}
  {h : Heading} {earlier later : List Section} {own : Section} {chunk : ExtractedChunk}
  {front back : List ExtractedChunk} {position : Nat}

theorem stored_of_holds (holds : HoldsText crates.library contents db)
    (isThere : contents docId = some file) :
    db.chunkRows.filter (fun row => row.docId = docId) =
      ((crates.extract file.markdown).sections.flatMap Section.rows).map (ChunkRow.mk docId) := by
  rw [holds.chunks docId, Library.chunkRowsOf, isThere]
  rfl

theorem starts_nodup {sections : List Section}
    (stored : db.chunkRows.filter (fun row => row.docId = docId) =
      (sections.flatMap Section.rows).map (ChunkRow.mk docId))
    (increasing : ((sections.flatMap Section.chunks).map ExtractedChunk.globalStart).Pairwise
      (· < ·)) :
    ((db.chunkRows.filter fun row => row.docId = docId).map
      fun row => row.chunk.globalStart).Nodup := by
  have isStarts : (sections.flatMap Section.rows).map IndexedChunkRow.globalStart =
      (sections.flatMap Section.chunks).map ExtractedChunk.globalStart := by
    rw [map_flatMap, map_flatMap]
    apply flatMap_congr
    intro other _
    rw [Section.rows, List.map_map]
    rfl
  rw [stored, List.map_map]
  change ((sections.flatMap Section.rows).map IndexedChunkRow.globalStart).Nodup
  rw [isStarts]
  exact increasing.imp fun less => less.ne

theorem SectionOf.path_ne_nil (isSection : SectionOf before h earlier own)
    (isKept : h.isBlank = false) : own.path ≠ [] := by
  rw [isSection.path, sectionStack, Outline.kept_concat_of_kept isKept, stack_concat, push]
  simp

theorem leadsTo_iff_found (outlined : Outlined hs s)
    (stored : db.chunkRows.filter (fun row => row.docId = docId) =
      (s.sections.flatMap Section.rows).map (ChunkRow.mk docId))
    (isSections : s.sections = earlier ++ own :: later) (isSplit : own.chunks = front ++ chunk :: back)
    {headings : List HeadingEntry} :
    LeadsTo crates db headings ⟨docId, own.row chunk⟩ own.path position ↔
      findSectionHeadingPosition headings own.path (if own.path = [] then 0 else
        anchorsOf own.path earlier + (front ++ [chunk]).countP ExtractedChunk.isHeading - 1) =
        some position := by
  have among : (⟨docId, own.row chunk⟩ : ChunkRow) ∈ db.chunkRows := by
    have isStored : (⟨docId, own.row chunk⟩ : ChunkRow) ∈
        db.chunkRows.filter fun row => row.docId = docId := by
      rw [stored]
      apply List.mem_map_of_mem
      rw [mem_flatMap]
      refine ⟨own, isSections ▸ by simp, ?_⟩
      exact List.mem_map_of_mem (isSplit ▸ by simp)
    exact (mem_filter.mp isStored).1
  have isAnchors := anchors_eq crates (isSections ▸ stored) (isSections ▸ outlined.increasing) isSplit
  have isOrdinal : db.sectionOrdinal ⟨docId, own.row chunk⟩ = if own.path = [] then 0 else
      anchorsOf own.path earlier + (front ++ [chunk]).countP ExtractedChunk.isHeading - 1 := by
    rw [Db.sectionOrdinal, isAnchors]
    exact if_congr (strings_eq_nil_iff crates).symm rfl rfl
  rw [leadsTo_iff among rfl (starts_nodup stored outlined.increasing), isOrdinal]

/-- A hit leads to its heading where the editor's stack is the path, and where the editor has
counted as many headings as the queries. -/
theorem leadsTo_section_iff (outlined : Outlined hs s)
    (stored : db.chunkRows.filter (fun row => row.docId = docId) =
      (s.sections.flatMap Section.rows).map (ChunkRow.mk docId))
    (isKept : h.isBlank = false) (isSection : SectionOf before h earlier own)
    (isSections : s.sections = earlier ++ own :: later) (foundAt : FoundAt nodes before h position)
    (isSplit : own.chunks = front ++ chunk :: back) :
    LeadsTo crates db (collectHeadingEntries nodes) ⟨docId, own.row chunk⟩ own.path position ↔
      stack Heading.depth editorText (before ++ [h]) = own.path ∧
        (Outline.paths Heading.depth editorText before).count own.path =
          anchorsOf own.path earlier + (front ++ [chunk]).countP ExtractedChunk.isHeading - 1 := by
  have isPath := isSection.path_ne_nil isKept
  rw [leadsTo_iff_found outlined stored isSections isSplit, if_neg isPath, foundAt.found _ _ isPath]

/-- Where the stacks have agreed, the editor has counted the sections of the path. -/
theorem count_paths_eq (isKept : h.isBlank = false) (isSection : SectionOf before h earlier own)
    (agree : Outline.Each (Outline.Agrees Heading.depth editorText Heading.text Heading.isBlank)
      before) :
    (Outline.paths Heading.depth editorText before).count own.path =
      (earlier.map Section.path).count own.path := by
  have solid : ∀ text ∈ own.path, ¬ IsHidden text := by
    intro text among
    rw [isSection.path] at among
    exact not_blank_of_mem text_visible among
  rw [count_paths editorText_hidden solid agree, isSection.paths,
    count_cons_of_ne (isSection.path_ne_nil isKept).symm]

theorem anchored_of_sectionOf (isKept : h.isBlank = false)
    (isSection : SectionOf before h earlier own) {other : Section} (among : other ∈ earlier)
    (isPath : other.path = own.path) : ∃ x ∈ before, x.isBlank = false ∧ Indexer.Opens x other := by
  have isOther : other.path ≠ [] := isPath ▸ isSection.path_ne_nil isKept
  obtain ⟨x, isIn, opens⟩ := isSection.opened other among isOther
  rw [Outline.kept, mem_filter] at isIn
  exact ⟨x, isIn.1, by simpa using isIn.2, opens⟩

theorem text_ne_nil (isKept : h.isBlank = false) : Chars.trim h.raw ≠ [] := by
  intro isNil
  rw [Heading.isBlank_iff.mpr isNil] at isKept
  exact Bool.noConfusion isKept

theorem Indexer.Opens.anchors_pos (opens : Opens h own) (isKept : h.isBlank = false) :
    1 ≤ own.chunks.countP ExtractedChunk.isHeading := by
  rw [opens.anchors]
  exact (length_splitChunkText (text_ne_nil isKept)).1

theorem Indexer.Opens.anchors_eq_one_iff (opens : Opens h own) (isKept : h.isBlank = false) :
    own.chunks.countP ExtractedChunk.isHeading = 1 ↔ h.text.length ≤ chunkMaxChars := by
  rw [opens.anchors]
  exact (length_splitChunkText (text_ne_nil isKept)).2

/-- The headings are followed where the two stacks agree and each heading is one chunk. -/
theorem followed_iff : Outline.Each IsFollowed hs ↔
    Outline.Each (Outline.Agrees Heading.depth editorText Heading.text Heading.isBlank) hs ∧
      ∀ h ∈ hs, h.isBlank = false → h.text.length ≤ chunkMaxChars := by
  rw [agree_iff_clear depth_pos editorText_hidden text_visible]
  constructor
  · intro followed
    constructor
    · exact fun pre x post isSplit isKept => (followed pre x post isSplit isKept).1
    · intro x among isKept
      obtain ⟨pre, isFollowed⟩ := followed.of_mem among
      exact (isFollowed isKept).2
  · rintro ⟨clear, short⟩ pre x post isSplit isKept
    exact ⟨clear pre x post isSplit isKept, short x (isSplit ▸ by simp) isKept⟩

section Claim

variable (outlined : Outlined hs s)
  (stored : db.chunkRows.filter (fun row => row.docId = docId) =
    (s.sections.flatMap Section.rows).map (ChunkRow.mk docId))
  (shows : Shows nodes hs)

include outlined stored in
/-- The text before the first heading is found at the start. -/
theorem leadsTo_first {tail : List Section} (isSections : s.sections = own :: tail)
    (among : chunk ∈ own.chunks) :
    LeadsTo crates db (collectHeadingEntries nodes) ⟨docId, own.row chunk⟩ own.path 1 := by
  obtain ⟨front, back, isSplit⟩ := append_of_mem among
  have isTop : own.path = [] := by
    have paths := outlined.paths
    rw [isSections] at paths
    exact (List.cons.inj paths).1
  have isFirst : s.sections = [] ++ own :: tail := isSections
  rw [leadsTo_iff_found outlined stored isFirst isSplit]
  exact if_pos isTop

include outlined stored shows in
theorem agrees_of_leads
    (leads : ∀ (n : Nat) (own : Section) (chunk : ExtractedChunk), s.sections[n]? = some own →
      chunk ∈ own.chunks → ∃ position, openerPosition nodes n = some position ∧
        LeadsTo crates db (collectHeadingEntries nodes) ⟨docId, own.row chunk⟩ own.path position) :
    Outline.Each (Outline.Agrees Heading.depth editorText Heading.text Heading.isBlank) hs ∧
      ∀ h ∈ hs, h.isBlank = false → h.text.length ≤ chunkMaxChars := by
  -- what every chunk of the section of a heading says
  have atHeading : ∀ before h after, hs = before ++ h :: after → h.isBlank = false →
      ∃ earlier own later, s.sections = earlier ++ own :: later ∧
        SectionOf before h earlier own ∧
        ∀ front chunk back, own.chunks = front ++ chunk :: back →
          stack Heading.depth editorText (before ++ [h]) = own.path ∧
            (Outline.paths Heading.depth editorText before).count own.path =
              anchorsOf own.path earlier +
                (front ++ [chunk]).countP ExtractedChunk.isHeading - 1 := by
    rintro before h after rfl isKept
    obtain ⟨earlier, own, later, isSections, isLength, isSection⟩ := outlined.sectionOf isKept
    obtain ⟨place, foundAt⟩ := shows.foundAt
    refine ⟨earlier, own, later, isSections, isSection, ?_⟩
    intro front chunk back isSplit
    have isNth : s.sections[earlier.length]? = some own := by simp [isSections]
    obtain ⟨position, isOpener, leadsTo⟩ := leads _ own chunk isNth (isSplit ▸ by simp)
    rw [isLength, foundAt.opener isKept, Option.some.injEq] at isOpener
    subst isOpener
    exact (leadsTo_section_iff outlined stored isKept isSection isSections foundAt isSplit).mp
      leadsTo
  have agree : Outline.Each
      (Outline.Agrees Heading.depth editorText Heading.text Heading.isBlank) hs := by
    intro before h after isSplit isKept
    obtain ⟨earlier, own, later, isSections, isSection, all⟩ :=
      atHeading before h after isSplit isKept
    have nonempty := isSection.opens.anchors_pos isKept
    obtain ⟨first, rest, isCons⟩ : ∃ first rest, own.chunks = first :: rest := by
      apply exists_cons_of_ne_nil
      intro isNil
      rw [isNil] at nonempty
      exact absurd nonempty (by decide)
    rw [(all [] first rest isCons).1, isSection.path]
  refine ⟨agree, ?_⟩
  intro h among isKept
  obtain ⟨before, after, isSplit⟩ := append_of_mem among
  obtain ⟨earlier, own, later, isSections, isSection, all⟩ :=
    atHeading before h after isSplit isKept
  have nonempty := isSection.opens.anchors_pos isKept
  -- its last chunk has counted all the heading chunks of the section
  obtain ⟨front, last, isConcat⟩ : ∃ front last, own.chunks = front ++ [last] := by
    rcases eq_nil_or_concat own.chunks with isNil | ⟨front, last, isConcat⟩
    · rw [isNil] at nonempty
      exact absurd nonempty (by decide)
    · exact ⟨front, last, by rw [isConcat, concat_eq_append]⟩
  have counted := (all front last [] isConcat).2
  rw [count_paths_eq isKept isSection (isSplit ▸ agree).of_append, ← isConcat] at counted
  have bound : (earlier.map Section.path).count own.path ≤ anchorsOf own.path earlier := by
    apply count_le_anchorsOf
    intro other isEarlier isPath
    obtain ⟨x, -, isKeptX, opens⟩ := anchored_of_sectionOf isKept isSection isEarlier isPath
    exact opens.anchors_pos isKeptX
  rw [← isSection.opens.anchors_eq_one_iff isKept]
  omega

include outlined stored shows in
theorem leads_of_agrees
    (agree : Outline.Each (Outline.Agrees Heading.depth editorText Heading.text Heading.isBlank) hs)
    (short : ∀ h ∈ hs, h.isBlank = false → h.text.length ≤ chunkMaxChars)
    {n : Nat} (isNth : s.sections[n]? = some own) (among : chunk ∈ own.chunks) :
    ∃ position, openerPosition nodes n = some position ∧
      LeadsTo crates db (collectHeadingEntries nodes) ⟨docId, own.row chunk⟩ own.path position := by
  cases n with
  | zero =>
    obtain ⟨tail, isSections⟩ : ∃ tail, s.sections = own :: tail := by
      cases isSections : s.sections with
      | nil => simp [isSections] at isNth
      | cons first tail =>
        rw [isSections] at isNth
        exact ⟨tail, by rw [Option.some.inj isNth]⟩
    exact ⟨1, rfl, leadsTo_first outlined stored isSections among⟩
  | succ n =>
    have isCount : s.sections.length = (Outline.kept Heading.isBlank hs).length + 1 := by
      have lengths := congrArg List.length outlined.paths
      rwa [length_map, length_cons, length_paths] at lengths
    have inside : n < (Outline.kept Heading.isBlank hs).length := by
      have := (List.getElem?_eq_some_iff.mp isNth).1
      omega
    obtain ⟨before, after, isSplit, isKept, isLength⟩ :=
      split_of_get_kept (getElem?_eq_getElem inside)
    generalize (Outline.kept Heading.isBlank hs)[n] = h at isSplit isKept
    subst isSplit
    obtain ⟨earlier, own', later, isSections, isPlace, isSection⟩ := outlined.sectionOf isKept
    obtain ⟨position, foundAt⟩ := shows.foundAt
    obtain rfl : own' = own := by
      have isOwn : s.sections[earlier.length]? = some own' := by simp [isSections]
      rw [isPlace, isLength] at isOwn
      exact Option.some.inj (isOwn.symm.trans isNth)
    obtain ⟨front, back, isChunks⟩ := append_of_mem among
    refine ⟨position, isLength ▸ foundAt.opener isKept, ?_⟩
    rw [leadsTo_section_iff outlined stored isKept isSection isSections foundAt isChunks]
    refine ⟨(agree before h after rfl isKept).trans isSection.path.symm, ?_⟩
    have single : ∀ other ∈ earlier, other.path = own'.path →
        other.chunks.countP ExtractedChunk.isHeading = 1 := by
      intro other isEarlier isPath
      obtain ⟨x, isIn, isKeptX, opens⟩ := anchored_of_sectionOf isKept isSection isEarlier isPath
      exact (opens.anchors_eq_one_iff isKeptX).mpr (short x (mem_append_left _ isIn) isKeptX)
    have total := (isSection.opens.anchors_eq_one_iff isKept).mpr (short h (by simp) isKept)
    have upTo : (front ++ [chunk]).countP ExtractedChunk.isHeading = 1 := by
      have isPrefix : front ++ [chunk] <+: own'.chunks := ⟨back, by rw [isChunks]; simp⟩
      have most := isPrefix.sublist.countP_le (p := ExtractedChunk.isHeading)
      have first := isSection.opens.first
      obtain ⟨c, rest, isCons⟩ : ∃ c rest, front ++ [chunk] = c :: rest :=
        exists_cons_of_ne_nil (by simp)
      obtain ⟨more, isMore⟩ := isPrefix
      rw [isCons] at isMore most ⊢
      rw [← isMore] at first
      have isHeading : c.isHeading = true := by simpa using first
      rw [countP_cons_of_pos isHeading] at most ⊢
      omega
    rw [count_paths_eq isKept isSection agree.of_append, anchorsOf_eq_count single, upTo]
    omega

end Claim

/-- **A search hit leads to its section exactly where every heading is followed.** -/
theorem hits_lead_iff (crates : Crates) (contents : DocId → Option File) (db : Db) (docId : DocId)
    (file : File) (nodes : List HeadingNode) (holds : HoldsText crates.library contents db)
    (isThere : contents docId = some file)
    (shows : Shows nodes (crates.parse file.markdown).headings) :
    HitsLead crates db docId file.markdown nodes ↔
      Outline.Each IsFollowed (crates.parse file.markdown).headings := by
  have outlined := outlined_extract crates.lowercase_ne_nil (crates.parse file.markdown)
  have stored := stored_of_holds holds isThere
  rw [followed_iff]
  constructor
  · intro leads
    exact agrees_of_leads outlined stored shows leads
  · rintro ⟨agree, short⟩ n own chunk isNth among
    exact leads_of_agrees outlined stored shows agree short isNth among

end Document

/-! ## Runs -/

def heading (level : HeadingLevel) (text : List Char) : Heading where
  level
  content := [.text text]
  inline := by simp [Event.isInline]

def repeatedText : List Char := "# A\n# A".toList

def skippedText : List Char := "# A\n##\n### B".toList

/-- Crates that are right about the two texts. -/
def sampleCrates : Crates where
  lowercase := List.map Text.asciiLowerChar
  lowercase_ne_nil := fun _ nonempty isNil => nonempty (map_eq_nil_iff.mp isNil)
  computeChecksum := id
  computeChecksum_injective := sampleChecksum_injective
  parse markdown :=
    if markdown = repeatedText then
      ⟨[], [], [.heading (heading .h1 ['A']), .heading (heading .h1 ['A'])]⟩
    else if markdown = skippedText then
      ⟨[], [], [.heading (heading .h1 ['A']), .heading (heading .h2 []),
        .heading (heading .h3 ['B'])]⟩
    else ⟨[], [], []⟩
  metaToJson _ := "\x7b\x7d".toList
  pathFromJson := Json.readStrings
  pathFromJson_strings := Json.readStrings_strings

def onlyFile (markdown : List Char) : DocId → Option File :=
  Function.update (fun _ => none) "a.md".toList (some ⟨markdown, 0⟩)

def onlyIndexed (markdown : List Char) : Db :=
  (Db.replaceDocument {} (sampleCrates.library.indexed none "a.md".toList ⟨markdown, 0⟩)).1

theorem onlyIndexed_holds (markdown : List Char) :
    HoldsText sampleCrates.library (onlyFile markdown) (onlyIndexed markdown) :=
  Holds.empty.toHoldsText.replace ⟨(fun _ none => nomatch none), fun _ none => nomatch none⟩

theorem onlyFile_self (markdown : List Char) :
    onlyFile markdown "a.md".toList = some ⟨markdown, 0⟩ :=
  update_self ..

/-- Two headings of one text are told apart. -/
theorem hits_lead_repeated : HitsLead sampleCrates (onlyIndexed repeatedText) "a.md".toList
    repeatedText [⟨1, ['A'], 0⟩, ⟨1, ['A'], 3⟩] := by
  refine (hits_lead_iff sampleCrates _ _ _ ⟨repeatedText, 0⟩ _ (onlyIndexed_holds repeatedText)
    (onlyFile_self _) ⟨by decide, by decide⟩).mpr ?_
  rw [followed_iff, agree_iff_clear depth_pos editorText_hidden text_visible]
  have isHeadings : (sampleCrates.parse repeatedText).headings =
      [] ++ [heading .h1 ['A']] ++ [heading .h1 ['A']] := rfl
  rw [isHeadings, each_concat, each_concat]
  refine ⟨⟨⟨each_nil, ?_⟩, ?_⟩, by decide⟩
  · exact fun _ => ⟨rfl, fun b none => nomatch none⟩
  · exact fun _ => ⟨rfl, fun b none => nomatch none⟩

/-- An empty heading stands in the editor's path only. -/
theorem not_hits_lead : ¬ ∀ crates contents db docId file nodes,
    HoldsText crates.library contents db → contents docId = some file →
    Shows nodes (crates.parse file.markdown).headings →
    HitsLead crates db docId file.markdown nodes := by
  intro claim
  have shows : Shows [⟨1, ['A'], 0⟩, ⟨2, [], 3⟩, ⟨3, ['B'], 5⟩]
      (sampleCrates.parse skippedText).headings := ⟨by decide, by decide⟩
  have holds := onlyIndexed_holds skippedText
  have leads := claim sampleCrates _ _ _ ⟨skippedText, 0⟩ _ holds (onlyFile_self _) shows
  have outlined := outlined_extract sampleCrates.lowercase_ne_nil (sampleCrates.parse skippedText)
  have agree := (agrees_of_leads outlined (stored_of_holds holds (onlyFile_self _)) shows leads).1
  have same := agree [heading .h1 ['A'], heading .h2 []] (heading .h3 ['B']) [] rfl rfl
  exact absurd same (by decide)

end Kuku.Search
