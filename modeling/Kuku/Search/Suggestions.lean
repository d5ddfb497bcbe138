/-
# Search.Suggestions -- what a link picked from the suggestion menu opens

The menu lists the markdown files of the vault and inserts the path of the picked one as the
target of a wikilink.  A target with a folder is looked up by its path, one without a folder
among all notes of that name, from the source's folder; and the saved `[[path]]` is read again by
the indexer's scanner.  `picked_opens_iff` says for which notes both lead back to the path.
-/
import Kuku.Search.Resolution
import Kuku.Search.SameLinks
import Kuku.Search.Snippet

namespace Kuku.Search

open Kuku.Theory Indexer List Chars

/-! ## wikilink_suggest.ts -/

inductive FileEntry where
  | file (name path : List Char)
  | directory (children : List FileEntry)

structure WikilinkSuggestItem where
  name : List Char
  path : List Char
  folder : List Char
  deriving DecidableEq

/-- What stands before the last slash. -/
def folderOf (path : List Char) : List Char :=
  if '/' ∈ path then (path.rdropWhile (· ≠ '/')).dropLast else []

def suggestItem (name path : List Char) : WikilinkSuggestItem :=
  ⟨name.take (name.length - 3), path, folderOf path⟩

mutual

def flattenEntry : FileEntry → List WikilinkSuggestItem
  | .directory children => flattenMarkdownFiles children
  | .file name path =>
    if ".md".toList.isSuffixOf name then [suggestItem name path] else []

def flattenMarkdownFiles : List FileEntry → List WikilinkSuggestItem
  | [] => []
  | entry :: rest => flattenEntry entry ++ flattenMarkdownFiles rest

end

/-- `length` counts UTF-16 units. -/
def unitLength (text : List Char) : Nat :=
  (text.map fun c => if c.toNat < 0x10000 then 1 else 2).sum

section Menu

variable (toLowerCase : List Char → List Char)

/-- The score of an item that matches the query. -/
def suggestScore (normalized : List Char) (item : WikilinkSuggestItem) : Option Nat :=
  let nameLower := toLowerCase item.name
  if normalized.isPrefixOf nameLower then some (100 - min (unitLength item.name) 99)
  else if contains nameLower normalized then some (50 - min (unitLength item.name) 49)
  else if contains (toLowerCase item.path) normalized then some 0
  else none

def filterWikilinkSuggestions (items : List WikilinkSuggestItem) (query : List Char)
    (currentFilePath : Option (List Char)) : List WikilinkSuggestItem :=
  let candidates :=
    match currentFilePath with
    | some path => if path = [] then items else items.filter fun item => item.path ≠ path
    | none => items
  if query = [] then candidates
  else
    let scored := candidates.filterMap fun item =>
      (suggestScore toLowerCase (toLowerCase query) item).map fun score => (item, score)
    (scored.mergeSort fun a b => b.2 ≤ a.2).map Prod.fst

/-- `getVisibleWikilinkItems`, of an open menu. -/
def visibleWikilinkItems (files : List FileEntry) (query : List Char)
    (currentFilePath : Option (List Char)) : List WikilinkSuggestItem :=
  filterWikilinkSuggestions toLowerCase (flattenMarkdownFiles files) query currentFilePath

end Menu

def applyWikilinkItem (item : WikilinkSuggestItem) : Markdown.WikiLink := ⟨item.path, none⟩

/-! ## What a target names -/

section Names

variable (lowercase : List Char → List Char) (docs : DocIndex) (sourceDocId target path : List Char)

/-- The target resolves to a path. -/
def Opens : Prop := (resolveWikilink lowercase sourceDocId target docs).resolvedDocId = some path

/-- The last document with the path of the target, or, where that is no path of a document, the
only closest one of its basename. -/
structure NamedBy : Prop where
  visible : normalizeLinkTarget lowercase target ≠ []
  named : ∃ doc : DocIdentity, doc.docId = path ∧
    ((withTargetPath lowercase target docs).getLast? = some doc ∨
      (withTargetPath lowercase target docs = [] ∧
        closest sourceDocId (withTargetBasename lowercase target docs) = [doc]))

/-- The link that a menu inserts for a path, saved and read again by the indexer. -/
def readBack : List ExtractedWikilink := extractWikilinks (Markdown.handleWikilink ⟨path, none⟩)

/-- The picked link opens the path, and so does the one that is read again. -/
structure PickOpens : Prop where
  picked : Opens lowercase docs sourceDocId path path
  saved : ∃ link, readBack path = [link] ∧ Opens lowercase docs sourceDocId link.target path

end Names

/-- In one line, without a bar, a backtick or a `]]`, and not ending in a `]`. -/
structure PlainPath (path : List Char) : Prop where
  isLine : IsLine path
  noBar : '|' ∉ path
  noTick : '`' ∉ path
  noPair : NoPair path

section Opening

variable {lowercase : List Char → List Char} {docs : DocIndex}
  {sourceDocId target path : List Char}

theorem opens_iff : Opens lowercase docs sourceDocId target path ↔
    NamedBy lowercase docs sourceDocId target path := by
  unfold Opens
  rw [resolveWikilink_eq]
  by_cases isBlank : normalizeLinkTarget lowercase target = []
  · rw [if_pos isBlank]
    exact iff_of_false nofun fun named => named.visible isBlank
  · rw [if_neg isBlank]
    cases isLast : (withTargetPath lowercase target docs).getLast? with
    | some doc =>
      have notNil : withTargetPath lowercase target docs ≠ [] := by
        intro isNil
        rw [isNil] at isLast
        cases isLast
      constructor
      · intro isPath
        exact ⟨isBlank, doc, Option.some.inj isPath, .inl isLast⟩
      · rintro ⟨-, other, isPath, isLastToo | ⟨isNil, -⟩⟩
        · rw [isLast] at isLastToo
          obtain rfl := Option.some.inj isLastToo
          exact congrArg some isPath
        · exact absurd isNil notNil
    | none =>
      have isNil := List.getLast?_eq_none_iff.mp isLast
      have notExact : ∀ doc, withTargetPath lowercase target docs ≠ [doc] := by
        simp [isNil]
      have means : Means lowercase sourceDocId target docs
          (resolveBasename sourceDocId (withTargetBasename lowercase target docs)) :=
        resolveBasename_means isBlank notExact
      constructor
      · intro isPath
        refine ⟨isBlank, ?_⟩
        dsimp only at isPath
        generalize resolveBasename sourceDocId (withTargetBasename lowercase target docs) =
          resolution at means isPath
        cases means with
        | basename _ _ nearest =>
          exact ⟨_, Option.some.inj isPath, .inr ⟨isNil, nearest⟩⟩
        | exact _ unique => simp [isNil] at unique
        | blank | missing | ambiguous => cases isPath
      · rintro ⟨-, doc, isPath, isLastToo | ⟨-, nearest⟩⟩
        · rw [isLast] at isLastToo
          cases isLastToo
        · have resolves := means.unique (.basename isBlank notExact nearest)
          dsimp only
          rw [resolves, resolvedTo, isPath]

/-- Outside a line's beginning a text without a backtick is no code. -/
theorem maskFrom_inline {chars : List Char} (noTick : '`' ∉ chars) (noFeed : '\n' ∉ chars) :
    maskFrom false chars = chars := by
  induction chars with
  | nil => rw [maskFrom]; rfl
  | cons ch rest ih =>
    obtain ⟨notTick, restNoTick⟩ := not_or.mp (mt mem_cons.mpr noTick)
    obtain ⟨notFeed, restNoFeed⟩ := not_or.mp (mt mem_cons.mpr noFeed)
    have none : takeCode false (ch :: rest) = none := by
      simp [takeCode, detectFenceStart, Ne.symm notTick]
    rw [maskFrom]
    split
    · rename_i taken
      rw [none] at taken
      cases taken
    · dsimp only
      rw [decide_eq_false (Ne.symm notFeed)]
      exact congrArg (ch :: ·) (ih restNoTick restNoFeed)

theorem handleWikilink_path : Markdown.handleWikilink ⟨path, none⟩ =
    '[' :: '[' :: (path ++ ']' :: ']' :: []) := by
  simp [Markdown.handleWikilink]

theorem readBack_plain (plain : PlainPath path) (visible : trim path ≠ []) :
    readBack path = [⟨trim path, none, 0⟩] := by
  have noTick : '`' ∉ '[' :: (path ++ [']', ']']) := by simp [plain.noTick]
  have noFeed : '\n' ∉ '[' :: (path ++ [']', ']']) := by simp [plain.isLine.1]
  have unmasked : maskCodeRegions ('[' :: '[' :: (path ++ [']', ']'])) =
      '[' :: '[' :: (path ++ [']', ']']) := by
    have noCode : takeCode true ('[' :: '[' :: (path ++ [']', ']'])) = none := rfl
    rw [maskCodeRegions, maskFrom]
    split
    · rename_i taken
      rw [noCode] at taken
      cases taken
    · exact congrArg ('[' :: ·) (maskFrom_inline noTick noFeed)
  have noMore : candidates [] = [] := by rw [candidates]
  have isFinal : finalized path = some (trim path, none) := by
    have isWhole : path.takeWhile (· ≠ '|') = path := by
      rw [takeWhile_eq_self_iff]
      intro c among
      exact decide_eq_true fun isBar => plain.noBar (isBar ▸ among)
    rw [finalized, splitBar, if_neg plain.noBar, isWhole, finalizeCandidate, if_neg visible]
  rw [readBack, handleWikilink_path, extractWikilinks, scanTextForWikilinks, unmasked,
    candidates_bracketed plain.noPair plain.isLine, noMore, filterMap_cons, isFinal]
  rfl

theorem normalizeLinkTarget_trim :
    normalizeLinkTarget lowercase (trim target) = normalizeLinkTarget lowercase target := by
  rw [normalizeLinkTarget, normalizeLinkTarget, trim_trim]

/-- The space around a target names nothing else. -/
theorem namedBy_trim : NamedBy lowercase docs sourceDocId (trim target) path ↔
    NamedBy lowercase docs sourceDocId target path := by
  rw [← opens_iff, ← opens_iff, Opens, Opens, resolveWikilink, resolveWikilink]
  simp only [normalizeLinkTarget_trim]

theorem trim_ne_nil {lower : Lowercase}
    (named : NamedBy lower.lowercase docs sourceDocId path path) : trim path ≠ [] := by
  intro isNil
  refine named.visible ?_
  rw [normalizeLinkTarget, isNil]
  change stripMarkdownExtension (lower.lowercase []) = []
  rw [lowercase_nil]
  decide

/-- The note that a path names is the one the saved link names, if the path is plain or what is
read back of it names the note too. -/
theorem pickOpens_iff {lower : Lowercase} :
    PickOpens lower.lowercase docs sourceDocId path ↔
      NamedBy lower.lowercase docs sourceDocId path path ∧
        (PlainPath path ∨ ∃ link, readBack path = [link] ∧
          NamedBy lower.lowercase docs sourceDocId link.target path) := by
  constructor
  · rintro ⟨picked, link, isLink, saved⟩
    exact ⟨opens_iff.mp picked, .inr ⟨link, isLink, opens_iff.mp saved⟩⟩
  · rintro ⟨named, plain | ⟨link, isLink, saved⟩⟩
    · refine ⟨opens_iff.mpr named, _, readBack_plain plain (trim_ne_nil named), ?_⟩
      exact opens_iff.mpr (namedBy_trim.mpr named)
    · exact ⟨opens_iff.mpr named, link, isLink, opens_iff.mpr saved⟩

/-- **Every suggestion opens the picked note** exactly where each path names its own note among
the documents, seen from the source, and is plain or read back as a name of that note. -/
theorem picked_opens_iff (lower : Lowercase) (toLowerCase : List Char → List Char)
    (docs : DocIndex) (sourceDocId : DocId) (files : List FileEntry) (query : List Char)
    (currentFilePath : Option (List Char)) :
    (∀ item ∈ visibleWikilinkItems toLowerCase files query currentFilePath,
        PickOpens lower.lowercase docs sourceDocId (applyWikilinkItem item).target) ↔
      ∀ item ∈ visibleWikilinkItems toLowerCase files query currentFilePath,
        NamedBy lower.lowercase docs sourceDocId item.path item.path ∧
          (PlainPath item.path ∨ ∃ link, readBack item.path = [link] ∧
            NamedBy lower.lowercase docs sourceDocId link.target item.path) :=
  forall₂_congr fun _ _ => pickOpens_iff

end Opening

/-! ## A note at the top of the vault -/

/-- Two notes of one name, one of them beside the source. -/
def sameNames : List FileEntry := [.file "a.md".toList "a.md".toList,
    .directory [.file "a.md".toList "x/a.md".toList, .file "s.md".toList "x/s.md".toList]]

def sameNamesIndex : DocIndex := ["a.md", "x/a.md", "x/s.md"].zipIdx.map fun doc =>
    toDocIdentity dottedLower.lowercase doc.2 doc.1.toList

/-- The link to the note at the top opens the one beside the source. -/
theorem top_note_opens_other : ¬ ∀ (lower : Lowercase) (toLowerCase : List Char → List Char)
    (docs : DocIndex) (sourceDocId : DocId) (files : List FileEntry) (query : List Char)
    (currentFilePath : Option (List Char)), (docs.map DocIdentity.docId).Nodup →
    ∀ item ∈ visibleWikilinkItems toLowerCase files query currentFilePath,
      PickOpens lower.lowercase docs sourceDocId (applyWikilinkItem item).target := by
  intro always
  have picked := (always dottedLower dottedLower.lowercase sameNamesIndex "x/s.md".toList sameNames
    [] none (by decide +kernel) ⟨"a".toList, "a.md".toList, []⟩ (by decide +kernel)).picked
  have other : (resolveWikilink dottedLower.lowercase "x/s.md".toList "a.md".toList
      sameNamesIndex).resolvedDocId = some "x/a.md".toList := by decide +kernel
  unfold Opens applyWikilinkItem at picked
  dsimp only at picked
  rw [other] at picked
  exact absurd picked (by decide)

end Kuku.Search
