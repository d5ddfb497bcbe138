/-
# Search.Writer -- the jobs of the index writer

`build_document` reads one markdown file; the handlers of a job write what it gives to the
tables and re-resolve the links that their plan selects.  A `Library` is what they call:
`to_lowercase`, `extract_document` with the JSON of what it returns, and the checksum, which
no two contents share.  Jobs for a directory only ask for a rebuild and are not among these.
-/
import Kuku.Search.Db
import Kuku.Search.Vault

namespace Kuku.Search

open Kuku.Theory

/-! ## What a document is built from -/

structure ExtractedWikilink where
  target : List Char
  linkAlias : Option (List Char)
  ordinal : Nat

/-- The chunks of all sections, each with the JSON of its section's path. -/
structure ExtractedDocument where
  title : Option (List Char)
  metaJson : List Char
  chunks : List IndexedChunkRow
  wikilinks : List ExtractedWikilink

structure Library where
  lowercase : List Char → List Char
  extractDocument : List Char → ExtractedDocument
  computeChecksum : List Char → List Char
  computeChecksum_injective : Function.Injective computeChecksum

namespace Library

variable (lib : Library)

def normalize (path : List Char) : List Char := normalizeLinkTarget lib.lowercase path

def basename (path : List Char) : List Char := basenameFromNormalized (lib.normalize path)

def indexedWikilink (link : ExtractedWikilink) : IndexedWikilinkRow :=
  ⟨link.target, link.linkAlias, lib.normalize link.target, lib.basename link.target, link.ordinal⟩

def wikilinkRefs (file : File) : List IndexedWikilinkRow :=
  (lib.extractDocument file.markdown).wikilinks.map lib.indexedWikilink

/-- The document that a file gives. -/
def indexed (noteUid : Option Nat) (path : DocId) (file : File) : IndexedDocument :=
  let extracted := lib.extractDocument file.markdown
  { noteUid
    docId := path
    title := extracted.title
    mtimeMs := file.mtimeMs
    contentChecksum := lib.computeChecksum file.markdown
    metaJson := extracted.metaJson
    chunks := extracted.chunks
    wikilinkRefs := lib.wikilinkRefs file }

end Library

theorem sampleChecksum_injective : Function.Injective (id : List Char → List Char) :=
  Function.injective_id

/-- A library that is right about empty texts and about the text of one link. -/
def sampleLibrary : Library where
  lowercase := List.map Text.asciiLowerChar
  extractDocument markdown :=
    if markdown = "[[a]]".toList then
      ⟨none, "\x7b\x7d".toList,
        [⟨"[]".toList, "Prose".toList, markdown, markdown, 0, 5⟩], [⟨"a".toList, none, 0⟩]⟩
    else ⟨none, "\x7b\x7d".toList, [], []⟩
  computeChecksum := id
  computeChecksum_injective := sampleChecksum_injective

def existingNoteUid (db : Db) (path : DocId) : Option Nat :=
  (db.findNoteUidByDocId path).or (db.findNoteUidByDocIdNocase path)

/-! ## Re-resolution -/

structure ReResolutionPlan where
  sourceNoteUids : List Nat := []
  normalizedTargets : List (List Char) := []
  targetBasenames : List (List Char) := []
  resolvedTargetUids : List Nat := []
  deriving DecidableEq

def shouldReresolveRow (plan : ReResolutionPlan) (row : WikilinkRefRow) : Bool :=
  decide (row.sourceNoteUid ∈ plan.sourceNoteUids) ||
    decide (row.link.normalizedTarget ∈ plan.normalizedTargets) ||
    decide (row.link.targetBasename ∈ plan.targetBasenames) ||
    row.resolvedTargetUid.any fun targetUid => targetUid ∈ plan.resolvedTargetUids

section Handlers

variable (lib : Library) (vault : Vault) (db : Db)

def buildDocument (path : DocId) : Option IndexedDocument :=
  if isMarkdownPath path then
    (vault.read path).map (lib.indexed (existingNoteUid db path) path)
  else none

def rereresolveWikilinks (plan : ReResolutionPlan) : Db :=
  if plan = {} then db else db.resolveRows lib.lowercase (shouldReresolveRow plan)

/-! ## The handlers

Each handler reads its file before it opens the transaction: `write…` is what it does with the
document it has built. -/

def writeIndexFile (path : DocId) (maybeDoc : Option IndexedDocument) : Db :=
  match maybeDoc with
  | some doc =>
    if db.loadDocumentFreshness path = some doc.contentChecksum then
      db.updateDocumentFreshness doc.docId doc.mtimeMs doc.contentChecksum
    else
      let written := db.replaceDocument doc
      rereresolveWikilinks lib written.1
        { sourceNoteUids := [written.2]
          normalizedTargets := [lib.normalize path]
          targetBasenames := [lib.basename path] }
  | none =>
    let removed := db.removeDocument path
    match removed.2 with
    | some noteUid =>
      rereresolveWikilinks lib removed.1
        { normalizedTargets := [lib.normalize path]
          targetBasenames := [lib.basename path]
          resolvedTargetUids := [noteUid] }
    | none => rereresolveWikilinks lib removed.1 {}

def handleIndexFile (path : DocId) : Db :=
  if isMarkdownPath path then writeIndexFile lib db path (buildDocument lib vault db path)
  else db

def handleRemoveFile (path : DocId) : Db :=
  if isMarkdownPath path then
    let removed := db.removeDocument path
    rereresolveWikilinks lib removed.1
      { normalizedTargets := [lib.normalize path]
        targetBasenames := [lib.basename path]
        resolvedTargetUids := removed.2.toList }
  else db

def writeRenameFile (oldPath newPath : DocId) (maybeNewDoc : Option IndexedDocument) : Db :=
  let oldUid := db.findNoteUidByDocId oldPath
  let removed := if isMarkdownPath oldPath then (db.removeDocument oldPath).1 else db
  let plan : ReResolutionPlan :=
    { normalizedTargets := [lib.normalize oldPath, lib.normalize newPath]
      targetBasenames := [lib.basename oldPath, lib.basename newPath]
      resolvedTargetUids := oldUid.toList }
  match maybeNewDoc with
  | some doc =>
    let written := removed.replaceDocument { doc with noteUid := oldUid }
    rereresolveWikilinks lib written.1
      { plan with
        sourceNoteUids := [written.2]
        resolvedTargetUids := written.2 :: plan.resolvedTargetUids }
  | none => rereresolveWikilinks lib removed plan

def handleRenameFile (oldPath newPath : DocId) : Db :=
  writeRenameFile lib db oldPath newPath (buildDocument lib vault db newPath)

/-! ## Full rebuild -/

/-- `slice::chunks`; `fuel` bounds the number of batches. -/
def chunksOf {α : Type} (size : Nat) : Nat → List α → List (List α)
  | 0, _ => []
  | _ + 1, [] => []
  | fuel + 1, items => items.take size :: chunksOf size fuel (items.drop size)

def rebuildBatches : List (List DocId) :=
  let files := Table.sorted id vault.collectMarkdownFiles
  chunksOf 50 files.length files

def writeBatch (docs : List IndexedDocument) : Db :=
  docs.foldl (fun written doc => (written.replaceDocument doc).1) db

/-- The batch is read against the tables before it. -/
def indexBatch (batch : List DocId) : Db :=
  writeBatch db (batch.filterMap (buildDocument lib vault db))

def removeStale (files : List DocId) : Db :=
  let staleDocIds := db.listIndexedDocIds.filter fun docId => docId ∉ files
  staleDocIds.foldl (fun removed docId => (removed.removeDocument docId).1) db

def resolveAllWikilinks : Db := db.resolveRows lib.lowercase fun _ => true

def handleFullRebuild : Db :=
  let written := (rebuildBatches vault).foldl (indexBatch lib vault) db
  resolveAllWikilinks lib (removeStale written vault.collectMarkdownFiles)

end Handlers

end Kuku.Search
