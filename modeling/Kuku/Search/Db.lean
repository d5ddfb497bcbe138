/-
# Search.Db -- the tables of the search index

`documents`, `chunk_rows` and `wikilink_refs` with the statements that change and read them.
The first is a table with the primary key `note_uid`, `doc_id` unique beside it; no query sees
the order of its rows otherwise than by `doc_id`.  `nextUid` is what AUTOINCREMENT gives next.
-/
import Kuku.Search.Wikilink
import Kuku.Theory.Table

namespace Kuku.Search

open Kuku.Theory List

/-! ## Rows -/

structure IndexedChunkRow where
  sectionPathJson : List Char
  kind : List Char
  text : List Char
  rawText : List Char
  globalStart : Nat
  globalEnd : Nat
  deriving DecidableEq

structure IndexedWikilinkRow where
  rawTarget : List Char
  linkAlias : Option (List Char)
  normalizedTarget : List Char
  targetBasename : List Char
  ordinal : Nat
  deriving DecidableEq

structure IndexedDocument where
  noteUid : Option Nat
  docId : DocId
  title : Option (List Char)
  mtimeMs : Nat
  contentChecksum : List Char
  metaJson : List Char
  chunks : List IndexedChunkRow
  wikilinkRefs : List IndexedWikilinkRow

structure DocumentRow where
  noteUid : Nat
  docId : DocId
  title : Option (List Char)
  mtimeMs : Nat
  contentChecksum : List Char
  metaJson : List Char

structure ChunkRow where
  docId : DocId
  chunk : IndexedChunkRow
  deriving DecidableEq

structure WikilinkRefRow where
  sourceNoteUid : Nat
  sourceDocId : DocId
  link : IndexedWikilinkRow
  resolvedTargetUid : Option Nat
  resolutionKind : ResolutionKind
  folderDistance : Option Nat

structure Db where
  documents : List DocumentRow := []
  chunkRows : List ChunkRow := []
  wikilinkRefs : List WikilinkRefRow := []
  nextUid : Nat := 1

namespace IndexedDocument

variable (doc : IndexedDocument)

def row (noteUid : Nat) : DocumentRow :=
  ⟨noteUid, doc.docId, doc.title, doc.mtimeMs, doc.contentChecksum, doc.metaJson⟩

def chunkRows : List ChunkRow := doc.chunks.map (ChunkRow.mk doc.docId)

def refRows (noteUid : Nat) : List WikilinkRefRow :=
  doc.wikilinkRefs.map fun link => ⟨noteUid, doc.docId, link, none, .unresolved, none⟩

end IndexedDocument

namespace Db

variable (db : Db)

/-! ## Queries -/

def findNoteUidByDocId (docId : DocId) : Option Nat :=
  (db.documents.find? fun row => row.docId = docId).map DocumentRow.noteUid

/-- `COLLATE NOCASE`. -/
def sameNocase (a b : DocId) : Bool :=
  decide (a.map Text.asciiLowerChar = b.map Text.asciiLowerChar)

def findNoteUidByDocIdNocase (docId : DocId) : Option Nat :=
  match db.documents.filter fun row => sameNocase row.docId docId with
  | [row] => some row.noteUid
  | _ => none

/-- The checksum of `load_document_freshness`. -/
def loadDocumentFreshness (docId : DocId) : Option (List Char) :=
  (db.documents.find? fun row => row.docId = docId).map DocumentRow.contentChecksum

def listIndexedDocIds : List DocId :=
  (Table.sorted DocumentRow.docId db.documents).map DocumentRow.docId

def loadDocIdentities (lowercase : List Char → List Char) : DocIndex :=
  (Table.sorted DocumentRow.docId db.documents).map fun row =>
    toDocIdentity lowercase row.noteUid row.docId

/-! ## Statements -/

/-- The document is written under the uid it brings, over the row with that uid, or as a new
row.  Only the first branch deletes links, and those of its uid. -/
def replaceDocument (doc : IndexedDocument) : Db × Nat :=
  match doc.noteUid with
  | some noteUid =>
    let moved := (db.documents.filter fun row => row.noteUid = noteUid).map DocumentRow.docId
    let documents := db.documents.filter fun row =>
      !(decide (row.docId = doc.docId) && decide (row.noteUid ≠ noteUid))
    ({ documents := documents.filter (fun row => row.noteUid ≠ noteUid) ++ [doc.row noteUid]
       chunkRows := db.chunkRows.filter (fun row =>
         !(decide (row.docId = doc.docId) || decide (row.docId ∈ moved))) ++ doc.chunkRows
       wikilinkRefs :=
         db.wikilinkRefs.filter (fun row => row.sourceNoteUid ≠ noteUid) ++ doc.refRows noteUid
       nextUid := max db.nextUid (noteUid + 1) }, noteUid)
  | none =>
    ({ documents := db.documents.filter (fun row => row.docId ≠ doc.docId) ++ [doc.row db.nextUid]
       chunkRows := db.chunkRows.filter (fun row => row.docId ≠ doc.docId) ++ doc.chunkRows
       wikilinkRefs := db.wikilinkRefs ++ doc.refRows db.nextUid
       nextUid := db.nextUid + 1 }, db.nextUid)

def removeDocument (docId : DocId) : Db × Option Nat :=
  let noteUid := db.findNoteUidByDocId docId
  ({ db with
     documents := db.documents.filter fun row => row.docId ≠ docId
     chunkRows := db.chunkRows.filter fun row => row.docId ≠ docId
     wikilinkRefs := db.wikilinkRefs.filter fun row => some row.sourceNoteUid ≠ noteUid }, noteUid)

def updateDocumentFreshness (docId : DocId) (mtimeMs : Nat) (contentChecksum : List Char) : Db :=
  { db with
    documents := db.documents.map fun row =>
      if row.docId = docId then { row with mtimeMs, contentChecksum } else row }

end Db

def WikilinkRefRow.updateResolution (row : WikilinkRefRow) (resolution : LinkResolution) :
    WikilinkRefRow :=
  { resolution, row with }

/-- The pass over `wikilink_refs` that both resolutions of the writer make. -/
def Db.resolveRows (lowercase : List Char → List Char) (selected : WikilinkRefRow → Bool)
    (db : Db) : Db :=
  let index := db.loadDocIdentities lowercase
  { db with
    wikilinkRefs := db.wikilinkRefs.map fun row =>
      if selected row then
        row.updateResolution (resolveWikilink lowercase row.sourceDocId row.link.rawTarget index)
      else row }

/-! ## What a statement leaves of the documents -/

/-- The two uniqueness constraints. -/
def Distinct (documents : List DocumentRow) : Prop :=
  documents.Pairwise fun a b => a.docId ≠ b.docId ∧ a.noteUid ≠ b.noteUid

section Documents

variable {db : Db} {doc : IndexedDocument} {docId : DocId} {row other : DocumentRow}
  {documents : List DocumentRow}

variable (distinct : Distinct documents)

include distinct

theorem Distinct.keyed : Table.Keyed DocumentRow.docId documents :=
  pairwise_map.mpr (distinct.imp And.left)

theorem Distinct.eq_of_docId (among : row ∈ documents) (isOther : other ∈ documents)
    (same : row.docId = other.docId) : row = other :=
  inj_on_of_nodup_map distinct.keyed among isOther same

theorem Distinct.eq_of_noteUid (among : row ∈ documents) (isOther : other ∈ documents)
    (same : row.noteUid = other.noteUid) : row = other :=
  inj_on_of_nodup_map (pairwise_map.mpr (distinct.imp And.right)) among isOther same

theorem Distinct.filter (p : DocumentRow → Bool) : Distinct (documents.filter p) :=
  List.Pairwise.filter p distinct

theorem Distinct.append
    (fresh : ∀ old ∈ documents, old.docId ≠ row.docId ∧ old.noteUid ≠ row.noteUid) :
    Distinct (documents ++ [row]) := by
  refine pairwise_append.mpr ⟨distinct, pairwise_singleton _ _, ?_⟩
  intro old among new isRow
  exact mem_singleton.mp isRow ▸ fresh old among

omit distinct

theorem findNoteUidByDocId_eq {noteUid : Nat} (distinct : Distinct db.documents) :
    db.findNoteUidByDocId docId = some noteUid ↔
      ∃ row ∈ db.documents, row.docId = docId ∧ row.noteUid = noteUid := by
  simp only [Db.findNoteUidByDocId, Option.map_eq_some_iff]
  constructor
  · rintro ⟨row, found, isUid⟩
    have isDocId := find?_some found
    exact ⟨row, mem_of_find?_eq_some found, of_decide_eq_true isDocId, isUid⟩
  · rintro ⟨row, among, isDocId, isUid⟩
    exact ⟨row, isDocId ▸ Table.get_of_mem distinct.keyed among, isUid⟩

theorem findNoteUidByDocId_eq_none :
    db.findNoteUidByDocId docId = none ↔ ∀ row ∈ db.documents, row.docId ≠ docId := by
  simp [Db.findNoteUidByDocId, find?_eq_none]

/-- The rows after a replacement: the new one, and those that share neither identity with it. -/
theorem mem_documents_replaceDocument (below : ∀ row ∈ db.documents, row.noteUid < db.nextUid) :
    row ∈ (db.replaceDocument doc).1.documents ↔
      row = doc.row (db.replaceDocument doc).2 ∨
        row ∈ db.documents ∧ row.docId ≠ doc.docId ∧ row.noteUid ≠ (db.replaceDocument doc).2 := by
  unfold Db.replaceDocument
  cases doc.noteUid with
  | some noteUid =>
    simp only [mem_append, mem_filter, mem_singleton]
    grind
  | none =>
    simp only [mem_append, mem_filter, mem_singleton]
    grind

theorem distinct_replaceDocument (distinct : Distinct db.documents)
    (below : ∀ row ∈ db.documents, row.noteUid < db.nextUid) :
    Distinct (db.replaceDocument doc).1.documents := by
  have others : ∀ row ∈ db.documents, row.docId ≠ doc.docId → row.noteUid ≠ db.nextUid :=
    fun row among _ => (below row among).ne
  unfold Db.replaceDocument
  cases doc.noteUid with
  | some noteUid =>
    refine ((distinct.filter _).filter _).append fun row among => ?_
    simp only [mem_filter] at among
    simp only [IndexedDocument.row]
    grind
  | none =>
    refine (distinct.filter _).append fun row among => ?_
    simp only [mem_filter] at among
    simp only [IndexedDocument.row]
    grind

theorem below_replaceDocument (below : ∀ row ∈ db.documents, row.noteUid < db.nextUid) :
    ∀ row ∈ (db.replaceDocument doc).1.documents,
      row.noteUid < (db.replaceDocument doc).1.nextUid := by
  intro row among
  rcases (mem_documents_replaceDocument below).mp among with rfl | ⟨earlier, -, -⟩
  · unfold Db.replaceDocument
    cases doc.noteUid with
    | some noteUid => simp [IndexedDocument.row]
    | none => simp [IndexedDocument.row]
  · have lower := below row earlier
    unfold Db.replaceDocument
    cases doc.noteUid with
    | some noteUid => exact lt_of_lt_of_le lower (le_max_left _ _)
    | none => exact Nat.lt_succ_of_lt lower

@[simp] theorem mem_documents_removeDocument :
    row ∈ (db.removeDocument docId).1.documents ↔ row ∈ db.documents ∧ row.docId ≠ docId := by
  simp [Db.removeDocument]

end Documents

end Kuku.Search
