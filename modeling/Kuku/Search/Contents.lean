/-
# Search.Contents -- the tables hold the contents of files

`HoldsText contents db` and `Holds contents db` are the abstract reading of the index: at each
path where `contents` has a file, `documents` and `chunk_rows` are those of the file, and with
`Holds` so are the `wikilink_refs`, each beside its own document.  A replacement sets the
contents of its path, a removal clears them.  `Resolved` says that no link row waits for a
resolution.
-/
import Kuku.Search.Writer

namespace Kuku.Search

open Kuku.Theory List Function Option

section Contents

variable (lib : Library)

/-- The part of the chunks and links of a path that its contents decide. -/
def Library.chunkRowsOf (path : DocId) (content : Option File) : List ChunkRow :=
  content.elim [] fun file => (lib.indexed none path file).chunkRows

def Library.wikilinksOf (content : Option File) : List IndexedWikilinkRow :=
  content.elim [] lib.wikilinkRefs

/-- The documents and chunks of a path are those of its file. -/
structure HoldsText (contents : DocId → Option File) (db : Db) : Prop where
  distinct : Distinct db.documents
  below : ∀ row ∈ db.documents, row.noteUid < db.nextUid
  rows : ∀ row ∈ db.documents, ∃ file, contents row.docId = some file ∧
    row = (lib.indexed none row.docId file).row row.noteUid
  complete : ∀ path file, contents path = some file → ∃ row ∈ db.documents, row.docId = path
  chunks : ∀ path, db.chunkRows.filter (fun row => row.docId = path) =
    lib.chunkRowsOf path (contents path)

/-- So are its links, and each belongs to the document that it names. -/
structure Holds (contents : DocId → Option File) (db : Db) : Prop
    extends HoldsText lib contents db where
  links : ∀ path, (db.wikilinkRefs.filter fun ref => ref.sourceDocId = path).map
    WikilinkRefRow.link = lib.wikilinksOf (contents path)
  owned : ∀ ref ∈ db.wikilinkRefs, ∃ row ∈ db.documents,
    row.noteUid = ref.sourceNoteUid ∧ row.docId = ref.sourceDocId

/-- The columns of a link row that a resolution writes are those it writes now. -/
def IsResolved (db : Db) (ref : WikilinkRefRow) : Prop :=
  ref = ref.updateResolution (resolveWikilink lib.lowercase ref.sourceDocId ref.link.rawTarget
    (db.loadDocIdentities lib.lowercase))

def Resolved (db : Db) : Prop := ∀ ref ∈ db.wikilinkRefs, IsResolved lib db ref

end Contents

variable {lib : Library} {contents : DocId → Option File} {db : Db} {path : DocId} {file : File}

theorem Holds.empty : Holds lib (fun _ => none) {} where
  distinct := List.Pairwise.nil
  below := fun _ none => nomatch none
  rows := fun _ none => nomatch none
  complete := fun _ _ none => nomatch none
  chunks := fun _ => rfl
  links := fun _ => rfl
  owned := fun _ none => nomatch none

/-! ## What the rows of a path are -/

theorem HoldsText.row_of_contents (holds : HoldsText lib contents db) (isThere : contents path = some file) :
    ∃ row ∈ db.documents, row.docId = path ∧
      row = (lib.indexed none path file).row row.noteUid := by
  obtain ⟨row, among, rfl⟩ := holds.complete path file isThere
  obtain ⟨file', isFile, isRow⟩ := holds.rows row among
  have same : file' = file := Option.some.inj (isFile.symm.trans isThere)
  exact ⟨row, among, rfl, same ▸ isRow⟩

theorem HoldsText.absent_iff (holds : HoldsText lib contents db) :
    contents path = none ↔ ∀ row ∈ db.documents, row.docId ≠ path := by
  constructor
  · rintro none row among rfl
    obtain ⟨file, isFile, -⟩ := holds.rows row among
    exact absurd (isFile.symm.trans none) (some_ne_none file)
  · intro absent
    cases isThere : contents path with
    | none => rfl
    | some file =>
      obtain ⟨row, among, isPath⟩ := holds.complete path file isThere
      exact absurd isPath (absent row among)

theorem Holds.link_formed (holds : Holds lib contents db) {ref : WikilinkRefRow}
    (among : ref ∈ db.wikilinkRefs) :
    ref.link.targetBasename = lib.basename ref.link.rawTarget := by
  have isLink : ref.link ∈ lib.wikilinksOf (contents ref.sourceDocId) := by
    rw [← holds.links]
    exact List.mem_map_of_mem (mem_filter.mpr ⟨among, decide_eq_true rfl⟩)
  cases isThere : contents ref.sourceDocId with
  | none =>
    rw [isThere] at isLink
    cases isLink
  | some file =>
    rw [isThere] at isLink
    obtain ⟨link, -, isRow⟩ := List.mem_map.mp isLink
    rw [← isRow]
    rfl

/-! ## Writing a document -/

/-- The document brings a uid that is free or that of its own row. -/
structure FitsUid (db : Db) (doc : IndexedDocument) : Prop where
  below : ∀ uid, doc.noteUid = some uid → uid < db.nextUid
  own : ∀ uid, doc.noteUid = some uid →
    ∀ row ∈ db.documents, row.noteUid = uid → row.docId = doc.docId

/-- Nor does it replace another row that has links. -/
structure Fits (db : Db) (doc : IndexedDocument) : Prop extends FitsUid db doc where
  unlinked : ∀ ref ∈ db.wikilinkRefs, ref.sourceDocId = doc.docId →
    doc.noteUid = some ref.sourceNoteUid

variable {doc : IndexedDocument}

theorem FitsUid.mem_documents (fits : FitsUid db doc)
    (below : ∀ row ∈ db.documents, row.noteUid < db.nextUid) {row : DocumentRow} :
    row ∈ (db.replaceDocument doc).1.documents ↔
      row = doc.row (db.replaceDocument doc).2 ∨ row ∈ db.documents ∧ row.docId ≠ doc.docId := by
  rw [mem_documents_replaceDocument below]
  refine or_congr_right (and_congr_right fun among => and_iff_left_of_imp fun elsewhere => ?_)
  unfold Db.replaceDocument
  cases isUid : doc.noteUid with
  | none => exact (below row among).ne
  | some uid => exact fun same => elsewhere (fits.own uid isUid row among same)

theorem FitsUid.chunkRows (fits : FitsUid db doc) :
    (db.replaceDocument doc).1.chunkRows =
      db.chunkRows.filter (fun row => row.docId ≠ doc.docId) ++ doc.chunkRows := by
  unfold Db.replaceDocument
  cases isUid : doc.noteUid with
  | none => rfl
  | some uid =>
    simp only
    congr 1
    apply filter_congr
    intro row _
    have within : row.docId ∈ (db.documents.filter fun row => row.noteUid = uid).map
        DocumentRow.docId → row.docId = doc.docId := by
      intro among
      obtain ⟨moved, isMoved, isDocId⟩ := List.mem_map.mp among
      obtain ⟨isRow, hasUid⟩ := mem_filter.mp isMoved
      exact isDocId ▸ fits.own uid isUid moved isRow (of_decide_eq_true hasUid)
    by_cases same : row.docId = doc.docId
    · simp [same]
    · rw [decide_eq_false same, decide_eq_false (mt within same), decide_eq_true same]
      rfl

theorem Fits.wikilinkRefs (fits : Fits db doc)
    (owned : ∀ ref ∈ db.wikilinkRefs, ∃ row ∈ db.documents,
      row.noteUid = ref.sourceNoteUid ∧ row.docId = ref.sourceDocId) :
    (db.replaceDocument doc).1.wikilinkRefs =
      db.wikilinkRefs.filter (fun ref => ref.sourceDocId ≠ doc.docId) ++
        doc.refRows (db.replaceDocument doc).2 := by
  unfold Db.replaceDocument
  cases isUid : doc.noteUid with
  | none =>
    simp only
    congr 1
    symm
    rw [filter_eq_self]
    intro ref among
    refine decide_eq_true fun same => ?_
    have isOwn := fits.unlinked ref among same
    rw [isUid] at isOwn
    cases isOwn
  | some uid =>
    simp only
    congr 1
    apply filter_congr
    intro ref among
    have sameRow : ref.sourceNoteUid = uid ↔ ref.sourceDocId = doc.docId := by
      constructor
      · intro hasUid
        obtain ⟨row, isRow, rowUid, rowDocId⟩ := owned ref among
        rw [← rowDocId]
        exact fits.own uid isUid row isRow (rowUid.trans hasUid)
      · intro same
        have isOwn := fits.unlinked ref among same
        rw [isUid] at isOwn
        exact (Option.some.inj isOwn).symm
    simp [sameRow]

theorem chunkRows_docId : ∀ row ∈ doc.chunkRows, row.docId = doc.docId := by
  intro row among
  obtain ⟨chunk, -, rfl⟩ := List.mem_map.mp among
  rfl

theorem refRows_sourceDocId {uid : Nat} : ∀ ref ∈ doc.refRows uid, ref.sourceDocId = doc.docId := by
  intro ref among
  obtain ⟨link, -, rfl⟩ := List.mem_map.mp among
  rfl

theorem refRows_link {uid : Nat} : (doc.refRows uid).map WikilinkRefRow.link = doc.wikilinkRefs := by
  simp [IndexedDocument.refRows, comp_def]

/-- Writing a document that fits sets the contents of its path. -/
theorem HoldsText.replace (holds : HoldsText lib contents db) {noteUid : Option Nat}
    (fits : FitsUid db (lib.indexed noteUid path file)) :
    HoldsText lib (Function.update contents path (some file))
      (db.replaceDocument (lib.indexed noteUid path file)).1 := by
  have mem : ∀ row, row ∈ _ ↔ _ ∨ row ∈ db.documents ∧ row.docId ≠ path :=
    fun _ => fits.mem_documents holds.below
  have chunks := fits.chunkRows
  refine
    { distinct := distinct_replaceDocument holds.distinct holds.below
      below := below_replaceDocument holds.below
      rows := ?_
      complete := ?_
      chunks := ?_ }
  · intro row among
    rcases (mem row).mp among with rfl | ⟨earlier, elsewhere⟩
    · exact ⟨file, update_self .., rfl⟩
    · obtain ⟨old, isOld, isRow⟩ := holds.rows row earlier
      exact ⟨old, by rw [update_of_ne elsewhere, isOld], isRow⟩
  · intro other held isHeld
    by_cases same : other = path
    · exact ⟨_, (mem _).mpr (.inl rfl), same.symm⟩
    · rw [update_of_ne same] at isHeld
      obtain ⟨row, among, rfl⟩ := holds.complete other held isHeld
      exact ⟨row, (mem row).mpr (.inr ⟨among, same⟩), rfl⟩
  · intro other
    rw [chunks, Table.group_replace chunkRows_docId]
    change (if other = path then _ else _) = _
    split
    · rename_i same
      rw [same, update_self]
      rfl
    · rename_i elsewhere
      rw [update_of_ne elsewhere, holds.chunks]

theorem Holds.replace (holds : Holds lib contents db) {noteUid : Option Nat}
    (fits : Fits db (lib.indexed noteUid path file)) :
    Holds lib (Function.update contents path (some file))
      (db.replaceDocument (lib.indexed noteUid path file)).1 := by
  have mem : ∀ row, row ∈ _ ↔ _ ∨ row ∈ db.documents ∧ row.docId ≠ path :=
    fun _ => fits.mem_documents holds.below
  have refs := fits.wikilinkRefs holds.owned
  refine { holds.toHoldsText.replace fits.toFitsUid with links := ?_, owned := ?_ }
  · intro other
    rw [refs, Table.group_replace refRows_sourceDocId]
    change List.map _ (if other = path then _ else _) = _
    split
    · rename_i same
      rw [same, update_self]
      exact refRows_link
    · rename_i elsewhere
      rw [update_of_ne elsewhere, holds.links]
  · intro ref among
    rw [refs, mem_append, mem_filter] at among
    rcases among with ⟨earlier, elsewhere⟩ | isNew
    · obtain ⟨row, isRow, rowUid, rowDocId⟩ := holds.owned ref earlier
      have kept : row.docId ≠ path := rowDocId ▸ of_decide_eq_true elsewhere
      exact ⟨row, (mem row).mpr (.inr ⟨isRow, kept⟩), rowUid, rowDocId⟩
    · obtain ⟨link, -, rfl⟩ := List.mem_map.mp isNew
      exact ⟨_, (mem _).mpr (.inl rfl), rfl, rfl⟩

/-! ## Removing a document -/

/-- Removing a document clears the contents of its path. -/
theorem HoldsText.remove (holds : HoldsText lib contents db) :
    HoldsText lib (Function.update contents path none) (db.removeDocument path).1 := by
  refine
    { distinct := holds.distinct.filter _
      below := fun row among => holds.below row (mem_documents_removeDocument.mp among).1
      rows := ?_
      complete := ?_
      chunks := ?_ }
  · intro row among
    obtain ⟨earlier, elsewhere⟩ := mem_documents_removeDocument.mp among
    obtain ⟨old, isOld, isRow⟩ := holds.rows row earlier
    exact ⟨old, by rw [update_of_ne elsewhere, isOld], isRow⟩
  · intro other held isHeld
    by_cases same : other = path
    · rw [same, update_self] at isHeld
      cases isHeld
    · rw [update_of_ne same] at isHeld
      obtain ⟨row, among, rfl⟩ := holds.complete other held isHeld
      exact ⟨row, mem_documents_removeDocument.mpr ⟨among, same⟩, rfl⟩
  · intro other
    rw [Db.removeDocument, Table.group_remove]
    split
    · rename_i same
      rw [same, update_self]
      rfl
    · rename_i elsewhere
      rw [update_of_ne elsewhere, holds.chunks]

theorem Holds.remove (holds : Holds lib contents db) :
    Holds lib (Function.update contents path none) (db.removeDocument path).1 := by
  have refs : (db.removeDocument path).1.wikilinkRefs =
      db.wikilinkRefs.filter fun ref => ref.sourceDocId ≠ path := by
    apply filter_congr
    intro ref among
    obtain ⟨row, isRow, rowUid, rowDocId⟩ := holds.owned ref among
    have sameRow : db.findNoteUidByDocId path = some ref.sourceNoteUid ↔
        ref.sourceDocId = path := by
      rw [findNoteUidByDocId_eq holds.distinct]
      constructor
      · rintro ⟨found, isFound, rfl, foundUid⟩
        rw [← rowDocId, holds.distinct.eq_of_noteUid isRow isFound (rowUid.trans foundUid.symm)]
      · intro same
        exact ⟨row, isRow, rowDocId.trans same, rowUid⟩
    have flipped : some ref.sourceNoteUid = db.findNoteUidByDocId path ↔
        ref.sourceDocId = path := eq_comm.trans sameRow
    simp [flipped]
  refine { holds.toHoldsText.remove with links := ?_, owned := ?_ }
  · intro other
    rw [refs, Table.group_remove]
    split
    · rename_i same
      rw [same, update_self]
      rfl
    · rename_i elsewhere
      rw [update_of_ne elsewhere, holds.links]
  · intro ref among
    rw [refs, mem_filter] at among
    obtain ⟨earlier, elsewhere⟩ := among
    obtain ⟨row, isRow, rowUid, rowDocId⟩ := holds.owned ref earlier
    have kept : row.docId ≠ path := rowDocId ▸ of_decide_eq_true elsewhere
    exact ⟨row, mem_documents_removeDocument.mpr ⟨isRow, kept⟩, rowUid, rowDocId⟩

/-- A path without contents has no text to remove. -/
theorem HoldsText.filter_absent (holds : HoldsText lib contents db)
    (absent : contents path = none) :
    db.documents.filter (fun row => row.docId ≠ path) = db.documents ∧
      db.chunkRows.filter (fun row => row.docId ≠ path) = db.chunkRows := by
  have noRow := holds.absent_iff.mp absent
  refine ⟨filter_eq_self.mpr fun row among => decide_eq_true (noRow row among), ?_⟩
  rw [filter_eq_self]
  intro row among
  refine decide_eq_true fun isPath => ?_
  have isIn : row ∈ db.chunkRows.filter fun row => row.docId = path :=
    mem_filter.mpr ⟨among, decide_eq_true isPath⟩
  rw [holds.chunks, absent] at isIn
  cases isIn

theorem HoldsText.removeDocument_absent (holds : HoldsText lib contents db)
    (absent : contents path = none) : (db.removeDocument path).1 = db := by
  obtain ⟨documents, chunkRows⟩ := holds.filter_absent absent
  have noUid : db.findNoteUidByDocId path = none :=
    findNoteUidByDocId_eq_none.mpr (holds.absent_iff.mp absent)
  have wikilinkRefs :
      db.wikilinkRefs.filter (fun ref => some ref.sourceNoteUid ≠ none) = db.wikilinkRefs :=
    filter_eq_self.mpr fun ref _ => decide_eq_true (some_ne_none _)
  simp only [Db.removeDocument, noUid, documents, chunkRows, wikilinkRefs]

/-! ## Refreshing a document and resolving links -/

section Refresh

variable {old : File}

theorem mem_updateDocumentFreshness {mtimeMs : Nat} {contentChecksum : List Char}
    {row : DocumentRow}
    (among : row ∈ (db.updateDocumentFreshness path mtimeMs contentChecksum).documents) :
    ∃ earlier ∈ db.documents, row.noteUid = earlier.noteUid ∧ row.docId = earlier.docId ∧
      row = if earlier.docId = path then { earlier with mtimeMs, contentChecksum }
        else earlier := by
  obtain ⟨earlier, isEarlier, rfl⟩ := List.mem_map.mp among
  refine ⟨earlier, isEarlier, ?_, ?_, rfl⟩
  · split <;> rfl
  · split <;> rfl

theorem mem_updateDocumentFreshness_of {mtimeMs : Nat} {contentChecksum : List Char}
    {earlier : DocumentRow} (isEarlier : earlier ∈ db.documents) :
    ∃ row ∈ (db.updateDocumentFreshness path mtimeMs contentChecksum).documents,
      row.noteUid = earlier.noteUid ∧ row.docId = earlier.docId := by
  refine ⟨_, List.mem_map_of_mem isEarlier, ?_, ?_⟩
  · split <;> rfl
  · split <;> rfl

/-- New freshness columns for the same text are the contents of a newer file. -/
theorem HoldsText.refresh (holds : HoldsText lib contents db)
    (isThere : contents path = some old) (same : old.markdown = file.markdown) :
    HoldsText lib (Function.update contents path (some file))
      (db.updateDocumentFreshness path file.mtimeMs (lib.computeChecksum file.markdown)) := by
  refine
    { distinct := ?_
      below := ?_
      rows := ?_
      complete := ?_
      chunks := ?_ }
  · refine pairwise_map.mpr (holds.distinct.imp ?_)
    intro a b differ
    split <;> split <;> exact differ
  · intro row among
    obtain ⟨earlier, isEarlier, sameUid, -, -⟩ := mem_updateDocumentFreshness among
    exact sameUid ▸ holds.below earlier isEarlier
  · intro row among
    obtain ⟨earlier, isEarlier, -, sameDocId, isRow⟩ := mem_updateDocumentFreshness among
    obtain ⟨held, isHeld, wasRow⟩ := holds.rows earlier isEarlier
    rw [sameDocId]
    split at isRow
    · rename_i isPath
      rw [isPath, isThere] at isHeld
      cases isHeld
      refine ⟨file, by rw [isPath, update_self], ?_⟩
      rw [isRow, wasRow]
      simp [IndexedDocument.row, Library.indexed, same]
    · rename_i elsewhere
      exact ⟨held, by rw [update_of_ne elsewhere, isHeld], isRow ▸ wasRow⟩
  · intro other held isHeld
    have wasThere : ∃ held, contents other = some held := by
      by_cases isPath : other = path
      · exact ⟨old, isPath ▸ isThere⟩
      · rw [update_of_ne isPath] at isHeld
        exact ⟨held, isHeld⟩
    obtain ⟨earlierHeld, wasHeld⟩ := wasThere
    obtain ⟨earlier, isEarlier, isDocId⟩ := holds.complete other earlierHeld wasHeld
    obtain ⟨row, among, -, sameDocId⟩ := mem_updateDocumentFreshness_of isEarlier
    exact ⟨row, among, sameDocId.trans isDocId⟩
  · intro other
    by_cases isPath : other = path
    · have isChunks := holds.chunks path
      rw [isThere] at isChunks
      rw [isPath, update_self]
      simpa [Library.chunkRowsOf, Library.indexed, IndexedDocument.chunkRows, same,
        Db.updateDocumentFreshness] using isChunks
    · rw [update_of_ne isPath]
      exact holds.chunks other

theorem Holds.refresh (holds : Holds lib contents db)
    (isThere : contents path = some old) (same : old.markdown = file.markdown) :
    Holds lib (Function.update contents path (some file))
      (db.updateDocumentFreshness path file.mtimeMs (lib.computeChecksum file.markdown)) := by
  refine { holds.toHoldsText.refresh isThere same with links := ?_, owned := ?_ }
  · intro other
    by_cases isPath : other = path
    · have isLinks := holds.links path
      rw [isThere] at isLinks
      rw [isPath, update_self]
      simpa [Library.wikilinksOf, Library.wikilinkRefs, same, Db.updateDocumentFreshness]
        using isLinks
    · rw [update_of_ne isPath]
      exact holds.links other
  · intro ref among
    obtain ⟨earlier, isEarlier, ownUid, ownDocId⟩ := holds.owned ref among
    obtain ⟨row, isRow, sameUid, sameDocId⟩ := mem_updateDocumentFreshness_of isEarlier
    exact ⟨row, isRow, sameUid.trans ownUid, sameDocId.trans ownDocId⟩

end Refresh

theorem HoldsText.resolveRows (holds : HoldsText lib contents db)
    (selected : WikilinkRefRow → Bool) :
    HoldsText lib contents (db.resolveRows lib.lowercase selected) :=
  { holds with }

theorem Holds.resolveRows (holds : Holds lib contents db) (selected : WikilinkRefRow → Bool) :
    Holds lib contents (db.resolveRows lib.lowercase selected) := by
  refine { holds.toHoldsText.resolveRows selected with links := ?_, owned := ?_ }
  · intro other
    rw [← holds.links other, Db.resolveRows, List.filter_map, List.map_map]
    have sameSource : ((fun ref : WikilinkRefRow => decide (ref.sourceDocId = other)) ∘
        fun row => if selected row then row.updateResolution (resolveWikilink lib.lowercase
          row.sourceDocId row.link.rawTarget (db.loadDocIdentities lib.lowercase)) else row) =
        fun ref => decide (ref.sourceDocId = other) := by
      funext ref
      simp only [comp_apply]
      split <;> rfl
    rw [sameSource]
    apply map_congr_left
    intro ref _
    simp only [comp_apply]
    split <;> rfl
  · intro ref among
    obtain ⟨earlier, isEarlier, rfl⟩ := List.mem_map.mp among
    obtain ⟨row, isRow, ownUid, ownDocId⟩ := holds.owned earlier isEarlier
    refine ⟨row, isRow, ?_, ?_⟩
    · split <;> exact ownUid
    · split <;> exact ownDocId

/-! ## Which links a change can resolve otherwise -/

section Resolution

variable {db' : Db}

/-- `note_uid` and `doc_id` of a row: all that a resolution reads of the documents. -/
def Names (db : Db) (noteUid : Nat) (docId : DocId) : Prop :=
  ∃ row ∈ db.documents, row.noteUid = noteUid ∧ row.docId = docId

theorem mem_loadDocIdentities {doc : DocIdentity} :
    doc ∈ db.loadDocIdentities lib.lowercase ↔
      Names db doc.noteUid doc.docId ∧ doc.Formed lib.lowercase := by
  rw [Db.loadDocIdentities, List.mem_map]
  constructor
  · rintro ⟨row, among, rfl⟩
    exact ⟨⟨row, Table.mem_sorted.mp among, rfl, rfl⟩, rfl⟩
  · rintro ⟨⟨row, among, isUid, isDocId⟩, formed⟩
    refine ⟨row, Table.mem_sorted.mpr among, ?_⟩
    rw [formed, isUid, isDocId]

theorem loadDocIdentities_pairwise (distinct : Distinct db.documents) :
    (db.loadDocIdentities lib.lowercase).Pairwise fun a b => a.docId < b.docId :=
  pairwise_map.mpr (Table.sorted_pairwise distinct.keyed)

theorem byBasename_congr (distinct : Distinct db.documents) (distinct' : Distinct db'.documents)
    {basename : List Char}
    (same : ∀ noteUid docId, lib.basename docId = basename →
      (Names db noteUid docId ↔ Names db' noteUid docId)) :
    (db.loadDocIdentities lib.lowercase).byBasename basename =
      (db'.loadDocIdentities lib.lowercase).byBasename basename := by
  apply Table.eq_of_pairwise_lt DocIdentity.docId
    ((loadDocIdentities_pairwise distinct).filter _)
    ((loadDocIdentities_pairwise distinct').filter _)
  intro doc
  simp only [mem_filter, mem_loadDocIdentities, decide_eq_true_eq]
  refine and_congr_left fun named => and_congr_left fun formed => same _ _ ?_
  rw [← named, formed]
  rfl

/-- A link keeps its resolution while the documents of its basename are the same. -/
theorem isResolved_congr (distinct : Distinct db.documents)
    (distinct' : Distinct db'.documents) {ref : WikilinkRefRow} (resolved : IsResolved lib db ref)
    (same : ∀ noteUid docId, lib.basename docId = lib.basename ref.link.rawTarget →
      (Names db noteUid docId ↔ Names db' noteUid docId)) :
    IsResolved lib db' ref := by
  unfold IsResolved
  rw [← resolveWikilink_congr (fun doc among => (mem_loadDocIdentities.mp among).2)
    (fun doc among => (mem_loadDocIdentities.mp among).2) (byBasename_congr distinct distinct' same)]
  exact resolved

theorem isResolved_updateResolution {ref : WikilinkRefRow} :
    IsResolved lib db (ref.updateResolution (resolveWikilink lib.lowercase ref.sourceDocId
      ref.link.rawTarget (db.loadDocIdentities lib.lowercase))) := rfl

theorem resolved_resolveRows : Resolved lib (db.resolveRows lib.lowercase fun _ => true) := by
  intro ref among
  obtain ⟨earlier, -, rfl⟩ := List.mem_map.mp among
  exact isResolved_updateResolution

/-- The tables after a plan: nothing is re-resolved where the plan is empty. -/
theorem rereresolveWikilinks_eq (plan : ReResolutionPlan) :
    rereresolveWikilinks lib db plan = db.resolveRows lib.lowercase (shouldReresolveRow plan) := by
  unfold rereresolveWikilinks
  split
  · rename_i isEmpty
    subst isEmpty
    have none : ∀ ref, shouldReresolveRow {} ref = false := by
      intro ref
      simp [shouldReresolveRow]
    simp [Db.resolveRows, none]
  · rfl

/-- A plan names the source of every new link row and every basename that gained or lost a
document. -/
structure Covers (lib : Library) (plan : ReResolutionPlan) (db db' : Db) : Prop where
  earlier : ∀ ref ∈ db'.wikilinkRefs, ref.sourceNoteUid ∉ plan.sourceNoteUids →
    ref ∈ db.wikilinkRefs
  same : ∀ noteUid docId, lib.basename docId ∉ plan.targetBasenames →
    (Names db noteUid docId ↔ Names db' noteUid docId)

variable {plan : ReResolutionPlan}

theorem Covers.refl : Covers lib plan db db := ⟨fun _ among _ => among, fun _ _ _ => Iff.rfl⟩

theorem Covers.trans {db'' : Db} (first : Covers lib plan db db')
    (second : Covers lib plan db' db'') : Covers lib plan db db'' where
  earlier := fun ref among notSource =>
    first.earlier ref (second.earlier ref among notSource) notSource
  same := fun noteUid docId notBasename =>
    (first.same noteUid docId notBasename).trans (second.same noteUid docId notBasename)

theorem Holds.covers_replace (holds : Holds lib contents db) {doc : IndexedDocument}
    (fits : Fits db doc) (source : (db.replaceDocument doc).2 ∈ plan.sourceNoteUids)
    (basename : lib.basename doc.docId ∈ plan.targetBasenames) :
    Covers lib plan db (db.replaceDocument doc).1 where
  earlier := by
    intro ref among notSource
    rw [fits.wikilinkRefs holds.owned, mem_append, mem_filter] at among
    rcases among with ⟨earlier, -⟩ | isNew
    · exact earlier
    · obtain ⟨link, -, rfl⟩ := List.mem_map.mp isNew
      exact absurd source notSource
  same := by
    intro noteUid docId notBasename
    have elsewhere : docId ≠ doc.docId := fun same => notBasename (same ▸ basename)
    constructor
    · rintro ⟨row, among, rfl, rfl⟩
      exact ⟨row, (fits.mem_documents holds.below).mpr (.inr ⟨among, elsewhere⟩), rfl, rfl⟩
    · rintro ⟨row, among, rfl, rfl⟩
      rcases (fits.mem_documents holds.below).mp among with rfl | ⟨earlier, -⟩
      · exact absurd rfl elsewhere
      · exact ⟨row, earlier, rfl, rfl⟩

theorem covers_remove (basename : (db.findNoteUidByDocId path).isSome →
    lib.basename path ∈ plan.targetBasenames) :
    Covers lib plan db (db.removeDocument path).1 where
  earlier := fun _ among _ => mem_of_mem_filter among
  same := by
    intro noteUid docId notBasename
    constructor
    · rintro ⟨row, among, rfl, rfl⟩
      refine ⟨row, mem_documents_removeDocument.mpr ⟨among, fun isPath => ?_⟩, rfl, rfl⟩
      have isIndexed : (db.findNoteUidByDocId path).isSome := by
        rw [← ne_none_iff_isSome, Ne, findNoteUidByDocId_eq_none]
        exact fun absent => absent row among isPath
      exact notBasename (isPath ▸ basename isIndexed)
    · rintro ⟨row, among, rfl, rfl⟩
      exact ⟨row, (mem_documents_removeDocument.mp among).1, rfl, rfl⟩

/-- **Selective resolution.**  After a change that the plan covers, its re-resolution leaves
every link resolved. -/
theorem Resolved.rereresolve (resolved : Resolved lib db) (distinct : Distinct db.documents)
    (holds : Holds lib contents db') (covers : Covers lib plan db db') :
    Resolved lib (rereresolveWikilinks lib db' plan) := by
  rw [rereresolveWikilinks_eq]
  intro ref among
  obtain ⟨before, isBefore, rfl⟩ := List.mem_map.mp among
  split
  · exact isResolved_updateResolution
  · rename_i skipped
    simp only [shouldReresolveRow, Bool.or_eq_true, decide_eq_true_eq, not_or] at skipped
    obtain ⟨⟨⟨notSource, -⟩, notBasename⟩, -⟩ := skipped
    have wasResolved := resolved before (covers.earlier before isBefore notSource)
    have unchanged : IsResolved lib db' before := by
      apply isResolved_congr distinct holds.distinct wasResolved
      intro noteUid docId sameBasename
      apply covers.same
      rw [sameBasename, ← holds.link_formed isBefore]
      exact notBasename
    exact unchanged

end Resolution

end Kuku.Search
