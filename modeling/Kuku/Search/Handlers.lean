/-
# Search.Handlers -- what a job does to the contents

`Indexes contents db`: the tables hold the contents and every link is resolved.  A job keeps
this with new contents: `IndexFile` sets those of its path to what it has read there,
`RemoveFile` clears them, `RenameFile` clears the old path and sets the new one.  The text alone
is kept under fewer conditions, so each handler has a lemma for `HoldsText` and one for
`Indexes`, both from what the handler writes.

Two conditions are left.  `takesOver`: an unindexed path gets the uid of the one document that
differs from it in case only, whose row is then overwritten.  `overwritesLinks`: a rename onto a
document deletes its row, not the links of that row.
-/
import Kuku.Search.Contents

namespace Kuku.Search

open Kuku.Theory List Function Option

/-- `build_document` gives the path the uid of another document. -/
def takesOver (db : Db) (path : DocId) : Bool :=
  (db.findNoteUidByDocId path).isNone && (db.findNoteUidByDocIdNocase path).isSome

/-- The rename replaces a document that has link rows. -/
def overwritesLinks (db : Db) (oldPath newPath : DocId) : Bool :=
  decide (newPath ≠ oldPath) && db.wikilinkRefs.any fun ref => ref.sourceDocId = newPath

structure Indexes (lib : Library) (contents : DocId → Option File) (db : Db) : Prop where
  holds : Holds lib contents db
  resolved : Resolved lib db

variable {lib : Library} {contents : DocId → Option File} {vault : Vault} {db db' : Db}
  {path oldPath newPath : DocId} {file : File} {found : Option File} {plan : ReResolutionPlan}

theorem Indexes.rereresolve (indexes : Indexes lib contents db)
    {contents' : DocId → Option File} (holds : Holds lib contents' db')
    (covers : Covers lib plan db db') :
    Indexes lib contents' (rereresolveWikilinks lib db' plan) where
  holds := by
    rw [rereresolveWikilinks_eq]
    exact holds.resolveRows _
  resolved := indexes.resolved.rereresolve indexes.holds.distinct holds covers

theorem HoldsText.rereresolve (holds : HoldsText lib contents db) :
    HoldsText lib contents (rereresolveWikilinks lib db plan) := by
  rw [rereresolveWikilinks_eq]
  exact holds.resolveRows _

/-! ## Which documents fit -/

theorem existingNoteUid_eq (own : takesOver db path = false) :
    existingNoteUid db path = db.findNoteUidByDocId path := by
  unfold existingNoteUid
  cases found : db.findNoteUidByDocId path with
  | some uid => rfl
  | none => simpa [takesOver, found] using own

variable {doc : IndexedDocument}

theorem HoldsText.fits_own (holds : HoldsText lib contents db)
    (isUid : doc.noteUid = db.findNoteUidByDocId doc.docId) : FitsUid db doc where
  below := by
    intro uid hasUid
    obtain ⟨row, among, -, rfl⟩ :=
      (findNoteUidByDocId_eq holds.distinct).mp (isUid.symm.trans hasUid)
    exact holds.below row among
  own := by
    intro uid hasUid row among rowUid
    obtain ⟨found, isFound, isDocId, foundUid⟩ :=
      (findNoteUidByDocId_eq holds.distinct).mp (isUid.symm.trans hasUid)
    rw [holds.distinct.eq_of_noteUid among isFound (rowUid.trans foundUid.symm), isDocId]

theorem Holds.fits_own (holds : Holds lib contents db)
    (isUid : doc.noteUid = db.findNoteUidByDocId doc.docId) : Fits db doc where
  toFitsUid := holds.toHoldsText.fits_own isUid
  unlinked := by
    intro ref among isSource
    obtain ⟨row, isRow, rowUid, rowDocId⟩ := holds.owned ref among
    rw [isUid, findNoteUidByDocId_eq holds.distinct]
    exact ⟨row, isRow, rowDocId.trans isSource, rowUid⟩

/-- The uid of a removed document is free. -/
theorem HoldsText.fits_moved (holds : HoldsText lib contents db)
    (isUid : doc.noteUid = db.findNoteUidByDocId oldPath) :
    FitsUid (db.removeDocument oldPath).1 doc where
  below := by
    intro uid hasUid
    obtain ⟨row, among, -, rfl⟩ :=
      (findNoteUidByDocId_eq holds.distinct).mp (isUid.symm.trans hasUid)
    exact holds.below row among
  own := by
    intro uid hasUid row among rowUid
    obtain ⟨found, isFound, isDocId, foundUid⟩ :=
      (findNoteUidByDocId_eq holds.distinct).mp (isUid.symm.trans hasUid)
    obtain ⟨earlier, elsewhere⟩ := mem_documents_removeDocument.mp among
    have same := holds.distinct.eq_of_noteUid earlier isFound (rowUid.trans foundUid.symm)
    exact absurd (same ▸ isDocId) elsewhere

/-- It fits at a path without links. -/
theorem Holds.fits_moved (holds : Holds lib contents db)
    (isUid : doc.noteUid = db.findNoteUidByDocId oldPath)
    (safe : overwritesLinks db oldPath doc.docId = false) :
    Fits (db.removeDocument oldPath).1 doc where
  toFitsUid := holds.toHoldsText.fits_moved isUid
  unlinked := by
    intro ref among isSource
    obtain ⟨row, isRow, -, rowDocId⟩ := holds.remove.owned ref among
    have elsewhere : row.docId ≠ oldPath := (mem_documents_removeDocument.mp isRow).2
    have isOther : doc.docId ≠ oldPath := by
      rw [← isSource, ← rowDocId]
      exact elsewhere
    have linked : db.wikilinkRefs.any (fun ref => ref.sourceDocId = doc.docId) = true :=
      any_eq_true.mpr ⟨ref, mem_of_mem_filter among, decide_eq_true isSource⟩
    rw [overwritesLinks, decide_eq_true isOther, linked] at safe
    cases safe

/-! ## What a handler writes -/

theorem buildDocument_eq : buildDocument lib vault db path =
    (vault.markdownFile path).map (lib.indexed (existingNoteUid db path) path) := by
  unfold buildDocument Vault.markdownFile
  split <;> rfl

section Writes

variable (lib db path oldPath newPath)

/-- The text that was there is fresh, or the document replaces it. -/
theorem writeIndexFile_some (doc : IndexedDocument) :
    writeIndexFile lib db path (some doc) =
        db.updateDocumentFreshness doc.docId doc.mtimeMs doc.contentChecksum ∧
      db.loadDocumentFreshness path = some doc.contentChecksum ∨
    ∃ plan, writeIndexFile lib db path (some doc) =
        rereresolveWikilinks lib (db.replaceDocument doc).1 plan ∧
      (db.replaceDocument doc).2 ∈ plan.sourceNoteUids ∧
      lib.basename path ∈ plan.targetBasenames := by
  unfold writeIndexFile
  simp only
  split
  · rename_i isFresh
    exact .inl ⟨rfl, isFresh⟩
  · exact .inr ⟨_, rfl, mem_cons_self, mem_cons_self⟩

theorem writeIndexFile_none : ∃ plan,
    writeIndexFile lib db path none = rereresolveWikilinks lib (db.removeDocument path).1 plan ∧
      ((db.findNoteUidByDocId path).isSome → lib.basename path ∈ plan.targetBasenames) := by
  unfold writeIndexFile
  simp only
  split
  · exact ⟨_, rfl, fun _ => mem_cons_self⟩
  · rename_i notIndexed
    refine ⟨_, rfl, fun isIndexed => ?_⟩
    rw [show db.findNoteUidByDocId path = none from notIndexed] at isIndexed
    cases isIndexed

theorem writeRenameFile_some {doc : IndexedDocument} :
    let removed := if isMarkdownPath oldPath then (db.removeDocument oldPath).1 else db
    let written := removed.replaceDocument { doc with noteUid := db.findNoteUidByDocId oldPath }
    ∃ plan, writeRenameFile lib db oldPath newPath (some doc) =
        rereresolveWikilinks lib written.1 plan ∧
      written.2 ∈ plan.sourceNoteUids ∧ lib.basename oldPath ∈ plan.targetBasenames ∧
      lib.basename newPath ∈ plan.targetBasenames :=
  ⟨_, rfl, mem_cons_self, mem_cons_self, mem_cons_of_mem _ mem_cons_self⟩

theorem writeRenameFile_none :
    let removed := if isMarkdownPath oldPath then (db.removeDocument oldPath).1 else db
    ∃ plan, writeRenameFile lib db oldPath newPath none =
        rereresolveWikilinks lib removed plan ∧ lib.basename oldPath ∈ plan.targetBasenames :=
  ⟨_, rfl, mem_cons_self⟩

end Writes

/-- A path that is no markdown path has nothing that a removal could take. -/
theorem HoldsText.removed_eq (holds : HoldsText lib contents db)
    (markdown : ∀ path, contents path ≠ none → isMarkdownPath path) :
    (if isMarkdownPath path then (db.removeDocument path).1 else db) =
      (db.removeDocument path).1 := by
  split
  · rfl
  · rename_i isNot
    have absent : contents path = none :=
      Classical.not_not.mp fun isThere => isNot (markdown path isThere)
    exact (holds.removeDocument_absent absent).symm

/-! ## The jobs -/

/-- The stored text of a path with the checksum of the file. -/
theorem HoldsText.fresh (holds : HoldsText lib contents db)
    (isFresh : db.loadDocumentFreshness path = some (lib.computeChecksum file.markdown)) :
    ∃ old, contents path = some old ∧ old.markdown = file.markdown := by
  simp only [Db.loadDocumentFreshness, map_eq_some_iff] at isFresh
  obtain ⟨row, found, sameChecksum⟩ := isFresh
  have isPath : row.docId = path := by simpa using find?_some found
  obtain ⟨old, isOld, isRow⟩ := holds.rows row (mem_of_find?_eq_some found)
  rw [isRow] at sameChecksum
  exact ⟨old, isPath ▸ isOld, lib.computeChecksum_injective sameChecksum⟩

theorem covers_refresh {mtimeMs : Nat} {contentChecksum : List Char} :
    Covers lib plan db (db.updateDocumentFreshness path mtimeMs contentChecksum) where
  earlier := fun _ among _ => among
  same := by
    intro noteUid docId _
    constructor
    · rintro ⟨earlier, isEarlier, rfl, rfl⟩
      exact mem_updateDocumentFreshness_of isEarlier
    · rintro ⟨row, among, rfl, rfl⟩
      obtain ⟨earlier, isEarlier, sameUid, sameDocId, -⟩ := mem_updateDocumentFreshness among
      exact ⟨earlier, isEarlier, sameUid.symm, sameDocId.symm⟩

theorem Indexes.refresh (indexes : Indexes lib contents db) {old : File}
    (isThere : contents path = some old) (same : old.markdown = file.markdown) :
    Indexes lib (Function.update contents path (some file))
      (db.updateDocumentFreshness path file.mtimeMs (lib.computeChecksum file.markdown)) := by
  have holds := indexes.holds.refresh isThere same
  refine ⟨holds, ?_⟩
  have empty : Covers lib {} db (db.updateDocumentFreshness path file.mtimeMs
      (lib.computeChecksum file.markdown)) := covers_refresh
  exact indexes.resolved.rereresolve indexes.holds.distinct holds empty

theorem HoldsText.writeIndexFile (holds : HoldsText lib contents db)
    (own : found.isSome → takesOver db path = false) :
    HoldsText lib (Function.update contents path found) (writeIndexFile lib db path
      (found.map (lib.indexed (existingNoteUid db path) path))) := by
  cases found with
  | some file =>
    have fits : FitsUid db (lib.indexed (existingNoteUid db path) path file) :=
      holds.fits_own (existingNoteUid_eq (own rfl))
    rw [map_some]
    rcases writeIndexFile_some lib db path
      (lib.indexed (existingNoteUid db path) path file) with
      ⟨isRefreshed, isFresh⟩ | ⟨plan, isReplaced, -, -⟩
    · obtain ⟨old, isOld, same⟩ := holds.fresh isFresh
      rw [isRefreshed]
      exact holds.refresh isOld same
    · rw [isReplaced]
      exact (holds.replace fits).rereresolve
  | none =>
    obtain ⟨plan, isRemoved, -⟩ := writeIndexFile_none lib db path
    rw [map_none, isRemoved]
    exact holds.remove.rereresolve

theorem Indexes.writeIndexFile (indexes : Indexes lib contents db)
    (own : found.isSome → takesOver db path = false) :
    Indexes lib (Function.update contents path found) (writeIndexFile lib db path
      (found.map (lib.indexed (existingNoteUid db path) path))) := by
  cases found with
  | some file =>
    have fits : Fits db (lib.indexed (existingNoteUid db path) path file) :=
      indexes.holds.fits_own (existingNoteUid_eq (own rfl))
    rw [map_some]
    rcases writeIndexFile_some lib db path
      (lib.indexed (existingNoteUid db path) path file) with
      ⟨isRefreshed, isFresh⟩ | ⟨plan, isReplaced, source, basename⟩
    · obtain ⟨old, isOld, same⟩ := indexes.holds.fresh isFresh
      rw [isRefreshed]
      exact indexes.refresh isOld same
    · rw [isReplaced]
      exact indexes.rereresolve (indexes.holds.replace fits)
        (indexes.holds.covers_replace fits source basename)
  | none =>
    obtain ⟨plan, isRemoved, basename⟩ := writeIndexFile_none lib db path
    rw [map_none, isRemoved]
    exact indexes.rereresolve indexes.holds.remove (covers_remove basename)

def afterRemove (contents : DocId → Option File) (path : DocId) : DocId → Option File :=
  if isMarkdownPath path then Function.update contents path none else contents

theorem HoldsText.removeFile (holds : HoldsText lib contents db) :
    HoldsText lib (afterRemove contents path) (handleRemoveFile lib db path) := by
  unfold afterRemove handleRemoveFile
  split
  · exact holds.remove.rereresolve
  · exact holds

theorem Indexes.removeFile (indexes : Indexes lib contents db) :
    Indexes lib (afterRemove contents path) (handleRemoveFile lib db path) := by
  unfold afterRemove handleRemoveFile
  split
  · exact indexes.rereresolve indexes.holds.remove (covers_remove fun _ => mem_cons_self)
  · exact indexes

theorem afterRemove_eq (markdown : ∀ path, contents path ≠ none → isMarkdownPath path) :
    afterRemove contents path = Function.update contents path none := by
  unfold afterRemove
  split
  · rfl
  · rename_i isNot
    have absent : contents path = none :=
      Classical.not_not.mp fun isThere => isNot (markdown path isThere)
    rw [← absent, update_eq_self]

/-- Contents after `RenameFile`: the new path is left when there is no file. -/
def afterRename (contents : DocId → Option File) (oldPath newPath : DocId) :
    Option File → DocId → Option File
  | some file => Function.update (afterRemove contents oldPath) newPath (some file)
  | none => afterRemove contents oldPath

theorem HoldsText.writeRenameFile (holds : HoldsText lib contents db)
    (markdown : ∀ path, contents path ≠ none → isMarkdownPath path) {noteUid : Option Nat} :
    HoldsText lib (afterRename contents oldPath newPath found)
      (writeRenameFile lib db oldPath newPath (found.map (lib.indexed noteUid newPath))) := by
  have removed : HoldsText lib (afterRemove contents oldPath) (db.removeDocument oldPath).1 :=
    afterRemove_eq markdown ▸ holds.remove
  cases found with
  | some file =>
    have fits : FitsUid (db.removeDocument oldPath).1
        (lib.indexed (db.findNoteUidByDocId oldPath) newPath file) := holds.fits_moved rfl
    obtain ⟨plan, isWritten, -, -, -⟩ := writeRenameFile_some lib db oldPath newPath
    rw [map_some, isWritten, holds.removed_eq markdown]
    exact (removed.replace fits).rereresolve
  | none =>
    obtain ⟨plan, isWritten, -⟩ := writeRenameFile_none lib db oldPath newPath
    rw [map_none, isWritten, holds.removed_eq markdown]
    exact removed.rereresolve

theorem Indexes.writeRenameFile (indexes : Indexes lib contents db)
    (markdown : ∀ path, contents path ≠ none → isMarkdownPath path) {noteUid : Option Nat}
    (safe : found.isSome → overwritesLinks db oldPath newPath = false) :
    Indexes lib (afterRename contents oldPath newPath found)
      (writeRenameFile lib db oldPath newPath (found.map (lib.indexed noteUid newPath))) := by
  have removed : Holds lib (afterRemove contents oldPath) (db.removeDocument oldPath).1 :=
    afterRemove_eq markdown ▸ indexes.holds.remove
  have removedText : (if isMarkdownPath oldPath then (db.removeDocument oldPath).1 else db) =
      (db.removeDocument oldPath).1 := indexes.holds.removed_eq markdown
  cases found with
  | some file =>
    have fits : Fits (db.removeDocument oldPath).1
        (lib.indexed (db.findNoteUidByDocId oldPath) newPath file) :=
      indexes.holds.fits_moved rfl (safe rfl)
    obtain ⟨plan, isWritten, source, oldBasename, newBasename⟩ :=
      writeRenameFile_some lib db oldPath newPath
    rw [map_some, isWritten]
    simp only [removedText] at source ⊢
    exact indexes.rereresolve (removed.replace fits)
      ((covers_remove fun _ => oldBasename).trans (removed.covers_replace fits source newBasename))
  | none =>
    obtain ⟨plan, isWritten, oldBasename⟩ := writeRenameFile_none lib db oldPath newPath
    rw [map_none, isWritten, removedText]
    exact indexes.rereresolve removed (covers_remove fun _ => oldBasename)

/-- What the handlers read. -/
theorem Indexes.indexFile (indexes : Indexes lib contents db)
    (markdown : ∀ path, contents path ≠ none → isMarkdownPath path)
    (own : (vault.markdownFile path).isSome → takesOver db path = false) :
    Indexes lib (Function.update contents path (vault.markdownFile path))
      (handleIndexFile lib vault db path) := by
  unfold handleIndexFile
  split
  · rw [buildDocument_eq]
    exact indexes.writeIndexFile own
  · rename_i isNot
    have absent : contents path = none :=
      Classical.not_not.mp fun isThere => isNot (markdown path isThere)
    have isMissing : vault.markdownFile path = none := if_neg isNot
    rw [isMissing, ← absent, update_eq_self]
    exact indexes

theorem Indexes.renameFile (indexes : Indexes lib contents db)
    (markdown : ∀ path, contents path ≠ none → isMarkdownPath path)
    (safe : (vault.markdownFile newPath).isSome → overwritesLinks db oldPath newPath = false) :
    Indexes lib (afterRename contents oldPath newPath (vault.markdownFile newPath))
      (handleRenameFile lib vault db oldPath newPath) := by
  unfold handleRenameFile
  rw [buildDocument_eq]
  exact indexes.writeRenameFile markdown safe

/-! ## A batch of a rebuild -/

/-- The contents with the files of a batch over them. -/
def overlay (contents : DocId → Option File) (docs : Assoc DocId File) (path : DocId) :
    Option File :=
  (docs.get path).or (contents path)

theorem overlay_cons {docs : Assoc DocId File} (absent : path ∉ docs.map Prod.fst) :
    overlay contents ((path, file) :: docs) =
      overlay (Function.update contents path (some file)) docs := by
  funext other
  unfold overlay
  rw [Assoc.get_cons]
  split
  · rename_i same
    rw [← same, Assoc.get_eq_none absent, update_self]
    rfl
  · rename_i differs
    rw [update_of_ne (Ne.symm differs)]

variable (holds : HoldsText lib contents db)

include holds

theorem FitsUid.findNoteUidByDocId_of_ne (fits : FitsUid db doc) (elsewhere : path ≠ doc.docId) :
    (db.replaceDocument doc).1.findNoteUidByDocId path = db.findNoteUidByDocId path := by
  apply Option.ext
  intro uid
  rw [findNoteUidByDocId_eq (distinct_replaceDocument holds.distinct holds.below),
    findNoteUidByDocId_eq holds.distinct]
  constructor
  · rintro ⟨row, among, rfl, isUid⟩
    rcases (fits.mem_documents holds.below).mp among with rfl | ⟨earlier, -⟩
    · exact absurd rfl elsewhere
    · exact ⟨row, earlier, rfl, isUid⟩
  · rintro ⟨row, among, rfl, isUid⟩
    exact ⟨row, (fits.mem_documents holds.below).mpr (.inr ⟨among, elsewhere⟩), rfl, isUid⟩

/-- A batch whose documents bring the uids of their own rows. -/
theorem HoldsText.writeBatch {docs : Assoc DocId File} {uid : DocId → Option Nat}
    (distinct : (docs.map Prod.fst).Nodup)
    (own : ∀ doc ∈ docs, uid doc.1 = db.findNoteUidByDocId doc.1) :
    HoldsText lib (overlay contents docs)
      (writeBatch db (docs.map fun doc => lib.indexed (uid doc.1) doc.1 doc.2)) := by
  induction docs generalizing contents db with
  | nil =>
    have same : overlay contents [] = contents := rfl
    rw [same]
    exact holds
  | cons doc rest ih =>
    obtain ⟨path, file⟩ := doc
    obtain ⟨absent, distinctRest⟩ := nodup_cons.mp distinct
    have fits : FitsUid db (lib.indexed (uid path) path file) :=
      holds.fits_own (own _ mem_cons_self)
    rw [overlay_cons absent]
    refine ih (holds.replace fits) distinctRest fun other later => ?_
    have among : other.1 ∈ rest.map Prod.fst := mem_map_of_mem later
    have elsewhere : other.1 ≠ path := fun same => absent (same ▸ among)
    rw [fits.findNoteUidByDocId_of_ne holds elsewhere]
    exact own other (mem_cons_of_mem _ later)

theorem HoldsText.removeAll {docIds : List DocId} :
    HoldsText lib (fun path => if path ∈ docIds then none else contents path)
      (docIds.foldl (fun removed docId => (removed.removeDocument docId).1) db) := by
  induction docIds generalizing contents db with
  | nil => exact { holds with }
  | cons docId rest ih =>
    have without : HoldsText lib (Function.update contents docId none)
        (db.removeDocument docId).1 := holds.remove
    have removed := ih without
    have same : (fun path => if path ∈ rest then none else
        Function.update contents docId none path) =
        fun path => if path ∈ docId :: rest then none else contents path := by
      funext path
      by_cases isDocId : path = docId
      · simp [isDocId]
      · simp [isDocId]
    exact same ▸ removed

/-- Stale documents go, those of collected files stay. -/
theorem HoldsText.removeStale (files : List DocId) :
    ∃ contents', HoldsText lib contents' (removeStale db files) ∧
      (∀ path ∈ files, contents' path = contents path) ∧
      ∀ path, contents' path ≠ none → contents path ≠ none := by
  refine ⟨_, holds.removeAll, fun path among => if_neg fun isStale => ?_, fun path isThere => ?_⟩
  · exact of_decide_eq_true (mem_filter.mp isStale).2 among
  · split at isThere
    · exact absurd rfl isThere
    · exact isThere

end Kuku.Search
