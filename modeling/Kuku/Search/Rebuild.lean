/-
# Search.Rebuild -- the index that a full rebuild makes

`SameIndex` compares two databases by `doc_id`, uids and rowids left out.  The contents decide
the index (`Indexes.sameIndex`).

A batch of a rebuild is read against the rows of the batches before it, where the only case
variant of a path gives up its row.  `indexes_rebuild_iff` says from which tables the rebuild
indexes what the vault lists: none of their rows may be left of a document that is gone
(`Tidy`), and files that differ in case only must get a row each (`CaseClear`).
-/
import Kuku.Search.Batches

namespace Kuku.Search

open Kuku.Theory List Option Table

/-! ## Comparing indexes by document -/

def DocumentRow.withoutUid (row : DocumentRow) : DocumentRow := { row with noteUid := 0 }

/-- A link row with documents in place of uids. -/
structure ShownLink where
  sourceDocId : DocId
  link : IndexedWikilinkRow
  resolvedDocId : Option DocId
  resolutionKind : ResolutionKind
  folderDistance : Option Nat
  deriving DecidableEq

def Db.docIdOf (db : Db) (noteUid : Nat) : Option DocId :=
  (db.documents.find? fun row => row.noteUid = noteUid).map DocumentRow.docId

def Db.shownLink (db : Db) (ref : WikilinkRefRow) : ShownLink :=
  ⟨ref.sourceDocId, ref.link, ref.resolvedTargetUid.bind db.docIdOf, ref.resolutionKind,
    ref.folderDistance⟩

structure SameIndex (db db' : Db) : Prop where
  documents : (db.documents.map DocumentRow.withoutUid).Perm
    (db'.documents.map DocumentRow.withoutUid)
  chunkRows : db.chunkRows.Perm db'.chunkRows
  wikilinkRefs : (db.wikilinkRefs.map db.shownLink).Perm (db'.wikilinkRefs.map db'.shownLink)

section Same

variable {lib : Library} {contents : DocId → Option File} {db db' : Db}

theorem docIdOf_eq {noteUid : Nat} {docId : DocId} (distinct : Distinct db.documents)
    (names : Names db noteUid docId) : db.docIdOf noteUid = some docId := by
  obtain ⟨row, among, rfl, rfl⟩ := names
  have keyed : Table.Keyed DocumentRow.noteUid db.documents :=
    pairwise_map.mpr (distinct.imp And.right)
  exact map_eq_some_iff.mpr ⟨row, get_of_mem keyed among, rfl⟩

def resolvedLink (lib : Library) (db : Db) (path : DocId) (link : IndexedWikilinkRow) :
    ShownLink :=
  let resolution :=
    resolveWikilink lib.lowercase path link.rawTarget (db.loadDocIdentities lib.lowercase)
  ⟨path, link, resolution.resolvedDocId, resolution.resolutionKind, resolution.folderDistance⟩

/-- A resolution's target is read back as its document. -/
theorem Holds.docIdOf_target (holds : Holds lib contents db) {resolution : LinkResolution}
    (within : resolution.Within (db.loadDocIdentities lib.lowercase)) :
    resolution.resolvedTargetUid.bind db.docIdOf = resolution.resolvedDocId := by
  rcases within with ⟨noUid, noDocId⟩ | ⟨doc, isIn, isUid, isDocId⟩
  · rw [noUid, noDocId]
    rfl
  · rw [isUid, isDocId]
    exact docIdOf_eq holds.distinct (mem_loadDocIdentities.mp isIn).1

theorem Indexes.shownLink_eq (indexes : Indexes lib contents db) {ref : WikilinkRefRow}
    (among : ref ∈ db.wikilinkRefs) :
    db.shownLink ref = resolvedLink lib db ref.sourceDocId ref.link := by
  have isResolved := indexes.resolved ref among
  have target := congrArg WikilinkRefRow.resolvedTargetUid isResolved
  have kind := congrArg WikilinkRefRow.resolutionKind isResolved
  have distance := congrArg WikilinkRefRow.folderDistance isResolved
  simp only [WikilinkRefRow.updateResolution] at target kind distance
  simp only [Db.shownLink, resolvedLink]
  rw [target, kind, distance, indexes.holds.docIdOf_target resolveWikilink_within]

theorem Indexes.filter_shownLink (indexes : Indexes lib contents db) (path : DocId) :
    (db.wikilinkRefs.map db.shownLink).filter (fun shown => shown.sourceDocId = path) =
      (lib.wikilinksOf (contents path)).map (resolvedLink lib db path) := by
  rw [← indexes.holds.links, List.filter_map, List.map_map]
  apply map_congr_left
  intro ref among
  obtain ⟨isRef, isSource⟩ := mem_filter.mp among
  rw [indexes.shownLink_eq isRef]
  have same : ref.sourceDocId = path := of_decide_eq_true isSource
  rw [same]
  rfl

variable (holds : Holds lib contents db)

include holds

/-- The documents of two indexes of the same contents differ in their uids. -/
theorem Holds.names_iff {docId : DocId} :
    (∃ noteUid, Names db noteUid docId) ↔ contents docId ≠ none := by
  rw [Ne, holds.absent_iff]
  constructor
  · rintro ⟨noteUid, row, among, -, isDocId⟩ absent
    exact absent row among isDocId
  · intro present
    obtain ⟨row, isRow⟩ := not_forall.mp present
    obtain ⟨among, isDocId⟩ := Classical.not_imp.mp isRow
    exact ⟨row.noteUid, row, among, rfl, Classical.not_not.mp isDocId⟩

theorem Holds.loadDocIdentities_eq (holds' : Holds lib contents db') :
    db'.loadDocIdentities lib.lowercase = (db.loadDocIdentities lib.lowercase).map
      (DocIdentity.withUid fun docId => (db'.findNoteUidByDocId docId).getD 0) := by
  have uid : ∀ {noteUid docId}, Names db' noteUid docId →
      (db'.findNoteUidByDocId docId).getD 0 = noteUid := by
    rintro noteUid docId ⟨row, among, isUid, isDocId⟩
    rw [(findNoteUidByDocId_eq holds'.distinct).mpr ⟨row, among, isDocId, isUid⟩]
    rfl
  have ordered : ((db.loadDocIdentities lib.lowercase).map (DocIdentity.withUid fun docId =>
      (db'.findNoteUidByDocId docId).getD 0)).Pairwise fun a b => a.docId < b.docId :=
    pairwise_map.mpr (loadDocIdentities_pairwise holds.distinct)
  apply eq_of_pairwise_lt DocIdentity.docId (loadDocIdentities_pairwise holds'.distinct) ordered
  intro doc
  rw [mem_loadDocIdentities, List.mem_map]
  constructor
  · rintro ⟨names, formed⟩
    obtain ⟨noteUid, named⟩ := holds.names_iff.mpr (holds'.names_iff.mp ⟨_, names⟩)
    refine ⟨toDocIdentity lib.lowercase noteUid doc.docId,
      mem_loadDocIdentities.mpr ⟨named, rfl⟩, ?_⟩
    rw [formed]
    simp only [DocIdentity.withUid, toDocIdentity, uid names]
  · rintro ⟨earlier, isEarlier, rfl⟩
    obtain ⟨names, formed⟩ := mem_loadDocIdentities.mp isEarlier
    obtain ⟨noteUid, named⟩ := holds'.names_iff.mpr (holds.names_iff.mp ⟨_, names⟩)
    refine ⟨?_, ?_⟩
    · simp only [DocIdentity.withUid, uid named]
      exact named
    · rw [formed]
      rfl

theorem Holds.resolvedLink_eq (holds' : Holds lib contents db') (path : DocId) :
    resolvedLink lib db' path = resolvedLink lib db path := by
  funext link
  simp only [resolvedLink, holds.loadDocIdentities_eq holds', resolveWikilink_withUid]
  rfl

theorem Holds.mem_withoutUid {row : DocumentRow} :
    row ∈ db.documents.map DocumentRow.withoutUid ↔
      ∃ path file, contents path = some file ∧ row = (lib.indexed none path file).row 0 := by
  rw [List.mem_map]
  constructor
  · rintro ⟨held, among, rfl⟩
    obtain ⟨file, isFile, isRow⟩ := holds.rows held among
    exact ⟨held.docId, file, isFile, by rw [isRow]; rfl⟩
  · rintro ⟨path, file, isFile, rfl⟩
    obtain ⟨held, among, -, isRow⟩ := holds.row_of_contents isFile
    exact ⟨held, among, by rw [isRow]; rfl⟩

theorem Holds.nodup_withoutUid : (db.documents.map DocumentRow.withoutUid).Nodup := by
  apply List.Nodup.of_map DocumentRow.docId
  rw [List.map_map]
  exact holds.distinct.keyed

omit holds

/-- **The contents decide the index.** -/
theorem Indexes.sameIndex (indexes : Indexes lib contents db)
    (indexes' : Indexes lib contents db') : SameIndex db db' where
  documents := by
    rw [perm_ext_iff_of_nodup indexes.holds.nodup_withoutUid indexes'.holds.nodup_withoutUid]
    intro row
    rw [indexes.holds.mem_withoutUid, indexes'.holds.mem_withoutUid]
  chunkRows := by
    apply perm_of_groups ChunkRow.docId
    intro path
    rw [indexes.holds.chunks, indexes'.holds.chunks]
  wikilinkRefs := by
    apply perm_of_groups ShownLink.sourceDocId
    intro path
    rw [indexes.filter_shownLink, indexes'.filter_shownLink,
      indexes.holds.resolvedLink_eq indexes'.holds]

end Same

/-! ## Case variants among the files -/

/-- The first batch with a variant of the path has two. -/
def sharesFirstBatch (batches : List (List DocId)) (path : DocId) : Bool :=
  (batches.find? fun batch => batch.any fun docId => Db.sameNocase docId path).any fun batch =>
    2 ≤ (batch.filter fun docId => Db.sameNocase docId path).length

/-- The files that differ from the path in case only get a row each. -/
def RowEach (batches : List (List DocId)) (db : Db) (path : DocId) : Prop :=
  2 ≤ (variants db path).length ∨ variants db path = [] ∧ sharesFirstBatch batches path = true

def CaseClear (batches : List (List DocId)) (db : Db) : Prop :=
  ∀ path ∈ batches.flatten, ∀ other ∈ batches.flatten, path ≠ other →
    Db.sameNocase path other = true → RowEach batches db path

section Variants

variable {lib : Library} {contents : DocId → Option File} {db : Db}
  {docs : List IndexedDocument} {batch : List DocId} {rest : List (List DocId)} {path : DocId}

theorem RowEach.nocase {batches : List (List DocId)} (each : RowEach batches db path) :
    db.findNoteUidByDocIdNocase path = none := by
  rw [nocase_eq_none]
  rcases each with several | ⟨none, -⟩
  · omega
  · rw [none]
    exact Nat.zero_ne_one

theorem sharesFirstBatch_cons : sharesFirstBatch (batch :: rest) path =
    if batch.any (fun docId => Db.sameNocase docId path) then
      decide (2 ≤ (batch.filter fun docId => Db.sameNocase docId path).length)
    else sharesFirstBatch rest path := by
  unfold sharesFirstBatch
  rw [find?_cons]
  cases batch.any fun docId => Db.sameNocase docId path <;> rfl

theorem two_le_variants (distinct : Distinct db.documents) {a b : DocId} (differ : a ≠ b)
    (first : HasRow db a) (second : HasRow db b) (isVariant : Db.sameNocase a path = true)
    (isVariant' : Db.sameNocase b path = true) : 2 ≤ (variants db path).length := by
  by_contra few
  have short : (variants db path).length ≤ 1 := by omega
  exact differ ((length_variants_le_one distinct).mp short a b first second isVariant isVariant')

theorem exists_two_of_variants (distinct : Distinct db.documents)
    (several : 2 ≤ (variants db path).length) : ∃ a b, a ≠ b ∧ HasRow db a ∧ HasRow db b ∧
      Db.sameNocase a path = true ∧ Db.sameNocase b path = true := by
  have notOne : ¬ (variants db path).length ≤ 1 := by omega
  rw [length_variants_le_one distinct] at notOne
  push Not at notOne
  obtain ⟨a, b, first, second, isVariant, isVariant', differ⟩ := notOne
  exact ⟨a, b, differ, first, second, isVariant, isVariant'⟩

theorem exists_two_of_filter (nodup : batch.Nodup) {p : DocId → Bool}
    (several : 2 ≤ (batch.filter p).length) :
    ∃ a ∈ batch, ∃ b ∈ batch, a ≠ b ∧ p a = true ∧ p b = true := by
  have distinct := nodup.filter p
  match isList : batch.filter p, several with
  | a :: b :: _, _ =>
    have first : a ∈ batch.filter p := by simp [isList]
    have second : b ∈ batch.filter p := by simp [isList]
    rw [isList] at distinct
    have differ : a ≠ b := fun same => by simp [same] at distinct
    exact ⟨a, mem_of_mem_filter first, b, mem_of_mem_filter second, differ,
      (mem_filter.mp first).2, (mem_filter.mp second).2⟩

/-- What a batch does to the variants of a path without rows. -/
theorem hasRow_of_free (kept : Kept db) (isBatch : BatchOf lib contents db docs)
    (free : variants db path = []) {docId : DocId} (same : Db.sameNocase docId path = true) :
    HasRow (writeBatch db docs) docId ↔ docId ∈ docs.map IndexedDocument.docId := by
  have none : db.findNoteUidByDocIdNocase path = none := by
    rw [nocase_eq_none, free]
    exact Nat.zero_ne_one
  rw [hasRow_writeBatch kept isBatch.built none same]
  exact or_iff_right (variants_eq_nil.mp free docId same)

theorem RowEach.step (kept : Kept db) (isBatch : BatchOf lib contents db docs)
    (each : RowEach (docs.map IndexedDocument.docId :: rest) db path) :
    RowEach rest (writeBatch db docs) path := by
  have distinct := (writing_writeBatch kept docs).kept.distinct
  have none := each.nocase
  rcases each with several | ⟨free, shares⟩
  · obtain ⟨a, b, differ, first, second, isVariant, isVariant'⟩ :=
      exists_two_of_variants kept.distinct several
    exact .inl (two_le_variants distinct differ
      ((hasRow_writeBatch kept isBatch.built none isVariant).mpr (.inl first))
      ((hasRow_writeBatch kept isBatch.built none isVariant').mpr (.inl second))
      isVariant isVariant')
  · rw [sharesFirstBatch_cons] at shares
    split at shares
    · obtain ⟨a, among, b, among', differ, isVariant, isVariant'⟩ :=
        exists_two_of_filter isBatch.nodup (of_decide_eq_true shares)
      exact .inl (two_le_variants distinct differ
        ((hasRow_of_free kept isBatch free isVariant).mpr among)
        ((hasRow_of_free kept isBatch free isVariant').mpr among') isVariant isVariant')
    · rename_i noVariant
      refine .inr ⟨variants_eq_nil.mpr fun docId same hasRow => noVariant ?_, shares⟩
      exact List.any_eq_true.mpr ⟨docId, (hasRow_of_free kept isBatch free same).mp hasRow, same⟩

theorem not_rowEach_of_one (one : (variants db path).length = 1) : ¬ RowEach rest db path := by
  rintro (several | ⟨free, -⟩)
  · omega
  · rw [free] at one
    cases one

theorem not_rowEach_step (kept : Kept db) (isBatch : BatchOf lib contents db docs)
    (shared : ¬ RowEach (docs.map IndexedDocument.docId :: rest) db path) :
    ¬ RowEach rest (writeBatch db docs) path := by
  have distinct := (writing_writeBatch kept docs).kept.distinct
  cases single : db.findNoteUidByDocIdNocase path with
  | some uid =>
    obtain ⟨row, isSingle, -⟩ :=
      nocase_eq_some.mp (nocase_writeBatch_of_single kept isBatch.built single)
    exact not_rowEach_of_one (by rw [isSingle]; rfl)
  | none =>
    have notOne := nocase_eq_none.mp single
    have free : variants db path = [] := by
      rw [← length_eq_zero_iff]
      have few : ¬ 2 ≤ (variants db path).length := fun several => shared (.inl several)
      omega
    have apart : ¬ sharesFirstBatch (docs.map IndexedDocument.docId :: rest) path = true :=
      fun shares => shared (.inr ⟨free, shares⟩)
    rw [sharesFirstBatch_cons] at apart
    split at apart
    · rename_i some
      obtain ⟨docId, among, isVariant⟩ := List.any_eq_true.mp some
      have few : ((docs.map IndexedDocument.docId).filter fun docId =>
          Db.sameNocase docId path).length ≤ 1 := by
        rw [decide_eq_true_eq] at apart
        omega
      have short : (variants (writeBatch db docs) path).length ≤ 1 := by
        rw [length_variants_le_one distinct]
        intro a b first second isA isB
        rw [hasRow_of_free kept isBatch free isA] at first
        rw [hasRow_of_free kept isBatch free isB] at second
        exact eq_of_length_le_one few (mem_filter.mpr ⟨first, isA⟩) (mem_filter.mpr ⟨second, isB⟩)
      have notNil : variants (writeBatch db docs) path ≠ [] := fun nil =>
        variants_eq_nil.mp nil docId isVariant
          ((hasRow_of_free kept isBatch free isVariant).mpr among)
      have positive := length_pos_iff.mpr notNil
      exact not_rowEach_of_one (by omega)
    · rename_i noVariant
      have stillFree : variants (writeBatch db docs) path = [] := by
        refine variants_eq_nil.mpr fun docId same hasRow => noVariant ?_
        exact List.any_eq_true.mpr ⟨docId, (hasRow_of_free kept isBatch free same).mp hasRow, same⟩
      rintro (several | ⟨-, shares⟩)
      · rw [stillFree] at several
        cases several
      · exact apart shares

end Variants

/-! ## The batches of a rebuild -/

section Batches

variable {lib : Library} {vault : Vault} {db : Db} {path : DocId} {file : File}

theorem flatten_chunksOf {α : Type} {size : Nat} (positive : 0 < size) :
    ∀ {fuel : Nat} {items : List α}, items.length ≤ fuel →
      (chunksOf size fuel items).flatten = items := by
  intro fuel
  induction fuel with
  | zero =>
    intro items short
    rw [length_eq_zero_iff.mp (Nat.le_zero.mp short)]
    rfl
  | succ fuel ih =>
    intro items short
    cases items with
    | nil => rfl
    | cons item rest =>
      have shorter : ((item :: rest).drop size).length ≤ fuel := by
        rw [length_drop]
        omega
      rw [chunksOf, flatten_cons, ih shorter, take_append_drop]
      exact fun none => nomatch none

theorem flatten_rebuildBatches :
    (rebuildBatches vault).flatten = sorted id vault.collectMarkdownFiles :=
  flatten_chunksOf (by decide) le_rfl

theorem mem_flatten_rebuildBatches :
    path ∈ (rebuildBatches vault).flatten ↔ (vault.listed path).isSome := by
  rw [flatten_rebuildBatches, mem_sorted, Vault.mem_collectMarkdownFiles]

theorem nodup_flatten_rebuildBatches : (rebuildBatches vault).flatten.Nodup := by
  rw [flatten_rebuildBatches]
  exact (perm_insertionSort _ _).nodup_iff.mpr Vault.nodup_collectMarkdownFiles

theorem buildDocument_of_listed (isFile : vault.listed path = some file) :
    buildDocument lib vault db path = some (lib.indexed (existingNoteUid db path) path file) := by
  obtain ⟨isIt, isRead⟩ := Vault.listed_eq_some.mp isFile
  rw [buildDocument, if_pos (Vault.markdown_of_listed isIt), isRead]
  rfl

theorem map_docId_built {batch : List DocId} (listed : ∀ path ∈ batch, (vault.listed path).isSome) :
    (batch.filterMap (buildDocument lib vault db)).map IndexedDocument.docId = batch := by
  induction batch with
  | nil => rfl
  | cons path rest ih =>
    obtain ⟨file, isFile⟩ := isSome_iff_exists.mp (listed path mem_cons_self)
    rw [filterMap_cons_some (buildDocument_of_listed isFile), map_cons,
      ih fun other later => listed other (mem_cons_of_mem _ later)]
    rfl

theorem batchOf_built {batch : List DocId} (nodup : batch.Nodup)
    (listed : ∀ path ∈ batch, (vault.listed path).isSome) :
    BatchOf lib vault.listed db (batch.filterMap (buildDocument lib vault db)) := by
  have origin : ∀ doc ∈ batch.filterMap (buildDocument lib vault db), ∃ path file,
      vault.listed path = some file ∧ doc = lib.indexed (existingNoteUid db path) path file := by
    intro doc among
    obtain ⟨path, isPath, isDoc⟩ := mem_filterMap.mp among
    obtain ⟨file, isFile⟩ := isSome_iff_exists.mp (listed path isPath)
    rw [buildDocument_of_listed isFile] at isDoc
    exact ⟨path, file, isFile, (Option.some.inj isDoc).symm⟩
  refine ⟨fun doc among => ?_, fun doc among => ?_, ?_⟩
  · obtain ⟨path, file, -, rfl⟩ := origin doc among
    rfl
  · obtain ⟨path, file, isFile, rfl⟩ := origin doc among
    exact ⟨file, isFile, rfl⟩
  · rw [map_docId_built listed]
    exact nodup

/-- The tables that the batches of a rebuild leave. -/
def batchesWritten (lib : Library) (vault : Vault) (db : Db) : Db :=
  (rebuildBatches vault).foldl (indexBatch lib vault) db

/-- What every batch preserves holds after the last. -/
theorem rebuild_induction (Q : List (List DocId) → Db → Prop)
    (step : ∀ {db docs rest}, Kept db → BatchOf lib vault.listed db docs →
      (∀ doc ∈ docs, doc.docId ∈ (rebuildBatches vault).flatten) →
      Q (docs.map IndexedDocument.docId :: rest) db → Q rest (writeBatch db docs))
    (kept : Kept db) (start : Q (rebuildBatches vault) db) :
    Kept (batchesWritten lib vault db) ∧ Q [] (batchesWritten lib vault db) := by
  suffices run : ∀ (later earlier : List (List DocId)) (db : Db),
      rebuildBatches vault = earlier ++ later → Kept db → Q later db →
      Kept (later.foldl (indexBatch lib vault) db) ∧
        Q [] (later.foldl (indexBatch lib vault) db) from
    run (rebuildBatches vault) [] db rfl kept start
  intro later
  induction later with
  | nil => exact fun _ _ _ kept holds => ⟨kept, holds⟩
  | cons batch rest ih =>
    intro earlier db split kept holds
    have isOne : batch ∈ rebuildBatches vault := by simp [split]
    have within : ∀ path ∈ batch, path ∈ (rebuildBatches vault).flatten := fun path among =>
      mem_flatten.mpr ⟨batch, isOne, among⟩
    have nodup : batch.Nodup :=
      List.Nodup.sublist (sublist_flatten_of_mem isOne) nodup_flatten_rebuildBatches
    have listed : ∀ path ∈ batch, (vault.listed path).isSome := fun path among =>
      mem_flatten_rebuildBatches.mp (within path among)
    have isBatch : BatchOf lib vault.listed db _ := batchOf_built nodup listed
    have ids : (batch.filterMap (buildDocument lib vault db)).map IndexedDocument.docId =
        batch := map_docId_built listed
    refine ih (earlier ++ [batch]) _ (by simp [split]) (writing_writeBatch kept _).kept ?_
    refine step kept isBatch (fun doc among => within _ ?_) ?_
    · exact ids ▸ List.mem_map_of_mem among
    · rw [ids]
      exact holds

end Batches

/-! ## The end of a rebuild -/

section Stale

variable {lib : Library} {vault : Vault} {db : Db} {files docIds : List DocId} {path : DocId}

theorem removeAll_eq (distinct : Distinct db.documents) :
    docIds.foldl (fun removed docId => (removed.removeDocument docId).1) db =
      { db with
        documents := db.documents.filter fun row => row.docId ∉ docIds
        chunkRows := db.chunkRows.filter fun chunk => chunk.docId ∉ docIds
        wikilinkRefs := db.wikilinkRefs.filter fun ref =>
          decide (∀ row ∈ db.documents, row.noteUid = ref.sourceNoteUid → row.docId ∉ docIds) } := by
  induction docIds generalizing db with
  | nil => simp
  | cons docId rest ih =>
    rw [foldl_cons, ih (distinct.filter _)]
    simp only [Db.removeDocument, List.filter_filter, mem_cons, not_or]
    congr 1
    · apply filter_congr
      intro row _
      by_cases same : row.docId = docId <;> simp [same]
    · apply filter_congr
      intro chunk _
      by_cases same : chunk.docId = docId <;> simp [same]
    · apply filter_congr
      intro ref _
      rw [Bool.eq_iff_iff]
      simp only [Bool.and_eq_true, decide_eq_true_eq, mem_filter, and_imp]
      constructor
      · rintro ⟨others, notIt⟩ row among isUid
        have elsewhere : row.docId ≠ docId := fun same =>
          notIt ((findNoteUidByDocId_eq distinct).mpr ⟨row, among, same, isUid⟩).symm
        exact ⟨elsewhere, others row among elsewhere isUid⟩
      · intro all
        refine ⟨fun row among _ isUid => (all row among isUid).2, fun found => ?_⟩
        obtain ⟨row, among, same, isUid⟩ := (findNoteUidByDocId_eq distinct).mp found.symm
        exact (all row among isUid).1 same

theorem mem_staleDocIds :
    path ∈ db.listIndexedDocIds.filter (fun docId => docId ∉ files) ↔
      HasRow db path ∧ path ∉ files := by
  rw [mem_filter, decide_eq_true_eq, Db.listIndexedDocIds, List.mem_map]
  simp only [mem_sorted, HasRow]

/-- Once all files are stored, the removal of stale documents leaves the contents. -/
theorem holds_removeStale {contents : DocId → Option File} (kept : Kept db)
    (tidy : Tidy files db) (mem : ∀ path, path ∈ files ↔ (contents path).isSome)
    (stored : ∀ path file, contents path = some file → Stored lib path file db) :
    Holds lib contents (removeStale db files) := by
  have rowOf : ∀ row ∈ db.documents, ∀ file, contents row.docId = some file →
      row = (lib.indexed none row.docId file).row row.noteUid ∧
        db.chunkRows.filter (fun chunk => chunk.docId = row.docId) =
          (lib.indexed none row.docId file).chunkRows ∧
        db.wikilinkRefs.filter (fun ref => ref.sourceNoteUid = row.noteUid) =
          (lib.indexed none row.docId file).refRows row.noteUid := by
    intro row among file isFile
    obtain ⟨held, isHeld, isRow, chunks, links⟩ := stored _ file isFile
    have isDocId : held.docId = row.docId := by rw [isRow]; rfl
    have same := kept.distinct.eq_of_docId isHeld among isDocId
    rw [same] at isRow links
    exact ⟨isRow, chunks, links⟩
  generalize isStale : db.listIndexedDocIds.filter (fun docId => docId ∉ files) = stale
  have memStale : ∀ path, path ∈ stale ↔ HasRow db path ∧ contents path = none := by
    intro path
    rw [← isStale, mem_staleDocIds, mem, not_isSome_iff_eq_none]
  have fileOf : ∀ row ∈ db.documents, row.docId ∉ stale →
      ∃ file, contents row.docId = some file := by
    intro row among notStale
    rw [memStale, not_and] at notStale
    exact ne_none_iff_exists'.mp (notStale ⟨row, among, rfl⟩)
  -- a link row names the document that its uid belongs to
  have named : ∀ ref ∈ db.wikilinkRefs, ∀ row ∈ db.documents, row.noteUid = ref.sourceNoteUid →
      row.docId ∉ stale → ref.sourceDocId = row.docId := by
    intro ref isRef row among isUid notStale
    obtain ⟨file, isFile⟩ := fileOf row among notStale
    obtain ⟨-, -, links⟩ := rowOf row among file isFile
    have isOwn : ref ∈ db.wikilinkRefs.filter fun ref => ref.sourceNoteUid = row.noteUid :=
      mem_filter.mpr ⟨isRef, decide_eq_true isUid.symm⟩
    rw [links] at isOwn
    exact refRows_sourceDocId ref isOwn
  simp only [Search.removeStale, isStale, removeAll_eq kept.distinct]
  refine
    { distinct := kept.distinct.filter _
      below := fun row among => kept.below row (mem_of_mem_filter among)
      rows := ?_
      complete := ?_
      chunks := ?_
      links := ?_
      owned := ?_ }
  · intro row among
    obtain ⟨isRow, notStale⟩ := mem_filter.mp among
    obtain ⟨file, isFile⟩ := fileOf row isRow (of_decide_eq_true notStale)
    exact ⟨file, isFile, (rowOf row isRow file isFile).1⟩
  · intro path file isFile
    obtain ⟨row, among, isRow, -, -⟩ := stored path file isFile
    have isPath : row.docId = path := by rw [isRow]; rfl
    refine ⟨row, mem_filter.mpr ⟨among, decide_eq_true fun isStale => ?_⟩, isPath⟩
    rw [memStale, isPath, isFile] at isStale
    exact absurd isStale.2 (some_ne_none file)
  · intro path
    rw [List.filter_filter]
    cases isThere : contents path with
    | some file =>
      obtain ⟨row, among, isRow, chunks, -⟩ := stored path file isThere
      rw [Library.chunkRowsOf, elim_some, ← chunks]
      apply filter_congr
      intro chunk _
      by_cases same : chunk.docId = path
      · have notStale : path ∉ stale := by
          rw [memStale, isThere]
          exact fun isStale => absurd isStale.2 (some_ne_none file)
        simp [same, notStale]
      · simp [same]
    | none =>
      rw [Library.chunkRowsOf, elim_none, filter_eq_nil_iff]
      intro chunk among both
      obtain ⟨same, notStale⟩ := Bool.and_eq_true_iff.mp both
      have isPath : chunk.docId = path := of_decide_eq_true same
      rcases tidy.chunks chunk among with hasRow | isFile
      · exact of_decide_eq_true notStale ((memStale _).mpr ⟨hasRow, isPath ▸ isThere⟩)
      · rw [mem, isPath, isThere] at isFile
        cases isFile
  · intro path
    rw [List.filter_filter]
    cases isThere : contents path with
    | some file =>
      obtain ⟨row, among, isRow, -, links⟩ := stored path file isThere
      have isPath : row.docId = path := by rw [isRow]; rfl
      have notStale : row.docId ∉ stale := by
        rw [memStale, isPath, isThere]
        exact fun isStale => absurd isStale.2 (some_ne_none file)
      have isLinks : lib.wikilinkRefs file =
          ((lib.indexed none path file).refRows row.noteUid).map WikilinkRefRow.link := by
        rw [refRows_link]
        rfl
      rw [Library.wikilinksOf, elim_some, isLinks, ← links]
      congr 1
      apply filter_congr
      intro ref isRef
      rw [Bool.eq_iff_iff, Bool.and_eq_true, decide_eq_true_eq, decide_eq_true_eq,
        decide_eq_true_eq]
      constructor
      · rintro ⟨isSource, ofRows⟩
        obtain ⟨owner, isOwner, isUid⟩ := tidy.links ref isRef
        have isDocId := named ref isRef owner isOwner isUid (ofRows owner isOwner isUid)
        have same := kept.distinct.eq_of_docId isOwner among
          (isDocId.symm.trans (isSource.trans isPath.symm))
        rw [← same, isUid]
      · intro isUid
        refine ⟨(named ref isRef row among isUid.symm notStale).trans isPath, ?_⟩
        intro other isOther otherUid
        rw [kept.distinct.eq_of_noteUid isOther among (otherUid.trans isUid)]
        exact notStale
    | none =>
      rw [Library.wikilinksOf, elim_none, map_eq_nil_iff, filter_eq_nil_iff]
      intro ref isRef both
      obtain ⟨isSource, ofRows⟩ := Bool.and_eq_true_iff.mp both
      obtain ⟨owner, isOwner, isUid⟩ := tidy.links ref isRef
      have notStale := of_decide_eq_true ofRows owner isOwner isUid
      have isDocId := named ref isRef owner isOwner isUid notStale
      refine notStale ((memStale _).mpr ⟨⟨owner, isOwner, rfl⟩, ?_⟩)
      rw [← isDocId, of_decide_eq_true isSource, isThere]
  · intro ref among
    obtain ⟨isRef, ofRows⟩ := mem_filter.mp among
    obtain ⟨owner, isOwner, isUid⟩ := tidy.links ref isRef
    have notStale := of_decide_eq_true ofRows owner isOwner isUid
    exact ⟨owner, mem_filter.mpr ⟨isOwner, decide_eq_true notStale⟩, isUid,
      (named ref isRef owner isOwner isUid notStale).symm⟩

end Stale

/-! ## From any tables -/

section From

variable {lib : Library} {vault : Vault} {db : Db} {path docId : DocId} {uid : Nat}

theorem resolveAllWikilinks_documents : (resolveAllWikilinks lib db).documents = db.documents := rfl

variable {files : List DocId}

/-- What a rebuild ends with comes from the tables that its batches leave. -/
theorem docId_of_rebuilt (distinct : Distinct db.documents)
    (hasRow : HasRow (resolveAllWikilinks lib (removeStale db files)) docId) : HasRow db docId := by
  obtain ⟨row, among, isRow⟩ := hasRow
  rw [resolveAllWikilinks_documents, Search.removeStale, removeAll_eq distinct] at among
  exact ⟨row, mem_of_mem_filter among, isRow⟩

theorem OrphanLink.rebuilt (distinct : Distinct db.documents) (orphan : OrphanLink db uid) :
    OrphanLink (resolveAllWikilinks lib (removeStale db files)) uid := by
  obtain ⟨below, noRow, ref, isRef, isUid⟩ := orphan
  have isKept : ref ∈ (removeStale db files).wikilinkRefs := by
    rw [Search.removeStale, removeAll_eq distinct]
    refine mem_filter.mpr ⟨isRef, decide_eq_true fun row among sameUid => ?_⟩
    exact absurd (sameUid.trans isUid) (noRow row among)
  refine ⟨?_, fun row among => noRow row ?_, _, List.mem_map_of_mem isKept, ?_⟩
  · rw [Search.removeStale, removeAll_eq distinct]
    exact below
  · rw [resolveAllWikilinks_documents, Search.removeStale, removeAll_eq distinct] at among
    exact mem_of_mem_filter among
  · rw [if_pos rfl]
    exact isUid

theorem OrphanChunk.rebuilt (distinct : Distinct db.documents) (orphan : OrphanChunk db docId) :
    OrphanChunk (resolveAllWikilinks lib (removeStale db files)) docId := by
  obtain ⟨noRow, chunk, isChunk, isDocId⟩ := orphan
  refine ⟨fun hasRow => noRow (docId_of_rebuilt distinct hasRow), chunk, ?_, isDocId⟩
  change chunk ∈ (removeStale db files).chunkRows
  rw [Search.removeStale, removeAll_eq distinct]
  refine mem_filter.mpr ⟨isChunk, decide_eq_true fun isStale => noRow ?_⟩
  rw [isDocId] at isStale
  exact (mem_staleDocIds.mp isStale).1

theorem kept_batchesWritten (kept : Kept db) : Kept (batchesWritten lib vault db) :=
  (rebuild_induction (fun _ _ => True) (fun _ _ _ holds => holds) kept trivial).1

/-- Between two batches: the files of those written are stored, those of the `rest` get a row
each. -/
structure Rebuilding (lib : Library) (vault : Vault) (rest : List (List DocId)) (db : Db) :
    Prop where
  tidy : Tidy (rebuildBatches vault).flatten db
  clear : ∀ path ∈ (rebuildBatches vault).flatten, ∀ other ∈ (rebuildBatches vault).flatten,
    path ≠ other → Db.sameNocase path other = true → RowEach rest db path
  stored : ∃ done, done ++ rest.flatten = (rebuildBatches vault).flatten ∧
    ∀ path ∈ done, ∀ file, vault.listed path = some file → Stored lib path file db

theorem Rebuilding.step {docs : List IndexedDocument} {rest : List (List DocId)} (kept : Kept db)
    (isBatch : BatchOf lib vault.listed db docs)
    (within : ∀ doc ∈ docs, doc.docId ∈ (rebuildBatches vault).flatten)
    (rebuilding : Rebuilding lib vault (docs.map IndexedDocument.docId :: rest) db) :
    Rebuilding lib vault rest (writeBatch db docs) where
  tidy := isBatch.tidy kept rebuilding.tidy
  clear := fun path isFile other isOther differ same =>
    (rebuilding.clear path isFile other isOther differ same).step kept isBatch
  stored := by
    obtain ⟨done, split, stored⟩ := rebuilding.stored
    refine ⟨done ++ docs.map IndexedDocument.docId, by simpa using split, ?_⟩
    have unshared : Unshared (rebuildBatches vault).flatten db :=
      fun path isFile other isOther differ same =>
        (rebuilding.clear path isFile other isOther differ same).nocase
    refine isBatch.stored kept unshared within (fun path isDone => ?_) stored
    rw [← split]
    exact mem_append_left _ isDone

theorem indexes_of_clear (kept : Kept db) (tidy : Tidy (rebuildBatches vault).flatten db)
    (clear : CaseClear (rebuildBatches vault) db) :
    Indexes lib vault.listed (handleFullRebuild lib vault db) := by
  have start : Rebuilding lib vault (rebuildBatches vault) db :=
    ⟨tidy, clear, [], rfl, fun _ none => nomatch none⟩
  have run : Kept (batchesWritten lib vault db) ∧
      Rebuilding lib vault [] (batchesWritten lib vault db) :=
    rebuild_induction (Rebuilding lib vault) Rebuilding.step kept start
  obtain ⟨keptEnd, ending⟩ := run
  obtain ⟨done, isAll, stored⟩ := ending.stored
  rw [flatten_nil, append_nil] at isAll
  have mem : ∀ path, path ∈ vault.collectMarkdownFiles ↔ (vault.listed path).isSome :=
    fun _ => Vault.mem_collectMarkdownFiles
  have tidyEnd : Tidy vault.collectMarkdownFiles (batchesWritten lib vault db) := by
    refine ⟨fun chunk among => ?_, ending.tidy.links⟩
    rw [mem, ← mem_flatten_rebuildBatches]
    exact ending.tidy.chunks chunk among
  have holds : Holds lib vault.listed
      (removeStale (batchesWritten lib vault db) vault.collectMarkdownFiles) := by
    refine holds_removeStale keptEnd tidyEnd mem fun path file isFile => stored path ?_ file isFile
    rw [isAll, mem_flatten_rebuildBatches, isFile]
    rfl
  exact ⟨holds.resolveRows _, resolved_resolveRows⟩

/-- Orphans of the tables before the rebuild are there after it. -/
theorem tidy_of_indexes (kept : Kept db)
    (indexes : Indexes lib vault.listed (handleFullRebuild lib vault db)) :
    Tidy (rebuildBatches vault).flatten db := by
  have distinct : Distinct (batchesWritten lib vault db).documents :=
    (kept_batchesWritten kept).distinct
  refine ⟨fun chunk among => ?_, fun ref among => ?_⟩
  · by_contra isOrphan
    obtain ⟨noRow, noFile⟩ := not_or.mp isOrphan
    have run : Kept (batchesWritten lib vault db) ∧
        OrphanChunk (batchesWritten lib vault db) chunk.docId := by
      refine rebuild_induction (fun _ db => OrphanChunk db chunk.docId) ?_ kept
        ⟨noRow, chunk, among, rfl⟩
      intro db docs _ kept _ within orphan
      refine orphanChunk_writeBatch kept (fun doc isDoc same => noFile ?_) orphan
      rw [← same]
      exact within doc isDoc
    have rebuilt : OrphanChunk (handleFullRebuild lib vault db) chunk.docId :=
      run.2.rebuilt distinct
    obtain ⟨-, left, isLeft, isDocId⟩ := rebuilt
    have absent : vault.listed chunk.docId = none := by
      rw [← not_isSome_iff_eq_none, ← mem_flatten_rebuildBatches]
      exact noFile
    have chunks := indexes.holds.chunks chunk.docId
    rw [absent] at chunks
    exact filter_eq_nil_iff.mp chunks left isLeft (decide_eq_true isDocId)
  · by_contra noOwner
    push Not at noOwner
    have run : Kept (batchesWritten lib vault db) ∧
        OrphanLink (batchesWritten lib vault db) ref.sourceNoteUid :=
      rebuild_induction (fun _ db => OrphanLink db ref.sourceNoteUid)
        (fun kept isBatch _ orphan => orphanLink_writeBatch isBatch.built kept orphan) kept
        ⟨kept.refsBelow ref among, noOwner, ref, among, rfl⟩
    have rebuilt : OrphanLink (handleFullRebuild lib vault db) ref.sourceNoteUid :=
      run.2.rebuilt distinct
    obtain ⟨-, noRow, left, isLeft, isUid⟩ := rebuilt
    obtain ⟨row, isRow, rowUid, -⟩ := indexes.holds.owned left isLeft
    exact noRow row isRow (rowUid.trans isUid)

/-- Files that share a row before the rebuild lose one. -/
theorem clear_of_indexes (kept : Kept db)
    (indexes : Indexes lib vault.listed (handleFullRebuild lib vault db)) :
    CaseClear (rebuildBatches vault) db := by
  intro path isFile other isOther differ same
  by_contra shared
  have run : Kept (batchesWritten lib vault db) ∧ ¬ RowEach [] (batchesWritten lib vault db) path :=
    rebuild_induction (fun rest db => ¬ RowEach rest db path)
      (fun kept isBatch _ => not_rowEach_step kept isBatch) kept shared
  obtain ⟨keptEnd, shares⟩ := run
  have rowOf : ∀ docId ∈ (rebuildBatches vault).flatten,
      HasRow (batchesWritten lib vault db) docId := by
    intro docId isDoc
    obtain ⟨file, isThere⟩ := isSome_iff_exists.mp (mem_flatten_rebuildBatches.mp isDoc)
    exact docId_of_rebuilt keptEnd.distinct (indexes.holds.complete docId file isThere)
  exact shares (.inl (two_le_variants keptEnd.distinct differ (rowOf path isFile)
    (rowOf other isOther) sameNocase_self (sameNocase_symm same)))

/-- **Which tables a rebuild turns into the index** of what the vault lists. -/
theorem indexes_rebuild_iff (kept : Kept db) :
    Indexes lib vault.listed (handleFullRebuild lib vault db) ↔
      Tidy (rebuildBatches vault).flatten db ∧ CaseClear (rebuildBatches vault) db :=
  ⟨fun indexes => ⟨tidy_of_indexes kept indexes, clear_of_indexes kept indexes⟩,
    fun both => indexes_of_clear kept both.1 both.2⟩

end From

/-! ## From empty tables -/

section Empty

variable {lib : Library} {vault : Vault}

/-- No file of a batch has exactly one case variant among the batches before it. -/
def BatchesClear (vault : Vault) : Prop :=
  ∀ earlier batch later, rebuildBatches vault = earlier ++ batch :: later → ∀ path ∈ batch,
    (earlier.flatten.filter fun docId => Db.sameNocase docId path).length ≠ 1

/-- A vault whose files fit into one batch. -/
theorem batchesClear_of_short (short : (rebuildBatches vault).length ≤ 1) : BatchesClear vault := by
  intro earlier batch later isSplit path _
  have noEarlier : earlier = [] := by
    rw [isSplit, length_append, length_cons] at short
    exact length_eq_zero_iff.mp (by omega)
  rw [noEarlier]
  exact Nat.zero_ne_one

theorem kept_empty : Kept {} where
  distinct := List.Pairwise.nil
  below := fun _ none => nomatch none
  refsBelow := fun _ none => nomatch none

section Clear

variable {batches : List (List DocId)} {path other : DocId}

/-- Once the batches before hold one variant of a path, no later one has another. -/
theorem noVariant_of_one
    (clear : ∀ earlier batch later, batches = earlier ++ batch :: later → ∀ path ∈ batch,
      (earlier.flatten.filter fun docId => Db.sameNocase docId path).length ≠ 1) :
    ∀ {later earlier : List (List DocId)}, batches = earlier ++ later →
      (earlier.flatten.filter fun docId => Db.sameNocase docId path).length = 1 →
      ∀ docId ∈ later.flatten, ¬ Db.sameNocase docId path = true := by
  intro later
  induction later with
  | nil => exact fun _ _ _ none => nomatch none
  | cons batch rest ih =>
    intro earlier split one
    have none : ∀ docId ∈ batch, ¬ Db.sameNocase docId path = true := by
      intro docId among same
      refine clear earlier batch rest split docId among ?_
      rw [← one]
      congr 1
      apply filter_congr
      intro found _
      exact Bool.eq_iff_iff.mpr ⟨fun isOne => sameNocase_trans isOne same,
        fun isOne => sameNocase_trans isOne (sameNocase_symm same)⟩
    have stillOne : ((earlier ++ [batch]).flatten.filter fun docId =>
        Db.sameNocase docId path).length = 1 := by
      simp only [flatten_append, flatten_singleton, filter_append,
        filter_eq_nil_iff.mpr none, append_nil, one]
    intro docId among
    rw [flatten_cons, mem_append] at among
    rcases among with inBatch | later
    · exact none docId inBatch
    · exact ih (by simpa using split) stillOne docId later

theorem sharesFirstBatch_of_clear
    (clear : ∀ earlier batch later, batches = earlier ++ batch :: later → ∀ path ∈ batch,
      (earlier.flatten.filter fun docId => Db.sameNocase docId path).length ≠ 1)
    (differ : path ≠ other) (same : Db.sameNocase other path = true) :
    ∀ {later earlier : List (List DocId)}, batches = earlier ++ later →
      earlier.flatten.filter (fun docId => Db.sameNocase docId path) = [] →
      path ∈ later.flatten → other ∈ later.flatten → sharesFirstBatch later path = true := by
  intro later
  induction later with
  | nil => exact fun _ _ none => nomatch none
  | cons batch rest ih =>
    intro earlier split none isPath isOther
    have regrouped : batches = (earlier ++ [batch]) ++ rest := by simp [split]
    have counted : (earlier ++ [batch]).flatten.filter (fun docId => Db.sameNocase docId path) =
        batch.filter fun docId => Db.sameNocase docId path := by
      simp [none]
    rw [flatten_cons, mem_append] at isPath isOther
    rw [sharesFirstBatch_cons]
    split
    · rename_i some
      rw [decide_eq_true_eq]
      by_contra few
      obtain ⟨docId, among, isVariant⟩ := List.any_eq_true.mp some
      have isIn : docId ∈ batch.filter fun docId => Db.sameNocase docId path :=
        mem_filter.mpr ⟨among, isVariant⟩
      have positive := length_pos_of_mem isIn
      have alone := noVariant_of_one clear regrouped (by rw [counted]; omega)
      have inBatch : path ∈ batch ∧ other ∈ batch :=
        ⟨isPath.resolve_right fun later => alone path later sameNocase_self,
          isOther.resolve_right fun later => alone other later same⟩
      have short : (batch.filter fun docId => Db.sameNocase docId path).length ≤ 1 := by omega
      exact differ (eq_of_length_le_one short
        (mem_filter.mpr ⟨inBatch.1, sameNocase_self⟩)
        (mem_filter.mpr ⟨inBatch.2, same⟩))
    · rename_i noVariant
      have absent : ∀ docId ∈ batch, ¬ Db.sameNocase docId path = true :=
        fun docId among isVariant =>
          noVariant (List.any_eq_true.mpr ⟨docId, among, isVariant⟩)
      refine ih regrouped (counted.trans (filter_eq_nil_iff.mpr absent)) ?_ ?_
      · exact isPath.resolve_left fun here => absent path here sameNocase_self
      · exact isOther.resolve_left fun here => absent other here same

end Clear

/-- **A rebuild of an empty database** indexes what the vault lists. -/
theorem indexes_rebuild (clear : BatchesClear vault) :
    Indexes lib vault.listed (handleFullRebuild lib vault {}) := by
  refine indexes_of_clear kept_empty ⟨fun _ none => (nomatch none), fun _ none => (nomatch none)⟩ ?_
  intro path isFile other isOther differ same
  exact .inr ⟨rfl, sharesFirstBatch_of_clear clear differ (sameNocase_symm same)
    (nil_append _).symm rfl isFile isOther⟩

end Empty

end Kuku.Search
