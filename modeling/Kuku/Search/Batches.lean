/-
# Search.Batches -- a batch of a rebuild over tables of any content

The documents of a batch are built against the tables before it and then written one by one.
Here those tables hold anything that their constraints allow (`Kept`), not the contents of
files: `Writing` says where each row comes from after some of the documents, and what follows
is said of the case variants of a path, since a document without a row takes the row of its
only variant.
-/
import Kuku.Search.Handlers

namespace Kuku.Search

open Kuku.Theory List

/-- The constraints of the tables; AUTOINCREMENT gives no uid that a link row has. -/
structure Kept (db : Db) : Prop where
  distinct : Distinct db.documents
  below : ∀ row ∈ db.documents, row.noteUid < db.nextUid
  refsBelow : ∀ ref ∈ db.wikilinkRefs, ref.sourceNoteUid < db.nextUid

/-- The document was built against `db`. -/
def BuiltOn (db : Db) (doc : IndexedDocument) : Prop := doc.noteUid = existingNoteUid db doc.docId

/-- The rows of a path and its case variants. -/
def variants (db : Db) (path : DocId) : List DocumentRow :=
  db.documents.filter fun row => Db.sameNocase row.docId path

def HasRow (db : Db) (path : DocId) : Prop := ∃ row ∈ db.documents, row.docId = path

section Lookups

variable {db : Db} {path other third : DocId} {row : DocumentRow} {uid : Nat}

theorem sameNocase_iff : Db.sameNocase path other = true ↔
    path.map Text.asciiLowerChar = other.map Text.asciiLowerChar := by
  simp [Db.sameNocase]

theorem sameNocase_self : Db.sameNocase path path = true := sameNocase_iff.mpr rfl

theorem sameNocase_symm (same : Db.sameNocase path other = true) :
    Db.sameNocase other path = true :=
  sameNocase_iff.mpr (sameNocase_iff.mp same).symm

theorem sameNocase_trans (first : Db.sameNocase path other = true)
    (second : Db.sameNocase other third = true) : Db.sameNocase path third = true :=
  sameNocase_iff.mpr ((sameNocase_iff.mp first).trans (sameNocase_iff.mp second))

theorem mem_variants :
    row ∈ variants db path ↔ row ∈ db.documents ∧ Db.sameNocase row.docId path = true := by
  simp [variants]

theorem variants_congr (same : Db.sameNocase path other = true) :
    variants db path = variants db other := by
  apply filter_congr
  intro row _
  apply Bool.eq_iff_iff.mpr
  exact ⟨fun isOne => sameNocase_trans isOne same,
    fun isOne => sameNocase_trans isOne (sameNocase_symm same)⟩

theorem nocase_eq : db.findNoteUidByDocIdNocase path =
    match variants db path with
    | [row] => some row.noteUid
    | _ => none := rfl

theorem nocase_congr (same : Db.sameNocase path other = true) :
    db.findNoteUidByDocIdNocase path = db.findNoteUidByDocIdNocase other := by
  rw [nocase_eq, nocase_eq, variants_congr same]

theorem nocase_eq_none : db.findNoteUidByDocIdNocase path = none ↔
    (variants db path).length ≠ 1 := by
  rw [nocase_eq]
  split
  · rename_i row isSingle
    simp [isSingle]
  · rename_i several
    refine iff_of_true rfl fun isOne => ?_
    obtain ⟨row, isSingle⟩ := length_eq_one_iff.mp isOne
    exact several row isSingle

theorem nocase_eq_some : db.findNoteUidByDocIdNocase path = some uid ↔
    ∃ row, variants db path = [row] ∧ row.noteUid = uid := by
  rw [nocase_eq]
  split
  · rename_i row isSingle
    simp [isSingle]
  · rename_i several
    constructor
    · intro isUid
      cases isUid
    · rintro ⟨row, isSingle, -⟩
      exact absurd isSingle (several row)

variable (distinct : Distinct db.documents)

include distinct

/-- The uid of a row of the path or of its only variant. -/
theorem row_of_existing (isUid : existingNoteUid db path = some uid) :
    ∃ row ∈ db.documents, row.noteUid = uid ∧ Db.sameNocase row.docId path = true ∧
      (db.findNoteUidByDocIdNocase path = none → row.docId = path) := by
  rcases Option.or_eq_some_iff.mp isUid with own | ⟨-, single⟩
  · obtain ⟨row, among, rfl, hasUid⟩ := (findNoteUidByDocId_eq distinct).mp own
    exact ⟨row, among, hasUid, sameNocase_self, fun _ => rfl⟩
  · obtain ⟨row, isSingle, hasUid⟩ := nocase_eq_some.mp single
    have isVariant : row ∈ variants db path := isSingle ▸ mem_singleton_self row
    obtain ⟨among, same⟩ := mem_variants.mp isVariant
    refine ⟨row, among, hasUid, same, fun none => ?_⟩
    rw [single] at none
    cases none

theorem existing_of_row (among : row ∈ db.documents) :
    existingNoteUid db row.docId = some row.noteUid := by
  rw [existingNoteUid, (findNoteUidByDocId_eq distinct).mpr ⟨row, among, rfl, rfl⟩]
  rfl

/-- Every variant of a path with one row is written over that row. -/
theorem existing_of_single (single : db.findNoteUidByDocIdNocase path = some uid)
    (same : Db.sameNocase other path = true) : existingNoteUid db other = some uid := by
  rw [existingNoteUid]
  cases own : db.findNoteUidByDocId other with
  | none => rw [nocase_congr same, single]; rfl
  | some ownUid =>
    obtain ⟨row, among, rfl, hasUid⟩ := (findNoteUidByDocId_eq distinct).mp own
    obtain ⟨only, isSingle, onlyUid⟩ := nocase_eq_some.mp single
    have isVariant : row ∈ variants db path := mem_variants.mpr ⟨among, same⟩
    rw [isSingle, mem_singleton] at isVariant
    rw [← hasUid, isVariant, onlyUid]
    rfl

end Lookups

/-! ## Where the rows come from -/

/-- The tables `db'` once the documents `prior`, all built against `db`, are written. -/
structure Writing (db : Db) (prior : List IndexedDocument) (db' : Db) : Prop where
  kept : Kept db'
  later : db.nextUid ≤ db'.nextUid
  origin : ∀ row ∈ db'.documents, row ∈ db.documents ∨
    ∃ doc ∈ prior, row.docId = doc.docId ∧
      (doc.noteUid = some row.noteUid ∨ db.nextUid ≤ row.noteUid)

section Write

variable {db db' : Db} {prior docs : List IndexedDocument} {doc : IndexedDocument}
  {row : DocumentRow} {path : DocId} {uid : Nat}

theorem replaceDocument_uid : (db.replaceDocument doc).2 = doc.noteUid.getD db.nextUid := by
  unfold Db.replaceDocument
  cases doc.noteUid <;> rfl

theorem nextUid_replaceDocument : db.nextUid ≤ (db.replaceDocument doc).1.nextUid := by
  unfold Db.replaceDocument
  cases doc.noteUid with
  | some noteUid => exact le_max_left _ _
  | none => exact Nat.le_succ _

theorem mem_wikilinkRefs_replaceDocument {ref : WikilinkRefRow}
    (among : ref ∈ (db.replaceDocument doc).1.wikilinkRefs) :
    ref ∈ doc.refRows (db.replaceDocument doc).2 ∨
      ref ∈ db.wikilinkRefs ∧ some ref.sourceNoteUid ≠ doc.noteUid := by
  revert among
  unfold Db.replaceDocument
  cases doc.noteUid with
  | some noteUid =>
    simp only [mem_append, mem_filter, decide_eq_true_eq]
    rintro (⟨earlier, other⟩ | isNew)
    · exact .inr ⟨earlier, fun same => other (Option.some.inj same)⟩
    · exact .inl isNew
  | none =>
    simp only [mem_append]
    rintro (earlier | isNew)
    · exact .inr ⟨earlier, Option.some_ne_none _⟩
    · exact .inl isNew

theorem sourceNoteUid_refRows {ref : WikilinkRefRow} (among : ref ∈ doc.refRows uid) :
    ref.sourceNoteUid = uid := by
  obtain ⟨link, -, rfl⟩ := mem_map.mp among
  rfl

theorem replaceDocument_uid_lt : (db.replaceDocument doc).2 < (db.replaceDocument doc).1.nextUid := by
  unfold Db.replaceDocument
  cases doc.noteUid with
  | some noteUid => exact lt_of_lt_of_le (Nat.lt_succ_self _) (le_max_right _ _)
  | none => exact Nat.lt_succ_self _

theorem Kept.replace (kept : Kept db) : Kept (db.replaceDocument doc).1 where
  distinct := distinct_replaceDocument kept.distinct kept.below
  below := below_replaceDocument kept.below
  refsBelow := by
    intro ref among
    rcases mem_wikilinkRefs_replaceDocument among with isNew | ⟨earlier, -⟩
    · rw [sourceNoteUid_refRows isNew]
      exact replaceDocument_uid_lt
    · exact lt_of_lt_of_le (kept.refsBelow ref earlier) nextUid_replaceDocument

theorem Writing.refl (kept : Kept db) : Writing db [] db where
  kept
  later := le_rfl
  origin := fun _ among => .inl among

theorem Writing.replace (writing : Writing db prior db') :
    Writing db (prior ++ [doc]) (db'.replaceDocument doc).1 where
  kept := writing.kept.replace
  later := writing.later.trans nextUid_replaceDocument
  origin := by
    intro row among
    rcases (mem_documents_replaceDocument writing.kept.below).mp among with
      rfl | ⟨earlier, -, -⟩
    · refine .inr ⟨doc, by simp, rfl, ?_⟩
      simp only [IndexedDocument.row, replaceDocument_uid]
      cases doc.noteUid with
      | some noteUid => exact .inl rfl
      | none => exact .inr writing.later
    · rcases writing.origin row earlier with isOld | ⟨other, isPrior, isDocId, isUid⟩
      · exact .inl isOld
      · exact .inr ⟨other, mem_append_left _ isPrior, isDocId, isUid⟩

theorem writeBatch_concat :
    writeBatch db (prior ++ [doc]) = ((writeBatch db prior).replaceDocument doc).1 := by
  simp [writeBatch]

theorem writing_writeBatch (kept : Kept db) (prior : List IndexedDocument) :
    Writing db prior (writeBatch db prior) := by
  induction prior using List.reverseRecOn with
  | nil => exact .refl kept
  | append_singleton prior doc ih =>
    rw [writeBatch_concat]
    exact ih.replace

variable (writing : Writing db prior db')

include writing

/-- A row that the next document is written over: its uid was looked up before the batch. -/
theorem Writing.clash (kept : Kept db) (built : ∀ doc ∈ prior, BuiltOn db doc)
    (isBuilt : BuiltOn db doc) (among : row ∈ db'.documents)
    (same : row.noteUid = (db'.replaceDocument doc).2) :
    existingNoteUid db doc.docId = some row.noteUid ∧
      existingNoteUid db row.docId = some row.noteUid := by
  have isUid : doc.noteUid = some row.noteUid := by
    rw [replaceDocument_uid] at same
    cases hasUid : doc.noteUid with
    | some noteUid =>
      rw [hasUid] at same
      exact congrArg some same.symm
    | none =>
      rw [hasUid] at same
      exact absurd same (writing.kept.below row among).ne
  have looked : existingNoteUid db doc.docId = some row.noteUid := isBuilt ▸ isUid
  refine ⟨looked, ?_⟩
  obtain ⟨source, isSource, sourceUid, -, -⟩ := row_of_existing kept.distinct looked
  rcases writing.origin row among with isOld | ⟨other, isPrior, isDocId, otherUid | fresh⟩
  · exact existing_of_row kept.distinct isOld
  · rw [isDocId, ← built other isPrior, otherUid]
  · have old := kept.below source isSource
    omega

theorem Writing.clash_variant (kept : Kept db) (built : ∀ doc ∈ prior, BuiltOn db doc)
    (isBuilt : BuiltOn db doc) (among : row ∈ db'.documents)
    (same : row.noteUid = (db'.replaceDocument doc).2) :
    Db.sameNocase row.docId doc.docId = true := by
  obtain ⟨ofDoc, ofRow⟩ := writing.clash kept built isBuilt among same
  obtain ⟨source, isSource, sourceUid, isVariant, -⟩ := row_of_existing kept.distinct ofDoc
  obtain ⟨source', isSource', sourceUid', isVariant', -⟩ := row_of_existing kept.distinct ofRow
  have isIt := kept.distinct.eq_of_noteUid isSource isSource' (sourceUid.trans sourceUid'.symm)
  exact sameNocase_trans (sameNocase_symm isVariant') (isIt ▸ isVariant)

/-- It is the document's own row, unless there is one variant to take over. -/
theorem Writing.clash_own (kept : Kept db) (built : ∀ doc ∈ prior, BuiltOn db doc)
    (isBuilt : BuiltOn db doc) (among : row ∈ db'.documents)
    (same : row.noteUid = (db'.replaceDocument doc).2)
    (none : db.findNoteUidByDocIdNocase doc.docId = none) : row.docId = doc.docId := by
  obtain ⟨ofDoc, ofRow⟩ := writing.clash kept built isBuilt among same
  have isVariant := writing.clash_variant kept built isBuilt among same
  obtain ⟨source, isSource, sourceUid, -, own⟩ := row_of_existing kept.distinct ofDoc
  obtain ⟨source', isSource', sourceUid', -, own'⟩ := row_of_existing kept.distinct ofRow
  have isIt := kept.distinct.eq_of_noteUid isSource isSource' (sourceUid.trans sourceUid'.symm)
  have none' : db.findNoteUidByDocIdNocase row.docId = Option.none :=
    (nocase_congr isVariant).trans none
  rw [← own none, ← own' none', isIt]

/-- A row of the path of the next document is the row that it is written over. -/
theorem Writing.own_uid (kept : Kept db) (isBuilt : BuiltOn db doc)
    (isNew : doc.docId ∉ prior.map IndexedDocument.docId) (among : row ∈ db'.documents)
    (same : row.docId = doc.docId) :
    doc.noteUid = some row.noteUid := by
  rcases writing.origin row among with isOld | ⟨other, isPrior, isDocId, -⟩
  · rw [isBuilt, ← same]
    exact existing_of_row kept.distinct isOld
  · have again : doc.docId ∈ prior.map IndexedDocument.docId :=
      (isDocId.symm.trans same) ▸ mem_map_of_mem isPrior
    exact absurd again isNew

end Write

/-! ## The case variants after a batch -/

section Variants

variable {db : Db} {docs : List IndexedDocument} {path docId : DocId} {uid : Nat}

theorem hasRow_concat (kept : Kept db) {doc : IndexedDocument} :
    HasRow (writeBatch db (docs ++ [doc])) docId ↔ docId = doc.docId ∨
      ∃ row ∈ (writeBatch db docs).documents, row.docId = docId ∧ docId ≠ doc.docId ∧
        row.noteUid ≠ ((writeBatch db docs).replaceDocument doc).2 := by
  have below := (writing_writeBatch kept docs).kept.below
  rw [writeBatch_concat]
  constructor
  · rintro ⟨row, among, rfl⟩
    rcases (mem_documents_replaceDocument below).mp among with rfl | ⟨earlier, elsewhere, other⟩
    · exact .inl rfl
    · exact .inr ⟨row, earlier, rfl, elsewhere, other⟩
  · rintro (rfl | ⟨row, earlier, rfl, elsewhere, other⟩)
    · exact ⟨_, (mem_documents_replaceDocument below).mpr (.inl rfl), rfl⟩
    · exact ⟨row, (mem_documents_replaceDocument below).mpr (.inr ⟨earlier, elsewhere, other⟩), rfl⟩

/-- Unless the path has one variant, its variants get a row each and none loses its row. -/
theorem hasRow_writeBatch (kept : Kept db) (built : ∀ doc ∈ docs, BuiltOn db doc)
    (none : db.findNoteUidByDocIdNocase path = none) (same : Db.sameNocase docId path = true) :
    HasRow (writeBatch db docs) docId ↔
      HasRow db docId ∨ docId ∈ docs.map IndexedDocument.docId := by
  induction docs using List.reverseRecOn with
  | nil => simp [writeBatch]
  | append_singleton prior doc ih =>
    have prebuilt : ∀ doc ∈ prior, BuiltOn db doc :=
      fun other isPrior => built other (mem_append_left _ isPrior)
    have before := ih prebuilt
    have writing := writing_writeBatch kept prior
    have isBuilt := built doc (by simp)
    rw [hasRow_concat kept, map_append, mem_append, ← or_assoc, ← before]
    constructor
    · rintro (rfl | ⟨row, among, isDocId, -, -⟩)
      · exact .inr (by simp)
      · exact .inl ⟨row, among, isDocId⟩
    · rintro (⟨row, among, rfl⟩ | isLast)
      · by_cases isIt : row.docId = doc.docId
        · exact .inl isIt
        · refine .inr ⟨row, among, rfl, isIt, fun clash => isIt ?_⟩
          have isVariant := writing.clash_variant kept prebuilt isBuilt among clash
          exact writing.clash_own kept prebuilt isBuilt among clash
            ((nocase_congr (sameNocase_trans (sameNocase_symm isVariant) same)).trans none)
      · exact .inl (by simpa using isLast)

theorem hasRow_writeBatch_of_other (kept : Kept db) (built : ∀ doc ∈ docs, BuiltOn db doc)
    (other : ∀ doc ∈ docs, ¬ Db.sameNocase doc.docId docId = true) :
    HasRow (writeBatch db docs) docId ↔ HasRow db docId := by
  induction docs using List.reverseRecOn with
  | nil => rfl
  | append_singleton prior doc ih =>
    have prebuilt : ∀ doc ∈ prior, BuiltOn db doc :=
      fun other isPrior => built other (mem_append_left _ isPrior)
    have writing := writing_writeBatch kept prior
    have isOther := other doc (by simp)
    have elsewhere : docId ≠ doc.docId := fun same => isOther (same ▸ sameNocase_self)
    rw [hasRow_concat kept, ← ih prebuilt fun doc isPrior => other doc (mem_append_left _ isPrior)]
    constructor
    · rintro (same | ⟨row, among, isDocId, -, -⟩)
      · exact absurd same elsewhere
      · exact ⟨row, among, isDocId⟩
    · rintro ⟨row, among, rfl⟩
      refine .inr ⟨row, among, rfl, elsewhere, fun clash => isOther ?_⟩
      exact sameNocase_symm (writing.clash_variant kept prebuilt (built doc (by simp)) among clash)

theorem eq_of_length_le_one {α : Type} {items : List α} (short : items.length ≤ 1) {a b : α}
    (first : a ∈ items) (second : b ∈ items) : a = b := by
  match items, short with
  | [], _ => cases first
  | [only], _ => rw [mem_singleton.mp first, mem_singleton.mp second]

theorem length_variants_le_one (distinct : Distinct db.documents) :
    (variants db path).length ≤ 1 ↔ ∀ a b, HasRow db a → HasRow db b →
      Db.sameNocase a path = true → Db.sameNocase b path = true → a = b := by
  constructor
  · rintro short a b ⟨row, among, rfl⟩ ⟨row', among', rfl⟩ isVariant isVariant'
    have first : row ∈ variants db path := mem_variants.mpr ⟨among, isVariant⟩
    have second : row' ∈ variants db path := mem_variants.mpr ⟨among', isVariant'⟩
    rw [eq_of_length_le_one short first second]
  · intro unique
    have nodup : (variants db path).Nodup :=
      (distinct.filter _).imp fun differ same => differ.1 (congrArg DocumentRow.docId same)
    match isList : variants db path with
    | [] => exact Nat.zero_le 1
    | [_] => exact le_rfl
    | row :: row' :: rest =>
      have first : row ∈ variants db path := by simp [isList]
      have second : row' ∈ variants db path := by simp [isList]
      obtain ⟨among, isVariant⟩ := mem_variants.mp first
      obtain ⟨among', isVariant'⟩ := mem_variants.mp second
      have same := distinct.eq_of_docId among among'
        (unique _ _ ⟨row, among, rfl⟩ ⟨row', among', rfl⟩ isVariant isVariant')
      rw [isList, same] at nodup
      simp at nodup

theorem variants_eq_nil : variants db path = [] ↔
    ∀ docId, Db.sameNocase docId path = true → ¬ HasRow db docId := by
  simp only [variants, filter_eq_nil_iff, HasRow]
  constructor
  · rintro none docId same ⟨row, among, rfl⟩
    exact none row among same
  · intro none row among same
    exact none row.docId same ⟨row, among, rfl⟩

/-- The one row of a path and its variants stays the only one. -/
theorem single_writeBatch (kept : Kept db) (built : ∀ doc ∈ docs, BuiltOn db doc)
    (single : db.findNoteUidByDocIdNocase path = some uid) :
    (∃ row ∈ (writeBatch db docs).documents, Db.sameNocase row.docId path = true) ∧
      ∀ row ∈ (writeBatch db docs).documents, Db.sameNocase row.docId path = true →
        row.noteUid = uid := by
  induction docs using List.reverseRecOn with
  | nil =>
    obtain ⟨only, isSingle, onlyUid⟩ := nocase_eq_some.mp single
    have isVariant : only ∈ variants db path := isSingle ▸ mem_singleton_self only
    obtain ⟨among, same⟩ := mem_variants.mp isVariant
    refine ⟨⟨only, among, same⟩, fun row isRow isOne => ?_⟩
    have isOnly : row ∈ variants db path := mem_variants.mpr ⟨isRow, isOne⟩
    rw [isSingle, mem_singleton] at isOnly
    rw [isOnly, onlyUid]
  | append_singleton prior doc ih =>
    have prebuilt : ∀ doc ∈ prior, BuiltOn db doc :=
      fun other isPrior => built other (mem_append_left _ isPrior)
    have writing := writing_writeBatch kept prior
    have isBuilt := built doc (by simp)
    obtain ⟨⟨old, isOld, oldVariant⟩, unique⟩ := ih prebuilt
    rw [writeBatch_concat]
    have mem : ∀ row, row ∈ ((writeBatch db prior).replaceDocument doc).1.documents ↔
        row = doc.row ((writeBatch db prior).replaceDocument doc).2 ∨
          row ∈ (writeBatch db prior).documents ∧ row.docId ≠ doc.docId ∧
            row.noteUid ≠ ((writeBatch db prior).replaceDocument doc).2 :=
      fun _ => mem_documents_replaceDocument writing.kept.below
    by_cases isVariant : Db.sameNocase doc.docId path = true
    · -- the document takes the row
      have isUid : ((writeBatch db prior).replaceDocument doc).2 = uid := by
        rw [replaceDocument_uid, isBuilt, existing_of_single kept.distinct single isVariant]
        rfl
      refine ⟨⟨_, (mem _).mpr (.inl rfl), isVariant⟩, fun row among isOne => ?_⟩
      rcases (mem row).mp among with rfl | ⟨earlier, -, other⟩
      · exact isUid
      · exact absurd (isUid ▸ unique row earlier isOne) other
    · have stays : ∀ row ∈ (writeBatch db prior).documents,
          Db.sameNocase row.docId path = true →
          row ∈ ((writeBatch db prior).replaceDocument doc).1.documents := by
        intro row among isOne
        refine (mem row).mpr (.inr ⟨among, fun same => isVariant (same ▸ isOne), ?_⟩)
        intro clash
        have same := writing.clash_variant kept prebuilt isBuilt among clash
        exact isVariant (sameNocase_trans (sameNocase_symm same) isOne)
      refine ⟨⟨old, stays old isOld oldVariant, oldVariant⟩, fun row among isOne => ?_⟩
      rcases (mem row).mp among with rfl | ⟨earlier, -, -⟩
      · exact absurd isOne isVariant
      · exact unique row earlier isOne

theorem nocase_writeBatch_of_single (kept : Kept db) (built : ∀ doc ∈ docs, BuiltOn db doc)
    (single : db.findNoteUidByDocIdNocase path = some uid) :
    (writeBatch db docs).findNoteUidByDocIdNocase path = some uid := by
  obtain ⟨⟨row, among, isVariant⟩, unique⟩ := single_writeBatch kept built single
  have distinct := (writing_writeBatch kept docs).kept.distinct
  have short : (variants (writeBatch db docs) path).length ≤ 1 := by
    rw [length_variants_le_one distinct]
    rintro a b ⟨first, isFirst, rfl⟩ ⟨second, isSecond, rfl⟩ firstVariant secondVariant
    have sameUid := (unique first isFirst firstVariant).trans
      (unique second isSecond secondVariant).symm
    rw [distinct.eq_of_noteUid isFirst isSecond sameUid]
  have isThere : row ∈ variants (writeBatch db docs) path := mem_variants.mpr ⟨among, isVariant⟩
  match isList : variants (writeBatch db docs) path, short with
  | [], _ => rw [isList] at isThere; cases isThere
  | [only], _ =>
    rw [isList, mem_singleton] at isThere
    exact nocase_eq_some.mpr ⟨only, isList, isThere ▸ unique row among isVariant⟩

end Variants

/-! ## The rows of the documents written -/

/-- The rows of the path are those of its file, its links not resolved yet. -/
def Stored (lib : Library) (path : DocId) (file : File) (db : Db) : Prop :=
  ∃ row ∈ db.documents, row = (lib.indexed none path file).row row.noteUid ∧
    db.chunkRows.filter (fun chunk => chunk.docId = path) = (lib.indexed none path file).chunkRows ∧
    db.wikilinkRefs.filter (fun ref => ref.sourceNoteUid = row.noteUid) =
      (lib.indexed none path file).refRows row.noteUid

/-- No chunk and no link is left of a document that is gone, but for those of a file that a
rebuild collects. -/
structure Tidy (files : List DocId) (db : Db) : Prop where
  chunks : ∀ chunk ∈ db.chunkRows, HasRow db chunk.docId ∨ chunk.docId ∈ files
  links : ∀ ref ∈ db.wikilinkRefs, ∃ row ∈ db.documents, row.noteUid = ref.sourceNoteUid

section Stored

variable {lib : Library} {db : Db} {doc : IndexedDocument} {docs : List IndexedDocument}
  {files : List DocId} {path docId : DocId} {file : File} {uid : Nat}

theorem mem_chunkRows_replaceDocument {chunk : ChunkRow}
    (among : chunk ∈ (db.replaceDocument doc).1.chunkRows) :
    chunk ∈ doc.chunkRows ∨ chunk ∈ db.chunkRows ∧ chunk.docId ≠ doc.docId ∧
      ∀ row ∈ db.documents, row.docId = chunk.docId → some row.noteUid ≠ doc.noteUid := by
  revert among
  unfold Db.replaceDocument
  cases doc.noteUid with
  | some noteUid =>
    simp only [mem_append, mem_filter, Bool.not_eq_true', Bool.or_eq_false_iff,
      decide_eq_false_iff_not, mem_map, not_exists, not_and]
    rintro (⟨earlier, elsewhere, notMoved⟩ | isNew)
    · refine .inr ⟨earlier, elsewhere, fun row among isDocId sameUid => ?_⟩
      exact notMoved row ⟨among, decide_eq_true (Option.some.inj sameUid)⟩ isDocId
    · exact .inl isNew
  | none =>
    simp only [mem_append, mem_filter, decide_eq_true_eq]
    rintro (⟨earlier, elsewhere⟩ | isNew)
    · exact .inr ⟨earlier, elsewhere, fun _ _ _ => Option.some_ne_none _⟩
    · exact .inl isNew

/-- The chunks of a path whose row is left alone. -/
theorem chunkRows_replaceDocument_of_ne (elsewhere : docId ≠ doc.docId)
    (other : ∀ row ∈ db.documents, row.docId = docId → some row.noteUid ≠ doc.noteUid) :
    (db.replaceDocument doc).1.chunkRows.filter (fun chunk => chunk.docId = docId) =
      db.chunkRows.filter fun chunk => chunk.docId = docId := by
  have noNew : doc.chunkRows.filter (fun chunk => chunk.docId = docId) = [] := by
    rw [filter_eq_nil_iff]
    intro chunk among same
    exact elsewhere ((of_decide_eq_true same).symm.trans (chunkRows_docId chunk among))
  unfold Db.replaceDocument
  cases isUid : doc.noteUid with
  | some noteUid =>
    simp only [filter_append, noNew, append_nil, filter_filter]
    apply filter_congr
    intro chunk _
    by_cases same : chunk.docId = docId
    · have notMoved : chunk.docId ∉ (db.documents.filter fun row => row.noteUid = noteUid).map
          DocumentRow.docId := by
        intro isMoved
        obtain ⟨row, among, isDocId⟩ := mem_map.mp isMoved
        obtain ⟨isRow, hasUid⟩ := mem_filter.mp among
        have differ := other row isRow (isDocId.trans same)
        rw [isUid, of_decide_eq_true hasUid] at differ
        exact differ rfl
      have notHere : chunk.docId ≠ doc.docId := same ▸ elsewhere
      simp [notMoved, notHere]
    · simp [same]
  | none =>
    simp only [filter_append, noNew, append_nil, filter_filter]
    apply filter_congr
    intro chunk _
    by_cases same : chunk.docId = docId
    · have notHere : chunk.docId ≠ doc.docId := same ▸ elsewhere
      simp [notHere]
    · simp [same]

theorem wikilinkRefs_replaceDocument_of_ne (other : uid ≠ (db.replaceDocument doc).2) :
    (db.replaceDocument doc).1.wikilinkRefs.filter (fun ref => ref.sourceNoteUid = uid) =
      db.wikilinkRefs.filter fun ref => ref.sourceNoteUid = uid := by
  have noNew : (doc.refRows (db.replaceDocument doc).2).filter
      (fun ref => ref.sourceNoteUid = uid) = [] := by
    rw [filter_eq_nil_iff]
    intro ref among same
    exact other ((of_decide_eq_true same).symm.trans (sourceNoteUid_refRows among))
  revert noNew other
  unfold Db.replaceDocument
  cases doc.noteUid with
  | some noteUid =>
    intro other noNew
    simp only [filter_append, noNew, append_nil, filter_filter]
    apply filter_congr
    intro ref _
    by_cases same : ref.sourceNoteUid = uid
    · have notHere : ref.sourceNoteUid ≠ noteUid := same ▸ other
      simp [same, same ▸ notHere]
    · simp [same]
  | none =>
    intro other noNew
    simp only [filter_append, noNew, append_nil]

theorem chunkRows_replaceDocument_self :
    (db.replaceDocument doc).1.chunkRows.filter (fun chunk => chunk.docId = doc.docId) =
      doc.chunkRows := by
  have onlyNew : doc.chunkRows.filter (fun chunk => chunk.docId = doc.docId) = doc.chunkRows :=
    filter_eq_self.mpr fun chunk among => decide_eq_true (chunkRows_docId chunk among)
  unfold Db.replaceDocument
  cases doc.noteUid with
  | some noteUid =>
    simp only [filter_append, onlyNew, filter_filter]
    have noOld : db.chunkRows.filter (fun chunk => decide (chunk.docId = doc.docId) &&
        !(decide (chunk.docId = doc.docId) || decide (chunk.docId ∈
          (db.documents.filter fun row => row.noteUid = noteUid).map DocumentRow.docId))) =
        [] := by
      rw [filter_eq_nil_iff]
      intro chunk _
      by_cases same : chunk.docId = doc.docId <;> simp [same]
    rw [noOld, nil_append]
  | none =>
    simp only [filter_append, onlyNew, filter_filter]
    have noOld : db.chunkRows.filter (fun chunk => decide (chunk.docId = doc.docId) &&
        decide (chunk.docId ≠ doc.docId)) = [] := by
      rw [filter_eq_nil_iff]
      intro chunk _
      by_cases same : chunk.docId = doc.docId <;> simp [same]
    rw [noOld, nil_append]

theorem wikilinkRefs_replaceDocument_self (kept : Kept db) :
    (db.replaceDocument doc).1.wikilinkRefs.filter
        (fun ref => ref.sourceNoteUid = (db.replaceDocument doc).2) =
      doc.refRows (db.replaceDocument doc).2 := by
  have onlyNew : ∀ uid, (doc.refRows uid).filter (fun ref => ref.sourceNoteUid = uid) =
      doc.refRows uid := fun uid =>
    filter_eq_self.mpr fun ref among => decide_eq_true (sourceNoteUid_refRows among)
  unfold Db.replaceDocument
  cases doc.noteUid with
  | some noteUid =>
    have noOld : db.wikilinkRefs.filter (fun ref => decide (ref.sourceNoteUid = noteUid) &&
        decide (ref.sourceNoteUid ≠ noteUid)) = [] := by
      rw [filter_eq_nil_iff]
      intro ref _
      by_cases same : ref.sourceNoteUid = noteUid <;> simp [same]
    simp only [filter_append, onlyNew, filter_filter, noOld, nil_append]
  | none =>
    have noOld : db.wikilinkRefs.filter (fun ref => ref.sourceNoteUid = db.nextUid) = [] := by
      rw [filter_eq_nil_iff]
      intro ref among same
      exact (kept.refsBelow ref among).ne (of_decide_eq_true same)
    simp only [filter_append, onlyNew, noOld, nil_append]

theorem stored_replaceDocument (kept : Kept db) {noteUid : Option Nat} :
    Stored lib path file (db.replaceDocument (lib.indexed noteUid path file)).1 := by
  have chunks : (db.replaceDocument (lib.indexed noteUid path file)).1.chunkRows.filter
      (fun chunk => chunk.docId = (lib.indexed noteUid path file).docId) =
      (lib.indexed noteUid path file).chunkRows := chunkRows_replaceDocument_self
  exact ⟨_, (mem_documents_replaceDocument kept.below).mpr (.inl rfl), rfl, chunks,
    wikilinkRefs_replaceDocument_self kept⟩

/-- The rows of a path stay while another document is written over another row. -/
theorem Stored.replace (stored : Stored lib path file db) (kept : Kept db)
    (elsewhere : path ≠ doc.docId)
    (other : ∀ row ∈ db.documents, row.docId = path → row.noteUid ≠ (db.replaceDocument doc).2) :
    Stored lib path file (db.replaceDocument doc).1 := by
  obtain ⟨row, among, isRow, chunks, links⟩ := stored
  have isPath : row.docId = path := by rw [isRow]; rfl
  have otherUid := other row among isPath
  refine ⟨row, (mem_documents_replaceDocument kept.below).mpr
    (.inr ⟨among, isPath ▸ elsewhere, otherUid⟩), isRow, ?_, ?_⟩
  · rw [chunkRows_replaceDocument_of_ne elsewhere, chunks]
    intro held isHeld isDocId same
    refine other held isHeld isDocId ?_
    rw [replaceDocument_uid, ← same]
    rfl
  · rw [wikilinkRefs_replaceDocument_of_ne otherUid, links]

end Stored

/-! ## A whole batch -/

/-- Documents of a batch: built before it, each from its file, no path twice. -/
structure BatchOf (lib : Library) (contents : DocId → Option File) (db : Db)
    (docs : List IndexedDocument) : Prop where
  built : ∀ doc ∈ docs, BuiltOn db doc
  files : ∀ doc ∈ docs, ∃ file, contents doc.docId = some file ∧
    doc = lib.indexed doc.noteUid doc.docId file
  nodup : (docs.map IndexedDocument.docId).Nodup

/-- No file that has a variant among the files would take a row over. -/
def Unshared (files : List DocId) (db : Db) : Prop :=
  ∀ path ∈ files, ∀ other ∈ files, path ≠ other → Db.sameNocase path other = true →
    db.findNoteUidByDocIdNocase path = none

section Batch

variable {lib : Library} {contents : DocId → Option File} {db : Db}
  {prior docs : List IndexedDocument} {doc : IndexedDocument} {files : List DocId}
  {path docId : DocId} {file : File} {uid : Nat}

theorem BatchOf.init (batch : BatchOf lib contents db (prior ++ [doc])) :
    BatchOf lib contents db prior where
  built := fun doc isPrior => batch.built doc (mem_append_left _ isPrior)
  files := fun doc isPrior => batch.files doc (mem_append_left _ isPrior)
  nodup := by
    have nodup := batch.nodup
    rw [map_append] at nodup
    exact (nodup_append.mp nodup).1

theorem BatchOf.last_new (batch : BatchOf lib contents db (prior ++ [doc])) :
    doc.docId ∉ prior.map IndexedDocument.docId := by
  have nodup := batch.nodup
  rw [map_append] at nodup
  exact fun again => (nodup_append.mp nodup).2.2 _ again _ (by simp) rfl

theorem BatchOf.stored (batch : BatchOf lib contents db docs) (kept : Kept db)
    (unshared : Unshared files db) (within : ∀ doc ∈ docs, doc.docId ∈ files)
    {done : List DocId} (doneWithin : ∀ path ∈ done, path ∈ files)
    (stored : ∀ path ∈ done, ∀ file, contents path = some file → Stored lib path file db) :
    ∀ path ∈ done ++ docs.map IndexedDocument.docId, ∀ file, contents path = some file →
      Stored lib path file (writeBatch db docs) := by
  induction docs using List.reverseRecOn with
  | nil => simpa [writeBatch] using stored
  | append_singleton prior doc ih =>
    have before := ih batch.init fun doc isPrior => within doc (mem_append_left _ isPrior)
    have writing := writing_writeBatch kept prior
    have isBuilt := batch.built doc (by simp)
    intro path among file isFile
    rw [writeBatch_concat]
    by_cases isLast : path = doc.docId
    · obtain ⟨last, isThere, isDoc⟩ := batch.files doc (by simp)
      rw [isLast, isThere] at isFile
      cases isFile
      rw [isLast, isDoc]
      exact stored_replaceDocument writing.kept
    · have earlier : path ∈ done ++ prior.map IndexedDocument.docId := by
        simpa [isLast] using among
      have isListed : path ∈ files := by
        rcases mem_append.mp earlier with isDone | isPrior
        · exact doneWithin path isDone
        · obtain ⟨doc', among', rfl⟩ := mem_map.mp isPrior
          exact within doc' (mem_append_left _ among')
      refine (before path earlier file isFile).replace writing.kept isLast ?_
      rintro row isRow rfl clash
      have same := writing.clash_variant kept batch.init.built isBuilt isRow clash
      have none := unshared doc.docId (within doc (by simp)) row.docId isListed
        (Ne.symm isLast) (sameNocase_symm same)
      exact isLast (writing.clash_own kept batch.init.built isBuilt isRow clash none)

theorem ne_uid_of_ne (below : ∀ row ∈ db.documents, row.noteUid < db.nextUid)
    {row : DocumentRow} (among : row ∈ db.documents) (other : some row.noteUid ≠ doc.noteUid) :
    row.noteUid ≠ (db.replaceDocument doc).2 := by
  rw [replaceDocument_uid]
  cases isUid : doc.noteUid with
  | some noteUid => exact fun same => other (isUid ▸ congrArg some same)
  | none => exact (below row among).ne

theorem BatchOf.tidy (batch : BatchOf lib contents db docs) (kept : Kept db)
    (tidy : Tidy files db) : Tidy files (writeBatch db docs) := by
  induction docs using List.reverseRecOn with
  | nil => exact tidy
  | append_singleton prior doc ih =>
    have before := ih batch.init
    have writing := writing_writeBatch kept prior
    rw [writeBatch_concat]
    have mem : ∀ row, row ∈ ((writeBatch db prior).replaceDocument doc).1.documents ↔
        row = doc.row ((writeBatch db prior).replaceDocument doc).2 ∨
          row ∈ (writeBatch db prior).documents ∧ row.docId ≠ doc.docId ∧
            row.noteUid ≠ ((writeBatch db prior).replaceDocument doc).2 :=
      fun _ => mem_documents_replaceDocument writing.kept.below
    refine ⟨fun chunk among => ?_, fun ref among => ?_⟩
    · rcases mem_chunkRows_replaceDocument among with isNew | ⟨earlier, elsewhere, other⟩
      · rw [chunkRows_docId chunk isNew]
        exact .inl ⟨_, (mem _).mpr (.inl rfl), rfl⟩
      · rcases before.chunks chunk earlier with ⟨row, isRow, isDocId⟩ | isFile
        · refine .inl ⟨row, (mem row).mpr (.inr ⟨isRow, isDocId ▸ elsewhere, ?_⟩), isDocId⟩
          exact ne_uid_of_ne writing.kept.below isRow (other row isRow isDocId)
        · exact .inr isFile
    · rcases mem_wikilinkRefs_replaceDocument among with isNew | ⟨earlier, other⟩
      · rw [sourceNoteUid_refRows isNew]
        exact ⟨_, (mem _).mpr (.inl rfl), rfl⟩
      · obtain ⟨row, isRow, isUid⟩ := before.links ref earlier
        rw [← isUid] at other
        refine ⟨row, (mem row).mpr (.inr ⟨isRow, fun same => other ?_, ?_⟩), isUid⟩
        · exact (writing.own_uid kept (batch.built doc (by simp)) batch.last_new isRow same).symm
        · exact ne_uid_of_ne writing.kept.below isRow other

/-- A link row whose document is gone stays. -/
def OrphanLink (db : Db) (uid : Nat) : Prop :=
  uid < db.nextUid ∧ (∀ row ∈ db.documents, row.noteUid ≠ uid) ∧
    ∃ ref ∈ db.wikilinkRefs, ref.sourceNoteUid = uid

def OrphanChunk (db : Db) (docId : DocId) : Prop :=
  ¬ HasRow db docId ∧ ∃ chunk ∈ db.chunkRows, chunk.docId = docId

theorem orphanLink_writeBatch (built : ∀ doc ∈ docs, BuiltOn db doc) (kept : Kept db)
    (orphan : OrphanLink db uid) : OrphanLink (writeBatch db docs) uid := by
  induction docs using List.reverseRecOn with
  | nil => exact orphan
  | append_singleton prior doc ih =>
    obtain ⟨below, noRow, ref, isRef, isUid⟩ :=
      ih fun other isPrior => built other (mem_append_left _ isPrior)
    have writing := writing_writeBatch kept prior
    have otherUid : ((writeBatch db prior).replaceDocument doc).2 ≠ uid := by
      rw [replaceDocument_uid]
      cases hasUid : doc.noteUid with
      | some noteUid =>
        have looked : existingNoteUid db doc.docId = some noteUid := (built doc (by simp)) ▸ hasUid
        obtain ⟨row, among, rowUid, -, -⟩ := row_of_existing kept.distinct looked
        exact fun same => orphan.2.1 row among (rowUid.trans same)
      | none => exact below.ne'
    rw [writeBatch_concat]
    refine ⟨lt_of_lt_of_le below nextUid_replaceDocument, fun row among => ?_, ref, ?_, isUid⟩
    · rcases (mem_documents_replaceDocument writing.kept.below).mp among with
        rfl | ⟨earlier, -, -⟩
      · exact otherUid
      · exact noRow row earlier
    · have stays : ref ∈ (writeBatch db prior).wikilinkRefs.filter
          fun ref => ref.sourceNoteUid = uid := mem_filter.mpr ⟨isRef, decide_eq_true isUid⟩
      rw [← wikilinkRefs_replaceDocument_of_ne otherUid.symm] at stays
      exact mem_of_mem_filter stays

theorem orphanChunk_writeBatch (kept : Kept db) (elsewhere : ∀ doc ∈ docs, doc.docId ≠ docId)
    (orphan : OrphanChunk db docId) : OrphanChunk (writeBatch db docs) docId := by
  induction docs using List.reverseRecOn with
  | nil => exact orphan
  | append_singleton prior doc ih =>
    obtain ⟨noRow, chunk, isChunk, isDocId⟩ :=
      ih fun other isPrior => elsewhere other (mem_append_left _ isPrior)
    have writing := writing_writeBatch kept prior
    have other := elsewhere doc (by simp)
    rw [writeBatch_concat]
    refine ⟨?_, chunk, ?_, isDocId⟩
    · rintro ⟨row, among, isRow⟩
      rcases (mem_documents_replaceDocument writing.kept.below).mp among with
        rfl | ⟨earlier, -, -⟩
      · exact other isRow
      · exact noRow ⟨row, earlier, isRow⟩
    · have stays : chunk ∈ (writeBatch db prior).chunkRows.filter
          fun chunk => chunk.docId = docId :=
        mem_filter.mpr ⟨isChunk, decide_eq_true isDocId⟩
      rw [← chunkRows_replaceDocument_of_ne other.symm
        fun row among isRow => absurd ⟨row, among, isRow⟩ noRow] at stays
      exact mem_of_mem_filter stays

end Batch

end Kuku.Search
