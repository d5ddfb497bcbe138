/-
# Search.FullRebuild -- a rebuild from any content of the tables

A `Disk` is a vault with what a rebuild meets beside readable notes: files whose text cannot be
read (no permission, no UTF-8) and symbolic links.  The first such file that is listed ends the
job: the batches before it are written, stale documents stay and no link is resolved.

Otherwise the job is that of the readable notes (`handleFullRebuild_eq`), and what
`indexes_rebuild_iff` says of a vault holds of the disk.
-/
import Kuku.Search.Rebuild
import Kuku.Theory.Except

namespace Kuku.Search

open Kuku.Theory List Assoc Option

/-! ## The disk -/

inductive Entry where
  | note (file : File)
  | unreadable
  | symlink
  deriving DecidableEq

structure Disk where
  entries : Assoc DocId Entry
  distinct : (entries.map Prod.fst).Nodup

namespace Disk

variable (lib : Library) (disk : Disk) (db : Db)

def collectMarkdownFiles : List DocId :=
  ((disk.entries.filter fun entry => entry.2 ≠ .symlink).map Prod.fst).filter isListed

def buildDocument (path : DocId) : Except String (Option IndexedDocument) :=
  if isMarkdownPath path then
    match disk.entries.get path with
    | some (.note file) => .ok (some (lib.indexed (existingNoteUid db path) path file))
    | some .unreadable => .error "Failed to read markdown file"
    | some .symlink => .ok none
    | none => .ok none
  else .ok none

def buildBatch : List DocId → Except String (List IndexedDocument)
  | [] => .ok []
  | path :: rest => do
    let doc ← disk.buildDocument lib db path
    let docs ← buildBatch rest
    return doc.toList ++ docs

/-- The batches until one has a file that cannot be read. -/
def indexBatches : List (List DocId) → Db → Db × Except String Unit
  | [], db => (db, .ok ())
  | batch :: rest, db =>
    match disk.buildBatch lib db batch with
    | .error error => (db, .error error)
    | .ok docs => indexBatches rest (writeBatch db docs)

def rebuildBatches : List (List DocId) :=
  let files := Table.sorted id disk.collectMarkdownFiles
  chunksOf 50 files.length files

def handleFullRebuild : Db × Except String Unit :=
  match disk.indexBatches lib disk.rebuildBatches db with
  | (written, .error error) => (written, .error error)
  | (written, .ok ()) =>
    (resolveAllWikilinks lib (removeStale written disk.collectMarkdownFiles), .ok ())

/-- The readable notes that a rebuild lists. -/
def readable (path : DocId) : Option File :=
  if isListed path then
    match disk.entries.get path with
    | some (.note file) => some file
    | _ => none
  else none

def AllReadable : Prop := ∀ entry ∈ disk.entries, isListed entry.1 → entry.2 ≠ .unreadable

/-! ## The vault of the readable notes -/

def noteOf (entry : DocId × Entry) : Option (DocId × File) :=
  match entry.2 with
  | .note file => some (entry.1, file)
  | _ => none

section Notes

variable {path : DocId} {file : File} {rest : Assoc DocId Entry}

@[simp] theorem notes_note : ((path, Entry.note file) :: rest).filterMap noteOf =
    (path, file) :: rest.filterMap noteOf := rfl

@[simp] theorem notes_unreadable : ((path, Entry.unreadable) :: rest).filterMap noteOf =
    rest.filterMap noteOf := rfl

@[simp] theorem notes_symlink : ((path, Entry.symlink) :: rest).filterMap noteOf =
    rest.filterMap noteOf := rfl

end Notes

theorem keys_notes {entries : Assoc DocId Entry} :
    ((entries.filterMap noteOf).map Prod.fst).Sublist (entries.map Prod.fst) := by
  induction entries with
  | nil => exact .slnil
  | cons entry rest ih =>
    obtain ⟨path, kind⟩ := entry
    cases kind with
    | note file => exact ih.cons_cons _
    | unreadable => exact ih.cons _
    | symlink => exact ih.cons _

def vault : Vault where
  files := disk.entries.filterMap noteOf
  distinct := keys_notes.nodup disk.distinct

variable {lib disk db} {path : DocId} {file : File}

theorem get_notes {entries : Assoc DocId Entry} (distinct : (entries.map Prod.fst).Nodup) :
    get (entries.filterMap noteOf) path =
      (get entries path).bind fun kind =>
        match kind with
        | .note file => some file
        | _ => none := by
  induction entries with
  | nil => rfl
  | cons entry rest ih =>
    obtain ⟨other, kind⟩ := entry
    obtain ⟨absent, distinctRest⟩ := nodup_cons.mp distinct
    have later := ih distinctRest
    by_cases same : other = path
    · subst same
      have gone : get rest other = none := get_eq_none absent
      rw [gone] at later
      cases kind with
      | note file => simp [get_cons]
      | unreadable => simpa [get_cons] using later
      | symlink => simpa [get_cons] using later
    · cases kind with
      | note file => simpa [get_cons, same] using later
      | unreadable => simpa [get_cons, same] using later
      | symlink => simpa [get_cons, same] using later

theorem readable_eq : disk.readable = disk.vault.listed := by
  funext path
  unfold readable Vault.listed Vault.read
  rw [vault, get_notes disk.distinct]
  cases disk.entries.get path with
  | none => rfl
  | some kind => cases kind <;> rfl

theorem collectMarkdownFiles_eq (readable : disk.AllReadable) :
    disk.collectMarkdownFiles = disk.vault.collectMarkdownFiles := by
  unfold collectMarkdownFiles Vault.collectMarkdownFiles vault
  simp only
  unfold AllReadable at readable
  generalize disk.entries = entries at readable
  induction entries with
  | nil => rfl
  | cons entry rest ih =>
    obtain ⟨path, kind⟩ := entry
    have later := ih fun entry among => readable entry (mem_cons_of_mem _ among)
    cases kind with
    | note file =>
      simp only [ne_eq, decide_not] at later
      simp [filter_cons, later]
    | symlink => simpa using later
    | unreadable =>
      have notListed : ¬ isListed path = true := fun isIt =>
        readable _ mem_cons_self isIt rfl
      simpa [notListed] using later

theorem rebuildBatches_eq (readable : disk.AllReadable) :
    disk.rebuildBatches = Search.rebuildBatches disk.vault := by
  unfold rebuildBatches Search.rebuildBatches
  rw [collectMarkdownFiles_eq readable]

theorem buildDocument_eq (readable : disk.AllReadable) (listed : isListed path = true) :
    disk.buildDocument lib db path = .ok (Search.buildDocument lib disk.vault db path) := by
  unfold buildDocument Search.buildDocument Vault.read
  rw [vault, get_notes disk.distinct, if_pos (Vault.markdown_of_listed listed),
    if_pos (Vault.markdown_of_listed listed)]
  cases found : disk.entries.get path with
  | none => rfl
  | some kind =>
    cases kind with
    | note file => rfl
    | symlink => rfl
    | unreadable => exact absurd rfl (readable _ (mem_of_get found) listed)

variable {batch : List DocId}

theorem buildBatch_eq (readable : disk.AllReadable) (listed : ∀ path ∈ batch, isListed path = true) :
    disk.buildBatch lib db batch = .ok (batch.filterMap (Search.buildDocument lib disk.vault db)) := by
  induction batch with
  | nil => rfl
  | cons path rest ih =>
    rw [buildBatch, buildDocument_eq readable (listed path mem_cons_self),
      ih fun other later => listed other (mem_cons_of_mem _ later)]
    cases isDoc : Search.buildDocument lib disk.vault db path with
    | none => simp [isDoc, bind, Except.bind, pure, Except.pure]
    | some doc => simp [isDoc, bind, Except.bind, pure, Except.pure]

theorem indexBatches_eq (readable : disk.AllReadable) {batches : List (List DocId)}
    (listed : ∀ path ∈ batches.flatten, isListed path = true) :
    disk.indexBatches lib batches db = (batches.foldl (indexBatch lib disk.vault) db, .ok ()) := by
  induction batches generalizing db with
  | nil => rfl
  | cons batch rest ih =>
    rw [flatten_cons] at listed
    rw [indexBatches, buildBatch_eq readable fun path among =>
      listed path (mem_append_left _ among)]
    exact ih fun path among => listed path (mem_append_right _ among)

theorem mem_rebuildBatches : path ∈ disk.rebuildBatches.flatten ↔
    (∃ entry ∈ disk.entries, entry.2 ≠ .symlink ∧ entry.1 = path) ∧ isListed path = true := by
  rw [rebuildBatches, flatten_chunksOf (by decide) le_rfl, Table.mem_sorted,
    collectMarkdownFiles, mem_filter]
  simp [and_assoc]

theorem mem_of_readable (isReadable : disk.readable path = some file) :
    path ∈ disk.rebuildBatches.flatten := by
  unfold readable at isReadable
  split at isReadable
  · rename_i listed
    split at isReadable
    · rename_i found
      exact mem_rebuildBatches.mpr ⟨⟨_, mem_of_get found, by simp, rfl⟩, listed⟩
    · cases isReadable
  · cases isReadable

theorem isListed_of_mem (among : path ∈ disk.rebuildBatches.flatten) : isListed path = true :=
  (mem_rebuildBatches.mp among).2

theorem handleFullRebuild_eq (readable : disk.AllReadable) :
    disk.handleFullRebuild lib db = (Search.handleFullRebuild lib disk.vault db, .ok ()) := by
  unfold handleFullRebuild
  rw [indexBatches_eq readable fun path among => isListed_of_mem among,
    rebuildBatches_eq readable, collectMarkdownFiles_eq readable]
  rfl

/-! ## A file that cannot be read -/

theorem buildBatch_cons {rest : List DocId} :
    disk.buildBatch lib db (path :: rest) = (do
      let doc ← disk.buildDocument lib db path
      let docs ← disk.buildBatch lib db rest
      return doc.toList ++ docs) := rfl

theorem buildDocument_ok {doc : IndexedDocument}
    (isBuilt : disk.buildDocument lib db path = .ok (some doc)) :
    BuiltOn db doc ∧ doc.docId = path := by
  unfold buildDocument at isBuilt
  split at isBuilt
  · split at isBuilt
    · cases isBuilt
      exact ⟨rfl, rfl⟩
    · cases isBuilt
    · cases isBuilt
    · cases isBuilt
  · cases isBuilt

theorem buildBatch_ok {docs : List IndexedDocument}
    (isBuilt : disk.buildBatch lib db batch = .ok docs) :
    ∀ doc ∈ docs, BuiltOn db doc ∧ doc.docId ∈ batch := by
  induction batch generalizing docs with
  | nil =>
    cases isBuilt
    exact fun _ none => nomatch none
  | cons path rest ih =>
    rw [buildBatch_cons] at isBuilt
    obtain ⟨first, isFirst, isBuilt⟩ := bind_ok.mp isBuilt
    obtain ⟨later, isLater, isBuilt⟩ := bind_ok.mp isBuilt
    cases isBuilt
    intro doc among
    rcases mem_append.mp among with isIt | isRest
    · rw [mem_toList.mp isIt] at isFirst
      obtain ⟨built, isPath⟩ := buildDocument_ok isFirst
      exact ⟨built, isPath ▸ mem_cons_self⟩
    · obtain ⟨built, inRest⟩ := ih isLater doc isRest
      exact ⟨built, mem_cons_of_mem _ inRest⟩

theorem not_ok_of_unreadable (among : path ∈ batch) (listed : isListed path = true)
    (unreadable : disk.entries.get path = some .unreadable) {docs : List IndexedDocument} :
    disk.buildBatch lib db batch ≠ .ok docs := by
  induction batch generalizing docs with
  | nil => cases among
  | cons first rest ih =>
    intro isBuilt
    rw [buildBatch_cons] at isBuilt
    obtain ⟨doc, isFirst, isBuilt⟩ := bind_ok.mp isBuilt
    obtain ⟨later, isLater, -⟩ := bind_ok.mp isBuilt
    rcases mem_cons.mp among with rfl | inRest
    · rw [buildDocument, if_pos (Vault.markdown_of_listed listed), unreadable] at isFirst
      cases isFirst
    · exact ih inRest isLater

/-- The batches until the file: a document that is no variant of a file keeps its row. -/
theorem indexBatches_unreadable {batches : List (List DocId)} (kept : Kept db)
    (among : path ∈ batches.flatten) (listed : isListed path = true)
    (unreadable : disk.entries.get path = some .unreadable) {docId : DocId}
    (hasRow : HasRow db docId)
    (other : ∀ path ∈ batches.flatten, ¬ Db.sameNocase path docId = true) :
    ∃ written error, disk.indexBatches lib batches db = (written, .error error) ∧
      HasRow written docId := by
  induction batches generalizing db with
  | nil => cases among
  | cons batch rest ih =>
    rw [indexBatches]
    cases isBuilt : disk.buildBatch lib db batch with
    | error error => exact ⟨db, error, rfl, hasRow⟩
    | ok docs =>
      have inRest : path ∈ rest.flatten := by
        rcases mem_append.mp (flatten_cons ▸ among) with here | later
        · exact absurd isBuilt (not_ok_of_unreadable here listed unreadable)
        · exact later
      have built := buildBatch_ok isBuilt
      refine ih (writing_writeBatch kept docs).kept inRest ?_ fun path later =>
        other path (mem_flatten.mpr ?_)
      · refine (hasRow_writeBatch_of_other kept (fun doc isDoc => (built doc isDoc).1)
          fun doc isDoc => other _ ?_).mpr hasRow
        exact mem_append_left _ (built doc isDoc).2
      · obtain ⟨batch', isBatch, isPath⟩ := mem_flatten.mp later
        exact ⟨batch', mem_cons_of_mem _ isBatch, isPath⟩

end Disk

/-! ## The result -/

def noteDisk : Disk := ⟨[("a.md".toList, .note ⟨[], 0⟩)], by decide⟩

def halfReadable : Disk :=
  ⟨[("a.md".toList, .unreadable), ("b.md".toList, .note ⟨[], 0⟩)], by decide⟩

end Kuku.Search
