/-
# Search.Incremental -- incremental indexing against a full rebuild

Files are written, deleted and renamed, each change puts its job into the queue, and the writer
handles the jobs in order, at once or later.  `InSync` is the invariant: the tables index some
contents, and a path that no queued job touches has in them what the vault lists.

A run is safe while no job indexes a path that the rebuild skips, no job gives a path the uid of
a case variant, and no rename replaces a document that has links.  Then an empty queue means
that the index is that of a rebuild.
-/
import Kuku.Search.Rebuild
import Kuku.Theory.Runs

namespace Kuku.Search

open Kuku.Theory Function Option Vault

namespace Incremental

inductive Job where
  | indexFile (path : DocId)
  | removeFile (path : DocId)
  | renameFile (oldPath newPath : DocId)
  deriving DecidableEq

structure State where
  vault : Vault
  jobs : List Job
  db : Db

inductive Label where
  | write (path : DocId) (file : File)
  | delete (path : DocId)
  | rename (oldPath newPath : DocId)
  | handle

variable (lib : Library)

def handleJob (vault : Vault) (db : Db) : Job → Db
  | .indexFile path => handleIndexFile lib vault db path
  | .removeFile path => handleRemoveFile lib db path
  | .renameFile oldPath newPath => handleRenameFile lib vault db oldPath newPath

def next (s : State) : Label → Option State
  | .write path file =>
    some { s with vault := s.vault.write path file, jobs := s.jobs ++ [.indexFile path] }
  | .delete path =>
    if (s.vault.read path).isSome then
      some { s with vault := s.vault.remove path, jobs := s.jobs ++ [.removeFile path] }
    else none
  | .rename oldPath newPath =>
    (s.vault.read oldPath).map fun file =>
      { s with
        vault := (s.vault.remove oldPath).write newPath file
        jobs := s.jobs ++ [.renameFile oldPath newPath] }
  | .handle =>
    match s.jobs with
    | [] => none
    | job :: rest => some { s with jobs := rest, db := handleJob lib s.vault s.db job }

/-- The index starts as a rebuild has left it. -/
def system : System State Label :=
  System.ofStep (fun s => BatchesClear s.vault ∧ s.jobs = [] ∧
    s.db = handleFullRebuild lib s.vault {}) (next lib)

/-! ## The condition -/

/-- A job that writes a document writes one that the rebuild lists, under a uid of its own, and
over no links but its own. -/
def safeJob (vault : Vault) (db : Db) : Job → Bool
  | .indexFile path =>
    (vault.markdownFile path).all fun _ => isListed path && !takesOver db path
  | .removeFile _ => true
  | .renameFile oldPath newPath =>
    (vault.markdownFile newPath).all fun _ =>
      isListed newPath && !overwritesLinks db oldPath newPath

def safe (s : State) : Label → Bool
  | .handle => s.jobs.head?.all (safeJob s.vault s.db)
  | _ => true

/-! ## The queue -/

def touches (path : DocId) : Job → Prop
  | .indexFile other => path = other
  | .removeFile other => path = other
  | .renameFile oldPath newPath => path = oldPath ∨ path = newPath

def Untouched (jobs : List Job) (path : DocId) : Prop := ∀ job ∈ jobs, ¬ touches path job

/-- What a removal or a rename says about the vault is true unless a later job says otherwise. -/
def JobFits (vault : Vault) (later : List Job) : Job → Prop
  | .indexFile _ => True
  | .removeFile path => Untouched later path → vault.read path = none
  | .renameFile oldPath newPath =>
    (oldPath ≠ newPath → Untouched later oldPath → vault.read oldPath = none) ∧
      (Untouched later newPath → (vault.read newPath).isSome)

def JobsFit (vault : Vault) : List Job → Prop
  | [] => True
  | job :: later => JobFits vault later job ∧ JobsFit vault later

structure InSync (s : State) : Prop where
  indexed : ∃ contents, Indexes lib contents s.db ∧
    (∀ path, contents path ≠ none → isListed path) ∧
    ∀ path, Untouched s.jobs path → contents path = s.vault.listed path
  jobs : JobsFit s.vault s.jobs

variable {lib} {vault vault' : Vault} {db : Db} {jobs later : List Job} {job : Job}
  {path oldPath newPath : DocId} {s s' : State}

theorem untouched_cons : Untouched (job :: later) path ↔ ¬ touches path job ∧ Untouched later path := by
  simp [Untouched]

theorem untouched_append :
    Untouched (jobs ++ [job]) path ↔ Untouched jobs path ∧ ¬ touches path job := by
  simp only [Untouched, List.mem_append, List.mem_singleton]
  grind

theorem JobFits.append {new : Job} (fits : JobFits vault later job)
    (same : ∀ path, ¬ touches path new → vault'.read path = vault.read path) :
    JobFits vault' (later ++ [new]) job := by
  cases job with
  | indexFile path => exact trivial
  | removeFile path =>
    intro untouched
    obtain ⟨before, notNew⟩ := untouched_append.mp untouched
    exact (same path notNew).trans (fits before)
  | renameFile oldPath newPath =>
    refine ⟨fun differ untouched => ?_, fun untouched => ?_⟩
    · obtain ⟨before, notNew⟩ := untouched_append.mp untouched
      exact (same oldPath notNew).trans (fits.1 differ before)
    · obtain ⟨before, notNew⟩ := untouched_append.mp untouched
      rw [same newPath notNew]
      exact fits.2 before

theorem JobsFit.append {new : Job} (fits : JobsFit vault jobs)
    (same : ∀ path, ¬ touches path new → vault'.read path = vault.read path)
    (fitsNew : JobFits vault' [] new) : JobsFit vault' (jobs ++ [new]) := by
  induction jobs with
  | nil => exact ⟨fitsNew, trivial⟩
  | cons job later ih => exact ⟨fits.1.append same, ih fits.2⟩

theorem InSync.change {new : Job} (sync : InSync lib s)
    (same : ∀ path, ¬ touches path new → vault'.read path = s.vault.read path)
    (fitsNew : JobFits vault' [] new) :
    InSync lib { s with vault := vault', jobs := s.jobs ++ [new] } where
  indexed := by
    obtain ⟨contents, indexes, listed, agrees⟩ := sync.indexed
    refine ⟨contents, indexes, listed, fun path untouched => ?_⟩
    obtain ⟨before, notNew⟩ := untouched_append.mp untouched
    exact (agrees path before).trans (listed_congr (same path notNew)).symm
  jobs := sync.jobs.append same fitsNew

/-! ## Handling a job -/

/-- What a job that was not touched again has made of its paths. -/
structure Handles (contents contents' : DocId → Option File) (vault : Vault) (later : List Job)
    (job : Job) : Prop where
  listed : ∀ path, contents' path ≠ none → isListed path
  agrees : ∀ path, touches path job → Untouched later path → contents' path = vault.listed path
  others : ∀ path, ¬ touches path job → contents' path = contents path

section Handling

variable {contents : DocId → Option File}

theorem markdown_of_contents (listed : ∀ path, contents path ≠ none → isListed path) :
    ∀ path, contents path ≠ none → isMarkdownPath path :=
  fun path isThere => markdown_of_listed (listed path isThere)

/-- The file that is read at a listed path is the one the vault lists. -/
theorem markdownFile_eq (isIt : (vault.markdownFile path).isSome → isListed path) :
    vault.markdownFile path = vault.listed path := by
  by_cases isThere : isListed path = true
  · exact markdownFile_of_listed isThere
  · have isMissing : vault.markdownFile path = none :=
      not_isSome_iff_eq_none.mp fun isRead => isThere (isIt isRead)
    rw [isMissing, listed_of_not_listed isThere]

theorem listed_of_read_none (missing : vault.read path = none) : vault.listed path = none := by
  rw [Vault.listed, missing, ite_self]

theorem handles_indexFile (listed : ∀ path, contents path ≠ none → isListed path)
    (isIt : (vault.markdownFile path).isSome → isListed path) :
    Handles contents (Function.update contents path (vault.markdownFile path)) vault later
      (.indexFile path) := by
  refine ⟨fun other isThere => ?_, ?_, fun other elsewhere => update_of_ne elsewhere ..⟩
  · by_cases same : other = path
    · rw [same, update_self] at isThere
      exact same ▸ isIt (ne_none_iff_isSome.mp isThere)
    · rw [update_of_ne same] at isThere
      exact listed other isThere
  · rintro other rfl -
    rw [update_self, markdownFile_eq isIt]

theorem afterRemove_self (listed : ∀ path, contents path ≠ none → isListed path) :
    afterRemove contents path path = none := by
  rw [afterRemove_eq (markdown_of_contents listed), update_self]

theorem afterRemove_of_ne {other : DocId} (elsewhere : other ≠ path) :
    afterRemove contents path other = contents other := by
  unfold afterRemove
  split
  · exact update_of_ne elsewhere ..
  · rfl

variable (listed : ∀ path, contents path ≠ none → isListed path)

include listed

theorem afterRemove_listed {other : DocId} (isThere : afterRemove contents path other ≠ none) :
    isListed other := by
  by_cases same : other = path
  · rw [same, afterRemove_self listed] at isThere
    exact absurd rfl isThere
  · rw [afterRemove_of_ne same] at isThere
    exact listed other isThere

theorem handles_removeFile (fits : JobFits vault later (.removeFile path)) :
    Handles contents (afterRemove contents path) vault later (.removeFile path) where
  listed := fun _ => afterRemove_listed listed
  agrees := by
    rintro other rfl untouched
    rw [afterRemove_self listed, listed_of_read_none (fits untouched)]
  others := fun _ => afterRemove_of_ne

theorem handles_renameFile (isIt : (vault.markdownFile newPath).isSome → isListed newPath)
    (fits : JobFits vault later (.renameFile oldPath newPath)) :
    Handles contents (afterRename contents oldPath newPath (vault.markdownFile newPath)) vault
      later (.renameFile oldPath newPath) := by
  have atOld : oldPath ≠ newPath → Untouched later oldPath →
      afterRemove contents oldPath oldPath = vault.listed oldPath := by
    intro differ untouched
    rw [afterRemove_self listed, listed_of_read_none (fits.1 differ untouched)]
  cases isRead : vault.markdownFile newPath with
  | some file =>
    have isThere : isListed newPath = true := isIt (by rw [isRead]; rfl)
    refine ⟨fun other isHeld => ?_, fun other touched untouched => ?_, fun other untouched => ?_⟩
    · by_cases same : other = newPath
      · exact same ▸ isThere
      · rw [afterRename, update_of_ne same] at isHeld
        exact afterRemove_listed listed isHeld
    · by_cases same : other = newPath
      · rw [same, afterRename, update_self, ← isRead, markdownFile_eq isIt]
      · have isOld : other = oldPath := touched.resolve_right same
        subst isOld
        rw [afterRename, update_of_ne same, atOld same untouched]
    · rw [afterRename, update_of_ne fun same => untouched (.inr same),
        afterRemove_of_ne fun same => untouched (.inl same)]
  | none =>
    refine ⟨fun _ => afterRemove_listed listed, fun other touched untouched => ?_,
      fun other untouched => afterRemove_of_ne fun same => untouched (.inl same)⟩
    by_cases same : other = newPath
    · -- the file is there, so the new path is no markdown path
      subst same
      have isMissing : vault.listed other = none := by rw [← markdownFile_eq isIt, isRead]
      have isNot : ¬ isListed other = true := by
        intro isThere
        rw [Vault.listed, if_pos isThere] at isMissing
        have present := fits.2 untouched
        rw [isMissing] at present
        cases present
      rw [isMissing]
      by_contra isHeld
      exact isNot (afterRemove_listed listed isHeld)
    · have isOld : other = oldPath := touched.resolve_right same
      subst isOld
      exact atOld same untouched

omit listed

theorem all_of_isSome {α : Type} {found : Option α} {holds : Bool}
    (all : (found.all fun _ => holds) = true) (isSome : found.isSome) : holds = true := by
  obtain ⟨value, rfl⟩ := isSome_iff_exists.mp isSome
  exact all

/-- A safe job, handled. -/
theorem handleJob_indexes (indexes : Indexes lib contents db)
    (listed : ∀ path, contents path ≠ none → isListed path) (fits : JobFits vault later job)
    (safe : safeJob vault db job) :
    ∃ contents', Indexes lib contents' (handleJob lib vault db job) ∧
      Handles contents contents' vault later job := by
  have markdown := markdown_of_contents listed
  cases job with
  | indexFile path =>
    have both : (vault.markdownFile path).isSome →
        isListed path = true ∧ takesOver db path = false := by
      intro isThere
      simpa using all_of_isSome safe isThere
    exact ⟨_, indexes.indexFile markdown fun isThere => (both isThere).2,
      handles_indexFile listed fun isThere => (both isThere).1⟩
  | removeFile path => exact ⟨_, indexes.removeFile, handles_removeFile listed fits⟩
  | renameFile oldPath newPath =>
    have both : (vault.markdownFile newPath).isSome →
        isListed newPath = true ∧ overwritesLinks db oldPath newPath = false := by
      intro isThere
      simpa using all_of_isSome safe isThere
    exact ⟨_, indexes.renameFile markdown fun isThere => (both isThere).2,
      handles_renameFile listed (fun isThere => (both isThere).1) fits⟩

end Handling

/-! ## Every step -/

theorem InSync.handle (sync : InSync lib s) (queued : s.jobs = job :: later)
    (safe : safeJob s.vault s.db job) :
    InSync lib { s with jobs := later, db := handleJob lib s.vault s.db job } := by
  obtain ⟨contents, indexes, listed, agrees⟩ := sync.indexed
  have fits := sync.jobs
  rw [queued] at fits agrees
  obtain ⟨contents', indexes', handles⟩ := handleJob_indexes indexes listed fits.1 safe
  refine ⟨⟨contents', indexes', handles.listed, fun path untouched => ?_⟩, fits.2⟩
  by_cases touched : touches path job
  · exact handles.agrees path touched untouched
  · rw [handles.others path touched]
    exact agrees path (untouched_cons.mpr ⟨touched, untouched⟩)

theorem inSync_start (starts : (system lib).start s) : InSync lib s := by
  obtain ⟨clear, noJobs, isRebuilt⟩ := starts
  refine ⟨⟨s.vault.listed, isRebuilt ▸ indexes_rebuild clear, fun path isThere => ?_,
    fun _ _ => rfl⟩, noJobs ▸ trivial⟩
  obtain ⟨file, isFile⟩ := ne_none_iff_exists'.mp isThere
  exact (Vault.listed_eq_some.mp isFile).1

theorem inSync_step {l : Label} (sync : InSync lib s) (allowed : safe s l)
    (stepped : (system lib).step s l s') : InSync lib s' := by
  change next lib s l = some s' at stepped
  cases l with
  | write path file =>
    cases stepped
    exact sync.change (fun other elsewhere => read_write_of_ne elsewhere) trivial
  | delete path =>
    simp only [next] at stepped
    split at stepped
    · cases stepped
      exact sync.change (fun other elsewhere => read_remove_of_ne elsewhere)
        fun _ => read_remove_self
    · cases stepped
  | rename oldPath newPath =>
    simp only [next, map_eq_some_iff] at stepped
    obtain ⟨file, isFile, rfl⟩ := stepped
    refine sync.change (fun other elsewhere => ?_) ⟨fun differ _ => ?_, fun _ => ?_⟩
    · obtain ⟨notOld, notNew⟩ := not_or.mp elsewhere
      rw [read_write_of_ne notNew, read_remove_of_ne notOld]
    · rw [read_write_of_ne differ, read_remove_self]
    · rw [read_write_self]
      rfl
  | handle =>
    simp only [next] at stepped
    split at stepped
    · cases stepped
    · rename_i job later queued
      cases stepped
      refine sync.handle queued ?_
      simpa [safe, queued] using allowed

theorem inSync_of_reachable (reached : (system lib).ReachableBy (fun s l => safe s l) s) :
    InSync lib s :=
  reached.invariant (fun _ => inSync_start) fun _ _ _ => inSync_step

/-! ## The index of a vault -/

/-- Every row belongs to a document, and every listed file has one. -/
structure Consistent (vault : Vault) (db : Db) : Prop where
  oneRow : ∀ path, (db.documents.filter fun row => row.docId = path).length =
    if (vault.listed path).isSome then 1 else 0
  chunksOwned : ∀ chunk ∈ db.chunkRows, ∃ row ∈ db.documents, row.docId = chunk.docId
  linksOwned : ∀ ref ∈ db.wikilinkRefs, ∃ row ∈ db.documents,
    row.noteUid = ref.sourceNoteUid ∧ row.docId = ref.sourceDocId
  targets : ∀ ref ∈ db.wikilinkRefs, ∀ uid, ref.resolvedTargetUid = some uid →
    ∃ row ∈ db.documents, row.noteUid = uid

/-- What the queue has to leave when it is empty: a consistent index, and that of a rebuild. -/
def EqualsRebuild (lib : Library) (s : State) : Prop :=
  Consistent s.vault s.db ∧ SameIndex s.db (handleFullRebuild lib s.vault {})

theorem consistent_of_indexes (indexes : Indexes lib vault.listed db) : Consistent vault db where
  oneRow := by
    intro path
    have counted : (db.documents.filter fun row => row.docId = path).length =
        (db.documents.map DocumentRow.docId).count path := by
      rw [List.count, List.countP_map, List.countP_eq_length_filter]
      simp only [comp_def, beq_eq_decide]
    rw [counted]
    split
    · rename_i isListed
      obtain ⟨file, isFile⟩ := isSome_iff_exists.mp isListed
      obtain ⟨row, among, isPath⟩ := indexes.holds.complete path file isFile
      exact List.count_eq_one_of_mem indexes.holds.distinct.keyed
        (isPath ▸ List.mem_map_of_mem among)
    · rename_i notListed
      rw [List.count_eq_zero]
      intro among
      obtain ⟨row, isRow, isPath⟩ := List.mem_map.mp among
      exact indexes.holds.absent_iff.mp (not_isSome_iff_eq_none.mp notListed) row isRow isPath
  chunksOwned := by
    intro chunk among
    have isHere : chunk ∈ db.chunkRows.filter fun row => row.docId = chunk.docId :=
      List.mem_filter.mpr ⟨among, decide_eq_true rfl⟩
    rw [indexes.holds.chunks] at isHere
    cases isListed : vault.listed chunk.docId with
    | none =>
      rw [isListed] at isHere
      cases isHere
    | some file => exact indexes.holds.complete chunk.docId file isListed
  linksOwned := indexes.holds.owned
  targets := by
    intro ref among uid isTarget
    have isResolved := congrArg WikilinkRefRow.resolvedTargetUid (indexes.resolved ref among)
    have within : (resolveWikilink lib.lowercase ref.sourceDocId ref.link.rawTarget
        (db.loadDocIdentities lib.lowercase)).Within (db.loadDocIdentities lib.lowercase) :=
      resolveWikilink_within
    rcases within with ⟨noUid, -⟩ | ⟨doc, isIn, isUid, -⟩
    · rw [isTarget] at isResolved
      exact absurd (isResolved.trans noUid) (some_ne_none uid)
    · rw [isTarget] at isResolved
      obtain ⟨row, isRow, rowUid, -⟩ := (mem_loadDocIdentities.mp isIn).1
      exact ⟨row, isRow, rowUid.trans (Option.some.inj (isResolved.trans isUid)).symm⟩

/-- **Incremental indexing equals a rebuild** in every safe run, whenever the queue is empty and
the batches of the rebuild are clear. -/
theorem equals_rebuild (lib : Library) {s : State}
    (reached : (system lib).ReachableBy (fun s l => safe s l) s) (idle : s.jobs = [])
    (clear : BatchesClear s.vault) : EqualsRebuild lib s := by
  obtain ⟨contents, indexes, -, agrees⟩ := (inSync_of_reachable reached).indexed
  have isListed : contents = s.vault.listed := by
    funext path
    refine agrees path ?_
    rw [idle]
    exact fun _ none => nomatch none
  rw [isListed] at indexes
  exact ⟨consistent_of_indexes indexes, indexes.sameIndex (indexes_rebuild clear)⟩

/-! ## Runs -/

def emptyStart : State := ⟨empty, [], {}⟩

theorem emptyStart_starts : (system lib).start emptyStart :=
  ⟨batchesClear_of_short (Nat.zero_le _), rfl, rfl⟩

def linkText : File := ⟨"[[a]]".toList, 0⟩

def emptyText : File := ⟨[], 0⟩

/-- Two files, one with a link, and a rename of the other. -/
def renameTo (newPath : DocId) : List Label :=
  [.write "b.md".toList linkText, .handle, .write "a.md".toList emptyText, .handle,
    .rename "a.md".toList newPath, .handle]

theorem equals_rebuild_renamed : ∃ s,
    System.runWhile safe (next sampleLibrary) emptyStart (renameTo "c.md".toList) = some s ∧
      s.db.wikilinkRefs.length = 1 ∧ EqualsRebuild sampleLibrary s := by
  have ran : (System.runWhile safe (next sampleLibrary) emptyStart
      (renameTo "c.md".toList)).map (fun s =>
        (s.jobs, decide ((rebuildBatches s.vault).length ≤ 1), s.db.wikilinkRefs.length)) =
      some ([], true, 1) := by decide +kernel
  obtain ⟨s, isRun, report⟩ := map_eq_some_iff.mp ran
  simp only [Prod.mk.injEq, decide_eq_true_eq] at report
  obtain ⟨idle, short, oneLink⟩ := report
  have reached := System.reachableBy_of_runWhile (.start emptyStart_starts) isRun
  exact ⟨s, isRun, oneLink, equals_rebuild sampleLibrary reached idle (batchesClear_of_short short)⟩

/-- A rename onto a document leaves its links behind, without a document. -/
theorem not_equals_rebuild :
    ¬ ∀ lib s, (system lib).Reachable s → s.jobs = [] → EqualsRebuild lib s := by
  intro claim
  have ran : (System.run (next sampleLibrary) emptyStart (renameTo "b.md".toList)).map (fun s =>
      (s.jobs, s.db.documents.map DocumentRow.noteUid,
        s.db.wikilinkRefs.map WikilinkRefRow.sourceNoteUid)) =
      some ([], [2], [1]) := by decide +kernel
  obtain ⟨s, isRun, report⟩ := map_eq_some_iff.mp ran
  simp only [Prod.mk.injEq] at report
  obtain ⟨idle, documents, links⟩ := report
  have reached : (system sampleLibrary).Reachable s :=
    System.reachable_of_run (.start emptyStart_starts) isRun
  obtain ⟨ref, isRef, -⟩ := List.map_eq_singleton_iff.mp links
  have among : ref ∈ s.db.wikilinkRefs := by
    rw [isRef]
    exact List.mem_singleton_self ref
  obtain ⟨row, isRow, sameUid, -⟩ := (claim sampleLibrary s reached idle).1.linksOwned ref among
  have isTwo : row.noteUid ∈ [2] := documents ▸ List.mem_map_of_mem isRow
  have isOne : ref.sourceNoteUid ∈ [1] := links ▸ List.mem_map_of_mem among
  rw [List.mem_singleton] at isTwo isOne
  omega

end Incremental

end Kuku.Search
