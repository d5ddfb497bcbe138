/-
# Search.QueueInvariant -- why a dropped notification is not a lost one

A notification is dropped because of a job that has not begun, or will be sent when the running
rebuild ends: `jobsAhead`.  `Inv` keeps, for every promised path, that such a job will read it,
or the writer is about to, or the index shows one of the promised texts once the writer has
written what it has read.
-/
import Kuku.Search.Queue
import Kuku.Search.Rebuild

namespace Kuku.Search

open Kuku.Theory List

namespace Queue

/-! ## The parts of the invariant -/

/-- The writer is inside a rebuild. -/
def Stage.isRebuild : Stage → Bool
  | .collecting | .rebuilding _ | .finishing => true
  | _ => false

/-- The writer has not read the path and will, before its next job. -/
def Stage.WillRead (path : DocId) : Stage → Prop
  | .reading other => other = path
  | .collecting => True
  | .rebuilding progress => path ∈ progress.batch ∨ path ∈ progress.later.flatten
  | _ => False

/-- The contents once what has been read is written. -/
def ahead (contents : DocId → Option File) : Stage → DocId → Option File
  | .writingIndex path found => Function.update contents path found
  | .writingRename oldPath newPath found => afterRename contents oldPath newPath found
  | .rebuilding progress => overlay contents progress.docs
  | _ => contents

def Shown (found : Option File) (texts : List (List Char)) : Prop :=
  ∃ file, found = some file ∧ file.markdown ∈ texts

structure PromiseFits (s : State) (path : DocId) (texts : List (List Char)) : Prop where
  listed : isListed path = true
  readable : path ∉ s.unreadable
  current : ∃ file, s.vault.read path = some file ∧ file.markdown ∈ texts

structure FlagsFit (s : State) : Prop where
  count : s.upcoming.count .fullRebuild = s.rebuild.queued.toNat
  running : s.rebuild.running = s.stage.isRebuild
  exclusive : s.rebuild.running = true → s.rebuild.queued = false
  rerun : s.rebuild.rerun = true → s.rebuild.running = true

def Caller.Fits : Caller → Prop
  | .inserting path => isListed path = true
  | .sending (.indexFile path) => isListed path = true
  | _ => True

/-- The paths of a rebuild are distinct, its documents bring their own uids. -/
def Stage.Fits (db : Db) : Stage → Prop
  | .writingIndex path found => found.isSome → isMarkdownPath path = true
  | .writingRename _ newPath found => found.isSome → isMarkdownPath newPath = true
  | .rebuilding progress =>
    (progress.docs.map Prod.fst ++ progress.batch ++ progress.later.flatten).Nodup ∧
      ∀ doc ∈ progress.docs, isMarkdownPath doc.1 = true ∧ takesOver db doc.1 = false
  | _ => True

/-- What a running rebuild did not collect is read after it. -/
def Uncollected (s : State) : Prop :=
  ∀ progress, s.stage = .rebuilding progress → ∀ path texts, s.promised.get path = some texts →
    path ∉ progress.files → s.coming path = true

def Kept (contents : DocId → Option File) (s : State) (path : DocId)
    (texts : List (List Char)) : Prop :=
  s.coming path = true ∨ s.stage.WillRead path ∨ Shown (ahead contents s.stage path) texts

structure Inv (lib : Library) (s : State) : Prop where
  flags : FlagsFit s
  caller : s.caller.Fits
  stage : s.stage.Fits s.db
  pending : ∀ path ∈ s.pending, .indexFile path ∈ s.jobsAhead
  owed : s.owed = true → .fullRebuild ∈ s.jobsAhead
  promises : ∀ path texts, s.promised.get path = some texts → PromiseFits s path texts
  uncollected : Uncollected s
  index : ∃ contents, HoldsText lib contents s.db ∧
    (∀ path, contents path ≠ none → isMarkdownPath path) ∧
    ∀ path texts, s.promised.get path = some texts → Kept contents s path texts

variable {lib : Library} {s s' : State} {path other : DocId} {texts : List (List Char)}
  {file : File} {job : WriterJob} {contents : DocId → Option File}

/-! ## The jobs ahead -/

theorem mem_jobsAhead : job ∈ s.jobsAhead ↔ s.stage.job = some job ∨ job ∈ s.queue ∨
    s.caller.job = some job ∨ s.rebuild.rerun = true ∧ job = .fullRebuild := by
  simp only [State.jobsAhead, State.upcoming, mem_append, Option.mem_toList]
  split
  · rename_i rerun
    simp [rerun, or_assoc]
  · rename_i rerun
    simp [rerun, or_assoc]

theorem coming_iff : s.coming path = true ↔ ∃ job ∈ s.jobsAhead, reads path job = true :=
  any_eq_true

theorem coming_of_rebuild (isAhead : .fullRebuild ∈ s.jobsAhead) : s.coming path = true :=
  coming_iff.mpr ⟨_, isAhead, rfl⟩

theorem coming_of_index (isAhead : .indexFile path ∈ s.jobsAhead) : s.coming path = true :=
  coming_iff.mpr ⟨_, isAhead, decide_eq_true rfl⟩

theorem coming_mono (more : ∀ job ∈ s.jobsAhead, job ∈ s'.jobsAhead)
    (coming : s.coming path = true) : s'.coming path = true := by
  obtain ⟨job, isAhead, isRead⟩ := coming_iff.mp coming
  exact coming_iff.mpr ⟨job, more job isAhead, isRead⟩

theorem FlagsFit.rebuild_mem (flags : FlagsFit s) (queued : s.rebuild.queued = true) :
    .fullRebuild ∈ s.jobsAhead := by
  have one : s.upcoming.count .fullRebuild = 1 := by rw [flags.count, queued]; rfl
  have among : WriterJob.fullRebuild ∈ s.upcoming := count_pos_iff.mp (by omega)
  exact mem_append_left _ among

/-! ## Files change -/

theorem Inv.changeFiles (inv : Inv lib s) {vault : Vault} {unreadable : List DocId}
    {promised : Assoc DocId (List (List Char))}
    (promises : ∀ path texts, promised.get path = some texts →
      PromiseFits { s with vault, unreadable, promised } path texts)
    (earlier : ∀ path texts, promised.get path = some texts →
      ∃ old, s.promised.get path = some old ∧ old ⊆ texts) :
    Inv lib { s with vault, unreadable, promised } := by
  obtain ⟨contents, holds, markdown, kept⟩ := inv.index
  refine
    { inv with
      flags := { inv.flags with }
      promises
      uncollected := ?_
      index := ⟨contents, holds, markdown, ?_⟩ }
  · intro progress isStage path texts isPromised notCollected
    obtain ⟨old, wasPromised, -⟩ := earlier path texts isPromised
    exact inv.uncollected progress isStage path old wasPromised notCollected
  · intro path texts isPromised
    obtain ⟨old, wasPromised, within⟩ := earlier path texts isPromised
    rcases kept path old wasPromised with coming | willRead | ⟨file, isFile, isText⟩
    · exact .inl coming
    · exact .inr (.inl willRead)
    · exact .inr (.inr ⟨file, isFile, within isText⟩)

theorem get_extended (isPromised : (s.extended path file).get other = some texts) :
    ∃ old, s.promised.get other = some old ∧
      texts = if other = path then old ++ [file.markdown] else old := by
  unfold State.extended at isPromised
  split at isPromised
  · rename_i old wasPromised
    by_cases same : other = path
    · subst same
      rw [Assoc.get_set_self] at isPromised
      exact ⟨old, wasPromised, by rw [if_pos rfl]; exact (Option.some.inj isPromised).symm⟩
    · rw [Assoc.get_set_of_ne same] at isPromised
      exact ⟨texts, isPromised, (if_neg same).symm⟩
  · rename_i notPromised
    have elsewhere : other ≠ path := by
      rintro rfl
      rw [notPromised] at isPromised
      cases isPromised
    exact ⟨texts, isPromised, (if_neg elsewhere).symm⟩

theorem Inv.write (inv : Inv lib s) : Inv lib (s.write path file) := by
  refine inv.changeFiles (fun other texts isPromised => ?_) fun other texts isPromised => ?_
  · obtain ⟨old, wasPromised, isTexts⟩ := get_extended isPromised
    obtain ⟨listed, readable, held, isHeld, isText⟩ := inv.promises other old wasPromised
    by_cases same : other = path
    · subst same
      rw [if_pos rfl] at isTexts
      refine ⟨listed, fun spoiled => readable (mem_of_mem_filter spoiled), file,
        Vault.read_write_self, ?_⟩
      rw [isTexts]
      exact mem_append_right _ (mem_singleton_self _)
    · rw [if_neg same] at isTexts
      exact ⟨listed, fun spoiled => readable (mem_of_mem_filter spoiled), held,
        (Vault.read_write_of_ne same).trans isHeld, isTexts ▸ isText⟩
  · obtain ⟨old, wasPromised, isTexts⟩ := get_extended isPromised
    refine ⟨old, wasPromised, ?_⟩
    rw [isTexts]
    split
    · exact subset_append_left _ _
    · exact List.Subset.refl _

theorem get_removed (isPromised : (s.promised.remove path).get other = some texts) :
    other ≠ path ∧ s.promised.get other = some texts := by
  have elsewhere : other ≠ path := by
    rintro rfl
    rw [Assoc.get_remove_self] at isPromised
    cases isPromised
  exact ⟨elsewhere, by rwa [Assoc.get_remove_of_ne elsewhere] at isPromised⟩

theorem Inv.spoil (inv : Inv lib s) : Inv lib (s.spoil path) := by
  refine inv.changeFiles (fun other texts isPromised => ?_) fun other texts isPromised => ?_
  · obtain ⟨elsewhere, wasPromised⟩ := get_removed isPromised
    obtain ⟨listed, readable, current⟩ := inv.promises other texts wasPromised
    exact ⟨listed, fun spoiled => (mem_cons.mp spoiled).elim elsewhere readable, current⟩
  · exact ⟨texts, (get_removed isPromised).2, List.Subset.refl _⟩

theorem Inv.delete (inv : Inv lib s) : Inv lib (s.delete path) := by
  refine inv.changeFiles (fun other texts isPromised => ?_) fun other texts isPromised => ?_
  · obtain ⟨elsewhere, wasPromised⟩ := get_removed isPromised
    obtain ⟨listed, readable, held, isHeld, isText⟩ := inv.promises other texts wasPromised
    exact ⟨listed, fun spoiled => readable (mem_of_mem_filter spoiled), held,
      (Vault.read_remove_of_ne elsewhere).trans isHeld, isText⟩
  · exact ⟨texts, (get_removed isPromised).2, List.Subset.refl _⟩

theorem Inv.rename {newPath : DocId} (inv : Inv lib s) (moved : s.rename path newPath = some s') :
    Inv lib s' := by
  obtain ⟨file, -, rfl⟩ := Option.map_eq_some_iff.mp moved
  simp only
  split
  · exact inv.delete.write.spoil
  · exact inv.delete.write

/-! ## A notification -/

/-- `notify_written` returns while a job that has not begun will read the path. -/
theorem Inv.promise (inv : Inv lib s) (listed : isListed path = true)
    (coming : s.coming path = true) : Inv lib (s.promise path) := by
  unfold State.promise
  split
  · rename_i isReadable
    obtain ⟨notSpoiled, isThere⟩ := Bool.and_eq_true_iff.mp isReadable
    obtain ⟨file, isFile⟩ := Option.isSome_iff_exists.mp isThere
    have cases : ∀ other texts,
        (s.promised.set path ((s.vault.read path).toList.map File.markdown)).get other =
          some texts →
        other = path ∧ texts = [file.markdown] ∨ s.promised.get other = some texts := by
      intro other texts isPromised
      by_cases same : other = path
      · rw [same, Assoc.get_set_self, isFile] at isPromised
        exact .inl ⟨same, (Option.some.inj isPromised).symm⟩
      · rw [Assoc.get_set_of_ne same] at isPromised
        exact .inr isPromised
    obtain ⟨contents, holds, markdown, kept⟩ := inv.index
    refine
      { inv with
        flags := { inv.flags with }
        promises := ?_
        uncollected := ?_
        index := ⟨contents, holds, markdown, ?_⟩ }
    · intro other texts isPromised
      rcases cases other texts isPromised with ⟨rfl, rfl⟩ | wasPromised
      · exact ⟨listed, of_decide_eq_true notSpoiled, file, isFile, mem_singleton_self _⟩
      · exact { inv.promises other texts wasPromised with }
    · intro progress isStage other texts isPromised notCollected
      rcases cases other texts isPromised with ⟨rfl, -⟩ | wasPromised
      · exact coming
      · exact inv.uncollected progress isStage other texts wasPromised notCollected
    · intro other texts isPromised
      rcases cases other texts isPromised with ⟨rfl, -⟩ | wasPromised
      · exact .inl coming
      · exact kept other texts wasPromised
  · exact inv

/-- A step of a caller leaves the writer and the files alone, and every job ahead there. -/
theorem Inv.callerFrame (inv : Inv lib s) {queue : List WriterJob} {pending : List DocId}
    {rebuild : RebuildQueueState} {caller : Caller} {owed : Bool}
    (flags : FlagsFit { s with queue, pending, rebuild, caller, owed })
    (callerFits : caller.Fits)
    (more : ∀ job ∈ s.jobsAhead, job ∈ State.jobsAhead { s with queue, pending, rebuild, caller, owed })
    (pendingFits : ∀ path ∈ pending,
      path ∈ s.pending ∨
        .indexFile path ∈ State.jobsAhead { s with queue, pending, rebuild, caller, owed })
    (owedFits : owed = true → s.owed = true ∨
      .fullRebuild ∈ State.jobsAhead { s with queue, pending, rebuild, caller, owed }) :
    Inv lib { s with queue, pending, rebuild, caller, owed } := by
  obtain ⟨contents, holds, markdown, kept⟩ := inv.index
  refine
    { flags
      caller := callerFits
      stage := inv.stage
      pending := ?_
      owed := ?_
      promises := fun path texts isPromised => { inv.promises path texts isPromised with }
      uncollected := ?_
      index := ⟨contents, holds, markdown, ?_⟩ }
  · intro path isPending
    rcases pendingFits path isPending with earlier | isAhead
    · exact more _ (inv.pending path earlier)
    · exact isAhead
  · intro isOwed
    rcases owedFits isOwed with earlier | isAhead
    · exact more _ (inv.owed earlier)
    · exact isAhead
  · intro progress isStage path texts isPromised notCollected
    exact coming_mono more (inv.uncollected progress isStage path texts isPromised notCollected)
  · intro path texts isPromised
    rcases kept path texts isPromised with coming | rest
    · exact .inl (coming_mono more coming)
    · exact .inr rest

theorem upcoming_free (free : s.caller = .idle) : s.upcoming = s.stage.job.toList ++ s.queue := by
  simp [State.upcoming, free, Caller.job]

variable (inv : Inv lib s)

include inv

theorem Inv.callerRebuild (free : s.caller = .idle) :
    Inv lib s.callerRebuild ∧ .fullRebuild ∈ s.callerRebuild.jobsAhead := by
  have counted := inv.flags.count
  rw [upcoming_free free] at counted
  cases isRunning : s.rebuild.running with
  | true =>
    have isAfter : s.callerRebuild =
        { s with rebuild := { s.rebuild with rerun := true }, caller := .idle, owed := true } := by
      simp [State.callerRebuild, queueRebuild, isRunning]
    have isAhead : .fullRebuild ∈ s.callerRebuild.jobsAhead := by
      rw [isAfter, mem_jobsAhead]
      exact .inr (.inr (.inr ⟨rfl, rfl⟩))
    refine ⟨?_, isAhead⟩
    rw [isAfter] at isAhead ⊢
    refine inv.callerFrame ⟨?_, inv.flags.running, inv.flags.exclusive, fun _ => isRunning⟩
      trivial (fun job among => ?_) (fun _ isPending => .inl isPending) fun _ => .inr isAhead
    · simpa [State.upcoming, Caller.job] using counted
    · rw [mem_jobsAhead, free] at among
      rw [mem_jobsAhead]
      rcases among with inStage | inQueue | inCaller | ⟨-, isRebuild⟩
      · exact .inl inStage
      · exact .inr (.inl inQueue)
      · cases inCaller
      · exact .inr (.inr (.inr ⟨rfl, isRebuild⟩))
  | false =>
    cases isQueued : s.rebuild.queued with
    | true =>
      have isAfter : s.callerRebuild = s := by
        simp [State.callerRebuild, queueRebuild, isRunning, isQueued, ← free]
      rw [isAfter]
      exact ⟨inv, inv.flags.rebuild_mem isQueued⟩
    | false =>
      have isAfter : s.callerRebuild =
          { s with
            rebuild := { s.rebuild with queued := true }
            caller := .sending .fullRebuild } := by
        simp [State.callerRebuild, queueRebuild, isRunning, isQueued]
      have isAhead : .fullRebuild ∈ s.callerRebuild.jobsAhead := by
        rw [isAfter, mem_jobsAhead]
        exact .inr (.inr (.inl rfl))
      refine ⟨?_, isAhead⟩
      rw [isAfter] at isAhead ⊢
      rw [isQueued] at counted
      refine inv.callerFrame ⟨?_, inv.flags.running, ?_, inv.flags.rerun⟩
        trivial (fun job among => ?_) (fun _ isPending => .inl isPending) fun isOwed =>
          .inl isOwed
      · have one : (s.stage.job.toList ++ s.queue ++ [WriterJob.fullRebuild]).count
            .fullRebuild = 1 := by
          rw [count_append, counted]
          rfl
        exact one
      · intro running
        rw [isRunning] at running
        cases running
      · rw [mem_jobsAhead, free] at among
        rw [mem_jobsAhead]
        rcases among with inStage | inQueue | inCaller | rerun
        · exact .inl inStage
        · exact .inr (.inl inQueue)
        · cases inCaller
        · exact .inr (.inr (.inr rerun))

/-- The caller has got a job to send, or has no more to do. -/
theorem Inv.callerJob (free : s.caller.job = none) {pending : List DocId} {caller : Caller}
    (fits : caller.Fits) (notRebuild : caller.job ≠ some .fullRebuild)
    (pendingFits : ∀ path ∈ pending, path ∈ s.pending ∨ caller.job = some (.indexFile path)) :
    Inv lib { s with pending, caller } := by
  refine inv.callerFrame ⟨?_, inv.flags.running, inv.flags.exclusive, inv.flags.rerun⟩ fits
    (fun job among => ?_) (fun path isPending => ?_) fun isOwed => .inl isOwed
  · have counted := inv.flags.count
    simp only [State.upcoming, free, Option.toList_none, append_nil] at counted
    have none : caller.job.toList.count .fullRebuild = 0 := by
      rw [count_eq_zero, Option.mem_toList]
      exact notRebuild
    simp only [State.upcoming, count_append, none, Nat.add_zero]
    simpa only [count_append] using counted
  · rw [mem_jobsAhead, free] at among
    rw [mem_jobsAhead]
    rcases among with inStage | inQueue | inCaller | rerun
    · exact .inl inStage
    · exact .inr (.inl inQueue)
    · cases inCaller
    · exact .inr (.inr (.inr rerun))
  · rcases pendingFits path isPending with earlier | isJob
    · exact .inl earlier
    · exact .inr (mem_jobsAhead.mpr (.inr (.inr (.inl isJob))))

theorem Inv.notifyWritten (free : s.caller = .idle)
    (listed : isMarkdownPath path = true → isListed path = true) :
    Inv lib (s.notifyWritten path) := by
  unfold State.notifyWritten
  split
  · exact inv
  · rename_i notMarkdown
    have isListed := listed (by simpa using notMarkdown)
    split
    · obtain ⟨requested, isAhead⟩ := inv.callerRebuild free
      exact requested.promise isListed (coming_of_rebuild isAhead)
    · split
      · rename_i waits
        have isQueued := (Bool.and_eq_true_iff.mp waits).1
        exact inv.promise isListed (coming_of_rebuild (inv.flags.rebuild_mem isQueued))
      · exact inv.callerJob (by rw [free]; rfl) isListed (fun none => nomatch none)
          fun _ isPending => .inl isPending

theorem Inv.notifyRemoved {isDir : Bool} (free : s.caller = .idle) :
    Inv lib (s.notifyRemoved path isDir) := by
  unfold State.notifyRemoved
  split
  · exact (inv.callerRebuild free).1
  · refine inv.callerJob (by rw [free]; rfl) trivial (fun same => ?_) fun other isPending => ?_
    · cases same
    · exact .inl (mem_of_mem_filter isPending)

theorem Inv.notifyRenamed {newPath : DocId} {isDir : Bool} (free : s.caller = .idle) :
    Inv lib (s.notifyRenamed path newPath isDir) := by
  unfold State.notifyRenamed
  split
  · exact (inv.callerRebuild free).1
  · refine inv.callerJob (by rw [free]; rfl) trivial (fun same => ?_) fun other isPending => ?_
    · cases same
    · exact .inl (mem_of_mem_filter isPending)

/-- Sending a job moves it from the caller to the end of the queue. -/
theorem Inv.callerSend (isJob : s.caller = .sending job) :
    Inv lib { s with queue := s.queue ++ [job], caller := .idle } := by
  have sameUpcoming : State.upcoming { s with queue := s.queue ++ [job], caller := .idle } =
      s.upcoming := by
    simp [State.upcoming, isJob, Caller.job]
  have same : ∀ job', job' ∈ s.jobsAhead →
      job' ∈ State.jobsAhead { s with queue := s.queue ++ [job], caller := .idle } := by
    intro job' among
    unfold State.jobsAhead at among ⊢
    rw [sameUpcoming]
    exact among
  exact inv.callerFrame
    ⟨sameUpcoming ▸ inv.flags.count, inv.flags.running, inv.flags.exclusive, inv.flags.rerun⟩
    trivial same (fun _ isPending => .inl isPending) fun isOwed => .inl isOwed

theorem Inv.callerStep (stepped : s.callerStep = some s') : Inv lib s' := by
  unfold State.callerStep at stepped
  split at stepped
  · cases stepped
  · rename_i path isInserting
    have listed : isListed path = true := by
      have fits := inv.caller
      rw [isInserting] at fits
      exact fits
    have noJob : s.caller.job = none := by rw [isInserting]; rfl
    split at stepped
    · rename_i isPending
      cases stepped
      have returned : Inv lib { s with caller := .idle } :=
        inv.callerJob noJob trivial (fun none => nomatch none) fun _ earlier => .inl earlier
      exact returned.promise listed (coming_of_index (returned.pending path isPending))
    · cases stepped
      refine inv.callerJob noJob listed (fun same => by cases same) fun other isPending => ?_
      rcases mem_cons.mp isPending with rfl | earlier
      · exact .inr rfl
      · exact .inl earlier
  · rename_i job isSending
    have sent := inv.callerSend isSending
    split at stepped
    · rename_i path
      cases stepped
      have listed : isListed path = true := by
        have fits := inv.caller
        rw [isSending] at fits
        exact fits
      have isAhead : .indexFile path ∈
          State.jobsAhead { s with queue := s.queue ++ [.indexFile path], caller := .idle } :=
        mem_jobsAhead.mpr (.inr (.inl (mem_append_right _ (mem_singleton_self _))))
      exact sent.promise listed (coming_of_index isAhead)
    · cases stepped
      exact sent

end Queue

end Kuku.Search
