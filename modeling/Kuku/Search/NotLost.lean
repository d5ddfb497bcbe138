/-
# Search.NotLost -- no index update is lost

The writer's steps keep `Inv` as long as they are safe: a removal or a rename away does not take
the row of a path that is promised and that no job ahead reads, a document brings the uid of its
own row, and a rebuild that fails was waited for by nobody.  When the queue is empty and nobody
holds a job, every promise is then kept by the index itself.
-/
import Kuku.Search.QueueInvariant

namespace Kuku.Search

open Kuku.Theory List Function Option Assoc

namespace Queue

variable {lib : Library} {s s' : State} {path other : DocId} {texts : List (List Char)}
  {file : File} {job : WriterJob} {contents : DocId → Option File} {stage : Stage} {db : Db}

/-! ## Steps inside a job -/

/-- A step inside a job leaves the jobs ahead. -/
theorem Inv.insideJob (inv : Inv lib s) (noJob : s.stage.job = none) (noJobAfter : stage.job = none)
    (sameKind : stage.isRebuild = s.stage.isRebuild) (fits : stage.Fits db)
    (uncollected : ∀ progress, stage = .rebuilding progress → ∀ path texts,
      s.promised.get path = some texts → path ∉ progress.files → s.coming path = true)
    (index : ∃ contents, HoldsText lib contents db ∧
      (∀ path, contents path ≠ none → isMarkdownPath path) ∧
      ∀ path texts, s.promised.get path = some texts →
        s.coming path = true ∨ stage.WillRead path ∨ Shown (ahead contents stage path) texts) :
    Inv lib { s with stage, db } := by
  have sameUpcoming : State.upcoming { s with stage, db } = s.upcoming := by
    simp [State.upcoming, noJob, noJobAfter]
  have same : State.jobsAhead { s with stage, db } = s.jobsAhead := by
    simp only [State.jobsAhead, sameUpcoming]
  have sameComing : ∀ path, State.coming { s with stage, db } path = s.coming path := by
    intro path
    simp only [State.coming, same]
  refine
    { flags := ?_
      caller := inv.caller
      stage := fits
      pending := same ▸ inv.pending
      owed := same ▸ inv.owed
      promises := fun path texts isPromised => { inv.promises path texts isPromised with }
      uncollected := ?_
      index := ?_ }
  · exact ⟨sameUpcoming ▸ inv.flags.count, inv.flags.running.trans sameKind.symm,
      inv.flags.exclusive, inv.flags.rerun⟩
  · intro progress isStage path texts isPromised notCollected
    rw [sameComing]
    exact uncollected progress isStage path texts isPromised notCollected
  · obtain ⟨contents, holds, markdown, kept⟩ := index
    refine ⟨contents, holds, markdown, fun path texts isPromised => ?_⟩
    unfold Kept
    rw [sameComing]
    exact kept path texts isPromised

/-- A promised path is read as it is. -/
theorem Inv.read_promised (inv : Inv lib s) (isPromised : s.promised.get path = some texts) :
    ∃ file, s.readMarkdown path = some (some file) ∧ file.markdown ∈ texts := by
  obtain ⟨listed, readable, file, isFile, isText⟩ := inv.promises path texts isPromised
  have isMarkdown := Vault.markdown_of_listed listed
  refine ⟨file, ?_, isText⟩
  simp [State.readMarkdown, readable, Vault.markdownFile, isMarkdown, isFile]

variable {found : Option File}

theorem markdown_of_read (isRead : s.readMarkdown path = some found) (isThere : found.isSome) :
    isMarkdownPath path = true := by
  unfold State.readMarkdown at isRead
  split at isRead
  · cases isRead
  · cases isRead
    unfold Vault.markdownFile at isThere
    split at isThere
    · assumption
    · cases isThere

theorem Inv.not_promised (inv : Inv lib s) (fails : s.readMarkdown path = none) :
    s.promised.get path = none := by
  cases isPromised : s.promised.get path with
  | none => rfl
  | some texts =>
    obtain ⟨file, isRead, -⟩ := inv.read_promised isPromised
    rw [fails] at isRead
    cases isRead

/-! ## IndexFile and RenameFile -/

theorem Inv.reading (inv : Inv lib s) (isStage : s.stage = .reading path) :
    (s.readMarkdown path = none → Inv lib { s with stage := .idle }) ∧
      ∀ found, s.readMarkdown path = some found →
        Inv lib { s with stage := .writingIndex path found } := by
  have noJob : s.stage.job = none := by rw [isStage]; rfl
  obtain ⟨contents, holds, markdown, kept⟩ := inv.index
  have cases : ∀ other texts, s.promised.get other = some texts →
      s.coming other = true ∨ other = path ∨ Shown (contents other) texts := by
    intro other texts isPromised
    have isKept := kept other texts isPromised
    unfold Kept at isKept
    rw [isStage] at isKept
    rcases isKept with coming | same | shown
    · exact .inl coming
    · exact .inr (.inl same.symm)
    · exact .inr (.inr shown)
  refine ⟨fun fails => ?_, fun found isRead => ?_⟩
  · refine inv.insideJob noJob rfl (by rw [isStage]; rfl) trivial
      (fun _ none => by cases none) ⟨contents, holds, markdown, fun other texts isPromised => ?_⟩
    rcases cases other texts isPromised with coming | rfl | shown
    · exact .inl coming
    · rw [inv.not_promised fails] at isPromised
      cases isPromised
    · exact .inr (.inr shown)
  · refine inv.insideJob noJob rfl (by rw [isStage]; rfl) (markdown_of_read isRead)
      (fun _ none => by cases none) ⟨contents, holds, markdown, fun other texts isPromised => ?_⟩
    by_cases same : other = path
    · subst same
      obtain ⟨file, isFile, isText⟩ := inv.read_promised isPromised
      rw [isRead] at isFile
      cases isFile
      exact .inr (.inr ⟨file, update_self .., isText⟩)
    · rcases cases other texts isPromised with coming | isPath | ⟨file, isFile, isText⟩
      · exact .inl coming
      · exact absurd isPath same
      · exact .inr (.inr ⟨file, (update_of_ne same ..).trans isFile, isText⟩)

theorem Inv.writingIndex (inv : Inv lib s) (isStage : s.stage = .writingIndex path found)
    (own : found.isSome → takesOver s.db path = false) :
    Inv lib { s with
      db := writeIndexFile lib s.db path (found.map (lib.indexed (existingNoteUid s.db path) path))
      stage := .idle } := by
  obtain ⟨contents, holds, markdown, kept⟩ := inv.index
  have fits := inv.stage
  rw [isStage] at fits
  refine inv.insideJob (by rw [isStage]; rfl) rfl (by rw [isStage]; rfl) trivial
    (fun _ none => by cases none)
    ⟨Function.update contents path found, holds.writeIndexFile own, fun other isThere => ?_,
      fun other texts isPromised => ?_⟩
  · by_cases same : other = path
    · rw [same, update_self] at isThere
      exact same ▸ fits (ne_none_iff_isSome.mp isThere)
    · rw [update_of_ne same] at isThere
      exact markdown other isThere
  · have isKept := kept other texts isPromised
    unfold Kept at isKept
    rw [isStage] at isKept
    rcases isKept with coming | willRead | shown
    · exact .inl coming
    · cases willRead
    · exact .inr (.inr shown)

theorem afterRename_markdown {oldPath newPath : DocId}
    (markdown : ∀ path, contents path ≠ none → isMarkdownPath path)
    (isMarkdown : found.isSome → isMarkdownPath newPath = true)
    (isThere : afterRename contents oldPath newPath found other ≠ none) : isMarkdownPath other := by
  have removed : afterRemove contents oldPath other ≠ none → isMarkdownPath other := by
    intro isHeld
    rw [afterRemove_eq markdown] at isHeld
    by_cases isOld : other = oldPath
    · rw [isOld, update_self] at isHeld
      exact absurd rfl isHeld
    · rw [update_of_ne isOld] at isHeld
      exact markdown other isHeld
  cases found with
  | none => exact removed isThere
  | some file =>
    by_cases isNew : other = newPath
    · exact isNew ▸ isMarkdown rfl
    · rw [afterRename, update_of_ne isNew] at isThere
      exact removed isThere

theorem Inv.writingRename {newPath : DocId} (inv : Inv lib s)
    (isStage : s.stage = .writingRename path newPath found) :
    Inv lib { s with
      db := writeRenameFile lib s.db path newPath
        (found.map (lib.indexed (existingNoteUid s.db newPath) newPath))
      stage := .idle } := by
  obtain ⟨contents, holds, markdown, kept⟩ := inv.index
  have fits := inv.stage
  rw [isStage] at fits
  refine inv.insideJob (by rw [isStage]; rfl) rfl (by rw [isStage]; rfl) trivial
    (fun _ none => by cases none)
    ⟨afterRename contents path newPath found, holds.writeRenameFile markdown,
      fun other => afterRename_markdown markdown fits, fun other texts isPromised => ?_⟩
  have isKept := kept other texts isPromised
  unfold Kept at isKept
  rw [isStage] at isKept
  rcases isKept with coming | willRead | shown
  · exact .inl coming
  · cases willRead
  · exact .inr (.inr shown)

/-! ## Beginning a job -/

section Begin

variable {pending : List DocId}

theorem ahead_begun (isStage : s.stage = .popped job) {job' : WriterJob}
    (among : job' ∈ s.jobsAhead) :
    job' = job ∨ job' ∈ State.jobsAhead { s with pending, stage, db } := by
  rw [mem_jobsAhead, isStage] at among
  rw [mem_jobsAhead]
  rcases among with isJob | rest
  · exact .inl (Option.some.inj isJob).symm
  · exact .inr (.inr rest)

theorem coming_begun (isStage : s.stage = .popped job) (coming : s.coming path = true) :
    reads path job = true ∨ State.coming { s with pending, stage, db } path = true := by
  obtain ⟨job', among, isRead⟩ := coming_iff.mp coming
  rcases ahead_begun isStage among with rfl | stillAhead
  · exact .inl isRead
  · exact .inr (coming_iff.mpr ⟨job', stillAhead, isRead⟩)

variable (inv : Inv lib s)

include inv

theorem Inv.beginJob (isStage : s.stage = .popped job) (notRebuild : job ≠ .fullRebuild)
    (noJobAfter : stage.job = none) (notRebuilding : stage.isRebuild = false) (fits : stage.Fits db)
    (pendingFits : ∀ path ∈ pending, path ∈ s.pending ∧ job ≠ .indexFile path)
    (index : ∃ contents, HoldsText lib contents db ∧
      (∀ path, contents path ≠ none → isMarkdownPath path) ∧
      ∀ path texts, s.promised.get path = some texts →
        State.coming { s with pending, stage, db } path = true ∨ stage.WillRead path ∨
          Shown (ahead contents stage path) texts) :
    Inv lib { s with pending, stage, db } where
  flags := by
    have counted := inv.flags.count
    have isRunning := inv.flags.running
    rw [isStage] at isRunning
    refine ⟨?_, isRunning.trans notRebuilding.symm, inv.flags.exclusive, inv.flags.rerun⟩
    have isJob : (Stage.popped job).job = some job := rfl
    simpa [State.upcoming, isStage, isJob, noJobAfter, count_cons, notRebuild] using counted
  caller := inv.caller
  stage := fits
  pending := by
    intro path isPending
    obtain ⟨wasPending, isOther⟩ := pendingFits path isPending
    rcases ahead_begun isStage (inv.pending path wasPending) with same | stillAhead
    · exact absurd same.symm isOther
    · exact stillAhead
  owed := by
    intro isOwed
    rcases ahead_begun isStage (inv.owed isOwed) with same | stillAhead
    · exact absurd same.symm notRebuild
    · exact stillAhead
  promises := fun path texts isPromised => { inv.promises path texts isPromised with }
  uncollected := by
    rintro progress isRebuilding
    change stage = _ at isRebuilding
    rw [isRebuilding] at notRebuilding
    cases notRebuilding
  index

/-- What a popped job finds: a promise rests on the job, on another one or on the index. -/
theorem Inv.popped (isStage : s.stage = .popped job) :
    ∃ contents, HoldsText lib contents s.db ∧
      (∀ path, contents path ≠ none → isMarkdownPath path) ∧
      ∀ path texts, s.promised.get path = some texts →
        s.coming path = true ∨ Shown (contents path) texts := by
  obtain ⟨contents, holds, markdown, kept⟩ := inv.index
  refine ⟨contents, holds, markdown, fun path texts isPromised => ?_⟩
  have isKept := kept path texts isPromised
  unfold Kept at isKept
  rw [isStage] at isKept
  rcases isKept with coming | willRead | shown
  · exact .inl coming
  · cases willRead
  · exact .inr shown

theorem Inv.beginIndex (isStage : s.stage = .popped (.indexFile path)) :
    Inv lib (s.jobStep lib (.indexFile path)) := by
  obtain ⟨contents, holds, markdown, kept⟩ := inv.popped isStage
  have pendingFits : ∀ other ∈ s.pending.filter (fun other => other ≠ path),
      other ∈ s.pending ∧ WriterJob.indexFile path ≠ .indexFile other := by
    intro other isPending
    obtain ⟨wasPending, differs⟩ := mem_filter.mp isPending
    refine ⟨wasPending, fun same => of_decide_eq_true differs ?_⟩
    cases same
    rfl
  have isMarkdown : ∀ texts, s.promised.get path = some texts → isMarkdownPath path = true :=
    fun texts isPromised =>
      Vault.markdown_of_listed (inv.promises path texts isPromised).listed
  unfold State.jobStep
  simp only
  split
  · refine inv.beginJob isStage (fun same => by cases same) rfl rfl trivial pendingFits
      ⟨contents, holds, markdown, fun other texts isPromised => ?_⟩
    rcases kept other texts isPromised with coming | shown
    · rcases coming_begun isStage coming with isRead | stillComing
      · have same : path = other := of_decide_eq_true isRead
        exact .inr (.inl same)
      · exact .inl stillComing
    · exact .inr (.inr shown)
  · rename_i notMarkdown
    refine inv.beginJob isStage (fun same => by cases same) rfl rfl trivial pendingFits
      ⟨contents, holds, markdown, fun other texts isPromised => ?_⟩
    rcases kept other texts isPromised with coming | shown
    · rcases coming_begun isStage coming with isRead | stillComing
      · have same : path = other := of_decide_eq_true isRead
        exact absurd (isMarkdown texts (same ▸ isPromised)) notMarkdown
      · exact .inl stillComing
    · exact .inr (.inr shown)

theorem Inv.beginRemove (isStage : s.stage = .popped (.removeFile path false))
    (mayLose : s.mayLose path = true) :
    Inv lib { s with db := handleRemoveFile lib s.db path, stage := .idle } := by
  obtain ⟨contents, holds, markdown, kept⟩ := inv.popped isStage
  have stillComing : ∀ other, s.coming other = true →
      State.coming { s with db := handleRemoveFile lib s.db path, stage := .idle } other =
        true := by
    intro other coming
    rcases coming_begun isStage coming with isRead | stillComing
    · cases isRead
    · exact stillComing
  refine inv.beginJob isStage (fun same => by cases same) rfl rfl trivial
    (fun other isPending => ⟨isPending, fun same => by cases same⟩)
    ⟨afterRemove contents path, holds.removeFile, fun other isThere => ?_,
      fun other texts isPromised => ?_⟩
  · rw [afterRemove_eq markdown] at isThere
    by_cases same : other = path
    · rw [same, update_self] at isThere
      exact absurd rfl isThere
    · rw [update_of_ne same] at isThere
      exact markdown other isThere
  · by_cases same : other = path
    · rw [same] at isPromised ⊢
      have coming : s.coming path = true := by
        simpa [State.mayLose, isPromised] using mayLose
      exact .inl (stillComing path coming)
    · rcases kept other texts isPromised with coming | ⟨file, isFile, isText⟩
      · exact .inl (stillComing other coming)
      · refine .inr (.inr ⟨file, ?_, isText⟩)
        change afterRemove contents path other = some file
        rw [afterRemove_eq markdown, update_of_ne same]
        exact isFile

theorem Inv.beginRename {newPath : DocId}
    (isStage : s.stage = .popped (.renameFile path newPath false))
    (safe : (s.readMarkdown newPath).isSome → path ≠ newPath → s.mayLose path = true) :
    (s.readMarkdown newPath = none → Inv lib { s with stage := .idle }) ∧
      ∀ found, s.readMarkdown newPath = some found →
        Inv lib { s with stage := .writingRename path newPath found } := by
  obtain ⟨contents, holds, markdown, kept⟩ := inv.popped isStage
  have stays : ∀ other ∈ s.pending,
      other ∈ s.pending ∧ WriterJob.renameFile path newPath false ≠ .indexFile other :=
    fun other isPending => ⟨isPending, fun same => by cases same⟩
  have notRebuild : WriterJob.renameFile path newPath false ≠ .fullRebuild :=
    fun same => by cases same
  refine ⟨fun fails => ?_, fun found isRead => ?_⟩
  · refine inv.beginJob isStage notRebuild rfl rfl trivial stays
      ⟨contents, holds, markdown, fun other texts isPromised => ?_⟩
    rcases kept other texts isPromised with coming | shown
    · rcases coming_begun isStage coming with isRead | stillComing
      · have same : newPath = other := of_decide_eq_true isRead
        rw [← same, inv.not_promised fails] at isPromised
        cases isPromised
      · exact .inl stillComing
    · exact .inr (.inr shown)
  · refine inv.beginJob isStage notRebuild rfl rfl (markdown_of_read isRead) stays
      ⟨contents, holds, markdown, fun other texts isPromised => ?_⟩
    by_cases isNew : other = newPath
    · subst isNew
      obtain ⟨file, isFile, isText⟩ := inv.read_promised isPromised
      rw [isRead] at isFile
      cases isFile
      exact .inr (.inr ⟨file, update_self .., isText⟩)
    · have notRead : reads other (.renameFile path newPath false) = false :=
        decide_eq_false (Ne.symm isNew)
      have stillComing : s.coming other = true →
          State.coming { s with stage := .writingRename path newPath found } other = true := by
        intro coming
        rcases coming_begun isStage coming with isRead | stillComing
        · rw [notRead] at isRead
          cases isRead
        · exact stillComing
      by_cases isOld : other = path
      · subst isOld
        have lose := safe (by rw [isRead]; rfl) isNew
        have coming : s.coming other = true := by
          simpa [State.mayLose, isPromised] using lose
        exact .inl (stillComing coming)
      · rcases kept other texts isPromised with coming | ⟨file, isFile, isText⟩
        · exact .inl (stillComing coming)
        · refine .inr (.inr ⟨file, ?_, isText⟩)
          have removed : afterRemove contents path other = some file := by
            rw [afterRemove_eq markdown, update_of_ne isOld]
            exact isFile
          cases found with
          | none => exact removed
          | some new => exact (update_of_ne isNew ..).trans removed

/-- A directory job ends in a rebuild, whoever queues it. -/
theorem Inv.directoryMutation (isStage : s.stage = .popped job) (notRebuild : job ≠ .fullRebuild)
    (notIndex : ∀ path, job ≠ .indexFile path) :
    Inv lib s.directoryMutation := by
  obtain ⟨contents, holds, markdown, -⟩ := inv.popped isStage
  have isRunning : s.rebuild.running = false := by
    rw [inv.flags.running, isStage]
    rfl
  have noRerun : s.rebuild.rerun = false := by
    by_contra rerun
    rw [Bool.not_eq_false] at rerun
    exact Bool.noConfusion (isRunning.symm.trans (inv.flags.rerun rerun))
  have counted := inv.flags.count
  have isJob : (Stage.popped job).job = some job := rfl
  simp only [State.upcoming, isStage, isJob, toList_some, cons_append,
    nil_append, count_cons_of_ne notRebuild] at counted
  cases isQueued : s.rebuild.queued with
  | true =>
    have isAfter : s.directoryMutation = { s with stage := .idle } := by
      simp [State.directoryMutation, queueRebuild, isRunning, isQueued]
    have isAhead : .fullRebuild ∈ State.jobsAhead { s with stage := .idle } := by
      rcases ahead_begun isStage (inv.flags.rebuild_mem isQueued) with same | stillAhead
      · exact absurd same.symm notRebuild
      · exact stillAhead
    rw [isAfter]
    exact inv.beginJob isStage notRebuild rfl rfl trivial
      (fun path isPending => ⟨isPending, notIndex path⟩)
      ⟨contents, holds, markdown, fun path texts _ => .inl (coming_of_rebuild isAhead)⟩
  | false =>
    have isAfter : s.directoryMutation =
        { s with
          rebuild := { s.rebuild with queued := true }
          stage := .sending .fullRebuild } := by
      simp [State.directoryMutation, queueRebuild, isRunning, isQueued]
    have isAhead : .fullRebuild ∈ s.directoryMutation.jobsAhead := by
      rw [isAfter, mem_jobsAhead]
      exact .inl rfl
    rw [isAfter] at isAhead ⊢
    exact
      { flags := by
          refine ⟨?_, isRunning, fun running => ?_, inv.flags.rerun⟩
          · rw [isQueued] at counted
            have sent : (Stage.sending .fullRebuild).job = some .fullRebuild := rfl
            simp only [State.upcoming, sent, toList_some, cons_append,
              nil_append, count_cons_self, counted]
            rfl
          · exact Bool.noConfusion (isRunning.symm.trans running)
        caller := inv.caller
        stage := trivial
        pending := by
          intro path isPending
          have earlier := inv.pending path isPending
          rw [mem_jobsAhead, isStage] at earlier
          rw [mem_jobsAhead]
          rcases earlier with same | rest
          · exact absurd (Option.some.inj same) (notIndex path)
          · exact .inr rest
        owed := fun _ => isAhead
        promises := fun path texts isPromised => { inv.promises path texts isPromised with }
        uncollected := fun _ none => by cases none
        index := ⟨contents, holds, markdown, fun path texts _ =>
          .inl (coming_of_rebuild isAhead)⟩ }

theorem Inv.beginRebuild (isStage : s.stage = .popped .fullRebuild) :
    Inv lib (s.jobStep lib .fullRebuild) := by
  obtain ⟨contents, holds, markdown, -⟩ := inv.popped isStage
  have counted := inv.flags.count
  have isJob : (Stage.popped .fullRebuild).job = some .fullRebuild := rfl
  simp only [State.upcoming, isStage, isJob, toList_some, cons_append,
    nil_append, count_cons_self] at counted
  have none : (s.queue ++ s.caller.job.toList).count .fullRebuild = 0 := by
    have small : s.rebuild.queued.toNat ≤ 1 := Bool.toNat_le _
    omega
  exact
    { flags := by
        refine ⟨?_, rfl, fun _ => rfl, fun _ => rfl⟩
        exact none
      caller := inv.caller
      stage := trivial
      pending := by
        intro path isPending
        rcases mem_jobsAhead.mp (inv.pending path isPending) with same | rest
        · rw [isStage] at same
          cases same
        · exact mem_jobsAhead.mpr (.inr rest)
      owed := fun isOwed => Bool.noConfusion isOwed
      promises := fun path texts isPromised => { inv.promises path texts isPromised with }
      uncollected := fun _ none => by cases none
      index := ⟨contents, holds, markdown, fun _ _ _ => .inr (.inl trivial)⟩ }

end Begin

/-! ## Moving a job -/

variable (inv : Inv lib s)

include inv

/-- The same jobs are ahead, in the hands of another. -/
theorem Inv.moveJob {queue : List WriterJob} {rebuild : RebuildQueueState}
    (flags : FlagsFit { s with queue, rebuild, stage }) (fits : stage.Fits s.db)
    (notRebuilding : ∀ progress, stage ≠ .rebuilding progress)
    (more : ∀ job ∈ s.jobsAhead, job ∈ State.jobsAhead { s with queue, rebuild, stage })
    (willRead : ∀ path, s.stage.WillRead path → stage.WillRead path)
    (sameAhead : ∀ contents, ahead contents stage = ahead contents s.stage) :
    Inv lib { s with queue, rebuild, stage } := by
  obtain ⟨contents, holds, markdown, kept⟩ := inv.index
  refine
    { flags
      caller := inv.caller
      stage := fits
      pending := fun path isPending => more _ (inv.pending path isPending)
      owed := fun isOwed => more _ (inv.owed isOwed)
      promises := fun path texts isPromised => { inv.promises path texts isPromised with }
      uncollected := fun progress isRebuilding => absurd isRebuilding (notRebuilding progress)
      index := ⟨contents, holds, markdown, fun path texts isPromised => ?_⟩ }
  rcases kept path texts isPromised with coming | reads | shown
  · exact .inl (coming_mono more coming)
  · exact .inr (.inl (willRead path reads))
  · refine .inr (.inr ?_)
    change Shown (ahead contents stage path) texts
    rw [sameAhead]
    exact shown

theorem Inv.pop {rest : List WriterJob} (isStage : s.stage = .idle) (queued : s.queue = job :: rest) :
    Inv lib { s with queue := rest, stage := .popped job } := by
  have same : State.upcoming { s with queue := rest, stage := .popped job } = s.upcoming := by
    simp [State.upcoming, isStage, queued, Stage.job]
  refine inv.moveJob ⟨same ▸ inv.flags.count, ?_, inv.flags.exclusive, inv.flags.rerun⟩ trivial
    (fun _ none => by cases none) (fun job' among => ?_) (fun _ none => ?_) fun _ => ?_
  · rw [inv.flags.running, isStage]
    rfl
  · unfold State.jobsAhead at among ⊢
    rw [same]
    exact among
  · rw [isStage] at none
    cases none
  · rw [isStage]
    rfl

theorem Inv.send (isStage : s.stage = .sending job) :
    Inv lib { s with queue := s.queue ++ [job], stage := .idle } := by
  have isJob : (Stage.sending job).job = some job := rfl
  have noJob : Stage.idle.job = none := rfl
  refine inv.moveJob ⟨?_, ?_, inv.flags.exclusive, inv.flags.rerun⟩ trivial
    (fun _ none => by cases none) (fun job' among => ?_) (fun _ none => ?_) fun _ => ?_
  · have counted := inv.flags.count
    simp only [State.upcoming, isStage, isJob, count_append, toList_some] at counted
    simp only [State.upcoming, noJob, count_append, toList_none, count_nil]
    omega
  · rw [inv.flags.running, isStage]
    rfl
  · rw [mem_jobsAhead, isStage] at among
    rw [mem_jobsAhead]
    rcases among with isIt | inQueue | rest
    · have same : job = job' := Option.some.inj isIt
      exact .inr (.inl (mem_append_right _ (same ▸ mem_singleton_self _)))
    · exact .inr (.inl (mem_append_left _ inQueue))
    · exact .inr (.inr rest)
  · rw [isStage] at none
    cases none
  · rw [isStage]
    rfl

theorem Inv.finish (isStage : s.stage = .finishing) : Inv lib s.finish := by
  have isRunning : s.rebuild.running = true := by
    rw [inv.flags.running, isStage]
    rfl
  have notQueued := inv.flags.exclusive isRunning
  have counted := inv.flags.count
  have noJob : Stage.finishing.job = none := rfl
  simp only [State.upcoming, isStage, noJob, toList_none, nil_append] at counted
  have notReading : ∀ path, ¬ s.stage.WillRead path := by
    intro path willRead
    rw [isStage] at willRead
    exact willRead
  unfold State.finish
  split
  · refine inv.moveJob ⟨?_, rfl, fun running => Bool.noConfusion running,
      fun rerun => Bool.noConfusion rerun⟩ trivial (fun _ none => by cases none)
      (fun job' among => ?_) (fun path willRead => absurd willRead (notReading path)) fun _ => ?_
    · have sent : (Stage.sending .fullRebuild).job = some .fullRebuild := rfl
      simp only [State.upcoming, sent, toList_some, cons_append, nil_append,
        count_cons_self, counted, notQueued]
      rfl
    · rw [mem_jobsAhead, isStage] at among
      rw [mem_jobsAhead]
      rcases among with none | inQueue | inCaller | ⟨-, isRebuild⟩
      · cases none
      · exact .inr (.inl inQueue)
      · exact .inr (.inr (.inl inCaller))
      · exact .inl (isRebuild ▸ rfl)
    · rw [isStage]
      rfl
  · rename_i noRerun
    refine inv.moveJob ⟨?_, rfl, fun running => Bool.noConfusion running,
      fun rerun => absurd rerun noRerun⟩ trivial (fun _ none => by cases none)
      (fun job' among => ?_) (fun path willRead => absurd willRead (notReading path)) fun _ => ?_
    · exact counted
    · rw [mem_jobsAhead, isStage] at among
      rw [mem_jobsAhead]
      exact among
    · rw [isStage]
      rfl

/-! ## The reads and transactions of a rebuild -/

/-- A promised path is there, so the walk collects it. -/
theorem Inv.collected (isPromised : s.promised.get path = some texts) :
    path ∈ Table.sorted id s.vault.collectMarkdownFiles := by
  obtain ⟨listed, -, file, isFile, -⟩ := inv.promises path texts isPromised
  rw [Table.mem_sorted, Vault.mem_collectMarkdownFiles, Vault.listed, if_pos listed, isFile]
  rfl

theorem Inv.collect (isStage : s.stage = .collecting) :
    Inv lib { s with
      stage := .rebuilding
        ⟨Table.sorted id s.vault.collectMarkdownFiles, [], [], rebuildBatches s.vault⟩ } := by
  obtain ⟨contents, holds, markdown, -⟩ := inv.index
  refine inv.insideJob (by rw [isStage]; rfl) rfl (by rw [isStage]; rfl)
    ⟨nodup_flatten_rebuildBatches, fun _ none => by cases none⟩ ?_
    ⟨contents, holds, markdown, fun path texts isPromised => .inr (.inl (.inr ?_))⟩
  · rintro progress isProgress path texts isPromised notCollected
    cases isProgress
    exact absurd (inv.collected isPromised) notCollected
  · rw [flatten_rebuildBatches]
    exact inv.collected isPromised

omit inv

section Rebuilding

variable {progress : Progress} {rest : List DocId} {found : Option File}

variable (inv : Inv lib s)

include inv

variable (isStage : s.stage = .rebuilding progress)

include isStage

theorem Inv.rebuilding :
    ∃ contents, HoldsText lib contents s.db ∧
      (∀ path, contents path ≠ none → isMarkdownPath path) ∧
      ∀ path texts, s.promised.get path = some texts →
        s.coming path = true ∨ (path ∈ progress.batch ∨ path ∈ progress.later.flatten) ∨
          Shown (overlay contents progress.docs path) texts := by
  obtain ⟨contents, holds, markdown, kept⟩ := inv.index
  refine ⟨contents, holds, markdown, fun path texts isPromised => ?_⟩
  have isKept := kept path texts isPromised
  unfold Kept at isKept
  rw [isStage] at isKept
  exact isKept

theorem Inv.readOne (isBatch : progress.batch = path :: rest)
    (isRead : s.readMarkdown path = some found) (own : found.isSome → takesOver s.db path = false) :
    Inv lib { s with
      stage := .rebuilding
        { progress with
          docs := progress.docs ++ (found.map (Prod.mk path)).toList
          batch := rest } } := by
  obtain ⟨contents, holds, markdown, kept⟩ := inv.rebuilding isStage
  have fits := inv.stage
  rw [isStage] at fits
  obtain ⟨distinct, docsFit⟩ := fits
  rw [isBatch] at distinct kept
  have absent : path ∉ progress.docs.map Prod.fst := by
    intro again
    rw [append_assoc, nodup_append] at distinct
    exact distinct.2.2 path again path mem_cons_self rfl
  have keys : ((progress.docs ++ (found.map (Prod.mk path)).toList).map Prod.fst).Sublist
      (progress.docs.map Prod.fst ++ [path]) := by
    rw [map_append]
    cases found with
    | none => exact (nil_sublist _).append_left _
    | some file => exact List.Sublist.refl _
  refine inv.insideJob (by rw [isStage]; rfl) rfl (by rw [isStage]; rfl) ⟨?_, ?_⟩ ?_
    ⟨contents, holds, markdown, fun other texts isPromised => ?_⟩
  · have regrouped : (progress.docs.map Prod.fst ++ [path]) ++ rest ++ progress.later.flatten =
        progress.docs.map Prod.fst ++ (path :: rest) ++ progress.later.flatten := by simp
    rw [← regrouped] at distinct
    exact distinct.sublist ((keys.append_right rest).append_right _)
  · intro doc among
    rcases mem_append.mp among with earlier | isNew
    · exact docsFit doc earlier
    · cases found with
      | none => cases isNew
      | some file =>
        rw [map_some, toList_some, mem_singleton] at isNew
        subst isNew
        exact ⟨markdown_of_read isRead rfl, own rfl⟩
  · rintro after isAfter other texts isPromised notCollected
    cases isAfter
    exact inv.uncollected progress isStage other texts isPromised notCollected
  · by_cases same : other = path
    · subst same
      obtain ⟨file, isFile, isText⟩ := inv.read_promised isPromised
      rw [isRead] at isFile
      cases isFile
      refine .inr (.inr ⟨file, ?_, isText⟩)
      have isNew : get [(other, file)] other = some file := by simp [get_cons]
      simp only [ahead, overlay, map_some, toList_some, get_append,
        get_eq_none absent, isNew, none_or, some_or]
    · rcases kept other texts isPromised with coming | (inBatch | later) | ⟨file, isFile, isText⟩
      · exact .inl coming
      · exact .inr (.inl (.inl ((mem_cons.mp inBatch).resolve_left same)))
      · exact .inr (.inl (.inr later))
      · refine .inr (.inr ⟨file, ?_, isText⟩)
        have notNew : get (found.map (Prod.mk path)).toList other = none := by
          cases found with
          | none => rfl
          | some new => simp [get_cons, Ne.symm same]
        simp only [ahead, overlay, get_append, notNew, or_none]
        exact isFile

theorem Inv.failRebuild (mayFail : s.mayFail lib = true) :
    Inv lib { s with rebuild := {}, stage := .idle } := by
  obtain ⟨contents, holds, markdown, -⟩ := inv.rebuilding isStage
  obtain ⟨noRerun, allKept⟩ := Bool.and_eq_true_iff.mp mayFail
  have isRunning : s.rebuild.running = true := by
    rw [inv.flags.running, isStage]
    rfl
  have counted := inv.flags.count
  rw [inv.flags.exclusive isRunning] at counted
  have sameUpcoming : State.upcoming { s with rebuild := {}, stage := .idle } = s.upcoming := by
    simp [State.upcoming, isStage, Stage.job]
  have more : ∀ job ∈ s.jobsAhead,
      job ∈ State.jobsAhead { s with rebuild := {}, stage := .idle } := by
    intro job among
    rw [mem_jobsAhead, isStage] at among
    rw [mem_jobsAhead]
    rcases among with none | inQueue | inCaller | ⟨rerun, -⟩
    · cases none
    · exact .inr (.inl inQueue)
    · exact .inr (.inr (.inl inCaller))
    · rw [rerun] at noRerun
      cases noRerun
  refine
    { flags := ⟨sameUpcoming ▸ counted, rfl, fun running => Bool.noConfusion running,
        fun rerun => Bool.noConfusion rerun⟩
      caller := inv.caller
      stage := trivial
      pending := fun path isPending => more _ (inv.pending path isPending)
      owed := fun isOwed => more _ (inv.owed isOwed)
      promises := fun path texts isPromised => { inv.promises path texts isPromised with }
      uncollected := fun _ none => by cases none
      index := ⟨contents, holds, markdown, fun path texts isPromised => ?_⟩ }
  have isKept := List.all_eq_true.mp allKept _ (mem_of_get isPromised)
  rcases Bool.or_eq_true_iff.mp isKept with coming | shows
  · exact .inl (coming_mono more coming)
  · obtain ⟨text, isText, isFresh⟩ := List.any_eq_true.mp shows
    have stored : s.db.loadDocumentFreshness path = some (lib.computeChecksum text) :=
      of_decide_eq_true isFresh
    have sameText : (⟨text, 0⟩ : File).markdown = text := rfl
    obtain ⟨old, isOld, isSame⟩ := holds.fresh (sameText ▸ stored)
    exact .inr (.inr ⟨old, isOld, isSame ▸ isText⟩)

theorem Inv.writtenBatch (isBatch : progress.batch = []) :
    ∃ contents, HoldsText lib contents (writeBatch s.db (s.builtDocs lib progress.docs)) ∧
      (∀ path, contents path ≠ none → isMarkdownPath path) ∧
      ∀ path texts, s.promised.get path = some texts →
        s.coming path = true ∨ path ∈ progress.later.flatten ∨ Shown (contents path) texts := by
  obtain ⟨contents, holds, markdown, kept⟩ := inv.rebuilding isStage
  have fits := inv.stage
  rw [isStage] at fits
  obtain ⟨distinct, docsFit⟩ := fits
  have docsDistinct : (progress.docs.map Prod.fst).Nodup :=
    distinct.sublist ((sublist_append_left _ _).trans (sublist_append_left _ _))
  have own : ∀ doc ∈ progress.docs, existingNoteUid s.db doc.1 = s.db.findNoteUidByDocId doc.1 :=
    fun doc among => existingNoteUid_eq (docsFit doc among).2
  refine ⟨overlay contents progress.docs, holds.writeBatch docsDistinct own, fun path isThere => ?_,
    fun path texts isPromised => ?_⟩
  · cases isDoc : get progress.docs path with
    | some file => exact (docsFit _ (mem_of_get isDoc)).1
    | none =>
      rw [overlay, isDoc, none_or] at isThere
      exact markdown path isThere
  · rcases kept path texts isPromised with coming | (inBatch | later) | shown
    · exact .inl coming
    · rw [isBatch] at inBatch
      cases inBatch
    · exact .inr (.inl later)
    · exact .inr (.inr shown)

theorem Inv.nextBatch (isBatch : progress.batch = []) {batch : List DocId}
    {later : List (List DocId)} (isLater : progress.later = batch :: later) :
    Inv lib { s with
      db := writeBatch s.db (s.builtDocs lib progress.docs)
      stage := .rebuilding { progress with docs := [], batch, later } } := by
  obtain ⟨contents, holds, markdown, kept⟩ := inv.writtenBatch isStage isBatch
  have fits := inv.stage
  rw [isStage] at fits
  have distinct := fits.1
  rw [isLater, flatten_cons] at distinct
  rw [isLater, flatten_cons] at kept
  refine inv.insideJob (by rw [isStage]; rfl) rfl (by rw [isStage]; rfl)
    ⟨?_, fun _ none => by cases none⟩ ?_
    ⟨contents, holds, markdown, fun path texts isPromised => ?_⟩
  · exact distinct.sublist (sublist_append_right _ _)
  · rintro after isAfter other texts isPromised notCollected
    cases isAfter
    exact inv.uncollected progress isStage other texts isPromised notCollected
  · rcases kept path texts isPromised with coming | inLater | shown
    · exact .inl coming
    · exact .inr (.inl (mem_append.mp inLater))
    · exact .inr (.inr shown)

theorem Inv.lastBatch (isBatch : progress.batch = []) (isLater : progress.later = []) :
    Inv lib { s with
      db := resolveAllWikilinks lib
        (removeStale (writeBatch s.db (s.builtDocs lib progress.docs)) progress.files)
      stage := .finishing } := by
  obtain ⟨contents, holds, markdown, kept⟩ := inv.writtenBatch isStage isBatch
  obtain ⟨contents', holds', stays, fewer⟩ := holds.removeStale progress.files
  rw [isLater] at kept
  refine inv.insideJob (by rw [isStage]; rfl) rfl (by rw [isStage]; rfl) trivial
    (fun _ none => by cases none)
    ⟨contents', holds'.resolveRows _, fun path isThere => markdown path (fewer path isThere),
      fun path texts isPromised => ?_⟩
  by_cases isCollected : path ∈ progress.files
  · rcases kept path texts isPromised with coming | none | ⟨file, isFile, isText⟩
    · exact .inl coming
    · cases none
    · exact .inr (.inr ⟨file, (stays path isCollected).trans isFile, isText⟩)
  · exact .inl (inv.uncollected progress isStage path texts isPromised isCollected)

end Rebuilding

/-! ## Every step -/

theorem Inv.rebuildStep {progress : Progress} (inv : Inv lib s)
    (isStage : s.stage = .rebuilding progress) (safe : s.safeWriter lib = true) :
    Inv lib (s.rebuildStep lib progress) := by
  unfold State.safeWriter at safe
  rw [isStage] at safe
  simp only at safe
  unfold State.rebuildStep
  cases isBatch : progress.batch with
  | cons path rest =>
    rw [isBatch] at safe
    simp only at safe ⊢
    cases isRead : s.readMarkdown path with
    | none =>
      rw [isRead] at safe
      exact inv.failRebuild isStage safe
    | some found =>
      rw [isRead] at safe
      refine inv.readOne isStage isBatch isRead fun isThere => ?_
      simpa [isNone_eq_false_iff.mpr isThere] using safe
  | nil =>
    simp only
    cases isLater : progress.later with
    | cons batch later => exact inv.nextBatch isStage isBatch isLater
    | nil => exact inv.lastBatch isStage isBatch isLater

theorem Inv.jobStep (inv : Inv lib s) (isStage : s.stage = .popped job)
    (safe : s.safeWriter lib = true) : Inv lib (s.jobStep lib job) := by
  unfold State.safeWriter at safe
  rw [isStage] at safe
  cases job with
  | fullRebuild => exact inv.beginRebuild isStage
  | indexFile path => exact inv.beginIndex isStage
  | removeFile path isDir =>
    cases isDir with
    | true =>
      exact inv.directoryMutation isStage (fun same => by cases same) fun _ same => by cases same
    | false => exact inv.beginRemove isStage safe
  | renameFile oldPath newPath isDir =>
    cases isDir with
    | true =>
      exact inv.directoryMutation isStage (fun same => by cases same) fun _ same => by cases same
    | false =>
      have mayLose : (s.readMarkdown newPath).isSome → oldPath ≠ newPath →
          s.mayLose oldPath = true := by
        intro isRead differ
        simpa [isNone_eq_false_iff.mpr isRead, differ] using safe
      obtain ⟨failed, read⟩ := inv.beginRename isStage mayLose
      simp only [State.jobStep]
      cases isRead : s.readMarkdown newPath with
      | none => exact failed isRead
      | some found => exact read found isRead

theorem Inv.writerStep (inv : Inv lib s) (safe : s.safeWriter lib = true)
    (stepped : s.writerStep lib = some s') : Inv lib s' := by
  unfold State.writerStep at stepped
  split at stepped
  · rename_i isStage
    split at stepped
    · cases stepped
    · rename_i job rest queued
      cases stepped
      exact inv.pop isStage queued
  · rename_i job isStage
    cases stepped
    exact inv.jobStep isStage safe
  · rename_i path isStage
    obtain ⟨failed, read⟩ := inv.reading isStage
    split at stepped
    · rename_i isRead
      cases stepped
      exact failed isRead
    · rename_i found isRead
      cases stepped
      exact read found isRead
  · rename_i path found isStage
    cases stepped
    refine inv.writingIndex isStage fun isThere => ?_
    unfold State.safeWriter at safe
    rw [isStage] at safe
    simpa [isNone_eq_false_iff.mpr isThere] using safe
  · rename_i oldPath newPath found isStage
    cases stepped
    exact inv.writingRename isStage
  · rename_i isStage
    cases stepped
    exact inv.collect isStage
  · rename_i progress isStage
    cases stepped
    exact inv.rebuildStep isStage safe
  · rename_i isStage
    cases stepped
    exact inv.finish isStage
  · rename_i job isStage
    cases stepped
    exact inv.send isStage

theorem inv_step {l : Label} (inv : Inv lib s) (allowed : safe lib s l = true)
    (stepped : (system lib).step s l s') : Inv lib s' := by
  change next lib s l = some s' at stepped
  cases l with
  | write path file =>
    cases stepped
    exact inv.write
  | spoil path =>
    simp only [next] at stepped
    split at stepped
    · cases stepped
      exact inv.spoil
    · cases stepped
  | delete path =>
    simp only [next] at stepped
    split at stepped
    · cases stepped
      exact inv.delete
    · cases stepped
  | rename oldPath newPath => exact inv.rename stepped
  | setIncremental incrementalUpdates =>
    cases stepped
    exact
      { inv with
        flags := { inv.flags with }
        promises := fun path texts isPromised => { inv.promises path texts isPromised with } }
  | notifyWritten path =>
    simp only [next] at stepped
    split at stepped
    · rename_i free
      cases stepped
      refine inv.notifyWritten free fun isMarkdown => ?_
      simpa [safe, isMarkdown] using allowed
    · cases stepped
  | notifyRemoved path isDir =>
    simp only [next] at stepped
    split at stepped
    · rename_i free
      cases stepped
      exact inv.notifyRemoved free
    · cases stepped
  | notifyRenamed oldPath newPath isDir =>
    simp only [next] at stepped
    split at stepped
    · rename_i free
      cases stepped
      exact inv.notifyRenamed free
    · cases stepped
  | requestRebuild =>
    simp only [next] at stepped
    split at stepped
    · rename_i free
      cases stepped
      exact (inv.callerRebuild free).1
    · cases stepped
  | caller => exact inv.callerStep stepped
  | writer => exact inv.writerStep allowed stepped

theorem inv_start (starts : Starts lib s) : Inv lib s := by
  obtain ⟨contents, holds, markdown⟩ := starts.index
  have noPromise : ∀ path texts, s.promised.get path ≠ some texts := by
    intro path texts isPromised
    rw [starts.promised] at isPromised
    cases isPromised
  exact
    { flags := by
        refine ⟨?_, ?_, ?_, ?_⟩
        · simp [State.upcoming, starts.stage, starts.queue, starts.caller, starts.rebuild,
            Stage.job, Caller.job]
        · rw [starts.rebuild, starts.stage]
          rfl
        · intro running
          rw [starts.rebuild] at running
          cases running
        · intro rerun
          rw [starts.rebuild] at rerun
          cases rerun
      caller := by
        rw [starts.caller]
        trivial
      stage := by
        rw [starts.stage]
        trivial
      pending := by
        rw [starts.pending]
        exact fun _ none => by cases none
      owed := by
        rw [starts.owed]
        exact fun none => Bool.noConfusion none
      promises := fun path texts isPromised => absurd isPromised (noPromise path texts)
      uncollected := fun _ _ path texts isPromised => absurd isPromised (noPromise path texts)
      index := ⟨contents, holds, markdown,
        fun path texts isPromised => absurd isPromised (noPromise path texts)⟩ }

/-! ## The result -/

/-- The rows of the path are those of the text. -/
def IndexedAs (lib : Library) (db : Db) (path : DocId) (text : List Char) : Prop :=
  ∃ file : File, file.markdown = text ∧
    (∃ row ∈ db.documents, row.docId = path ∧ row = (lib.indexed none path file).row row.noteUid) ∧
    db.chunkRows.filter (fun row => row.docId = path) = (lib.indexed none path file).chunkRows

/-- The queue is empty and no job is in anybody's hands. -/
def Quiet (s : State) : Prop := s.queue = [] ∧ s.stage = .idle ∧ s.caller = .idle

instance (s : State) : Decidable (Quiet s) := inferInstanceAs (Decidable (_ ∧ _ ∧ _))

/-- One rebuild at most is queued or running, and what is set is there. -/
def RebuildOnce (s : State) : Prop :=
  s.upcoming.count .fullRebuild + s.stage.isRebuild.toNat ≤ 1 ∧
    (s.rebuild.queued = true → .fullRebuild ∈ s.upcoming) ∧
    (s.rebuild.running = true → s.stage.isRebuild = true)

/-- Every update whose notification has returned is in the index, and no requested rebuild is
missing. -/
def NothingLost (lib : Library) (s : State) : Prop :=
  (Quiet s → (∀ path texts, s.promised.get path = some texts →
    ∃ text ∈ texts, IndexedAs lib s.db path text) ∧ s.owed = false) ∧ RebuildOnce s

theorem Inv.rebuildOnce (inv : Inv lib s) : RebuildOnce s := by
  obtain ⟨counted, isRunning, exclusive, -⟩ := inv.flags
  refine ⟨?_, fun queued => ?_, fun running => isRunning ▸ running⟩
  · rw [counted, ← isRunning]
    cases running : s.rebuild.running with
    | true =>
      rw [exclusive running]
      decide
    | false => exact Bool.toNat_le _
  · have one : s.upcoming.count .fullRebuild = 1 := by
      rw [counted, queued]
      rfl
    exact count_pos_iff.mp (by omega)

theorem Inv.nothingAhead (inv : Inv lib s) (quiet : Quiet s) : s.jobsAhead = [] := by
  obtain ⟨noQueue, isStage, isCaller⟩ := quiet
  have noRerun : s.rebuild.rerun = false := by
    by_contra rerun
    rw [Bool.not_eq_false] at rerun
    have running := inv.flags.rerun rerun
    rw [inv.flags.running, isStage] at running
    cases running
  simp [State.jobsAhead, State.upcoming, noQueue, isStage, isCaller, noRerun, Stage.job, Caller.job]

/-- **No index update is lost** in a run whose steps are safe. -/
theorem nothing_lost (lib : Library) {s : State}
    (reached : (system lib).ReachableBy (fun s l => safe lib s l) s) : NothingLost lib s := by
  have inv : Inv lib s := reached.invariant (fun _ => inv_start) fun _ _ _ => inv_step
  refine ⟨fun quiet => ⟨fun path texts isPromised => ?_, ?_⟩, inv.rebuildOnce⟩
  · obtain ⟨contents, holds, markdown, kept⟩ := inv.index
    have isKept := kept path texts isPromised
    unfold Kept at isKept
    rw [quiet.2.1] at isKept
    rcases isKept with coming | willRead | ⟨file, isFile, isText⟩
    · obtain ⟨job, isAhead, -⟩ := coming_iff.mp coming
      rw [inv.nothingAhead quiet] at isAhead
      cases isAhead
    · cases willRead
    · change contents path = some file at isFile
      obtain ⟨row, among, isPath, isRow⟩ := holds.row_of_contents isFile
      refine ⟨file.markdown, isText, file, rfl, ⟨row, among, isPath, isRow⟩, ?_⟩
      rw [holds.chunks, isFile]
      rfl
  · by_contra isOwed
    rw [Bool.not_eq_false] at isOwed
    have isAhead := inv.owed isOwed
    rw [inv.nothingAhead quiet] at isAhead
    cases isAhead

/-! ## Runs -/

def emptyStart : State := { vault := Vault.empty }

theorem emptyStart_starts : Starts lib emptyStart where
  index := ⟨fun _ => none, Holds.empty.toHoldsText, fun _ none => absurd rfl none⟩
  queue := rfl
  pending := rfl
  rebuild := rfl
  caller := rfl
  stage := rfl
  promised := rfl
  owed := rfl

def sampleFile : File := ⟨"[[a]]".toList, 0⟩

def writeAndHandle : List Label :=
  [.write "b.md".toList sampleFile, .notifyWritten "b.md".toList, .caller, .caller,
    .writer, .writer, .writer, .writer]

theorem nothing_lost_written : ∃ s,
    System.runWhile (safe sampleLibrary) (next sampleLibrary) emptyStart writeAndHandle = some s ∧
      Quiet s ∧ s.promised = [("b.md".toList, ["[[a]]".toList])] ∧
      NothingLost sampleLibrary s := by
  have ran : (System.runWhile (safe sampleLibrary) (next sampleLibrary) emptyStart
      writeAndHandle).map (fun s => (decide (Quiet s), s.promised)) =
      some (true, [("b.md".toList, ["[[a]]".toList])]) := by decide +kernel
  obtain ⟨s, isRun, report⟩ := map_eq_some_iff.mp ran
  simp only [Prod.mk.injEq, decide_eq_true_eq] at report
  obtain ⟨quiet, isPromised⟩ := report
  have reached : (system sampleLibrary).ReachableBy (fun s l => safe sampleLibrary s l) s :=
    System.reachableBy_of_runWhile (.start emptyStart_starts) isRun
  exact ⟨s, isRun, quiet, isPromised, nothing_lost sampleLibrary reached⟩

/-- A rebuild is queued; the file is deleted, which queues a removal, and written again, which
queues nothing. -/
def removeAfterRebuild : List Label := [.write "b.md".toList sampleFile, .requestRebuild, .caller,
    .delete "b.md".toList, .notifyRemoved "b.md".toList false, .caller,
    .write "b.md".toList sampleFile, .notifyWritten "b.md".toList] ++
  List.replicate 9 .writer

theorem not_nothing_lost : ¬ ∀ lib s, (system lib).Reachable s → NothingLost lib s := by
  intro claim
  have ran : (System.run (next sampleLibrary) emptyStart removeAfterRebuild).map (fun s =>
      (decide (Quiet s ∧ s.db.documents = []), s.promised)) =
      some (true, [("b.md".toList, ["[[a]]".toList])]) := by decide +kernel
  obtain ⟨s, isRun, report⟩ := map_eq_some_iff.mp ran
  simp only [Prod.mk.injEq, decide_eq_true_eq] at report
  obtain ⟨⟨quiet, noRow⟩, isPromised⟩ := report
  have reached : (system sampleLibrary).Reachable s :=
    System.reachable_of_run (.start emptyStart_starts) isRun
  have promised : s.promised.get "b.md".toList = some ["[[a]]".toList] := by
    rw [isPromised]
    decide
  obtain ⟨-, -, -, -, ⟨row, among, -⟩, -⟩ :=
    ((claim sampleLibrary s reached).1 quiet).1 _ _ promised
  rw [noRow] at among
  cases among

end Queue

end Kuku.Search
