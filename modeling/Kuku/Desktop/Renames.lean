/-
# Desktop.Renames -- which renames the watcher tells of

The slot for half a rename holds one path.  While it is waiting for its second half, a further
first half takes its place, any other second half is taken for it, and one that comes just too
late empties it; and a rename into or out of an ignored folder, told in one event, is not told
at all.  Where nothing of this happens, every rename is told (`renames_told`).
-/
import Kuku.Desktop.Watcher

namespace Kuku.Desktop.Watcher

open Kuku.Theory List Option
open Kuku.Sync (Str)

/-! ## The halves of a rename -/

/-- What an event says of a rename. -/
inductive RenameParts where
  | source (path : PathBuf)
  | target (path : PathBuf)
  | both (oldPath newPath : PathBuf)
  | nothing

def Event.parts (event : Event) : RenameParts :=
  match event.kind, event.paths with
  | .modify (.name .movedFrom), path :: _ => .source path
  | .modify (.name .movedTo), path :: _ => .target path
  | .modify (.name .both), oldPath :: newPath :: _ => .both oldPath newPath
  | .modify (.name .any), oldPath :: newPath :: _ => .both oldPath newPath
  | .modify (.name .other), oldPath :: newPath :: _ => .both oldPath newPath
  | _, _ => .nothing

def Turn.parts (turn : Turn) : RenameParts :=
  match turn.received with
  | .event event _ => event.parts
  | _ => .nothing

/-- The path that was renamed, and where it is now. -/
def Turn.source (turn : Turn) : Option (PathBuf × Option PathBuf) :=
  match turn.received, turn.parts with
  | .event _ destination, .source path => some (path, destination)
  | .event _ _, .both oldPath newPath => some (oldPath, some newPath)
  | _, _ => none

def Turn.target (turn : Turn) : Option PathBuf :=
  match turn.parts with
  | .target path => some path
  | .both _ newPath => some newPath
  | _ => none

section

variable {root : PathBuf} {moment : Moment} {event : Event} {state : WatcherState}
  {path oldPath newPath : PathBuf} {turn : Turn}

theorem mapEvent_source (isSource : event.parts = .source path) :
    mapEvent root moment event state =
      if isIgnored root path then (state, none) else mapMovedFrom moment path state := by
  obtain ⟨kind, paths⟩ := event
  simp only [Event.parts] at isSource
  split at isSource <;> cases isSource
  rename_i rest
  unfold mapEvent
  cases rest <;> rfl

theorem mapEvent_target (isTarget : event.parts = .target path) :
    mapEvent root moment event state =
      if isIgnored root path then (state, none) else mapMovedTo root moment path state := by
  obtain ⟨kind, paths⟩ := event
  simp only [Event.parts] at isTarget
  split at isTarget <;> cases isTarget
  rename_i rest
  unfold mapEvent
  cases rest <;> rfl

theorem mapEvent_both (isBoth : event.parts = .both oldPath newPath) :
    mapEvent root moment event state = mapRenamed root moment oldPath newPath state := by
  obtain ⟨kind, paths⟩ := event
  simp only [Event.parts] at isBoth
  split at isBoth <;> cases isBoth <;> rfl

theorem mapRenamed_pending :
    (mapRenamed root moment oldPath newPath state).1.pending = state.pending := by
  unfold mapRenamed
  split_ifs <;> rfl

theorem mapRenamedAny_pending :
    (mapRenamedAny root moment path state).1.pending = state.pending := by
  unfold mapRenamedAny
  dsimp only
  split <;> rfl

/-- An event that is no half of a rename leaves the slot alone. -/
theorem mapEvent_nothing (isNothing : event.parts = .nothing) :
    (mapEvent root moment event state).1.pending = state.pending := by
  obtain ⟨kind, paths⟩ := event
  cases paths with
  | nil => rfl
  | cons path rest =>
    unfold mapEvent
    dsimp only
    split
    · cases isNothing
    · cases isNothing
    · cases isNothing
    · split_ifs with ignored
      · rfl
      · split <;> first | rfl | exact mapRenamedAny_pending | cases isNothing
theorem mapMovedTo_paired {pending : PendingRename} (isPending : state.pending = some pending)
    (inTime : moment.now - pending.since ≤ pendingRenameTimeout) :
    (mapMovedTo root moment path state).2 = some (renameEvent root pending.path path
      (inferPathKind moment path (some pending.isDir) state.cache)) := by
  unfold mapMovedTo
  rw [isPending, filter_some, if_pos (by simpa using inTime)]

/-- A second half is told, as the end of a rename or as a new file. -/
theorem mapMovedTo_told : ∃ event, (mapMovedTo root moment path state).2 = some event ∧
    (event.kind = .rename ∨ event.kind = .create) ∧ event.path = toRelativePath root path := by
  unfold mapMovedTo
  split
  · exact ⟨_, rfl, .inl rfl, rfl⟩
  · exact ⟨_, rfl, .inr rfl, rfl⟩

theorem mapRenamed_told (seen : isIgnored root oldPath = false)
    (seenNew : isIgnored root newPath = false) :
    ∃ isDir, (mapRenamed root moment oldPath newPath state).2 =
      some (renameEvent root oldPath newPath isDir) := by
  unfold mapRenamed
  rw [if_neg (by simp [seen, seenNew])]
  exact ⟨_, rfl⟩

theorem maybeCleanupPending_cases (root : PathBuf) (now : Nat) (state : WatcherState) :
    maybeCleanupPending root now state = (state, none) ∧
        (∀ pending, state.pending = some pending → now - pending.since ≤ pendingRenameTimeout) ∨
      ∃ pending, state.pending = some pending ∧
        (maybeCleanupPending root now state).1.pending = none ∧
        (maybeCleanupPending root now state).2 =
          some (plainEvent root .delete pending.path pending.isDir) := by
  unfold maybeCleanupPending
  cases isPending : state.pending with
  | none => exact .inl ⟨rfl, nofun⟩
  | some pending =>
    dsimp only
    split_ifs with expired
    · exact .inr ⟨pending, rfl, rfl, rfl⟩
    · refine .inl ⟨rfl, ?_⟩
      rintro _ ⟨⟩
      exact Nat.le_of_not_lt expired

end

/-! ## Turns that lose nothing -/

/-- Where the path in the slot has gone to: the first half that came last. -/
def Turn.awaited (root : PathBuf) (turn : Turn) (destination : Option PathBuf) :
    Option PathBuf :=
  match turn.received, turn.parts with
  | .event _ goesTo, .source path => if isIgnored root path then destination else goesTo
  | _, _ => destination

/-- The slot after `maybe_cleanup_pending`. -/
def Turn.waiting (root : PathBuf) (turn : Turn) (state : WatcherState) : Option PendingRename :=
  (maybeCleanupPending root turn.cleanupAt state).1.pending

/-- A first half finds the slot empty; a second half finds it empty, or finds in time the first
half it belongs to; and a rename that is told in one event is ignored on both sides or on none. -/
def Turn.Orderly (root : PathBuf) (turn : Turn) (state : WatcherState)
    (destination : Option PathBuf) : Prop :=
  match turn.parts with
  | .source path => isIgnored root path = false → turn.waiting root state = none
  | .target path => isIgnored root path = false → ∀ pending, turn.waiting root state = some pending →
      turn.moment.now - pending.since ≤ pendingRenameTimeout ∧ destination = some path
  | .both oldPath newPath => isIgnored root oldPath = isIgnored root newPath
  | .nothing => True

def Orderly (root : PathBuf) : List Turn → WatcherState → Option PathBuf → Prop
  | [], _, _ => True
  | turn :: turns, state, destination =>
    turn.Orderly root state destination ∧
      Orderly root turns (turn.step root state).1 (turn.awaited root destination)

/-! ## What is told -/

/-- The path is told as deleted, or as renamed to where it has gone. -/
def SourceTold (root : PathBuf) (told : List FileChangeEvent) (path : PathBuf)
    (destination : Option PathBuf) : Prop :=
  ∃ event ∈ told,
    event.kind = .delete ∧ event.path = toRelativePath root path ∨
    event.kind = .rename ∧ event.oldPath = some (toRelativePath root path) ∧
      ∃ newPath, destination = some newPath ∧ event.path = toRelativePath root newPath

def TargetTold (root : PathBuf) (told : List FileChangeEvent) (path : PathBuf) : Prop :=
  ∃ event ∈ told, (event.kind = .rename ∨ event.kind = .create) ∧
    event.path = toRelativePath root path

/-- Every rename is told of from its turn on. -/
def RenamesTold (root : PathBuf) (turns : List Turn) (start : WatcherState) : Prop :=
  ∀ before turn after, turns = before ++ turn :: after →
    (∀ path destination, turn.source = some (path, destination) → isIgnored root path = false →
      SourceTold root (emitted root (turn :: after) (stateAfter root before start)) path
        destination) ∧
    (∀ path, turn.target = some path → isIgnored root path = false →
      TargetTold root (emitted root (turn :: after) (stateAfter root before start)) path)

section

variable {root : PathBuf} {turn silence : Turn} {turns : List Turn} {state : WatcherState}
  {pending : PendingRename} {destination : Option PathBuf} {path : PathBuf}

theorem SourceTold.later {told : List FileChangeEvent} (earlier : List FileChangeEvent)
    (isTold : SourceTold root told path destination) :
    SourceTold root (earlier ++ told) path destination := by
  obtain ⟨event, member, tells⟩ := isTold
  exact ⟨event, mem_append_right _ member, tells⟩

theorem SourceTold.sooner {told : List FileChangeEvent} (later : List FileChangeEvent)
    (isTold : SourceTold root told path destination) :
    SourceTold root (told ++ later) path destination := by
  obtain ⟨event, member, tells⟩ := isTold
  exact ⟨event, mem_append_left _ member, tells⟩

/-- A waiting path goes on waiting, or is told. -/
theorem step_waiting (isPending : state.pending = some pending)
    (orderly : turn.Orderly root state destination) :
    SourceTold root (turn.step root state).2 pending.path destination ∨
      (turn.step root state).1.pending = some pending ∧
        turn.awaited root destination = destination := by
  obtain ⟨received, cleanupAt, moment, ordered⟩ := turn
  cases received with
  | error => exact .inr ⟨isPending, rfl⟩
  | timeout =>
    obtain ⟨isSame, -⟩ | ⟨expired, isExpired, -, isDelete⟩ :=
      maybeCleanupPending_cases root cleanupAt state
    · refine .inr ⟨?_, rfl⟩
      simp only [Turn.step, isSame]
      exact isPending
    · cases isPending.symm.trans isExpired
      refine .inl ⟨plainEvent root .delete pending.path pending.isDir, ?_, .inl ⟨rfl, rfl⟩⟩
      simp [Turn.step, isDelete]
  | event event goesTo =>
    obtain ⟨isSame, -⟩ | ⟨expired, isExpired, -, isDelete⟩ :=
      maybeCleanupPending_cases root cleanupAt state
    · have isWaiting : Turn.waiting root ⟨.event event goesTo, cleanupAt, moment, ordered⟩ state =
          some pending := by
        simp only [Turn.waiting, isSame]
        exact isPending
      simp only [Turn.step, isSame, toList_none, nil_append]
      cases isParts : event.parts with
      | nothing =>
        refine .inr ⟨(mapEvent_nothing isParts).trans isPending, ?_⟩
        simp only [Turn.awaited, Turn.parts, isParts]
      | both oldPath newPath =>
        refine .inr ⟨?_, ?_⟩
        · rw [mapEvent_both isParts]
          exact mapRenamed_pending.trans isPending
        · simp only [Turn.awaited, Turn.parts, isParts]
      | source path =>
        simp only [Turn.Orderly, Turn.parts, isParts, isWaiting] at orderly
        cases ignored : isIgnored root path with
        | false => cases orderly ignored
        | true =>
          refine .inr ⟨?_, ?_⟩
          · rw [mapEvent_source isParts, if_pos ignored]
            exact isPending
          · simp only [Turn.awaited, Turn.parts, isParts, if_pos ignored]
      | target path =>
        simp only [Turn.Orderly, Turn.parts, isParts, isWaiting] at orderly
        cases ignored : isIgnored root path with
        | true =>
          refine .inr ⟨?_, ?_⟩
          · rw [mapEvent_target isParts, if_pos ignored]
            exact isPending
          · simp only [Turn.awaited, Turn.parts, isParts]
        | false =>
          obtain ⟨inTime, isDestination⟩ := orderly ignored pending rfl
          refine .inl ⟨renameEvent root pending.path path
            (inferPathKind moment path (some pending.isDir) state.cache), ?_, ?_⟩
          · rw [mapEvent_target isParts, if_neg (by rw [ignored]; exact Bool.false_ne_true)]
            rw [mapMovedTo_paired isPending inTime]
            exact mem_singleton_self _
          · exact .inr ⟨rfl, rfl, path, isDestination, rfl⟩
    · cases isPending.symm.trans isExpired
      refine .inl ⟨plainEvent root .delete pending.path pending.isDir, ?_, .inl ⟨rfl, rfl⟩⟩
      simp [Turn.step, isDelete]

/-- The turn of a silence that the slot does not outlast. -/
structure Turn.Silent (turn : Turn) (turns : List Turn) : Prop where
  isTimeout : turn.received = .timeout
  outlasts : ∀ earlier ∈ turns, earlier.moment.now + pendingRenameTimeout < turn.cleanupAt

theorem waiting_told (isTimeout : silence.received = .timeout)
    (isPending : state.pending = some pending)
    (expires : pending.since + pendingRenameTimeout < silence.cleanupAt)
    (orderly : Orderly root turns state destination) :
    SourceTold root (emitted root (turns ++ [silence]) state) pending.path destination := by
  induction turns generalizing state destination with
  | nil =>
    refine ⟨plainEvent root .delete pending.path pending.isDir, ?_, .inl ⟨rfl, rfl⟩⟩
    have expired : pendingRenameTimeout < silence.cleanupAt - pending.since := by omega
    simp [emitted, Turn.step, isTimeout, maybeCleanupPending, isPending, expired]
  | cons turn turns ih =>
    obtain isTold | ⟨isStill, isSame⟩ := step_waiting isPending orderly.1
    · exact isTold.sooner _
    · have orderlyAfter := orderly.2
      rw [isSame] at orderlyAfter
      exact (ih isStill orderlyAfter).later _

/-- A first half is told, or waits in the slot. -/
theorem step_source (isSource : turn.source = some (path, destination))
    (seen : isIgnored root path = false) {waitedFor : Option PathBuf}
    (orderly : turn.Orderly root state waitedFor) :
    SourceTold root (turn.step root state).2 path destination ∨
      (∃ isDir, (turn.step root state).1.pending = some ⟨path, isDir, turn.moment.now⟩) ∧
        turn.awaited root waitedFor = destination := by
  obtain ⟨received, cleanupAt, moment, ordered⟩ := turn
  cases received with
  | error => cases isSource
  | timeout => cases isSource
  | event event goesTo =>
    simp only [Turn.source, Turn.parts] at isSource
    cases isParts : event.parts with
    | nothing =>
      rw [isParts] at isSource
      cases isSource
    | target path =>
      rw [isParts] at isSource
      cases isSource
    | source path =>
      rw [isParts] at isSource
      cases isSource
      refine .inr ⟨?_, ?_⟩
      · simp only [Turn.step]
        rw [mapEvent_source isParts, if_neg (by rw [seen]; exact Bool.false_ne_true)]
        exact ⟨_, rfl⟩
      · simp only [Turn.awaited, Turn.parts, isParts]
        rw [if_neg (by rw [seen]; exact Bool.false_ne_true)]
    | both oldPath newPath =>
      rw [isParts] at isSource
      cases isSource
      simp only [Turn.Orderly, Turn.parts, isParts] at orderly
      obtain ⟨isDir, isTold⟩ := mapRenamed_told seen (orderly ▸ seen)
      refine .inl ⟨renameEvent root path newPath isDir, ?_, .inr ⟨rfl, rfl, newPath, rfl, rfl⟩⟩
      simp only [Turn.step]
      rw [mapEvent_both isParts, isTold]
      exact mem_append_right _ (mem_singleton_self _)

theorem step_target (isTarget : turn.target = some path) (seen : isIgnored root path = false)
    (orderly : turn.Orderly root state destination) :
    TargetTold root (turn.step root state).2 path := by
  obtain ⟨received, cleanupAt, moment, ordered⟩ := turn
  cases received with
  | error => cases isTarget
  | timeout => cases isTarget
  | event event goesTo =>
    simp only [Turn.target, Turn.parts] at isTarget
    cases isParts : event.parts with
    | nothing =>
      rw [isParts] at isTarget
      cases isTarget
    | source path =>
      rw [isParts] at isTarget
      cases isTarget
    | target path =>
      rw [isParts] at isTarget
      cases isTarget
      obtain ⟨told, isTold, isKind, isPath⟩ := mapMovedTo_told
      refine ⟨told, ?_, isKind, isPath⟩
      simp only [Turn.step]
      rw [mapEvent_target isParts, if_neg (by rw [seen]; exact Bool.false_ne_true), isTold]
      exact mem_append_right _ (mem_singleton_self _)
    | both oldPath newPath =>
      rw [isParts] at isTarget
      cases isTarget
      simp only [Turn.Orderly, Turn.parts, isParts] at orderly
      obtain ⟨isDir, isTold⟩ := mapRenamed_told (orderly.trans seen) seen
      refine ⟨renameEvent root oldPath path isDir, ?_, .inl rfl, rfl⟩
      simp only [Turn.step]
      rw [mapEvent_both isParts, isTold]
      exact mem_append_right _ (mem_singleton_self _)

theorem orderly_append {before after : List Turn}
    (orderly : Orderly root (before ++ after) state destination) :
    ∃ waitedFor, Orderly root after (stateAfter root before state) waitedFor := by
  induction before generalizing state destination with
  | nil => exact ⟨destination, orderly⟩
  | cons turn before ih => exact ih orderly.2

end

/-- Turns that lose nothing, and a silence: every rename is told. -/
theorem renames_told (root : PathBuf) (turns : List Turn) (silence : Turn) (start : WatcherState)
    (silent : silence.Silent turns) (orderly : Orderly root turns start none) :
    RenamesTold root (turns ++ [silence]) start := by
  intro before turn after isSplit
  obtain ⟨rest, rfl, isTurns⟩ | ⟨rfl, rfl⟩ : (∃ rest, after = rest ++ [silence] ∧
      turns = before ++ turn :: rest) ∨ (after = [] ∧ turn = silence) := by
    obtain isEmpty | ⟨rest, last, rfl⟩ := after.eq_nil_or_concat
    · rw [isEmpty] at isSplit
      exact .inr ⟨isEmpty, (append_inj' isSplit rfl).2 |> List.cons.inj |>.1.symm⟩
    · rw [concat_eq_append, ← cons_append, ← append_assoc] at isSplit
      obtain ⟨isTurns, isLast⟩ := append_inj' isSplit rfl
      cases isLast
      exact .inl ⟨rest, concat_eq_append, isTurns⟩
  · subst isTurns
    obtain ⟨waitedFor, orderlyNow, orderlyAfter⟩ := orderly_append orderly
    constructor
    · intro path destination isSource seen
      obtain isTold | ⟨⟨isDir, isPending⟩, isAwaited⟩ := step_source isSource seen orderlyNow
      · exact isTold.sooner _
      · rw [isAwaited] at orderlyAfter
        have expires := silent.outlasts turn (mem_append_right _ mem_cons_self)
        exact (waiting_told silent.isTimeout isPending expires orderlyAfter).later _
    · intro path isTarget seen
      obtain ⟨event, member, tells⟩ := step_target isTarget seen orderlyNow
      exact ⟨event, mem_append_left _ member, tells⟩
  · have noParts : turn.parts = .nothing := by
      unfold Turn.parts
      rw [silent.isTimeout]
    constructor
    · intro path destination isSource
      simp only [Turn.source, silent.isTimeout] at isSource
      cases isSource
    · intro path isTarget
      simp only [Turn.target, noParts] at isTarget
      cases isTarget

/-! ## Files that are moved out of the vault -/

def sampleRoot : PathBuf := ["vault".toList]

def samplePath (name : String) : PathBuf := sampleRoot ++ [name.toList]

/-- A turn at a time, in milliseconds, while every path is a file. -/
def sampleTurn (timeMs : Nat) (received : Received) : Turn where
  received
  cleanupAt := timeMs * 1000000
  moment := ⟨timeMs * 1000000, fun _ => some false, id, fun keys => .refl keys⟩
  ordered := le_rfl

def sampleRename (mode : RenameMode) (names : List String) (destination : Option String) :
    Received :=
  .event ⟨.modify (.name mode), names.map samplePath⟩ (destination.map samplePath)

/-- A rename in two halves, a move out of the vault, and later a rename in one event. -/
def calmTurns : List Turn := [sampleTurn 0 (sampleRename .movedFrom ["a.md"] (some "b.md")),
    sampleTurn 10 (sampleRename .movedTo ["b.md"] none),
    sampleTurn 20 (sampleRename .movedFrom ["c.md"] none),
    sampleTurn 30 (sampleRename .both ["d.md", "e.md"] none)]

def sampleSilence : Turn := sampleTurn 700 .timeout

theorem calm_renames_told : RenamesTold sampleRoot (calmTurns ++ [sampleSilence]) {} := by
  refine renames_told sampleRoot calmTurns sampleSilence {} ⟨rfl, by decide⟩ ⟨?_, ?_, ?_, ?_, ⟨⟩⟩
  · exact fun _ => rfl
  · rintro - pending ⟨⟩
    exact ⟨by decide, rfl⟩
  · exact fun _ => rfl
  · exact rfl

/-- Two files that are moved out of the vault, one right after the other. -/
def burstTurns : List Turn := [sampleTurn 0 (sampleRename .movedFrom ["a.md"] none),
    sampleTurn 10 (sampleRename .movedFrom ["b.md"] none)]

/-- Only the second one is told of. -/
theorem burst_lost :
    sampleSilence.Silent burstTurns ∧
    emitted sampleRoot (burstTurns ++ [sampleSilence]) {} =
      [⟨.delete, "b.md".toList, false, none⟩] ∧
    ¬ RenamesTold sampleRoot (burstTurns ++ [sampleSilence]) {} := by
  have onlySecond : emitted sampleRoot (burstTurns ++ [sampleSilence]) {} =
      [⟨.delete, "b.md".toList, false, none⟩] := by decide +kernel
  refine ⟨⟨rfl, by decide⟩, onlySecond, fun told => ?_⟩
  obtain ⟨event, member, tells⟩ := (told [] _ _ rfl).1 (samplePath "a.md") none rfl (by decide)
  change event ∈ emitted sampleRoot (burstTurns ++ [sampleSilence]) {} at member
  rw [onlySecond] at member
  cases mem_singleton.mp member
  obtain ⟨-, isPath⟩ | ⟨isRename, -⟩ := tells
  · exact absurd isPath (by decide)
  · cases isRename

end Kuku.Desktop.Watcher
