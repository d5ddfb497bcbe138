/-
# Editor.Session -- the document session of a markdown editor

A mounted editor holds a document, the checksum of the file as it last saw it and a tab
that is dirty or clean.  Saves, reloads and the two ways out of a save conflict read or
write the file through the backend, which answers at any later time: an `Access` is begun
by the editor, performed on the file, and completed by the editor's continuation.  Saves
are coalesced: while one is in flight the newest content waits in a queue of one.

The model follows `saveDocument`, `reloadDocumentFromDisk`, `keepLocalChangesAfterConflict`,
`useDiskVersionAfterConflict`, the change handler and the cleanup, branch by branch.  The
`revision` is the identity of the document object, which the code compares by reference.
Two fields are not kept by the code: `foreign` says that someone else has written the file
since the editor last read or wrote it, and `edited` that the user has changed the document.
-/
import Kuku.Theory.Runs

namespace Kuku.Editor

open Kuku.Theory Function List

/-! ## The session -/

/-- The markdown service, and the checksum of the backend. -/
structure Markdown (δ τ χ : Type) where
  stringify : δ → τ
  parse : τ → δ
  checksum : τ → χ

inductive Resolving where
  | keepLocal
  | useDisk

structure SaveConflict (χ : Type) where
  expected : χ
  actual : χ
  resolving : Option Resolving

/-- What the editor reads or writes the file for, with what its continuation remembers:
`before` is the document object when the write was begun. -/
inductive Purpose (τ χ : Type) where
  | load (cached : Option χ)
  | reload (previous : Option χ)
  | useDisk (conflict : SaveConflict χ)
  | save (content : τ) (expected : χ) (before : Nat)
  | keepLocal (content : τ) (conflict : SaveConflict χ) (before : Nat)

inductive Answer (τ χ : Type) where
  | read (content : τ) (checksum : χ)
  | written (checksum : χ)
  | conflict (expected actual : χ)
  | failed

structure Access (τ χ : Type) where
  purpose : Purpose τ χ
  answer : Option (Answer τ χ) := none

structure Session (δ τ χ : Type) where
  doc : δ
  revision : Nat := 0
  checksum : Option χ
  isDirty : Bool
  saveConflict : Option (SaveConflict χ) := none
  queuedSaveContent : Option τ := none
  inFlightSaveContent : Option τ := none
  saveInFlight : Option Nat := none
  autoSave : Bool
  autoSaveTimer : Bool := false
  accesses : Nat → Option (Access τ χ) := fun _ => none
  nextAccess : Nat := 0
  disposed : Bool := false
  disk : τ
  foreign : Bool := true
  edited : Bool := false

namespace Session

variable {δ τ χ : Type}

def begin (s : Session δ τ χ) (purpose : Purpose τ χ) : Session δ τ χ :=
  { s with
    accesses := Function.update s.accesses s.nextAccess (some { purpose })
    nextAccess := s.nextAccess + 1 }

def clearAutoSaveTimer (s : Session δ τ χ) : Session δ τ χ := { s with autoSaveTimer := false }

def markTabDirty (s : Session δ τ χ) (isDirty : Bool) : Session δ τ χ := { s with isDirty := isDirty }

/-- A new document object in the editor. -/
def setDocument (s : Session δ τ χ) (doc : δ) : Session δ τ χ :=
  { s with doc := doc, revision := s.revision + 1 }

/-! ### Saving -/

/-- The head of the save loop: take the queued content and begin to write it, or end. -/
def writeQueued (s : Session δ τ χ) : Session δ τ χ :=
  match s.queuedSaveContent, s.checksum with
  | none, _ => { s with saveInFlight := none, inFlightSaveContent := none }
  | some _, none =>
    { s with queuedSaveContent := none, saveInFlight := none, inFlightSaveContent := none }
  | some content, some expected =>
    { s.begin (.save content expected s.revision) with
      queuedSaveContent := none
      inFlightSaveContent := some content
      saveInFlight := some s.nextAccess }

variable (md : Markdown δ τ χ)

/-- `getSaveContent`, besides the timer. -/
def saveContent (s : Session δ τ χ) : Option τ := s.checksum.map fun _ => md.stringify s.doc

def saveDocument [DecidableEq τ] (s : Session δ τ χ) : Session δ τ χ :=
  let s := s.clearAutoSaveTimer
  match s.saveContent md with
  | none => s
  | some content =>
    if s.queuedSaveContent = some content ∨ s.inFlightSaveContent = some content then s
    else
      let s := { s with queuedSaveContent := some content }
      if s.saveInFlight.isSome then s else s.writeQueued

/-- The save loop after its write. -/
def savedDocument (before : Nat) (answer : Answer τ χ) (s : Session δ τ χ) : Session δ τ χ :=
  match answer with
  | .written checksum =>
    if s.disposed then
      { s with queuedSaveContent := none, saveInFlight := none, inFlightSaveContent := none }
    else
      let s := { s with checksum := some checksum, saveConflict := none }
      let s := if s.queuedSaveContent.isNone ∧ s.revision = before then s.markTabDirty false else s
      s.writeQueued
  | .conflict expected actual =>
    if s.disposed then
      { s with queuedSaveContent := none, saveInFlight := none, inFlightSaveContent := none }
    else
      { s with
        queuedSaveContent := none
        saveInFlight := none
        inFlightSaveContent := none
        saveConflict := some ⟨expected, actual, none⟩ }
  | _ => { s with queuedSaveContent := none, saveInFlight := none, inFlightSaveContent := none }

/-! ### Reading -/

def reloadDocumentFromDisk (s : Session δ τ χ) : Session δ τ χ :=
  if s.isDirty then s
  else if s.saveInFlight.isSome then s
  else { s.clearAutoSaveTimer with queuedSaveContent := none }.begin (.reload s.checksum)

/-- The document is what was read. -/
def showDisk (content : τ) (s : Session δ τ χ) : Session δ τ χ :=
  { (s.setDocument (md.parse content)).markTabDirty false with saveConflict := none }

def reloaded [DecidableEq χ] (previous : Option χ) (answer : Answer τ χ) (s : Session δ τ χ) :
    Session δ τ χ :=
  match answer with
  | .read content checksum =>
    if s.disposed ∨ s.isDirty then s
    else
      let s := { s with checksum := some checksum }
      if previous = some checksum then { s.markTabDirty false with saveConflict := none }
      else s.showDisk md content
  | _ => s

/-- The end of `loadEditableDocument`: `cached` is the checksum under which a clean tab was
cached, if it was. -/
def loaded [DecidableEq χ] (cached : Option χ) (answer : Answer τ χ) (s : Session δ τ χ) :
    Session δ τ χ :=
  match answer with
  | .read content checksum =>
    if s.disposed then s
    else if cached.isSome ∧ s.isDirty then s
    else
      let s := { s with checksum := some checksum }
      if cached = some checksum then s else s.showDisk md content
  | _ => s

/-! ### Conflicts -/

def keepLocalChangesAfterConflict (s : Session δ τ χ) : Session δ τ χ :=
  match s.saveConflict with
  | some ⟨expected, actual, none⟩ =>
    let s := s.clearAutoSaveTimer
    match s.saveContent md with
    | none => s
    | some content =>
      { s with saveConflict := some ⟨expected, actual, some .keepLocal⟩ }.begin
        (.keepLocal content ⟨expected, actual, none⟩ s.revision)
  | _ => s

def keptLocalChanges (conflict : SaveConflict χ) (before : Nat) (answer : Answer τ χ)
    (s : Session δ τ χ) : Session δ τ χ :=
  if s.disposed then s
  else
    match answer with
    | .written checksum =>
      let s := { s with checksum := some checksum, saveConflict := none }
      if s.revision = before then s.markTabDirty false else s
    | .conflict expected actual => { s with saveConflict := some ⟨expected, actual, none⟩ }
    | _ => { s with saveConflict := some { conflict with resolving := none } }

def useDiskVersionAfterConflict (s : Session δ τ χ) : Session δ τ χ :=
  match s.saveConflict with
  | some ⟨expected, actual, none⟩ =>
    { s.clearAutoSaveTimer with
      queuedSaveContent := none
      saveConflict := some ⟨expected, actual, some .useDisk⟩ }.begin
      (.useDisk ⟨expected, actual, none⟩)
  | _ => s

def usedDiskVersion (conflict : SaveConflict χ) (answer : Answer τ χ) (s : Session δ τ χ) :
    Session δ τ χ :=
  if s.disposed then s
  else
    match answer with
    | .read content checksum => { s with checksum := some checksum }.showDisk md content
    | _ => { s with saveConflict := some { conflict with resolving := none } }

/-! ### The editor and its end -/

/-- The change handler, after a transaction that changes the document. -/
def edit (doc : δ) (s : Session δ τ χ) : Session δ τ χ :=
  { s.setDocument doc with
    isDirty := true
    edited := true
    autoSaveTimer := s.autoSaveTimer || (s.autoSave && s.saveConflict.isNone) }

/-- The cleanup of the component. -/
def unmount [DecidableEq τ] (s : Session δ τ χ) : Session δ τ χ :=
  let s :=
    if s.autoSave ∧ (s.autoSaveTimer ∨ s.saveInFlight.isSome) then s.saveDocument md
    else s.clearAutoSaveTimer
  { s with disposed := true }

end Session

/-! ## The backend -/

inductive ChecksumWritePlan (χ : Type) where
  | conflict (expected actual : χ)
  | unchanged (checksum : χ)
  | changed (checksum : χ)

/-- How an access goes; a write that fails may have left anything. -/
inductive Outcome (τ : Type) where
  | done
  | failed (left : Option τ)

section Backend

variable {δ τ χ : Type} (md : Markdown δ τ χ)

def planChecksumWrite [DecidableEq τ] [DecidableEq χ] (current next : τ) (expected : χ) :
    ChecksumWritePlan χ :=
  if current = next then .unchanged (md.checksum current)
  else if md.checksum current ≠ expected then .conflict expected (md.checksum current)
  else .changed (md.checksum next)

/-- `vault_write_with_checksum`. -/
def writeWithChecksum [DecidableEq τ] [DecidableEq χ] (content : τ) (expected : χ)
    (outcome : Outcome τ) (s : Session δ τ χ) : Answer τ χ × Session δ τ χ :=
  match outcome with
  | .failed none => (.failed, s)
  | .failed (some left) =>
    match planChecksumWrite md s.disk content expected with
    | .changed _ => (.failed, { s with disk := left, foreign := false })
    | _ => (.failed, s)
  | .done =>
    match planChecksumWrite md s.disk content expected with
    | .conflict expected actual => (.conflict expected actual, s)
    | .unchanged checksum => (.written checksum, { s with foreign := false })
    | .changed checksum => (.written checksum, { s with disk := content, foreign := false })

/-- `vault_read_with_checksum`. -/
def readWithChecksum (outcome : Outcome τ) (s : Session δ τ χ) : Answer τ χ × Session δ τ χ :=
  match outcome with
  | .failed _ => (.failed, s)
  | .done => (.read s.disk (md.checksum s.disk), { s with foreign := false })

def performAccess [DecidableEq τ] [DecidableEq χ] (purpose : Purpose τ χ) (outcome : Outcome τ)
    (s : Session δ τ χ) : Answer τ χ × Session δ τ χ :=
  match purpose with
  | .save content expected _ => writeWithChecksum md content expected outcome s
  | .keepLocal content conflict _ => writeWithChecksum md content conflict.actual outcome s
  | _ => readWithChecksum md outcome s

end Backend

/-! ## The steps -/

inductive Label (δ τ : Type) where
  | edit (doc : δ)
  | save
  | autoSave
  | reload
  | keepLocal
  | useDisk
  | perform (access : Nat) (outcome : Outcome τ)
  | complete (access : Nat)
  | foreign (content : τ)
  | unmount

namespace Session

variable {δ τ χ : Type} [DecidableEq τ] [DecidableEq χ] (md : Markdown δ τ χ)

/-- The continuation of an access. -/
def continued (purpose : Purpose τ χ) (answer : Answer τ χ) (s : Session δ τ χ) : Session δ τ χ :=
  match purpose with
  | .load cached => s.loaded md cached answer
  | .reload previous => s.reloaded md previous answer
  | .useDisk conflict => s.usedDiskVersion md conflict answer
  | .save _ _ before => s.savedDocument before answer
  | .keepLocal _ conflict before => s.keptLocalChanges conflict before answer

def perform (access : Nat) (outcome : Outcome τ) (s : Session δ τ χ) : Option (Session δ τ χ) :=
  match s.accesses access with
  | some ⟨purpose, none⟩ =>
    let (answer, performed) := performAccess md purpose outcome s
    some { performed with
      accesses := Function.update s.accesses access (some ⟨purpose, some answer⟩) }
  | _ => none

def complete (access : Nat) (s : Session δ τ χ) : Option (Session δ τ χ) :=
  match s.accesses access with
  | some ⟨purpose, some answer⟩ =>
    some ({ s with accesses := Function.update s.accesses access none }.continued md purpose answer)
  | _ => none

/-- What the user and the timers do, while the editor is mounted. -/
def mounted (s : Session δ τ χ) (next : Session δ τ χ) : Option (Session δ τ χ) :=
  if s.disposed then none else some next

/-- **One step.** -/
def next (s : Session δ τ χ) : Label δ τ → Option (Session δ τ χ)
  | .edit doc => s.mounted (s.edit doc)
  | .save => s.mounted (s.saveDocument md)
  | .autoSave => if s.autoSaveTimer then s.mounted (s.saveDocument md) else none
  | .reload => s.mounted s.reloadDocumentFromDisk
  | .keepLocal => s.mounted (s.keepLocalChangesAfterConflict md)
  | .useDisk => s.mounted s.useDiskVersionAfterConflict
  | .perform access outcome => s.perform md access outcome
  | .complete access => s.complete md access
  | .foreign content => some { s with disk := content, foreign := true }
  | .unmount => s.mounted (s.unmount md)

/-! ### Where a session starts -/

/-- The file holds the document: written from it, or read into it. -/
def Holds (content : τ) (doc : δ) : Prop := content = md.stringify doc ∨ doc = md.parse content

/-- An editor that has just been mounted. -/
def initial (doc : δ) (checksum : Option χ) (isDirty autoSave : Bool) (disk : τ) :
    Session δ τ χ where
  doc
  checksum
  isDirty
  autoSave
  disk

/-- `loadEditableDocument`, up to its first wait: a new tab has an empty document, a restored
one the document and the checksum it was cached with, and a dirty tab is not read. -/
inductive Mounted : Session δ τ χ → Prop
  | opened (blank : δ) (autoSave : Bool) (disk : τ) :
      Mounted ((initial blank none false autoSave disk).begin (.load none))
  | restored (doc : δ) (checksum : χ) (autoSave : Bool) (disk : τ)
      (held : ∀ content, md.checksum content = checksum → Holds md content doc) :
      Mounted ((initial doc (some checksum) false autoSave disk).begin (.load (some checksum)))
  | unsaved (doc : δ) (checksum : χ) (autoSave : Bool) (disk : τ) :
      Mounted (initial doc (some checksum) true autoSave disk)

def system : System (Session δ τ χ) (Label δ τ) := .ofStep (Mounted md) (next md)

/-- Nothing of the editor is being read or written. -/
def Settled (s : Session δ τ χ) : Prop := ∀ access, s.accesses access = none

end Session

/-! ## What has been begun -/

namespace Session

variable {δ τ χ : Type}

def Begun (s : Session δ τ χ) : Prop := ∀ n access, s.accesses n = some access → n < s.nextAccess

/-- Nothing is in flight, as a computation. -/
def isSettled (s : Session δ τ χ) : Bool :=
  (List.range s.nextAccess).all fun n => (s.accesses n).isNone

variable {s s' : Session δ τ χ}

theorem Begun.begin (begun : s.Begun) (purpose : Purpose τ χ) : (s.begin purpose).Begun := by
  intro n access isAccess
  by_cases same : n = s.nextAccess
  · rw [same]
    exact Nat.lt_succ_self _
  · refine Nat.lt_succ_of_lt (begun n access ?_)
    exact (update_of_ne same _ _).symm.trans isAccess

theorem Begun.writeQueued (begun : s.Begun) : s.writeQueued.Begun := by
  unfold Session.writeQueued
  split
  · exact begun
  · exact begun
  · exact begun.begin _

theorem Begun.answered (begun : s.Begun) {n : Nat} {access : Access τ χ}
    (isAccess : s.accesses n = some access) (answer : Option (Access τ χ)) :
    ∀ m other, Function.update s.accesses n answer m = some other → m < s.nextAccess := by
  intro m other isOther
  by_cases same : m = n
  · rw [same]
    exact begun n access isAccess
  · rw [update_of_ne same] at isOther
    exact begun m other isOther

theorem mounted_eq_some {next : Session δ τ χ} (stepped : s.mounted next = some s') :
    s.disposed = false ∧ s' = next := by
  unfold Session.mounted at stepped
  split at stepped
  · cases stepped
  · rename_i isMounted
    cases stepped
    exact ⟨Bool.eq_false_iff.mpr isMounted, rfl⟩

theorem Begun.settled (begun : s.Begun) (isSettled : s.isSettled = true) : s.Settled := by
  intro n
  by_contra another
  obtain ⟨access, isAccess⟩ := Option.ne_none_iff_exists'.mp another
  have none := all_eq_true.mp isSettled n (mem_range.mpr (begun n access isAccess))
  rw [isAccess] at none
  cases none

theorem begun_of_mounted {md : Markdown δ τ χ} (starts : Mounted md s) : s.Begun := by
  have empty : ∀ {doc checksum isDirty autoSave disk},
      (initial doc checksum isDirty autoSave disk : Session δ τ χ).Begun :=
    fun _ _ isAccess => nomatch isAccess
  cases starts with
  | opened blank autoSave disk => exact Begun.begin empty _
  | restored doc checksum autoSave disk held => exact Begun.begin empty _
  | unsaved doc checksum autoSave disk => exact empty

variable [DecidableEq τ] [DecidableEq χ] {md : Markdown δ τ χ}

set_option linter.unusedSectionVars false

theorem Begun.saveDocument (begun : s.Begun) : (s.saveDocument md).Begun := by
  unfold Session.saveDocument
  dsimp only
  split
  · exact begun
  · split
    · exact begun
    · split
      · exact begun
      · refine Begun.writeQueued ?_
        exact begun

theorem performAccess_nextAccess (purpose : Purpose τ χ) (outcome : Outcome τ) :
    (performAccess md purpose outcome s).2.nextAccess = s.nextAccess := by
  have write : ∀ content expected,
      (writeWithChecksum md content expected outcome s).2.nextAccess = s.nextAccess := by
    intro content expected
    unfold writeWithChecksum
    split
    · rfl
    · split <;> rfl
    · split <;> rfl
  cases purpose with
  | save content expected before => exact write content expected
  | keepLocal content conflict before => exact write content conflict.actual
  | _ => cases outcome <;> rfl

theorem Begun.continued (begun : s.Begun) (purpose : Purpose τ χ) (answer : Answer τ χ) :
    (s.continued md purpose answer).Begun := by
  cases purpose with
  | save content expected before =>
    simp only [Session.continued, Session.savedDocument]
    split
    · split
      · exact begun
      · split <;> exact Begun.writeQueued begun
    · split <;> exact begun
    · exact begun
  | load cached =>
    simp only [Session.continued, Session.loaded]
    repeat' split
    all_goals exact begun
  | reload previous =>
    simp only [Session.continued, Session.reloaded]
    repeat' split
    all_goals exact begun
  | useDisk conflict =>
    simp only [Session.continued, Session.usedDiskVersion]
    repeat' split
    all_goals exact begun
  | keepLocal content conflict before =>
    simp only [Session.continued, Session.keptLocalChanges]
    repeat' split
    all_goals exact begun

theorem Begun.next {label : Label δ τ} (begun : s.Begun) (stepped : s.next md label = some s') :
    s'.Begun := by
  cases label with
  | edit doc =>
    obtain ⟨_, rfl⟩ := mounted_eq_some stepped
    exact begun
  | save =>
    obtain ⟨_, rfl⟩ := mounted_eq_some stepped
    exact begun.saveDocument
  | autoSave =>
    simp only [Session.next] at stepped
    split at stepped
    · obtain ⟨_, rfl⟩ := mounted_eq_some stepped
      exact begun.saveDocument
    · cases stepped
  | reload =>
    obtain ⟨_, rfl⟩ := mounted_eq_some stepped
    unfold Session.reloadDocumentFromDisk
    repeat' split
    · exact begun
    · exact begun
    · refine Begun.begin ?_ _
      exact begun
  | keepLocal =>
    obtain ⟨_, rfl⟩ := mounted_eq_some stepped
    unfold Session.keepLocalChangesAfterConflict
    dsimp only
    repeat' split
    · exact begun
    · refine Begun.begin ?_ _
      exact begun
    · exact begun
  | useDisk =>
    obtain ⟨_, rfl⟩ := mounted_eq_some stepped
    unfold Session.useDiskVersionAfterConflict
    split
    · refine Begun.begin ?_ _
      exact begun
    · exact begun
  | perform access outcome =>
    simp only [Session.next, Session.perform] at stepped
    split at stepped
    · rename_i purpose isAccess
      cases stepped
      intro n other isOther
      change n < (performAccess md purpose outcome s).2.nextAccess
      rw [performAccess_nextAccess]
      exact begun.answered isAccess _ n other isOther
    · cases stepped
  | complete access =>
    simp only [Session.next, Session.complete] at stepped
    split at stepped
    · rename_i purpose answer isAccess
      cases stepped
      refine Begun.continued ?_ purpose answer
      exact begun.answered isAccess none
    · cases stepped
  | foreign content =>
    cases stepped
    exact begun
  | unmount =>
    obtain ⟨_, rfl⟩ := mounted_eq_some stepped
    unfold Session.unmount
    dsimp only
    split
    · exact begun.saveDocument
    · exact begun

/-- Where a computed run of the session has come to. -/
theorem settled_of_reachableBy {ok : Session δ τ χ → Label δ τ → Prop}
    (reached : (system md).ReachableBy ok s) (isSettled : s.isSettled = true) : s.Settled := by
  refine Begun.settled ?_ isSettled
  exact System.ReachableBy.invariant (fun _ => begun_of_mounted)
    (fun _ _ _ begun _ stepped => begun.next stepped) reached

end Session

end Kuku.Editor
