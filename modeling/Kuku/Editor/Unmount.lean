/-
# Editor.Unmount -- leaving a tab while auto-save is on

The cleanup saves once more when an auto-save is due or a save is in flight.  In the second
case the content waits in the queue, and the continuation of the write in flight, finding
the editor gone, empties the queue: what was typed since that write was begun is not saved.

`leavesSaved_run` gives the runs in which the file holds the document that was left.
-/
import Kuku.Editor.CleanTab

namespace Kuku.Editor

open Kuku.Theory Function Option

namespace Session

variable {δ τ χ : Type} (md : Markdown δ τ χ)

/-- **The file holds the document that was left**, once every write is through. -/
def LeavesSaved (s : Session δ τ χ) : Prop :=
  s.disposed = true → s.Settled → s.disk = md.stringify s.doc

/-! ## The runs -/

/-- Auto-save is on, and nobody else has written since the checksum was taken. -/
def Alone [DecidableEq τ] [DecidableEq χ] (s : Session δ τ χ) : Prop :=
  Mounted md s ∧ s.autoSave = true ∧
    ∀ checksum, s.checksum = some checksum → checksum = md.checksum s.disk

/-- Edits, saves, accesses that succeed, and leaving. -/
def Undisturbed : Label δ τ → Prop
  | .edit _ => True
  | .save => True
  | .autoSave => True
  | .perform _ .done => True
  | .complete _ => True
  | .unmount => True
  | _ => False

def leaving [DecidableEq τ] [DecidableEq χ] : System (Session δ τ χ) (Label δ τ) :=
  .ofStep (Alone md) (next md)

/-- The document is not being loaded. -/
def Loaded (s : Session δ τ χ) : Prop :=
  ∀ n cached answer, s.accesses n ≠ some ⟨.load cached, answer⟩

/-- A save that finds its content in flight finds nothing queued behind it. -/
def QueuesNewest (s : Session δ τ χ) : Prop :=
  s.inFlightSaveContent = some (md.stringify s.doc) → s.queuedSaveContent = none

/-- A save in flight is of the document that is left, and a document that was never edited is
left as the file has it. -/
def LeavesNothing (s : Session δ τ χ) : Prop :=
  (∀ content, s.inFlightSaveContent = some content → content = md.stringify s.doc) ∧
    (s.saveInFlight = none → s.autoSaveTimer = false → s.edited = false →
      s.disk = md.stringify s.doc)

def LeavesInTime (s : Session δ τ χ) : Label δ τ → Prop
  | .edit _ => s.Loaded
  | .save => s.Loaded ∧ s.QueuesNewest md
  | .autoSave => s.Loaded ∧ s.QueuesNewest md
  | .unmount => s.Loaded ∧ s.LeavesNothing md
  | _ => True

/-! ## The phases of a session -/

/-- One access is in flight. -/
def single (n : Nat) (access : Access τ χ) : Nat → Option (Access τ χ) :=
  Function.update (fun _ => none) n (some access)

/-- A write is as the file was, or made. -/
inductive WriteStage (s : Session δ τ χ) (content : τ) (expected : χ) : Option (Answer τ χ) → Prop
  | waiting (isExpected : expected = md.checksum s.disk) : WriteStage s content expected none
  | written (onDisk : s.disk = content) :
      WriteStage s content expected (some (.written (md.checksum content)))

/-- Where a session is: what is in flight, and what the file holds or will hold. -/
inductive Phase (s : Session δ τ χ) : Prop
  | loading (n : Nat) (cached : Option χ) (answer : Option (Answer τ χ))
      (isMounted : s.disposed = false) (isAutoSave : s.autoSave = true)
      (isClean : s.isDirty = false)
      (isSingle : s.accesses = single n ⟨.load cached, answer⟩)
      (ofDisk : ∀ given, answer = some given → given = .read s.disk (md.checksum s.disk))
      (cachedOfDisk : ∀ checksum, s.checksum = some checksum → checksum = md.checksum s.disk)
      (notSaving : s.saveInFlight = none) (noQueue : s.queuedSaveContent = none)
      (notInFlight : s.inFlightSaveContent = none) (noConflict : s.saveConflict = none)
      (notEdited : s.edited = false)
  | resting (isMounted : s.disposed = false) (isAutoSave : s.autoSave = true)
      (noConflict : s.saveConflict = none) (isSettled : s.accesses = fun _ => none)
      (ofDisk : s.checksum = some (md.checksum s.disk))
      (notSaving : s.saveInFlight = none) (noQueue : s.queuedSaveContent = none)
      (notInFlight : s.inFlightSaveContent = none)
      (saved : s.edited = true → s.autoSaveTimer = false → s.disk = md.stringify s.doc)
  | saving (n : Nat) (content : τ) (expected : χ) (before : Nat) (answer : Option (Answer τ χ))
      (isMounted : s.disposed = false) (isAutoSave : s.autoSave = true)
      (noConflict : s.saveConflict = none)
      (isSingle : s.accesses = single n ⟨.save content expected before, answer⟩)
      (stage : WriteStage md s content expected answer) (isChecksum : s.checksum.isSome = true)
      (isSaving : s.saveInFlight = some n) (isInFlight : s.inFlightSaveContent = some content)
      (saved : s.edited = true → s.autoSaveTimer = false →
        s.queuedSaveContent.getD content = md.stringify s.doc)
  | left (n : Nat) (content : τ) (expected : χ) (before : Nat) (answer : Option (Answer τ χ))
      (isGone : s.disposed = true)
      (isSingle : s.accesses = single n ⟨.save content expected before, answer⟩)
      (stage : WriteStage md s content expected answer) (isLast : content = md.stringify s.doc)
  | gone (isGone : s.disposed = true) (isSettled : s.accesses = fun _ => none)
      (saved : s.disk = md.stringify s.doc)

variable {md} {s s' : Session δ τ χ}

theorem single_self (n : Nat) (access : Access τ χ) : single n access n = some access :=
  update_self ..

theorem single_other {n m : Nat} {access : Access τ χ} (differs : m ≠ n) :
    single n access m = none :=
  update_of_ne differs _ _

theorem Phase.leavesSaved (phase : Phase md s) : LeavesSaved md s := by
  intro isGone settled
  have nothing : ∀ n access, s.accesses ≠ single n access := by
    intro n access isSingle
    have isAccess := single_self n access
    rw [← isSingle, settled n] at isAccess
    cases isAccess
  cases phase with
  | loading n cached answer isMounted => simp [isMounted] at isGone
  | resting isMounted => simp [isMounted] at isGone
  | saving n content expected before answer isMounted => simp [isMounted] at isGone
  | left n content expected before answer isGone isSingle => exact absurd isSingle (nothing _ _)
  | gone isGone isSettled saved => exact saved

theorem Phase.alone [DecidableEq τ] [DecidableEq χ] (starts : Alone md s) : Phase md s := by
  obtain ⟨mounted, isAutoSave, ofDisk⟩ := starts
  cases mounted with
  | opened blank autoSave disk =>
    exact .loading 0 none none rfl isAutoSave rfl rfl (fun _ given => nomatch given) ofDisk rfl
      rfl rfl rfl rfl
  | restored doc checksum autoSave disk held =>
    exact .loading 0 (some checksum) none rfl isAutoSave rfl rfl (fun _ given => nomatch given)
      ofDisk rfl rfl rfl rfl rfl
  | unsaved doc checksum autoSave disk =>
    exact .resting rfl isAutoSave rfl rfl (congrArg some (ofDisk checksum rfl)) rfl rfl rfl
      (fun isEdited => nomatch isEdited)

/-! ## The steps -/

theorem not_loaded {n : Nat} {cached : Option χ} {answer : Option (Answer τ χ)}
    (isSingle : s.accesses = single n ⟨.load cached, answer⟩) : ¬ s.Loaded := by
  intro loaded
  refine loaded n cached answer ?_
  rw [isSingle]
  exact single_self ..

theorem Phase.edit (phase : Phase md s) (isMounted : s.disposed = false) (loaded : s.Loaded)
    (doc : δ) : Phase md (s.edit doc) := by
  have due : s.autoSave = true → s.saveConflict = none → (s.edit doc).autoSaveTimer ≠ false := by
    intro isAutoSave noConflict
    simp [Session.edit, isAutoSave, noConflict]
  cases phase with
  | loading n cached answer _ _ _ isSingle => exact absurd loaded (not_loaded isSingle)
  | resting _ isAutoSave noConflict isSettled ofDisk notSaving noQueue notInFlight saved =>
    exact .resting isMounted isAutoSave noConflict isSettled ofDisk notSaving noQueue notInFlight
      (fun _ notDue => absurd notDue (due isAutoSave noConflict))
  | saving n content expected before answer _ isAutoSave noConflict isSingle stage isChecksum
      isSaving isInFlight saved =>
      refine .saving n content expected before answer isMounted isAutoSave noConflict isSingle ?_
        isChecksum isSaving isInFlight
        (fun _ notDue => absurd notDue (due isAutoSave noConflict))
      cases stage with
      | waiting isExpected => exact .waiting isExpected
      | written onDisk => exact .written onDisk
  | left n content expected before answer isGone => simp [isMounted] at isGone
  | gone isGone => simp [isMounted] at isGone

/-- A save with nothing in flight begins the write of the document. -/
theorem saveDocument_resting [DecidableEq τ] {checksum : χ} (isChecksum : s.checksum = some checksum)
    (notSaving : s.saveInFlight = none) (noQueue : s.queuedSaveContent = none)
    (notInFlight : s.inFlightSaveContent = none) :
    s.saveDocument md =
      { s.clearAutoSaveTimer.begin (.save (md.stringify s.doc) checksum s.revision) with
        queuedSaveContent := none
        inFlightSaveContent := some (md.stringify s.doc)
        saveInFlight := some s.nextAccess } := by
  simp [Session.saveDocument, Session.saveContent, Session.clearAutoSaveTimer, Session.writeQueued,
    isChecksum, notSaving, noQueue, notInFlight, Session.begin]

/-- A save behind one in flight leaves the document in the queue, unless it is in flight. -/
theorem saveDocument_saving [DecidableEq τ] {n : Nat} (isChecksum : s.checksum.isSome = true)
    (isSaving : s.saveInFlight = some n) (newest : s.QueuesNewest md) :
    ∃ queued, s.saveDocument md = { s.clearAutoSaveTimer with queuedSaveContent := queued } ∧
      ∀ content, s.inFlightSaveContent = some content →
        queued.getD content = md.stringify s.doc := by
  obtain ⟨checksum, isSome⟩ := isSome_iff_exists.mp isChecksum
  unfold Session.saveDocument
  simp only [Session.saveContent, Session.clearAutoSaveTimer, isSome, map_some]
  by_cases isQueued : s.queuedSaveContent = some (md.stringify s.doc)
  · refine ⟨s.queuedSaveContent, ?_, ?_⟩
    · rw [if_pos (.inl isQueued)]
    · intro content _
      rw [isQueued]
      rfl
  · by_cases isInFlight : s.inFlightSaveContent = some (md.stringify s.doc)
    · refine ⟨s.queuedSaveContent, ?_, ?_⟩
      · rw [if_pos (.inr isInFlight)]
      · intro content isContent
        rw [newest isInFlight]
        rw [isInFlight] at isContent
        exact (Option.some.inj isContent).symm
    · refine ⟨some (md.stringify s.doc), ?_, fun _ _ => rfl⟩
      rw [if_neg (not_or.mpr ⟨isQueued, isInFlight⟩)]
      simp [isSaving]

theorem Phase.saveDocument [DecidableEq τ] (phase : Phase md s) (isMounted : s.disposed = false)
    (loaded : s.Loaded) (newest : s.QueuesNewest md) : Phase md (s.saveDocument md) := by
  cases phase with
  | loading n cached answer _ _ _ isSingle => exact absurd loaded (not_loaded isSingle)
  | resting _ isAutoSave noConflict isSettled ofDisk notSaving noQueue notInFlight saved =>
    rw [saveDocument_resting ofDisk notSaving noQueue notInFlight]
    refine .saving s.nextAccess (md.stringify s.doc) (md.checksum s.disk) s.revision none isMounted
      isAutoSave noConflict ?_ (.waiting rfl) (isSome_of_eq_some ofDisk) rfl rfl
      (fun _ _ => rfl)
    change Function.update s.accesses _ _ = _
    rw [isSettled]
    rfl
  | saving n content expected before answer _ isAutoSave noConflict isSingle stage isChecksum
      isSaving isInFlight saved =>
      obtain ⟨queued, isQueue, isNewest⟩ := saveDocument_saving isChecksum isSaving newest
      rw [isQueue]
      refine .saving n content expected before answer isMounted isAutoSave noConflict isSingle ?_
        isChecksum isSaving isInFlight (fun _ _ => isNewest content isInFlight)
      cases stage with
      | waiting isExpected => exact .waiting isExpected
      | written onDisk => exact .written onDisk
  | left n content expected before answer isGone => simp [isMounted] at isGone
  | gone isGone => simp [isMounted] at isGone

/-- The last save: begun by the cleanup, or in flight already. -/
theorem Phase.unmount [DecidableEq τ] (phase : Phase md s) (isMounted : s.disposed = false)
    (loaded : s.Loaded) (leaves : s.LeavesNothing md) : Phase md (s.unmount md) := by
  cases phase with
  | loading n cached answer _ _ _ isSingle => exact absurd loaded (not_loaded isSingle)
  | resting _ isAutoSave noConflict isSettled ofDisk notSaving noQueue notInFlight saved =>
    unfold Session.unmount
    cases isDue : s.autoSaveTimer with
    | true =>
      rw [if_pos ⟨isAutoSave, .inl rfl⟩, saveDocument_resting ofDisk notSaving noQueue notInFlight]
      refine .left s.nextAccess (md.stringify s.doc) (md.checksum s.disk) s.revision none rfl ?_
        (.waiting rfl) rfl
      change Function.update s.accesses _ _ = _
      rw [isSettled]
      rfl
    | false =>
      rw [if_neg (by simp [notSaving])]
      refine .gone rfl isSettled ?_
      cases isEdited : s.edited with
      | true => exact saved isEdited isDue
      | false => exact leaves.2 notSaving isDue isEdited
  | saving n content expected before answer _ isAutoSave noConflict isSingle stage isChecksum
      isSaving isInFlight saved =>
      have isLast := leaves.1 content isInFlight
      obtain ⟨checksum, isSome⟩ := isSome_iff_exists.mp isChecksum
      have kept : s.saveDocument md = s.clearAutoSaveTimer := by
        simp [Session.saveDocument, Session.saveContent, Session.clearAutoSaveTimer, isSome,
          isInFlight, isLast]
      unfold Session.unmount
      rw [if_pos ⟨isAutoSave, .inr (by simp [isSaving])⟩, kept]
      refine .left n content expected before answer rfl isSingle ?_ isLast
      cases stage with
      | waiting isExpected => exact .waiting isExpected
      | written onDisk => exact .written onDisk
  | left n content expected before answer isGone => simp [isMounted] at isGone
  | gone isGone => simp [isMounted] at isGone

theorem writeWithChecksum_done [DecidableEq τ] [DecidableEq χ] (content : τ) :
    writeWithChecksum md content (md.checksum s.disk) .done s =
      (.written (md.checksum content), { s with disk := content, foreign := false }) := by
  unfold writeWithChecksum planChecksumWrite
  by_cases isSame : s.disk = content
  · subst isSame
    simp
  · simp [isSame]

theorem single_idem (n : Nat) (access access' : Access τ χ) :
    Function.update (single n access) n (some access') = single n access' :=
  update_idem ..

theorem single_erase (n : Nat) (access : Access τ χ) :
    Function.update (single n access) n none = fun _ => none := by
  funext m
  by_cases same : m = n
  · subst same
    exact update_self ..
  · exact (update_of_ne same _ _).trans (single_other same)

/-- The access that is answered or completed is the one in flight. -/
theorem single_eq {n m : Nat} {access access' : Access τ χ}
    (isAccess : single n access m = some access') : m = n ∧ access' = access := by
  by_cases same : m = n
  · subst same
    rw [single_self] at isAccess
    exact ⟨rfl, (Option.some.inj isAccess).symm⟩
  · rw [single_other same] at isAccess
    cases isAccess

theorem Phase.perform [DecidableEq τ] [DecidableEq χ] {m : Nat} (phase : Phase md s)
    (performed : s.perform md m .done = some s') : Phase md s' := by
  unfold Session.perform at performed
  split at performed
  case h_2 => cases performed
  case h_1 purpose isAccess =>
    cases phase with
    | loading n cached answer isMounted isAutoSave isClean isSingle ofDisk cachedOfDisk notSaving
        noQueue notInFlight noConflict notEdited =>
        rw [isSingle] at isAccess
        obtain ⟨rfl, same⟩ := single_eq isAccess
        cases same
        cases performed
        refine .loading m cached (some (.read s.disk (md.checksum s.disk))) isMounted isAutoSave
          isClean ?_ ?_ cachedOfDisk notSaving noQueue notInFlight noConflict notEdited
        · rw [isSingle]
          exact single_idem ..
        · intro given isGiven
          exact (Option.some.inj isGiven).symm
    | resting _ _ _ isSettled =>
      rw [isSettled] at isAccess
      cases isAccess
    | saving n content expected before answer isMounted isAutoSave noConflict isSingle stage
        isChecksum isSaving isInFlight saved =>
        rw [isSingle] at isAccess
        obtain ⟨rfl, same⟩ := single_eq isAccess
        cases same
        cases stage with
        | waiting isExpected =>
          subst isExpected
          simp only [performAccess, writeWithChecksum_done] at performed
          cases performed
          refine .saving m content (md.checksum s.disk) before (some (.written (md.checksum content)))
            isMounted isAutoSave noConflict ?_ (.written rfl) isChecksum isSaving isInFlight saved
          rw [isSingle]
          exact single_idem ..
    | left n content expected before answer isGone isSingle stage isLast =>
      rw [isSingle] at isAccess
      obtain ⟨rfl, same⟩ := single_eq isAccess
      cases same
      cases stage with
      | waiting isExpected =>
        subst isExpected
        simp only [performAccess, writeWithChecksum_done] at performed
        cases performed
        refine .left m content (md.checksum s.disk) before (some (.written (md.checksum content)))
          isGone ?_ (.written rfl) isLast
        rw [isSingle]
        exact single_idem ..
    | gone _ isSettled =>
      rw [isSettled] at isAccess
      cases isAccess

/-- The save loop after a write that was made: it ends, or goes on with the queue. -/
theorem saved_phase {content : τ} {before : Nat} {t : Session δ τ χ} (isMounted : t.disposed = false)
    (isAutoSave : t.autoSave = true) (isSettled : t.accesses = fun _ => none)
    (onDisk : t.disk = content)
    (saved : t.edited = true → t.autoSaveTimer = false →
      t.queuedSaveContent.getD content = md.stringify t.doc) :
    Phase md (t.savedDocument before (.written (md.checksum content))) := by
  have going : ∀ u : Session δ τ χ, u.disposed = false → u.autoSave = true →
      u.saveConflict = none → u.accesses = (fun _ => none) →
      u.checksum = some (md.checksum u.disk) →
      (u.edited = true → u.autoSaveTimer = false →
        u.queuedSaveContent.getD u.disk = md.stringify u.doc) → Phase md u.writeQueued := by
    intro u isMounted isAutoSave noConflict isSettled ofDisk saved
    unfold Session.writeQueued
    split
    · rename_i noQueue
      rw [noQueue] at saved
      exact .resting isMounted isAutoSave noConflict isSettled ofDisk rfl noQueue rfl saved
    · rename_i noChecksum
      rw [ofDisk] at noChecksum
      cases noChecksum
    · rename_i queued expected isQueued isChecksum
      rw [ofDisk] at isChecksum
      cases isChecksum
      rw [isQueued] at saved
      refine .saving u.nextAccess queued (md.checksum u.disk) u.revision none isMounted isAutoSave
        noConflict ?_ (.waiting rfl) (isSome_of_eq_some ofDisk) rfl rfl saved
      change Function.update u.accesses _ _ = _
      rw [isSettled]
      rfl
  subst onDisk
  simp only [Session.savedDocument, isMounted, Bool.false_eq_true, if_false]
  split
  · exact going _ rfl isAutoSave rfl isSettled rfl saved
  · exact going _ rfl isAutoSave rfl isSettled rfl saved

theorem Phase.complete [DecidableEq τ] [DecidableEq χ] {m : Nat} (phase : Phase md s)
    (completed : s.complete md m = some s') : Phase md s' := by
  unfold Session.complete at completed
  split at completed
  case h_2 => cases completed
  case h_1 purpose given isAccess =>
    cases phase with
    | loading n cached answer isMounted isAutoSave isClean isSingle ofDisk cachedOfDisk notSaving
        noQueue notInFlight noConflict notEdited =>
        rw [isSingle] at isAccess
        obtain ⟨rfl, same⟩ := single_eq isAccess
        cases same
        cases ofDisk given rfl
        cases completed
        have settled : Function.update s.accesses m none = fun _ => none := by
          rw [isSingle]
          exact single_erase ..
        have notEdited : ∀ {claim : Prop}, s.edited = true → claim := by
          intro _ isEdited
          simp [notEdited] at isEdited
        have loading : ∀ t : Session δ τ χ, t.disposed = false → t.autoSave = true →
            t.saveConflict = none → t.accesses = (fun _ => none) →
            t.checksum = some (md.checksum t.disk) → t.saveInFlight = none →
            t.queuedSaveContent = none → t.inFlightSaveContent = none → t.edited = s.edited →
            Phase md t := by
          intro t isMounted isAutoSave noConflict isSettled ofDisk notSaving noQueue notInFlight same
          exact .resting isMounted isAutoSave noConflict isSettled ofDisk notSaving noQueue
            notInFlight (fun isEdited => notEdited (same ▸ isEdited))
        simp only [Session.continued, Session.loaded, isMounted, isClean, Bool.false_eq_true,
          and_false, if_false]
        split
        · exact loading _ rfl isAutoSave noConflict settled rfl notSaving noQueue notInFlight
            rfl
        · exact loading _ rfl isAutoSave rfl settled rfl notSaving noQueue notInFlight rfl
    | resting _ _ _ isSettled =>
      rw [isSettled] at isAccess
      cases isAccess
    | saving n content expected before answer isMounted isAutoSave noConflict isSingle stage
        isChecksum isSaving isInFlight saved =>
        rw [isSingle] at isAccess
        obtain ⟨rfl, same⟩ := single_eq isAccess
        cases same
        cases stage with
        | written onDisk =>
          cases completed
          exact saved_phase isMounted isAutoSave (by rw [isSingle]; exact single_erase ..) onDisk saved
    | left n content expected before answer isGone isSingle stage isLast =>
      rw [isSingle] at isAccess
      obtain ⟨rfl, same⟩ := single_eq isAccess
      cases same
      cases stage with
      | written onDisk =>
        cases completed
        simp only [Session.continued, Session.savedDocument, isGone, if_true]
        refine .gone rfl ?_ (onDisk.trans isLast)
        rw [isSingle]
        exact single_erase ..
    | gone _ isSettled =>
      rw [isSettled] at isAccess
      cases isAccess

/-! ## Every run -/

section Runs

variable [DecidableEq τ] [DecidableEq χ]

theorem Phase.next {label : Label δ τ} (phase : Phase md s) (undisturbed : Undisturbed label)
    (inTime : LeavesInTime md s label) (stepped : s.next md label = some s') : Phase md s' := by
  cases label with
  | edit doc =>
    obtain ⟨isMounted, rfl⟩ := mounted_eq_some stepped
    exact phase.edit isMounted inTime doc
  | save =>
    obtain ⟨isMounted, rfl⟩ := mounted_eq_some stepped
    exact phase.saveDocument isMounted inTime.1 inTime.2
  | autoSave =>
    simp only [Session.next] at stepped
    split at stepped
    · obtain ⟨isMounted, rfl⟩ := mounted_eq_some stepped
      exact phase.saveDocument isMounted inTime.1 inTime.2
    · cases stepped
  | perform access outcome =>
    cases outcome with
    | done => exact phase.perform stepped
    | failed left => exact undisturbed.elim
  | complete access => exact phase.complete stepped
  | unmount =>
    obtain ⟨isMounted, rfl⟩ := mounted_eq_some stepped
    exact phase.unmount isMounted inTime.1 inTime.2
  | _ => exact undisturbed.elim

/-- **A tab that is left is saved**, in every run of edits, saves, writes that succeed and
leaving, if the document is loaded when it is edited, saved or left, each save queues the
newest content, and no older content is in flight when the tab is left. -/
theorem leavesSaved_run (reached : (leaving md).ReachableBy
      (fun s label => Undisturbed label ∧ LeavesInTime md s label) s) : LeavesSaved md s := by
  refine Phase.leavesSaved (System.ReachableBy.invariant (fun _ => Phase.alone) ?_ reached)
  rintro s label s' phase ⟨undisturbed, inTime⟩ stepped
  exact phase.next undisturbed inTime stepped

/-! ### Where it fails, and where it holds -/

theorem alone_unread : Alone plain (unread true) :=
  ⟨.opened 0 true 7, rfl, fun _ isChecksum => nomatch isChecksum⟩

def isUndisturbed : Label Nat Nat → Bool
  | .edit _ => true
  | .save => true
  | .autoSave => true
  | .perform _ .done => true
  | .complete _ => true
  | .unmount => true
  | _ => false

theorem undisturbed_of_isUndisturbed {label : Label Nat Nat} (checked : isUndisturbed label = true) :
    Undisturbed label := by
  cases label with
  | perform access outcome =>
    cases outcome with
    | done => trivial
    | failed left => cases checked
  | reload => cases checked
  | keepLocal => cases checked
  | useDisk => cases checked
  | foreign content => cases checked
  | _ => trivial

/-- An edit is auto-saved; another is made while the write is in flight, and the tab is left. -/
theorem not_leavesSaved_while_saving :
    ∃ s, (leaving plain).ReachableBy (fun _ label => Undisturbed label) s ∧
      ¬ LeavesSaved plain s := by
  have ran : (System.runWhile (fun _ label => isUndisturbed label) (next plain) (unread true)
      [.perform 0 .done, .complete 0, .edit 1, .autoSave, .edit 2, .unmount, .perform 1 .done,
      .complete 1]).map (fun s => (s.disposed, report s)) = some (true, true, true, 1, 2) := by
    decide +kernel
  obtain ⟨s, ran, reported⟩ := map_eq_some_iff.mp ran
  have checked : (leaving plain).ReachableBy (fun _ label => isUndisturbed label) s :=
    System.reachableBy_of_runWhile (.start alone_unread) ran
  have reached : (leaving plain).ReachableBy (fun _ label => Undisturbed label) s :=
    checked.mono fun _ _ => undisturbed_of_isUndisturbed
  have begun : s.Begun := by
    refine System.ReachableBy.keeps Session.Begun ?_ ?_ reached
    · exact fun _ starts => begun_of_mounted starts.1
    · exact fun _ _ _ begun _ stepped => Begun.next begun stepped
  simp only [report, Prod.mk.injEq] at reported
  obtain ⟨isGone, _, isSettled, onDisk, isDoc⟩ := reported
  refine ⟨s, reached, ?_⟩
  intro saved
  have same := saved isGone (begun.settled isSettled)
  rw [onDisk, isDoc] at same
  exact absurd same (by simp [plain])

/-- The condition, as a computation: the document is loaded once it has a checksum. -/
def isInTime (s : Session Nat Nat Nat) : Label Nat Nat → Bool
  | .edit _ => s.isSettled
  | .autoSave => s.isSettled && s.inFlightSaveContent.isNone
  | .unmount => s.isSettled && s.inFlightSaveContent.isNone && s.edited
  | .perform _ .done => true
  | .complete _ => true
  | _ => false

theorem loaded_of_isSettled {s : Session Nat Nat Nat} (begun : s.Begun)
    (isSettled : s.isSettled = true) : s.Loaded := by
  intro n cached answer isAccess
  rw [begun.settled isSettled n] at isAccess
  cases isAccess

theorem inTime_of_isInTime {s : Session Nat Nat Nat} {label : Label Nat Nat} (begun : s.Begun)
    (checked : isInTime s label = true) : Undisturbed label ∧ LeavesInTime plain s label := by
  cases label with
  | edit doc => exact ⟨trivial, loaded_of_isSettled begun checked⟩
  | autoSave =>
    obtain ⟨isSettled, notInFlight⟩ := (Bool.and_eq_true _ _).mp checked
    rw [isNone_iff_eq_none] at notInFlight
    refine ⟨trivial, loaded_of_isSettled begun isSettled, ?_⟩
    intro isInFlight
    rw [notInFlight] at isInFlight
    cases isInFlight
  | unmount =>
    simp only [isInTime, Bool.and_eq_true, isNone_iff_eq_none] at checked
    obtain ⟨⟨isSettled, notInFlight⟩, isEdited⟩ := checked
    refine ⟨trivial, loaded_of_isSettled begun isSettled, ?_, ?_⟩
    · intro content isInFlight
      rw [notInFlight] at isInFlight
      cases isInFlight
    · intro _ _ notEdited
      rw [isEdited] at notEdited
      cases notEdited
  | perform access outcome =>
    cases outcome with
    | done => exact ⟨trivial, trivial⟩
    | failed left => cases checked
  | complete access => exact ⟨trivial, trivial⟩
  | _ => cases checked

/-- An edit is left before its auto-save is due. -/
theorem leavesSaved_after_edit :
    ∃ s, (leaving plain).ReachableBy
        (fun s label => Undisturbed label ∧ LeavesInTime plain s label) s ∧
      s.disposed = true ∧ s.Settled ∧ s.disk = 1 ∧ LeavesSaved plain s := by
  have ran : (System.runWhile isInTime (next plain) (unread true) [.perform 0 .done, .complete 0,
      .edit 1, .unmount, .perform 1 .done, .complete 1]).map
        (fun s => (s.disposed, s.isSettled, s.disk)) = some (true, true, 1) := by
    decide +kernel
  obtain ⟨s, ran, reported⟩ := map_eq_some_iff.mp ran
  simp only [Prod.mk.injEq] at reported
  obtain ⟨isGone, isSettled, onDisk⟩ := reported
  have checked : (leaving plain).ReachableBy (fun s label => isInTime s label) s :=
    System.reachableBy_of_runWhile (.start alone_unread) ran
  have reached : (leaving plain).ReachableBy
      (fun s label => Undisturbed label ∧ LeavesInTime plain s label) s ∧ s.Begun := by
    refine System.ReachableBy.keeps (fun s => (leaving plain).ReachableBy
      (fun s label => Undisturbed label ∧ LeavesInTime plain s label) s ∧ s.Begun) ?_ ?_ checked
    · exact fun _ starts => ⟨.start starts, begun_of_mounted starts.1⟩
    · rintro s label s' ⟨reached, begun⟩ isChecked stepped
      exact ⟨.step reached (inTime_of_isInTime begun isChecked) stepped, begun.next stepped⟩
  exact ⟨s, reached.1, isGone, reached.2.settled isSettled, onDisk, leavesSaved_run reached.1⟩

end Runs

end Session

end Kuku.Editor
