/-
# Editor.CleanTab -- a tab shown clean is saved

A completed save marks the tab clean when the document object is still the one it was when
the write was begun.  For a content that has waited in the queue this is too late a look:
the document may have moved on between being written out and the write, and the tab is then
marked clean over a file that holds an older document.  Reads and writes that overlap do
the same harm, since a continuation does not ask what has happened to the file meanwhile.

`cleanIsSaved_run` says that these are the only ways.
-/
import Kuku.Editor.Session

namespace Kuku.Editor

open Kuku.Theory Function Option

namespace Purpose

variable {τ χ : Type}

/-- What a write writes, and the document object it was begun at. -/
def writes : Purpose τ χ → Option (τ × Nat)
  | .save content _ before => some (content, before)
  | .keepLocal content _ before => some (content, before)
  | _ => none

/-- The checksum a read compares its own with. -/
def known : Purpose τ χ → Option (Option χ)
  | .load cached => some cached
  | .reload previous => some previous
  | _ => none

end Purpose

namespace Session

variable {δ τ χ : Type} (md : Markdown δ τ χ)

/-- **A tab shown clean is saved**, when nothing is in flight and nobody else wrote. -/
def CleanIsSaved (s : Session δ τ χ) : Prop :=
  s.disposed = false → s.isDirty = false → s.Settled → s.foreign = false → Holds md s.disk s.doc

/-! ## The condition -/

/-- The editor begins to read or write the file while nothing else of it is in flight. -/
def BeginsAlone (s : Session δ τ χ) : Label δ τ → Prop
  | .save => s.checksum.isSome → s.saveInFlight = none → s.Settled
  | .autoSave => s.checksum.isSome → s.saveInFlight = none → s.Settled
  | .reload => s.isDirty = false → s.saveInFlight = none → s.Settled
  | .keepLocal => s.saveConflict.isSome → s.Settled
  | .useDisk => s.saveConflict.isSome → s.Settled
  | _ => True

/-- A content that has waited is still that of the document when its turn comes. -/
def WritesCurrent (s : Session δ τ χ) : Label δ τ → Prop
  | .complete access => ∀ purpose checksum content,
      s.accesses access = some ⟨purpose, some (.written checksum)⟩ →
      s.queuedSaveContent = some content → content = md.stringify s.doc
  | _ => True

/-- A write that fails under a clean tab leaves the file as it was, or whole. -/
def FailsWhole (s : Session δ τ χ) : Label δ τ → Prop
  | .perform access (.failed (some left)) => ∀ purpose answer content before,
      s.accesses access = some ⟨purpose, answer⟩ → purpose.writes = some (content, before) →
      s.isDirty = false → left = content
  | _ => True

structure Careful (s : Session δ τ χ) (label : Label δ τ) : Prop where
  beginsAlone : BeginsAlone s label
  writesCurrent : WritesCurrent md s label
  failsWhole : FailsWhole s label

/-! ## The invariant -/

/-- What is known of an access that is alone in flight. -/
structure InFlight (s : Session δ τ χ) (access : Access τ χ) : Prop where
  begun : ∀ content before, access.purpose.writes = some (content, before) →
    before ≤ s.revision ∧ (before = s.revision → content = md.stringify s.doc) ∧
      (s.isDirty = false → before = s.revision) ∧
      ∀ read checksum, access.answer ≠ some (.read read checksum)
  written : ∀ content before checksum, access.purpose.writes = some (content, before) →
    access.answer = some (.written checksum) →
    checksum = md.checksum content ∧ (s.foreign = false → s.disk = content)
  known : ∀ known, access.purpose.known = some known → s.checksum = known
  read : ∀ content checksum, access.answer = some (.read content checksum) →
    checksum = md.checksum content ∧ (s.foreign = false → s.disk = content)

structure CleanInvariant (s : Session δ τ χ) : Prop where
  begun : ∀ n access, s.accesses n = some access → n < s.nextAccess
  alone : ∀ n m access access', s.accesses n = some access → s.accesses m = some access' → n = m
  inFlight : ∀ n access, s.accesses n = some access → InFlight md s access
  knows : s.isDirty = false → ∀ checksum, s.checksum = some checksum →
    ∀ content, md.checksum content = checksum → Holds md content s.doc
  holds : s.isDirty = false → s.foreign = false →
    (∀ n access content checksum, s.accesses n = some access →
      access.answer ≠ some (.read content checksum)) → Holds md s.disk s.doc

variable {md} {s s' : Session δ τ χ}

theorem CleanInvariant.saved (inv : CleanInvariant md s) : CleanIsSaved md s := by
  intro _ isClean settled alone
  refine inv.holds isClean alone ?_
  intro n access _ _ isAccess
  rw [settled n] at isAccess
  cases isAccess

/-- The parts of a session that the invariant is about. -/
structure SameFile (s s' : Session δ τ χ) : Prop where
  doc : s'.doc = s.doc
  revision : s'.revision = s.revision
  checksum : s'.checksum = s.checksum
  isDirty : s'.isDirty = s.isDirty
  accesses : s'.accesses = s.accesses
  nextAccess : s'.nextAccess = s.nextAccess
  disk : s'.disk = s.disk
  foreign : s'.foreign = s.foreign

theorem CleanInvariant.same (inv : CleanInvariant md s) (same : SameFile s s') :
    CleanInvariant md s' := by
  have inFlight : ∀ access, InFlight md s access → InFlight md s' access := by
    intro access known
    constructor
    · rw [same.revision, same.doc, same.isDirty]
      exact known.begun
    · rw [same.foreign, same.disk]
      exact known.written
    · rw [same.checksum]
      exact known.known
    · rw [same.foreign, same.disk]
      exact known.read
  constructor
  · rw [same.accesses, same.nextAccess]
    exact inv.begun
  · rw [same.accesses]
    exact inv.alone
  · rw [same.accesses]
    exact fun n access isAccess => inFlight access (inv.inFlight n access isAccess)
  · rw [same.isDirty, same.checksum, same.doc]
    exact inv.knows
  · rw [same.isDirty, same.foreign, same.accesses, same.disk, same.doc]
    exact inv.holds

/-- An access is begun alone. -/
theorem CleanInvariant.begin {purpose : Purpose τ χ} (inv : CleanInvariant md s)
    (settled : s.Settled)
    (writes : ∀ content before, purpose.writes = some (content, before) →
      before = s.revision ∧ content = md.stringify s.doc)
    (known : ∀ known, purpose.known = some known → s.checksum = known) :
    CleanInvariant md (s.begin purpose) := by
  have only : ∀ n access, (s.begin purpose).accesses n = some access →
      n = s.nextAccess ∧ access = { purpose } := by
    intro n access isAccess
    by_cases same : n = s.nextAccess
    · subst same
      simp only [Session.begin, update_self, Option.some.injEq] at isAccess
      exact ⟨rfl, isAccess.symm⟩
    · simp only [Session.begin, update_of_ne same, settled n] at isAccess
      cases isAccess
  constructor
  case begun =>
    intro n access isAccess
    rw [(only n access isAccess).1]
    exact Nat.lt_succ_self _
  case alone =>
    intro n m access access' isAccess isAccess'
    rw [(only n access isAccess).1, (only m access' isAccess').1]
  case inFlight =>
    intro n access isAccess
    rw [(only n access isAccess).2]
    constructor
    · intro content before isWrite
      obtain ⟨rfl, rfl⟩ := writes content before isWrite
      exact ⟨Nat.le_refl _, fun _ => rfl, fun _ => rfl, fun _ _ answered => nomatch answered⟩
    · exact fun _ _ _ _ answered => nomatch answered
    · exact known
    · exact fun _ _ answered => nomatch answered
  case knows => exact inv.knows
  case holds =>
    intro isClean alone _
    refine inv.holds isClean alone ?_
    intro n access _ _ isAccess
    rw [settled n] at isAccess
    cases isAccess

/-- With nothing in flight there is only the document, the file and the checksum. -/
theorem CleanInvariant.of_settled (settled : s.Settled)
    (knows : s.isDirty = false → ∀ checksum, s.checksum = some checksum →
      ∀ content, md.checksum content = checksum → Holds md content s.doc)
    (holds : s.isDirty = false → s.foreign = false → Holds md s.disk s.doc) :
    CleanInvariant md s := by
  have none : ∀ n access, s.accesses n ≠ some access := by
    intro n access isAccess
    rw [settled n] at isAccess
    cases isAccess
  constructor
  · exact fun n access isAccess => absurd isAccess (none n access)
  · exact fun n _ access _ isAccess => absurd isAccess (none n access)
  · exact fun n access isAccess => absurd isAccess (none n access)
  · exact knows
  · exact fun isClean alone _ => holds isClean alone

theorem CleanInvariant.mounted [DecidableEq τ] [DecidableEq χ] (starts : Mounted md s) :
    CleanInvariant md s := by
  cases starts with
  | opened blank autoSave disk =>
    refine CleanInvariant.begin ?_ (fun _ => rfl) (fun _ _ isWrite => nomatch isWrite) ?_
    · exact .of_settled (fun _ => rfl) (fun _ _ known => nomatch known)
        (fun _ alone => nomatch alone)
    · intro known isKnown
      cases isKnown
      rfl
  | restored doc checksum autoSave disk held =>
    refine CleanInvariant.begin ?_ (fun _ => rfl) (fun _ _ isWrite => nomatch isWrite) ?_
    · refine .of_settled (fun _ => rfl) ?_ (fun _ alone => nomatch alone)
      intro _ known isKnown
      cases isKnown
      exact held
    · intro known isKnown
      cases isKnown
      rfl
  | unsaved doc checksum autoSave disk =>
    exact .of_settled (fun _ => rfl) (fun isClean => nomatch isClean)
      (fun isClean => nomatch isClean)

/-! ## The steps -/

variable (inv : CleanInvariant md s)

include inv

/-- An edit makes the tab dirty, and a write in flight one of an older document. -/
theorem CleanInvariant.edit (doc : δ) : CleanInvariant md (s.edit doc) := by
  constructor
  case begun => exact inv.begun
  case alone => exact inv.alone
  case inFlight =>
    intro n access isAccess
    have known := inv.inFlight n access isAccess
    constructor
    · intro content before isWrite
      obtain ⟨older, _, _, notRead⟩ := known.begun content before isWrite
      refine ⟨Nat.le_succ_of_le older, ?_, ?_, notRead⟩
      · intro isNow
        exact absurd isNow (Nat.ne_of_lt (Nat.lt_succ_of_le older))
      · intro isClean
        cases isClean
    · exact known.written
    · exact known.known
    · exact known.read
  case knows => exact fun isClean => nomatch isClean
  case holds => exact fun isClean => nomatch isClean

/-- The head of the save loop, where the queue is current. -/
theorem CleanInvariant.writeQueued (settled : s.Settled)
    (current : ∀ content, s.queuedSaveContent = some content → content = md.stringify s.doc) :
    CleanInvariant md s.writeQueued := by
  unfold Session.writeQueued
  split
  · exact inv.same ⟨rfl, rfl, rfl, rfl, rfl, rfl, rfl, rfl⟩
  · exact inv.same ⟨rfl, rfl, rfl, rfl, rfl, rfl, rfl, rfl⟩
  · rename_i content expected isQueued isChecksum
    have begun : CleanInvariant md (s.begin (.save content expected s.revision)) := by
      refine inv.begin settled ?_ (fun _ isKnown => nomatch isKnown)
      intro written before isWrite
      cases isWrite
      exact ⟨rfl, current content isQueued⟩
    exact begun.same ⟨rfl, rfl, rfl, rfl, rfl, rfl, rfl, rfl⟩

theorem CleanInvariant.saveDocument [DecidableEq τ]
    (alone : s.checksum.isSome → s.saveInFlight = none → s.Settled) :
    CleanInvariant md (s.saveDocument md) := by
  have cleared : CleanInvariant md s.clearAutoSaveTimer :=
    inv.same ⟨rfl, rfl, rfl, rfl, rfl, rfl, rfl, rfl⟩
  unfold Session.saveDocument
  dsimp only
  split
  · exact cleared
  · rename_i content isContent
    obtain ⟨checksum, isChecksum, rfl⟩ := map_eq_some_iff.mp isContent
    have queued : CleanInvariant md
        { s.clearAutoSaveTimer with queuedSaveContent := some (md.stringify s.doc) } :=
      cleared.same ⟨rfl, rfl, rfl, rfl, rfl, rfl, rfl, rfl⟩
    split
    · exact cleared
    · split
      · exact queued
      · rename_i notSaving
        refine queued.writeQueued (alone ?_ ?_) ?_
        · exact isSome_of_eq_some isChecksum
        · exact not_isSome_iff_eq_none.mp notSaving
        · intro other isQueued
          cases isQueued
          rfl

theorem CleanInvariant.reloadDocumentFromDisk
    (alone : s.isDirty = false → s.saveInFlight = none → s.Settled) :
    CleanInvariant md s.reloadDocumentFromDisk := by
  unfold Session.reloadDocumentFromDisk
  split
  · exact inv
  · rename_i isClean
    split
    · exact inv
    · rename_i notSaving
      have settled := alone (Bool.eq_false_iff.mpr isClean) (not_isSome_iff_eq_none.mp notSaving)
      have cleared : CleanInvariant md { s.clearAutoSaveTimer with queuedSaveContent := none } :=
        inv.same ⟨rfl, rfl, rfl, rfl, rfl, rfl, rfl, rfl⟩
      refine cleared.begin settled (fun _ _ isWrite => nomatch isWrite) ?_
      intro known isKnown
      cases isKnown
      rfl

theorem CleanInvariant.keepLocalChangesAfterConflict (alone : s.saveConflict.isSome → s.Settled) :
    CleanInvariant md (s.keepLocalChangesAfterConflict md) := by
  unfold Session.keepLocalChangesAfterConflict
  split
  · rename_i expected actual isConflict
    dsimp only
    split
    · exact inv.same ⟨rfl, rfl, rfl, rfl, rfl, rfl, rfl, rfl⟩
    · rename_i content isContent
      obtain ⟨checksum, isChecksum, rfl⟩ := map_eq_some_iff.mp isContent
      have resolving : CleanInvariant md { s.clearAutoSaveTimer with
          saveConflict := some ⟨expected, actual, some .keepLocal⟩ } :=
        inv.same ⟨rfl, rfl, rfl, rfl, rfl, rfl, rfl, rfl⟩
      refine resolving.begin (alone (isSome_of_eq_some isConflict)) ?_
        (fun _ isKnown => nomatch isKnown)
      intro written before isWrite
      cases isWrite
      exact ⟨rfl, rfl⟩
  · exact inv

theorem CleanInvariant.useDiskVersionAfterConflict (alone : s.saveConflict.isSome → s.Settled) :
    CleanInvariant md s.useDiskVersionAfterConflict := by
  unfold Session.useDiskVersionAfterConflict
  split
  · rename_i expected actual isConflict
    have resolving : CleanInvariant md { s.clearAutoSaveTimer with
        queuedSaveContent := none
        saveConflict := some ⟨expected, actual, some .useDisk⟩ } :=
      inv.same ⟨rfl, rfl, rfl, rfl, rfl, rfl, rfl, rfl⟩
    exact resolving.begin (alone (isSome_of_eq_some isConflict))
      (fun _ _ isWrite => nomatch isWrite) (fun _ isKnown => nomatch isKnown)
  · exact inv

/-- Somebody else writes the file: nothing is claimed of it until the editor looks again. -/
theorem CleanInvariant.overwritten (content : τ) :
    CleanInvariant md { s with disk := content, foreign := true } where
  begun := inv.begun
  alone := inv.alone
  inFlight n access isAccess :=
    have known := inv.inFlight n access isAccess
    { begun := known.begun
      written := fun written before checksum isWrite answered =>
        ⟨(known.written written before checksum isWrite answered).1, fun alone => nomatch alone⟩
      known := known.known
      read := fun read checksum answered =>
        ⟨(known.read read checksum answered).1, fun alone => nomatch alone⟩ }
  knows := inv.knows
  holds := fun _ alone => nomatch alone

/-! ### Accesses -/

omit inv

section Access

variable {n : Nat} {purpose : Purpose τ χ} {answer : Option (Answer τ χ)}

/-- What is in flight beside an access that is alone. -/
theorem CleanInvariant.settled_without (inv : CleanInvariant md s)
    (isAccess : s.accesses n = some ⟨purpose, answer⟩) :
    ({ s with accesses := Function.update s.accesses n none } : Session δ τ χ).Settled := by
  intro m
  by_cases same : m = n
  · subst same
    exact update_self ..
  · refine (update_of_ne same _ _).trans ?_
    by_contra another
    obtain ⟨access, isAnother⟩ := ne_none_iff_exists'.mp another
    exact same (inv.alone m n access _ isAnother isAccess)

variable {t : Session δ τ χ}

theorem CleanInvariant.answered {given : Answer τ χ} (inv : CleanInvariant md s)
    (isAccess : s.accesses n = some ⟨purpose, answer⟩)
    (session : t = { s with disk := t.disk, foreign := t.foreign })
    (written : ∀ content before, purpose.writes = some (content, before) →
      (∀ read checksum, given ≠ .read read checksum) ∧ ∀ checksum, given = .written checksum →
        checksum = md.checksum content ∧ (t.foreign = false → t.disk = content))
    (read : ∀ content checksum, given = .read content checksum →
      checksum = md.checksum content ∧ (t.foreign = false → t.disk = content))
    (holds : s.isDirty = false → t.foreign = false →
      (∀ content checksum, given ≠ .read content checksum) → Holds md t.disk s.doc) :
    CleanInvariant md
      { t with accesses := Function.update s.accesses n (some ⟨purpose, some given⟩) } := by
  obtain ⟨doc, revision, checksum, isDirty, saveConflict, queued, inFlight, saving, autoSave, timer,
    accesses, nextAccess, disposed, disk, foreign, edited⟩ := t
  cases session
  have only : ∀ m access, Function.update s.accesses n (some ⟨purpose, some given⟩) m =
      some access → m = n ∧ access = ⟨purpose, some given⟩ := by
    intro m access isOther
    by_cases same : m = n
    · subst same
      rw [update_self] at isOther
      exact ⟨rfl, (Option.some.inj isOther).symm⟩
    · rw [update_of_ne same] at isOther
      exact absurd (inv.alone m n access _ isOther isAccess) same
  have was := inv.inFlight n _ isAccess
  constructor
  case begun =>
    intro m access isOther
    rw [(only m access isOther).1]
    exact inv.begun n _ isAccess
  case alone =>
    intro m m' access access' isOther isOther'
    rw [(only m access isOther).1, (only m' access' isOther').1]
  case inFlight =>
    intro m access isOther
    rw [(only m access isOther).2]
    constructor
    · intro content before isWrite
      obtain ⟨older, current, clean, _⟩ := was.begun content before isWrite
      refine ⟨older, current, clean, ?_⟩
      intro content checksum isRead
      exact (written _ _ isWrite).1 content checksum (Option.some.inj isRead)
    · intro content before checksum isWrite isWritten
      exact (written content before isWrite).2 checksum (Option.some.inj isWritten)
    · exact was.known
    · intro content checksum isRead
      exact read content checksum (Option.some.inj isRead)
  case knows => exact inv.knows
  case holds =>
    intro isClean alone notRead
    refine holds isClean alone ?_
    intro content checksum isRead
    refine notRead n ⟨purpose, some given⟩ content checksum (update_self ..) ?_
    rw [isRead]

theorem CleanInvariant.holds_unanswered (inv : CleanInvariant md s)
    (isAccess : s.accesses n = some ⟨purpose, none⟩) (isClean : s.isDirty = false)
    (alone : s.foreign = false) : Holds md s.disk s.doc := by
  refine inv.holds isClean alone ?_
  intro m access content checksum isOther isRead
  have same := inv.alone m n access _ isOther isAccess
  subst same
  rw [isAccess] at isOther
  cases isOther
  cases isRead

variable {outcome : Outcome τ}

theorem CleanInvariant.read_performed (inv : CleanInvariant md s)
    (isAccess : s.accesses n = some ⟨purpose, none⟩) (notWrite : purpose.writes = none) :
    CleanInvariant md { (readWithChecksum md outcome s).2 with
      accesses := Function.update s.accesses n
        (some ⟨purpose, some (readWithChecksum md outcome s).1⟩) } := by
  cases outcome with
  | failed left =>
    refine inv.answered isAccess rfl ?_ (fun _ _ isRead => nomatch isRead)
      (fun isClean alone _ => inv.holds_unanswered isAccess isClean alone)
    intro content before isWrite
    rw [notWrite] at isWrite
    cases isWrite
  | done =>
    refine inv.answered isAccess rfl ?_ ?_ ?_
    · intro content before isWrite
      rw [notWrite] at isWrite
      cases isWrite
    · intro content checksum isRead
      cases isRead
      exact ⟨rfl, fun _ => rfl⟩
    · exact fun _ _ notRead => absurd rfl (notRead _ _)

variable {content : τ}

theorem CleanInvariant.write_performed [DecidableEq τ] [DecidableEq χ] {before : Nat} {expected : χ}
    (inv : CleanInvariant md s) (isAccess : s.accesses n = some ⟨purpose, none⟩)
    (isWrite : purpose.writes = some (content, before))
    (whole : ∀ left, outcome = .failed (some left) → s.isDirty = false → left = content) :
    CleanInvariant md { (writeWithChecksum md content expected outcome s).2 with
      accesses := Function.update s.accesses n
        (some ⟨purpose, some (writeWithChecksum md content expected outcome s).1⟩) } := by
  have was := inv.inFlight n _ isAccess
  obtain ⟨_, current, clean, _⟩ := was.begun content before isWrite
  have holdsContent : s.isDirty = false → Holds md content s.doc :=
    fun isClean => .inl (current (clean isClean))
  have holds : s.isDirty = false → s.foreign = false → Holds md s.disk s.doc :=
    fun isClean alone => inv.holds_unanswered isAccess isClean alone
  -- an answer that is not `written` says nothing of the content
  have silent : ∀ given : Answer τ χ, (∀ read checksum, given ≠ .read read checksum) →
      (∀ checksum, given ≠ .written checksum) → ∀ t : Session δ τ χ,
      ∀ other before, purpose.writes = some (other, before) →
      (∀ read checksum, given ≠ .read read checksum) ∧ ∀ checksum, given = .written checksum →
        checksum = md.checksum other ∧ (t.foreign = false → t.disk = other) :=
    fun given notRead notWritten t other before _ =>
      ⟨notRead, fun checksum isWritten => absurd isWritten (notWritten checksum)⟩
  unfold writeWithChecksum
  match outcome, whole with
  | .failed none, _ =>
    exact inv.answered isAccess rfl
      (silent .failed (fun _ _ => by simp) (fun _ => by simp) s)
      (fun _ _ isRead => nomatch isRead) (fun isClean alone _ => holds isClean alone)
  | .failed (some left), whole =>
    dsimp only
    split
    · refine inv.answered isAccess rfl (silent .failed (fun _ _ => by simp) (fun _ => by simp) _)
        (fun _ _ isRead => nomatch isRead) ?_
      intro isClean _ _
      rw [whole left rfl isClean]
      exact holdsContent isClean
    · exact inv.answered isAccess rfl
        (silent .failed (fun _ _ => by simp) (fun _ => by simp) s)
        (fun _ _ isRead => nomatch isRead) (fun isClean alone _ => holds isClean alone)
  | .done, _ =>
    dsimp only
    unfold planChecksumWrite
    by_cases isSame : s.disk = content
    · rw [if_pos isSame]
      refine inv.answered isAccess rfl ?_ (fun _ _ isRead => nomatch isRead) ?_
      · intro other before' isOther
        rw [isWrite] at isOther
        cases isOther
        refine ⟨(fun _ _ isRead => nomatch isRead), ?_⟩
        intro checksum isWritten
        cases isWritten
        exact ⟨congrArg md.checksum isSame, fun _ => isSame⟩
      · intro isClean _ _
        dsimp only
        rw [isSame]
        exact holdsContent isClean
    · rw [if_neg isSame]
      by_cases isExpected : md.checksum s.disk ≠ expected
      · rw [if_pos isExpected]
        exact inv.answered isAccess rfl
          (silent (.conflict _ _) (fun _ _ => by simp) (fun _ => by simp) s)
          (fun _ _ isRead => nomatch isRead) (fun isClean alone _ => holds isClean alone)
      · rw [if_neg isExpected]
        refine inv.answered isAccess rfl ?_ (fun _ _ isRead => nomatch isRead) ?_
        · intro other before' isOther
          rw [isWrite] at isOther
          cases isOther
          refine ⟨(fun _ _ isRead => nomatch isRead), ?_⟩
          intro checksum isWritten
          cases isWritten
          exact ⟨rfl, fun _ => rfl⟩
        · exact fun isClean _ _ => holdsContent isClean

theorem CleanInvariant.perform [DecidableEq τ] [DecidableEq χ] (inv : CleanInvariant md s)
    (whole : FailsWhole s (.perform n outcome : Label δ τ))
    (performed : s.perform md n outcome = some s') : CleanInvariant md s' := by
  unfold Session.perform at performed
  split at performed
  · rename_i purpose isAccess
    cases performed
    have whole : ∀ content before, purpose.writes = some (content, before) → ∀ left,
        outcome = .failed (some left) → s.isDirty = false → left = content := by
      intro content before isWrite left isFailed isClean
      subst isFailed
      exact whole purpose none content before isAccess isWrite isClean
    cases purpose with
    | save content expected before =>
      exact inv.write_performed isAccess rfl (whole content before rfl)
    | keepLocal content conflict before =>
      exact inv.write_performed isAccess rfl (whole content before rfl)
    | load cached => exact inv.read_performed isAccess rfl
    | reload previous => exact inv.read_performed isAccess rfl
    | useDisk conflict => exact inv.read_performed isAccess rfl
  · cases performed

variable {checksum : χ}

/-- The end of a write that was made. -/
theorem CleanInvariant.written (injective : Function.Injective md.checksum) {before : Nat}
    (inv : CleanInvariant md s) (isAccess : s.accesses n = some ⟨purpose, some (.written checksum)⟩)
    (isWrite : purpose.writes = some (content, before)) (settled : t.Settled) (doc : t.doc = s.doc)
    (isChecksum : t.checksum = some checksum)
    (marked : t.isDirty = false → s.isDirty = false ∨ s.revision = before) (disk : t.disk = s.disk)
    (foreign : t.foreign = s.foreign) : CleanInvariant md t := by
  have was := inv.inFlight n _ isAccess
  obtain ⟨_, current, clean, _⟩ := was.begun content before isWrite
  obtain ⟨ofContent, onDisk⟩ := was.written content before checksum isWrite rfl
  have written : t.isDirty = false → content = md.stringify s.doc := by
    intro isClean
    cases marked isClean with
    | inl wasClean => exact current (clean wasClean)
    | inr same => exact current same.symm
  refine .of_settled settled ?_ ?_
  · intro isClean known isKnown other isOther
    rw [isChecksum] at isKnown
    cases isKnown
    rw [doc, injective (isOther.trans ofContent)]
    exact .inl (written isClean)
  · intro isClean alone
    rw [disk, doc, onDisk (foreign ▸ alone)]
    exact .inl (written isClean)

/-- The end of a read whose content becomes the document. -/
theorem CleanInvariant.shown (injective : Function.Injective md.checksum)
    (inv : CleanInvariant md s)
    (isAccess : s.accesses n = some ⟨purpose, some (.read content checksum)⟩) (settled : t.Settled)
    (doc : t.doc = md.parse content) (isChecksum : t.checksum = some checksum)
    (disk : t.disk = s.disk) (foreign : t.foreign = s.foreign) : CleanInvariant md t := by
  obtain ⟨ofContent, onDisk⟩ := (inv.inFlight n _ isAccess).read content checksum rfl
  refine .of_settled settled ?_ ?_
  · intro _ known isKnown other isOther
    rw [isChecksum] at isKnown
    cases isKnown
    rw [injective (isOther.trans ofContent)]
    exact .inr doc
  · intro _ alone
    rw [disk, onDisk (foreign ▸ alone)]
    exact .inr doc

/-- The end of a read that finds the file as the session knows it. -/
theorem CleanInvariant.unchanged (inv : CleanInvariant md s)
    (isAccess : s.accesses n = some ⟨purpose, some (.read content checksum)⟩) (settled : t.Settled)
    (isKnown : s.checksum = some checksum) (doc : t.doc = s.doc)
    (isChecksum : t.checksum = some checksum) (isDirty : t.isDirty = s.isDirty)
    (disk : t.disk = s.disk) (foreign : t.foreign = s.foreign) : CleanInvariant md t := by
  obtain ⟨ofContent, onDisk⟩ := (inv.inFlight n _ isAccess).read content checksum rfl
  refine .of_settled settled ?_ ?_
  · intro isClean known isOther
    rw [isChecksum] at isOther
    rw [doc]
    exact inv.knows (isDirty ▸ isClean) known (isKnown.trans isOther)
  · intro isClean alone
    rw [disk, doc, onDisk (foreign ▸ alone)]
    exact inv.knows (isDirty ▸ isClean) checksum isKnown content ofContent.symm

/-- The end of an access that changes neither the document nor what is known of the file. -/
theorem CleanInvariant.ignored (inv : CleanInvariant md s)
    (isAccess : s.accesses n = some ⟨purpose, answer⟩) (settled : t.Settled)
    (notRead : s.isDirty = true ∨ ∀ content checksum, answer ≠ some (.read content checksum))
    (doc : t.doc = s.doc) (isChecksum : t.checksum = s.checksum) (isDirty : t.isDirty = s.isDirty)
    (disk : t.disk = s.disk) (foreign : t.foreign = s.foreign) : CleanInvariant md t := by
  refine .of_settled settled ?_ ?_
  · rw [isDirty, isChecksum, doc]
    exact inv.knows
  · intro isClean alone
    rw [isDirty] at isClean
    rw [disk, doc]
    refine inv.holds isClean (foreign ▸ alone) ?_
    intro m access content checksum isOther isRead
    have same := inv.alone m n access _ isOther isAccess
    subst same
    rw [isAccess] at isOther
    cases isOther
    cases notRead with
    | inl wasDirty =>
      rw [isClean] at wasDirty
      cases wasDirty
    | inr notRead => exact notRead content checksum isRead

theorem CleanInvariant.complete [DecidableEq χ] (injective : Function.Injective md.checksum)
    (inv : CleanInvariant md s) (mounted : s.disposed = false)
    (current : WritesCurrent md s (.complete n : Label δ τ))
    (completed : s.complete md n = some s') : CleanInvariant md s' := by
  unfold Session.complete at completed
  split at completed
  · rename_i purpose answer isAccess
    cases completed
    have settled := inv.settled_without isAccess
    have notDisposed : ¬ s.disposed = true := by simp [mounted]
    cases purpose with
    | load cached =>
      simp only [Session.continued, Session.loaded]
      split
      · rename_i content checksum
        rw [if_neg notDisposed]
        split
        · rename_i isSkipped
          exact inv.ignored isAccess settled (.inl isSkipped.2) rfl rfl rfl rfl rfl
        · split
          · rename_i isSame
            refine inv.unchanged isAccess settled ?_ rfl rfl rfl rfl rfl
            exact ((inv.inFlight n _ isAccess).known cached rfl).trans isSame
          · exact inv.shown injective isAccess settled rfl rfl rfl rfl
      · rename_i notRead
        refine inv.ignored isAccess settled (.inr ?_) rfl rfl rfl rfl rfl
        intro content checksum isRead
        exact notRead content checksum (Option.some.inj isRead)
    | reload previous =>
      simp only [Session.continued, Session.reloaded]
      split
      · rename_i content checksum
        split
        · rename_i isSkipped
          exact inv.ignored isAccess settled (.inl (isSkipped.resolve_left notDisposed)) rfl rfl
            rfl rfl rfl
        · rename_i isActed
          split
          · rename_i isSame
            refine inv.unchanged isAccess settled ?_ rfl rfl ?_ rfl rfl
            · exact ((inv.inFlight n _ isAccess).known previous rfl).trans isSame
            · exact (Bool.eq_false_iff.mpr (not_or.mp isActed).2).symm
          · exact inv.shown injective isAccess settled rfl rfl rfl rfl
      · rename_i notRead
        refine inv.ignored isAccess settled (.inr ?_) rfl rfl rfl rfl rfl
        intro content checksum isRead
        exact notRead content checksum (Option.some.inj isRead)
    | useDisk conflict =>
      simp only [Session.continued, Session.usedDiskVersion, if_neg notDisposed]
      split
      · exact inv.shown injective isAccess settled rfl rfl rfl rfl
      · rename_i notRead
        refine inv.ignored isAccess settled (.inr ?_) rfl rfl rfl rfl rfl
        intro content checksum isRead
        exact notRead content checksum (Option.some.inj isRead)
    | save content expected before =>
      have notRead := ((inv.inFlight n _ isAccess).begun content before rfl).2.2.2
      simp only [Session.continued, Session.savedDocument]
      split
      · rename_i checksum
        rw [if_neg notDisposed]
        split
        · rename_i isMarked
          refine CleanInvariant.writeQueued ?_ settled ?_
          · refine inv.written injective isAccess rfl settled rfl rfl ?_ rfl rfl
            exact fun _ => .inr isMarked.2
          · intro queued isQueued
            exact current _ checksum queued isAccess isQueued
        · refine CleanInvariant.writeQueued ?_ settled ?_
          · exact inv.written injective isAccess rfl settled rfl rfl .inl rfl rfl
          · intro queued isQueued
            exact current _ checksum queued isAccess isQueued
      · rw [if_neg notDisposed]
        exact inv.ignored isAccess settled (.inr notRead) rfl rfl rfl rfl rfl
      · exact inv.ignored isAccess settled (.inr notRead) rfl rfl rfl rfl rfl
    | keepLocal content conflict before =>
      have notRead := ((inv.inFlight n _ isAccess).begun content before rfl).2.2.2
      simp only [Session.continued, Session.keptLocalChanges, if_neg notDisposed]
      split
      · split
        · rename_i isSame
          exact inv.written injective isAccess rfl settled rfl rfl (fun _ => .inr isSame) rfl rfl
        · exact inv.written injective isAccess rfl settled rfl rfl .inl rfl rfl
      · exact inv.ignored isAccess settled (.inr notRead) rfl rfl rfl rfl rfl
      · exact inv.ignored isAccess settled (.inr notRead) rfl rfl rfl rfl rfl
  · cases completed

end Access

/-! ## Every run -/

section Runs

/-- The continuations of an editor that is gone let the document be. -/
theorem continued_disposed [DecidableEq χ] (purpose : Purpose τ χ) (answer : Answer τ χ)
    (isDisposed : s.disposed = true) : (s.continued md purpose answer).disposed = true := by
  cases purpose <;> cases answer <;>
    simp [Session.continued, Session.loaded, Session.reloaded, Session.usedDiskVersion,
      Session.savedDocument, Session.keptLocalChanges, isDisposed]

variable [DecidableEq τ] [DecidableEq χ] {label : Label δ τ}

theorem CleanInvariant.next (injective : Function.Injective md.checksum)
    (inv : CleanInvariant md s) (isMounted : s.disposed = false) (careful : Careful md s label)
    (stepped : s.next md label = some s') : s'.disposed = true ∨ CleanInvariant md s' := by
  cases label with
  | edit doc =>
    obtain ⟨_, rfl⟩ := mounted_eq_some stepped
    exact .inr (inv.edit doc)
  | save =>
    obtain ⟨_, rfl⟩ := mounted_eq_some stepped
    exact .inr (inv.saveDocument careful.beginsAlone)
  | autoSave =>
    simp only [Session.next] at stepped
    split at stepped
    · obtain ⟨_, rfl⟩ := mounted_eq_some stepped
      exact .inr (inv.saveDocument careful.beginsAlone)
    · cases stepped
  | reload =>
    obtain ⟨_, rfl⟩ := mounted_eq_some stepped
    exact .inr (inv.reloadDocumentFromDisk careful.beginsAlone)
  | keepLocal =>
    obtain ⟨_, rfl⟩ := mounted_eq_some stepped
    exact .inr (inv.keepLocalChangesAfterConflict careful.beginsAlone)
  | useDisk =>
    obtain ⟨_, rfl⟩ := mounted_eq_some stepped
    exact .inr (inv.useDiskVersionAfterConflict careful.beginsAlone)
  | perform access outcome => exact .inr (inv.perform careful.failsWhole stepped)
  | complete access =>
    exact .inr (inv.complete injective isMounted careful.writesCurrent stepped)
  | foreign content =>
    cases stepped
    exact .inr (inv.overwritten content)
  | unmount =>
    obtain ⟨_, rfl⟩ := mounted_eq_some stepped
    exact .inl rfl

theorem performAccess_disposed (purpose : Purpose τ χ) (outcome : Outcome τ) :
    (performAccess md purpose outcome s).2.disposed = s.disposed := by
  have write : ∀ content expected,
      (writeWithChecksum md content expected outcome s).2.disposed = s.disposed := by
    intro content expected
    unfold writeWithChecksum
    split
    · rfl
    · split <;> rfl
    · split <;> rfl
  cases purpose with
  | save content expected before => exact write content expected
  | keepLocal content conflict before => exact write content conflict.actual
  | _ => cases outcome <;> rfl

/-- An editor that is gone stays gone. -/
theorem disposed_of_next (isDisposed : s.disposed = true) (stepped : s.next md label = some s') :
    s'.disposed = true := by
  have gone : ∀ next : Session δ τ χ, s.mounted next ≠ some s' := by
    intro next isMounted
    simp [Session.mounted, isDisposed] at isMounted
  cases label with
  | perform access outcome =>
    simp only [Session.next, Session.perform] at stepped
    split at stepped
    · rename_i purpose _
      cases stepped
      exact (performAccess_disposed purpose outcome).trans isDisposed
    · cases stepped
  | complete access =>
    simp only [Session.next, Session.complete] at stepped
    split at stepped
    · rename_i purpose answer _
      cases stepped
      exact continued_disposed purpose answer isDisposed
    · cases stepped
  | foreign content =>
    cases stepped
    exact isDisposed
  | autoSave =>
    simp only [Session.next] at stepped
    split at stepped
    · exact absurd stepped (gone _)
    · cases stepped
  | _ => exact absurd stepped (gone _)

/-- **A tab shown clean is saved**, in every run of edits, saves, reloads, conflicts and other
writers whose reads and writes do not overlap, whose queue is current when it is written and
whose failing writes tear no clean file. -/
theorem cleanIsSaved_run (injective : Function.Injective md.checksum)
    (reached : (system md).ReachableBy (Careful md) s) : CleanIsSaved md s := by
  have inv : s.disposed = true ∨ CleanInvariant md s := by
    refine System.ReachableBy.keeps (fun s => s.disposed = true ∨ CleanInvariant md s)
      (fun s starts => .inr (.mounted starts)) ?_ reached
    intro s label s' inv careful stepped
    cases isMounted : s.disposed with
    | true => exact .inl (disposed_of_next isMounted stepped)
    | false =>
      have inv := inv.resolve_left (by simp [isMounted])
      exact inv.next injective isMounted careful stepped
  intro isMounted
  exact (inv.resolve_left (by simp [isMounted])).saved isMounted

/-! ### Where it fails, and where it holds -/

/-- Documents that are their own text, and texts their own checksum. -/
def plain : Markdown Nat Nat Nat := ⟨id, id, id⟩

/-- A new tab over a file that is not read yet. -/
def unread (autoSave : Bool) : Session Nat Nat Nat :=
  (initial 0 none false autoSave 7).begin (.load none)

/-- What a run ends with: the tab, whether anything is in flight, the file and the document. -/
def report (s : Session Nat Nat Nat) : Bool × Bool × Nat × Nat :=
  (s.disposed || s.isDirty || s.foreign, s.isSettled, s.disk, s.doc)

/-- Two edits are saved one behind the other, and a third is made before the second write
begins: the tab is clean over the second. -/
theorem not_cleanIsSaved_after_queued_save :
    ∃ s, (system plain).Reachable s ∧ ¬ CleanIsSaved plain s := by
  have ran : (System.run (next plain) (unread false) [.perform 0 .done, .complete 0, .edit 1,
      .save, .edit 2, .save, .edit 3, .perform 1 .done, .complete 1, .perform 2 .done,
      .complete 2]).map report = some (false, true, 2, 3) := by
    decide +kernel
  obtain ⟨s, ran, reported⟩ := map_eq_some_iff.mp ran
  have reached : (system plain).Reachable s :=
    System.reachable_of_run (.start (.opened 0 false 7)) ran
  simp only [report, Prod.mk.injEq, Bool.or_eq_false_iff] at reported
  obtain ⟨⟨⟨isMounted, isClean⟩, isAlone⟩, isSettled, onDisk, isDoc⟩ := reported
  refine ⟨s, reached, ?_⟩
  intro saved
  have holds := saved isMounted isClean (settled_of_reachableBy reached isSettled) isAlone
  rw [onDisk, isDoc] at holds
  exact absurd holds (by simp [Holds, plain])

/-- The condition, as a computation: nothing is in flight where an access is begun, and the
queue is that of the document. -/
def isCareful (s : Session Nat Nat Nat) : Label Nat Nat → Bool
  | .edit _ => true
  | .save => s.saveInFlight.isSome || s.isSettled
  | .perform _ .done => true
  | .complete _ => s.queuedSaveContent.isNone || s.queuedSaveContent = some s.doc
  | _ => false

theorem careful_of_isCareful {s : Session Nat Nat Nat} {label : Label Nat Nat} (begun : s.Begun)
    (checked : isCareful s label = true) : Careful plain s label := by
  cases label with
  | edit doc => exact ⟨trivial, trivial, trivial⟩
  | save =>
    refine ⟨?_, trivial, trivial⟩
    intro _ notSaving
    rw [isCareful, notSaving] at checked
    exact begun.settled checked
  | perform access outcome =>
    cases outcome with
    | done => exact ⟨trivial, trivial, trivial⟩
    | failed left => cases checked
  | complete access =>
    refine ⟨trivial, ?_, trivial⟩
    intro _ _ content _ isQueued
    simp only [isCareful, isQueued, isNone_some, Bool.false_or, decide_eq_true_eq,
      Option.some.injEq] at checked
    exact checked
  | _ => cases checked

/-- A content waits for its turn, the document stays, and the tab is clean over it. -/
theorem cleanIsSaved_after_queued_save :
    ∃ s, (system plain).ReachableBy (Careful plain) s ∧ s.isDirty = false ∧ s.disk = 2 ∧
      CleanIsSaved plain s := by
  have ran : (System.runWhile isCareful (next plain) (unread false) [.perform 0 .done,
      .complete 0, .edit 1, .save, .edit 2, .save, .perform 1 .done, .complete 1,
      .perform 2 .done, .complete 2]).map (fun s => (s.isDirty, s.disk)) = some (false, 2) := by
    decide +kernel
  obtain ⟨s, ran, reported⟩ := map_eq_some_iff.mp ran
  obtain ⟨isClean, onDisk⟩ := Prod.mk.inj reported
  have checked : (system plain).ReachableBy (fun s label => isCareful s label) s :=
    System.reachableBy_of_runWhile (.start (.opened 0 false 7)) ran
  have reached : (system plain).ReachableBy (Careful plain) s ∧ s.Begun := by
    refine System.ReachableBy.keeps
      (fun s => (system plain).ReachableBy (Careful plain) s ∧ s.Begun) ?_ ?_ checked
    · exact fun _ starts => ⟨.start starts, begun_of_mounted starts⟩
    · rintro s label s' ⟨reached, begun⟩ isChecked stepped
      exact ⟨.step reached (careful_of_isCareful begun isChecked) stepped, begun.next stepped⟩
  exact ⟨s, reached.1, isClean, onDisk, cleanIsSaved_run (fun _ _ => id) reached.1⟩

end Runs

end Session

end Kuku.Editor
