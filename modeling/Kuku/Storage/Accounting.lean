/-
# Storage.Accounting -- the counters and the quotas in every run

All requests of all users, on any number of servers: every interleaving of their
statements, with failing calls and crashing servers.

* `exact_accounting`: as long as no statement adds to the counters of a deleted workspace,
  every usage row and every account row is what it counts, and no counter statement is
  rejected.  `account_counts_deleted` is what happens otherwise: an upload batch authorizes
  its workspace before it takes the lock.
* `within_quotas`: as long as a direct upload fits beside the uploads under way, the quotas
  hold.  `quota_exceeded` is what happens otherwise: `UploadObjectBytesDev` compares the
  available bytes with the limits, and leaves the pending ones out.
-/
import Kuku.Storage.Publication
import Kuku.Server.NormalParams

namespace Kuku.Storage

open Kuku.Theory List System
open Kuku.Server (Uuid IsDigest)

/-- The sessions of all servers, and the rows of all users. -/
abbrev Servers (ι : Type) :=
  Machine.Config (Uuid → State ι) ι (familyRes (U := Uuid) Call.Res) StorageError Unit

section Runs

variable {ι : Type} [DecidableEq ι] {cfg : Config} {scope : Scope} {driver : ι → Provider}

/-- All runs of the service, from empty tables. -/
def storage (cfg : Config) (driver : ι → Provider) :
    System (Servers ι) (Machine.Label ι (Uuid × Command) How (Uuid × Event)) :=
  (machine cfg driver).family.system fun s => ∀ user, emptyState (s user)

/-- **Every run is safe**: the invariant holds for every user, and every session's next call
is one it may make. -/
theorem storage_safe {c : Servers ι} (sized : Sized cfg scope)
    (reached : (storage cfg driver).ReachableBy (condition cfg scope).family.meets c) :
    (∀ user, Inv cfg scope (c.shared user)) ∧ ∀ session user call rest,
      c.running session = some (.call (user, call) rest) →
        May cfg scope session (c.shared user) call := by
  have happens : ∀ event (s s' : State ι), Inv cfg scope s → True →
      (machine cfg driver).env event s = some s' →
      Inv cfg scope s' ∧ ∀ session, Rely session s s' := by
    intro event s s' isInv _ happened
    cases happened
    exact happen_keeps isInv
  have calls : ∀ session call how (s : State ι), Inv cfg scope s →
      (condition cfg scope).call session s call how → May cfg scope session s call →
      Inv cfg scope (s.exec driver session call how).2 ∧
        ∀ other, other ≠ session → Rely other s (s.exec driver session call how).2 :=
    fun session call how s isInv allowed may => call_keeps isInv allowed.1 may
  have starts : ∀ session (command : Uuid × Command) (s : State ι), Inv cfg scope s →
      (condition cfg scope).start session s command →
      ((machine cfg driver).program session command).Holds
        (surroundings cfg scope driver session)
        (Prog.ends (fun _ => True) fun _ _ => True) s :=
    fun session command s _ isIn => commands_safely sized isIn
  exact Machine.family_safe (fun s => inv_of_empty) (fun _ _ _ _ => Rely.trans) happens calls
    (fun _ _ isInv => close_keeps isInv) (fun _ _ isInv => Rely.refl isInv) starts reached

end Runs

/-! ## Concrete runs -/

/-- A step that does not wait, and is lawful where the scope asks for it. -/
def follows (cfg : Config) (scope : Scope) (c : Servers Nat) :
    Machine.Label Nat (Uuid × Command) How (Uuid × Event) → Bool
  | .start _ (_, .deleteWorkspace _) => scope ≠ .quota
  | .call session _ =>
    match c.running session with
    | some (.call (user, .sql stmt) _) =>
      let s := c.shared user
      (!stmt.locks || s.accountLock = none || s.accountLock = some session) &&
        match stmt with
        | .addUsage workspaceID storage count pending =>
          let db := s.view session
          (scope ≠ .usage || db.isLive workspaceID) &&
            (scope ≠ .quota || count ≠ 1 || pending ≠ 0 ||
              ((db.usage workspaceID).all fun row =>
                row.storageBytes + row.pendingUploadBytes + storage ≤
                  cfg.maxStorageBytesPerWorkspace) &&
              db.account.all fun row =>
                row.totalStorageBytes + row.pendingUploadBytes + storage ≤
                  cfg.maxTotalStorageBytesPerUser)
        | _ => true
    | _ => true
  | _ => true

theorem meets_of_follows {cfg : Config} {scope : Scope} (c : Servers Nat)
    (label : Machine.Label Nat (Uuid × Command) How (Uuid × Event))
    (isOk : follows cfg scope c label = true) :
    (condition cfg scope).family.meets c label := by
  cases label with
  | finish session => trivial
  | crash session => trivial
  | env event => trivial
  | start session command =>
    intro isQuota workspaceID isDelete
    obtain ⟨user, command⟩ := command
    cases isDelete
    simp [follows, isQuota] at isOk
  | call session how =>
    rintro ⟨user, call⟩ rest isNext
    cases call with
    | sql stmt =>
      simp only [follows, isNext, Bool.and_eq_true] at isOk
      refine ⟨?_, ?_⟩
      · rintro ⟨locks, taken, notMine⟩
        simp [locks, taken, notMine] at isOk
      · cases stmt with
        | addUsage workspaceID storage count pending =>
          have lawful := isOk.2
          simp only [Bool.and_eq_true, Bool.or_eq_true, decide_eq_true_eq] at lawful
          refine ⟨?_, ?_⟩
          · intro isUsage
            rcases lawful.1 with differ | isLive
            · exact absurd isUsage differ
            · exact isLive
          · intro isQuota isOne isZero
            rcases lawful.2 with ((differ | differ) | differ) | fits
            · exact absurd isQuota differ
            · exact absurd isOne differ
            · exact absurd isZero differ
            · refine ⟨?_, ?_⟩
              · intro row found
                simpa [found] using fits.1
              · intro row found
                simpa [found] using fits.2
        | _ => trivial
    | _ => exact ⟨id, trivial⟩

/-- A call that goes through at time `0`; the database makes the id `7`. -/
def going : How :=
  { fault := false
    takesEffect := false
    clock := 0
    fresh := 7
    serverSeq := 1
    skipped := []
    url := "https://store" }

def noRequests : Servers Nat where
  shared _ := ⟨Db.empty, fun _ _ => none, fun _ => [], none⟩
  running _ := none

/-- A request of user `5`, from its start to its end. -/
def request (session : Nat) (command : Command) (calls : List How) :
    List (Machine.Label Nat (Uuid × Command) How (Uuid × Event)) :=
  .start session (5, command) :: (calls.map (.call session) ++ [.finish session])

def zeroesDigest : String := "af5570f5a1810b7af78caf4bc70a660f0df51e42baf91d4de5b2328de0e83dfc"

def limits : Config where
  maxWorkspacesPerUser := 3
  maxTotalStorageBytesPerUser := 10
  maxStorageBytesPerWorkspace := 10
  maxSingleBlobBytes := 8
  maxPendingUploadBytes := 10
  maxPendingUploadAge := 60
  directBytesDevEnabled := true
  storageNamespace := "test"
  sha256Hex _ := zeroesDigest

/-- A new workspace with a device, and a reserved object. -/
def reserved : List (Machine.Label Nat (Uuid × Command) How (Uuid × Event)) :=
  request 0 (.createWorkspace "v1") (List.replicate 7 going) ++
    [.env (5, .devices [⟨7, 3, false⟩])] ++
    request 0 (.reserveObjectIDs 7 3 [⟨"ref", some .commitBody, "a"⟩]) (List.replicate 7 going)

def uploading : Command :=
  .createObjectUploadBatch 7 3 "attempt" [⟨"a", some .commitBody, zeroesDigest, 8⟩]

theorem isDigest_zeroesDigest : IsDigest zeroesDigest :=
  Kuku.Server.isDigest_of_text rfl (by decide) rfl

theorem validateCiphertextDescriptor_of_isDigest {sha : String} {size : Int}
    (isDigest : IsDigest sha) (positive : 0 < size) :
    validateCiphertextDescriptor sha size = .ok sha := by
  simp only [validateCiphertextDescriptor, isDigest.trim_eq, isDigest.asciiLower_eq,
    isDigest.utf8_length, isDigest.isHex_eq, not_le.mpr positive]
  rfl

theorem validate_zeroesDigest : validateCiphertextDescriptor zeroesDigest 8 = .ok zeroesDigest :=
  validateCiphertextDescriptor_of_isDigest isDigest_zeroesDigest (by decide)

/-- The program a request starts can be simplified before the run is evaluated. -/
theorem next_start (driver : Nat → Provider) (c : Servers Nat) (session : Nat)
    (request : Uuid × Command) :
    (machine limits driver).family.next c (.start session request) =
      if (c.running session).isNone then
        some { c with
          running := Function.update c.running session
            (some ((commandProgram limits (driver session) request.1 request.2).at request.1)) }
      else none :=
  rfl

/-- What a run on the given stores has reached, if all its steps follow the scope. -/
theorem reached_of_run {α : Type} {scope : Scope} {driver : Nat → Provider}
    {labels : List (Machine.Label Nat (Uuid × Command) How (Uuid × Event))}
    {summary : Servers Nat → α} {result : α}
    (ran : (System.runWhile (follows limits scope) (machine limits driver).family.next noRequests
      labels).map summary = some result) :
    ∃ c, (storage limits driver).ReachableBy (condition limits scope).family.meets c ∧
      summary c = result := by
  obtain ⟨c, isRun, isResult⟩ := Option.map_eq_some_iff.mp ran
  have starts : (storage limits driver).ReachableBy
      (fun c label => follows limits scope c label = true) noRequests :=
    .start ⟨fun _ => rfl, fun _ => rfl⟩
  exact ⟨c, (reachableBy_of_runWhile starts isRun).mono meets_of_follows, isResult⟩

/-! ## Counters -/

section Counters

variable {ι : Type} [DecidableEq ι] {cfg : Config} {driver : ι → Provider}

/-- Every counter is what it counts, and no counter is about to be refused. -/
structure ExactAccounting (c : Servers ι) : Prop where
  exact : ∀ user, (c.shared user).db.Exact
  accepted : ∀ session user stmt rest how,
    c.running session = some (.call (user, .sql stmt) rest) →
      (stmt.query how ((c.shared user).view session)).1 ≠ .error .checkViolation

/-- **Exact accounting**, in every run in which no counter of a deleted workspace is added
to. -/
theorem exact_accounting {c : Servers ι} (small : maxBatch * cfg.maxSingleBlobBytes < 2 ^ 63)
    (reached : (storage cfg driver).ReachableBy (condition cfg .usage).family.meets c) :
    ExactAccounting c := by
  have sized : Sized cfg .usage := by
    refine ⟨fun _ => small, ?_, ?_, ?_, ?_⟩ <;> intro isQuota <;> cases isQuota
  obtain ⟨isInv, may⟩ := storage_safe sized reached
  have counts : Scope.usage ≠ .objects := fun same => by cases same
  refine ⟨?_, ?_⟩
  · intro user
    exact Db.drifts_none.mp (((isInv user).good.tables 0).drifts counts)
  · intro session user stmt rest how isNext
    exact (may session user _ rest isNext).2 counts how

end Counters

/-- An upload batch of eight bytes. -/
theorem exact_after_upload :
    ∃ c, (storage limits fun _ : Nat => .s3Compatible).ReachableBy
        (condition limits .usage).family.meets c ∧
      ExactAccounting c ∧ (c.shared 5).db.account = some ⟨1, 0, 8⟩ := by
  have ran : (System.runWhile (follows limits .usage)
      (machine limits fun _ => .s3Compatible).family.next noRequests
      (reserved ++ request 0 uploading (List.replicate 13 going))).map
        (fun c => (c.shared 5).db.account) = some (some ⟨1, 0, 8⟩) := by
    simp only [request, uploading, commandProgram, createObjectUploadBatch, uploadCandidates,
      validate_zeroesDigest, System.runWhile, run_append, run_cons, next_start]
    decide +kernel
  obtain ⟨c, reached, isAccount⟩ := reached_of_run ran
  exact ⟨c, reached, exact_accounting (by decide) reached, isAccount⟩

/-- Session `0` has authorized its upload when session `1` deletes the workspace. -/
theorem account_counts_deleted :
    ∃ c, (storage limits fun _ : Nat => .s3Compatible).ReachableBy
        (condition limits .objects).family.meets c ∧ ¬ ExactAccounting c := by
  have ran : (System.runWhile (follows limits .objects)
      (machine limits fun _ => .s3Compatible).family.next noRequests
      (reserved ++ [.start 0 (5, uploading)] ++ List.replicate 3 (.call 0 going) ++
        request 1 (.deleteWorkspace 7) (List.replicate 6 going) ++
        List.replicate 10 (.call 0 going))).map
          (fun c => ((c.shared 5).db.account, (c.shared 5).db.accounted)) =
      some (some ⟨0, 0, 8⟩, ⟨0, 0, 0⟩) := by
    simp only [request, uploading, commandProgram, createObjectUploadBatch, uploadCandidates,
      validate_zeroesDigest, System.runWhile, run_append, run_cons, next_start]
    decide +kernel
  obtain ⟨c, reached, isResult⟩ := reached_of_run ran
  refine ⟨c, reached, ?_⟩
  intro accounting
  obtain ⟨isAccount, isCounted⟩ := Prod.mk.inj isResult
  have counted := (accounting.exact 5).account ⟨0, 0, 8⟩ isAccount
  rw [isCounted] at counted
  cases counted

/-! ## Quotas -/

section Quotas

variable {ι : Type} [DecidableEq ι] {cfg : Config} {driver : ι → Provider}

def batchSums (account : AccountRow) (workspace : UsageRow) (additional : Int) : List Int :=
  [workspace.pendingUploadBytes + additional,
    account.totalStorageBytes + account.pendingUploadBytes,
    account.totalStorageBytes + account.pendingUploadBytes + additional,
    workspace.storageBytes + workspace.pendingUploadBytes,
    workspace.storageBytes + workspace.pendingUploadBytes + additional]

def directSums (account : AccountRow) (workspace : UsageRow) (sizeBytes : Int) : List Int :=
  [account.totalStorageBytes + sizeBytes, workspace.storageBytes + sizeBytes]

/-- No sum of a check wraps, for any request of admissible sizes. -/
structure NoWrap (cfg : Config) (account : AccountRow) (workspace : UsageRow) : Prop where
  batch : ∀ sizes : List Int, sizes.length ≤ maxBatch →
    (∀ n ∈ sizes, 0 < n ∧ n ≤ cfg.maxSingleBlobBytes) →
    sizes.foldl (fun additional n => int64 (additional + n)) 0 = sizes.sum ∧
      ∀ n ∈ batchSums account workspace sizes.sum, int64 n = n
  direct : ∀ sizeBytes, 0 < sizeBytes → sizeBytes ≤ cfg.maxSingleBlobBytes →
    ∀ n ∈ directSums account workspace sizeBytes, int64 n = n

/-- The quotas hold, and the checks of the next request do not wrap. -/
structure WithinQuotas (cfg : Config) (c : Servers ι) : Prop where
  within : ∀ user, (c.shared user).db.Within cfg
  noWrap : ∀ user id account workspace, (c.shared user).db.account = some account →
    (c.shared user).db.usage id = some workspace → NoWrap cfg account workspace

theorem sum_le {sizes : List Int} {bound : Int} (small : ∀ n ∈ sizes, 0 < n ∧ n ≤ bound) :
    0 ≤ sizes.sum ∧ sizes.sum ≤ sizes.length * bound := by
  induction sizes with
  | nil => simp
  | cons n rest ih =>
    obtain ⟨positive, below⟩ := small n mem_cons_self
    obtain ⟨nonneg, restBelow⟩ := ih fun m member => small m (mem_cons_of_mem n member)
    rw [sum_cons, length_cons]
    push_cast
    rw [Int.add_mul, Int.one_mul]
    omega

/-- The bytes of a batch are added up without wrapping. -/
theorem foldl_int64 {sizes : List Int} {bound start : Int}
    (small : ∀ n ∈ sizes, 0 < n ∧ n ≤ bound) (nonneg : 0 ≤ start)
    (fits : start + sizes.length * bound < 2 ^ 63) :
    sizes.foldl (fun additional n => int64 (additional + n)) start = start + sizes.sum := by
  induction sizes generalizing start with
  | nil => simp
  | cons n rest ih =>
    obtain ⟨positive, below⟩ := small n mem_cons_self
    have restSmall : ∀ m ∈ rest, 0 < m ∧ m ≤ bound :=
      fun m member => small m (mem_cons_of_mem n member)
    have restNonneg : 0 ≤ rest.length * bound := by
      have sums := sum_le restSmall
      omega
    rw [length_cons] at fits
    push_cast at fits
    rw [Int.add_mul, Int.one_mul] at fits
    have unwrapped : int64 (start + n) = start + n := int64_eq (by omega) (by omega)
    rw [foldl_cons, unwrapped, ih restSmall (by omega) (by omega), sum_cons]
    omega

theorem noWrap_of_within {db : Db} {blobs : Blobs} {id : Uuid} {account : AccountRow}
    {workspace : UsageRow} (sized : Sized cfg .quota) (midway : Midway cfg .quota 0 .none db blobs)
    (isAccount : db.account = some account) (isUsage : db.usage id = some workspace) :
    NoWrap cfg account workspace := by
  have counts : Scope.quota ≠ .objects := fun same => by cases same
  have exact := Db.drifts_none.mp (midway.drifts counts)
  have within := midway.within rfl
  obtain ⟨storage, -, pending⟩ := Db.counted_nonneg id midway.sound
  rw [← exact.usage id workspace isUsage] at storage pending
  have rows : ∀ other row, db.usage other = some row →
      0 ≤ row.storageBytes ∧ 0 ≤ row.pendingUploadBytes := by
    intro other row found
    obtain ⟨storage, -, pending⟩ := Db.counted_nonneg other midway.sound
    rw [exact.usage other row found]
    exact ⟨storage, pending⟩
  obtain ⟨-, total, accountPending⟩ := Db.accounted_nonneg rows
  rw [← exact.account account isAccount] at total accountPending
  have workspaceFits := within.workspace id workspace isUsage
  have pendingFits := within.pending id workspace isUsage
  have accountFits := within.account account isAccount
  have blob := sized.blob rfl
  have pendingSized := (sized.pending rfl).2
  have workspaceSized := (sized.workspace rfl).2
  have accountSized := (sized.account rfl).2
  have oneBlob : cfg.maxSingleBlobBytes ≤ maxBatch * cfg.maxSingleBlobBytes := by
    simp only [maxBatch]
    omega
  refine ⟨?_, ?_⟩
  · intro sizes short small
    obtain ⟨nonneg, below⟩ := sum_le small
    have inBatch : (sizes.length : Int) * cfg.maxSingleBlobBytes ≤
        maxBatch * cfg.maxSingleBlobBytes :=
      Int.mul_le_mul_of_nonneg_right (by exact_mod_cast short) blob
    refine ⟨?_, ?_⟩
    · have added := foldl_int64 small (le_refl 0) (by omega)
      rw [added, zero_add]
    · intro n member
      simp only [batchSums, mem_cons, not_mem_nil, or_false] at member
      apply int64_eq <;> omega
  · intro sizeBytes positive below n member
    simp only [directSums, mem_cons, not_mem_nil, or_false] at member
    apply int64_eq <;> omega

/-- **The quotas hold** in every run without `DeleteWorkspace` in which every direct upload
fits beside the uploads under way. -/
theorem within_quotas {c : Servers ι} (sized : Sized cfg .quota)
    (reached : (storage cfg driver).ReachableBy (condition cfg .quota).family.meets c) :
    WithinQuotas cfg c := by
  obtain ⟨isInv, -⟩ := storage_safe sized reached
  refine ⟨fun user => ((isInv user).good.tables 0).within rfl, ?_⟩
  intro user id account workspace isAccount isUsage
  exact noWrap_of_within sized ((isInv user).good.tables 0) isAccount isUsage

end Quotas

theorem sized_limits : Sized limits .quota := by
  refine ⟨fun _ => ?_, fun _ => ?_, fun _ => ?_, fun _ => ?_, fun _ => ?_⟩ <;> decide

theorem within_after_upload :
    ∃ c, (storage limits fun _ : Nat => .s3Compatible).ReachableBy
        (condition limits .quota).family.meets c ∧
      WithinQuotas limits c ∧ (c.shared 5).db.account = some ⟨1, 0, 8⟩ := by
  have ran : (System.runWhile (follows limits .quota)
      (machine limits fun _ => .s3Compatible).family.next noRequests
      (reserved ++ request 0 uploading (List.replicate 13 going))).map
        (fun c => (c.shared 5).db.account) = some (some ⟨1, 0, 8⟩) := by
    simp only [request, uploading, commandProgram, createObjectUploadBatch, uploadCandidates,
      validate_zeroesDigest, System.runWhile, run_append, run_cons, next_start]
    decide +kernel
  obtain ⟨c, reached, isAccount⟩ := reached_of_run ran
  exact ⟨c, reached, within_quotas sized_limits reached, isAccount⟩

/-- Eight bytes are pending at the server with S3, and eight more are uploaded directly to the
one with local storage; ten are allowed. -/
theorem quota_exceeded :
    ∃ c, (storage limits fun session : Nat =>
        if session = 0 then .s3Compatible else .localStore).ReachableBy
        (condition limits .objects).family.meets c ∧ ¬ WithinQuotas limits c := by
  have ran : (System.runWhile (follows limits .objects)
      (machine limits fun session =>
        if session = 0 then .s3Compatible else .localStore).family.next noRequests
      (reserved ++ request 0 uploading (List.replicate 13 going) ++
        request 1 (.reserveObjectIDs 7 3 [⟨"ref", some .contentPack, "b"⟩])
          (List.replicate 7 going) ++
        request 1 (.uploadObjectBytesDev 7 3 "b" zeroesDigest 8 (List.replicate 8 0))
          (List.replicate 11 going))).map
        (fun c => (c.shared 5).db.account) = some (some ⟨1, 8, 8⟩) := by
    simp only [request, uploading, commandProgram, createObjectUploadBatch, uploadCandidates,
      uploadObjectBytesDev, validateCiphertextMetadata, isDigest_zeroesDigest.trim_eq,
      isDigest_zeroesDigest.asciiLower_eq, validate_zeroesDigest, System.runWhile,
      run_append, run_cons, next_start]
    decide +kernel
  obtain ⟨c, reached, isAccount⟩ := reached_of_run ran
  refine ⟨c, reached, ?_⟩
  intro quotas
  have fits := (quotas.within 5).account ⟨1, 8, 8⟩ isAccount
  revert fits
  decide

end Kuku.Storage
