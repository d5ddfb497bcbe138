/-
# Sync.ListAllCommits -- a pull reads the whole history of its workspace

The client asks for one page after another (`list_all_commits`), each from the last `server_seq`
it has seen, until the server has no more; the server looks one row beyond the page.  Publishes
go on meanwhile (`Server.Timeline`), and the last page decides what the client takes for the
history (`reads_whole_history`).
-/
import Kuku.Server.ListCommits
import Kuku.Sync.Applier
import Kuku.Sync.CommitSignature
import Kuku.Theory.Paging

namespace Kuku.Sync.ListAllCommits

open Kuku.Theory List Option Server
open Kuku.Server (KukuSyncCommit Timeline Uuid)

/-! ## The client -/

/-- `SyncCommitHeader`, with the fields that the replay does not read. -/
structure SyncCommitHeader extends Applier.SyncCommitHeader where
  expectedHeadCommitId : String
  authorDeviceId : String
  deviceSeq : Int
  signature : List UInt8
  serverSeq : Int

structure ListCommitsOutput where
  commits : List SyncCommitHeader
  hasMore : Bool
  nextAfterServerSeq : Int

/-- `list_commits` of the workspace: the number of the request, `after_server_seq` and
`page_size`. -/
abbrev SyncCommitApi := Nat → Int → Int → Except SyncError ListCommitsOutput

/-- The loop over a page's commits. -/
def appendCommits : List SyncCommitHeader → List SyncCommitHeader →
    Except SyncError (List SyncCommitHeader)
  | commits, [] => .ok commits
  | commits, commit :: rest =>
    if commits.getLast?.any fun previous => commit.serverSeq ≤ previous.serverSeq then
      .error (.transport "ListCommits returned non-increasing server_seq")
    else appendCommits (commits ++ [commit]) rest

def appendCommitPage (commits : List SyncCommitHeader) (page : ListCommitsOutput) :
    Except SyncError (List SyncCommitHeader) :=
  appendCommits commits page.commits

/-- The loop of `list_all_commits`, for at most a number of requests. -/
def listPages (api : SyncCommitApi) (pageSize : Int) : Nat → Nat → Int → List SyncCommitHeader →
    Option (Except SyncError (List SyncCommitHeader))
  | 0, _, _, _ => none
  | requests + 1, number, afterServerSeq, commits =>
    match api number afterServerSeq pageSize with
    | .error error => some (.error error)
    | .ok page =>
      match appendCommitPage commits page with
      | .error error => some (.error error)
      | .ok commits =>
        if !page.hasMore then some (.ok commits)
        else if page.nextAfterServerSeq ≤ afterServerSeq then
          some (.error (.transport "ListCommits did not advance pagination cursor"))
        else listPages api pageSize requests (number + 1) page.nextAfterServerSeq commits

def listAllCommits (api : SyncCommitApi) (pageSize : Int) (requests : Nat) :
    Option (Except SyncError (List SyncCommitHeader)) :=
  listPages api pageSize requests 0 0 []

/-! ## The requests -/

def requiredString (value field : String) : Except SyncError String :=
  if Text.trim value = "" then .error (.transport ("sync response missing " ++ field))
  else .ok value

/-- `syncCommitToProto` and `sync_commit_header_from_proto`. -/
def headerOf (commit : KukuSyncCommit) : SyncCommitHeader where
  commitId := commit.commitID
  commitKind := commitKindToProto commit.commitKind
  parentCommitIds := commit.parentCommitIds
  bodyObjectId := commit.bodyObjectID
  bodyCiphertextSha256 := commit.bodyCiphertextSha256
  bodySizeBytes := commit.bodySizeBytes
  referencedObjectIds := commit.referencedObjectIds
  expectedHeadCommitId := Server.textValue commit.expectedHeadCommitID
  authorDeviceId := uuidString commit.authorDeviceID
  deviceSeq := commit.deviceSeq
  signature := commit.signature
  serverSeq := commit.serverSeq

def syncCommitHeaderFromProto (commit : KukuSyncCommit) : Except SyncError SyncCommitHeader := do
  let header := headerOf commit
  let _ ← requiredString header.commitId "commit.commit_id"
  let _ ← requiredString header.authorDeviceId "commit.author_device_id"
  let _ ← requiredString header.bodyObjectId "commit.body_object_id"
  let _ ← requiredString header.bodyCiphertextSha256 "commit.body_ciphertext_sha256"
  return header

/-- The workspace and its owner have no other error than a refusal. -/
def permissionDenied (operation : String) : SyncError :=
  syncRpcError operation .permissionDenied "permission denied"

variable {svc : Server.Service} (timeline : Timeline svc) (userID workspaceID : Uuid)

/-- Request number `n` has its two statements at the moments `2n + 2` and `2n + 3`. -/
def listCommits : SyncCommitApi := fun number afterServerSeq pageSize =>
  match Server.listCommits (timeline.db (2 * number + 2)) (timeline.db (2 * number + 3)) userID
      workspaceID afterServerSeq pageSize with
  | .error _ => .error (permissionDenied "ListCommits")
  | .ok listed => do
    let commits ← listed.rows.mapM syncCommitHeaderFromProto
    return { commits, hasMore := listed.hasMore, nextAfterServerSeq := listed.next }

/-- `GetHead` has its two statements at the moments `0` and `1`, before any page. -/
def getHead : Except SyncError SyncHead :=
  match Server.getHead (timeline.db 0) (timeline.db 1) userID workspaceID with
  | .error _ => .error (permissionDenied "GetHead")
  | .ok (workspace, checkpointID) =>
    .ok ⟨Server.textValue workspace.currentHeadCommitID, checkpointID⟩

/-- The error of `select_replay_commits` about a head that it does not find. -/
def missesHead (head : SyncHead) : SyncError :=
  .transport ("remote history does not include head " ++ head.currentHeadCommitId)

/-! ## The head -/

section Head

variable {localHead : Option String} {head : SyncHead} {commits : List SyncCommitHeader}

theorem missesHead_ne {head : SyncHead} {text : String} (differs : text.toList.head? ≠ some 'r') :
    SyncError.transport text ≠ missesHead head := by
  intro same
  have texts := SyncError.transport.inj same
  rw [texts, String.toList_append] at differs
  exact differs rfl

theorem replayStart_ne_missesHead {fromHead : String} :
    replayStart (fun commit : SyncCommitHeader => commit.commitId) fromHead head commits ≠
      .error (missesHead head) := by
  intro misses
  rw [replayStart] at misses
  split at misses
  · split at misses
    · cases misses
    · split at misses
      · cases misses
      · exact missesHead_ne (by simp [String.toList_append]) (Except.error.inj misses)
  · split at misses
    · cases misses
    · exact missesHead_ne (by simp [String.toList_append]) (Except.error.inj misses)

/-- The replay ends where the history does, unless it starts behind the last commit. -/
theorem replayStart_drop {fromHead : String} {start : Nat}
    (ends : head.currentHeadCommitId = (commits.getLast?.map (·.commitId)).getD "")
    (behind : fromHead ≠ head.currentHeadCommitId)
    (started : replayStart (fun commit : SyncCommitHeader => commit.commitId) fromHead head commits =
      .ok start) :
    ((commits.drop start).getLast?.map fun commit => commit.commitId) =
      some head.currentHeadCommitId := by
  have inside : start < commits.length → ((commits.drop start).getLast?.map
      fun commit => commit.commitId) = some head.currentHeadCommitId := by
    intro before
    rw [getLast?_drop, if_neg (not_le.mpr before), ends]
    cases isLast : commits.getLast? with
    | none =>
      rw [List.getLast?_eq_none_iff.mp isLast] at before
      cases before
    | some last => rfl
  apply inside
  rw [replayStart] at started
  split at started
  · split at started
    · cases started
      rename_i noLocal _
      refine length_pos_iff.mpr ?_
      rintro rfl
      exact behind (noLocal.trans ends.symm)
    · split at started
      · rename_i index found
        cases started
        exact (List.findIdx?_eq_some_iff_getElem.mp found).1
      · cases started
  · split at started
    · rename_i index found
      cases started
      obtain ⟨before, isLocal, _⟩ := List.findIdx?_eq_some_iff_getElem.mp found
      by_contra past
      have isLast : commits.getLast? = some commits[index] := by
        rw [getLast?_eq_getElem?, getElem?_eq_getElem (by omega)]
        congr 2
        omega
      rw [isLast] at ends
      exact behind ((of_decide_eq_true isLocal).symm.trans ends.symm)
    · cases started

/-- **A history that ends with the head is not found to miss it.** -/
theorem selectReplayCommits_ne_missesHead
    (ends : head.currentHeadCommitId = (commits.getLast?.map (·.commitId)).getD "") :
    selectReplayCommits (fun commit : SyncCommitHeader => commit.commitId) localHead head commits ≠
      .error (missesHead head) := by
  simp only [selectReplayCommits, bind, Except.bind, pure, Except.pure, throw, throwThe,
    MonadExceptOf.throw]
  split
  · simp
  · rename_i behind
    split
    · rename_i error unstarted
      intro same
      cases Except.error.inj same
      exact replayStart_ne_missesHead unstarted
    · rename_i start started
      rw [if_pos (replayStart_drop ends behind started)]
      simp

end Head

/-! ## The pages -/

section Pages

variable {timeline userID workspaceID} {seen rest : List KukuSyncCommit} {commit : KukuSyncCommit}
  {afterServerSeq pageSize : Int}

theorem requiredString_ok {value field : String} (present : Text.trim value ≠ "") :
    requiredString value field = .ok value :=
  if_neg present

theorem syncCommitHeaderFromProto_ok (legible : commit.Legible) :
    syncCommitHeaderFromProto commit = .ok (headerOf commit) := by
  have author : Text.trim (uuidString commit.authorDeviceID) ≠ "" := by
    rw [trim_idText (isIdText_uuidString _)]
    intro isEmpty
    have read := uuidParse_uuidString commit.authorDeviceID
    rw [isEmpty] at read
    cases read
  simp only [syncCommitHeaderFromProto, headerOf, requiredString_ok legible.commitID,
    requiredString_ok author, requiredString_ok legible.bodyObjectID,
    requiredString_ok legible.bodyCiphertextSha256, bind, Except.bind, pure, Except.pure]

theorem mapM_headers {rows : List KukuSyncCommit} (legible : ∀ row ∈ rows, row.Legible) :
    rows.mapM syncCommitHeaderFromProto = .ok (rows.map headerOf) := by
  rw [mapM_ok_iff, forall₂_map_right_iff, forall₂_same]
  exact fun row among => syncCommitHeaderFromProto_ok (legible row among)

/-- What the sequence numbers of a history are like. -/
theorem serverSeq_increasing {rows : List KukuSyncCommit} :
    Paging.Increasing (fun row : KukuSyncCommit => (row.serverSeq : Int)) rows ↔
      rows.Pairwise fun a b => a.serverSeq < b.serverSeq := by
  rw [Paging.Increasing]
  simp only [Int.ofNat_lt]

theorem appendCommits_ok {commits page : List SyncCommitHeader}
    (increasing : Paging.Increasing SyncCommitHeader.serverSeq (commits ++ page)) :
    appendCommits commits page = .ok (commits ++ page) := by
  induction page generalizing commits with
  | nil => rw [appendCommits, append_nil]
  | cons first page ih =>
    have isNext : (commits.getLast?.any fun previous => first.serverSeq ≤ previous.serverSeq) =
        false := by
      cases isLast : commits.getLast? with
      | none => rfl
      | some last =>
        have less : last.serverSeq < first.serverSeq := (pairwise_append.mp increasing).2.2
          last (mem_of_getLast? isLast) first mem_cons_self
        exact decide_eq_false (not_le.mpr less)
    rw [append_cons] at increasing ⊢
    rw [appendCommits, isNext, if_neg Bool.false_ne_true]
    exact ih increasing

/-- The key that pages go by. -/
abbrev rowSeq (row : KukuSyncCommit) : Int := row.serverSeq

/-- What the history has beyond what has been read. -/
structure Beyond (timeline : Timeline svc) (workspaceID : Uuid) (moment : Nat)
    (seen rest : List KukuSyncCommit) : Prop where
  history : (timeline.db moment).history workspaceID = seen ++ rest

variable {moment : Nat}

theorem Beyond.increasing (beyond : Beyond timeline workspaceID moment seen rest) :
    Paging.Increasing rowSeq (seen ++ rest) := by
  rw [← beyond.history]
  exact serverSeq_increasing.mpr (timeline.ordered moment workspaceID)

theorem Beyond.listed (beyond : Beyond timeline workspaceID moment seen rest) :
    ∀ row ∈ rest, 0 < rowSeq row ∧ rowSeq row < (timeline.db moment).nextServerSeq ∧ row.Legible := by
  intro row isRest
  have reached := timeline.reachable moment
  have isRow : row ∈ (timeline.db moment).commits := by
    refine mem_history reached (w := workspaceID) ?_
    rw [← Timeline.db, beyond.history]
    exact mem_append_right _ isRest
  obtain ⟨positive, legible⟩ := (listed_of_reachable reached).commits row isRow
  exact ⟨Int.ofNat_lt.mpr positive,
    Int.ofNat_lt.mpr ((inv_of_reachable reached).tables.drawn row isRow), legible⟩

variable (pageSize) in
/-- **One page: what comes after the last commit, up to the page size.** -/
theorem listCommits_eq {number : Nat}
    (owned : (timeline.db (2 * number + 2)).getSyncWorkspace workspaceID userID ≠ none)
    (beyond : Beyond timeline workspaceID (2 * number + 3) seen rest) :
    listCommits timeline userID workspaceID number (Paging.lastKey rowSeq seen) pageSize =
      .ok { commits := (rest.take (Server.clampPageSize pageSize).toNat).map headerOf
            hasMore := Server.clampPageSize pageSize < rest.length
            nextAfterServerSeq :=
              Paging.lastKey rowSeq (rest.take (Server.clampPageSize pageSize).toNat) } := by
  obtain ⟨workspace, isOwned⟩ := ne_none_iff_exists'.mp owned
  have later : (timeline.db (2 * number + 3)).listSyncCommitsAfterServerSeq workspaceID
      (Paging.lastKey rowSeq seen) (Server.clampPageSize pageSize + 1) =
        rest.take (Server.clampPageSize pageSize + 1).toNat := by
    rw [Server.Db.listSyncCommitsAfterServerSeq, beyond.history]
    congr 1
    exact Paging.filter_after beyond.increasing fun row isRest => (beyond.listed row isRest).1
  have legible : ∀ row ∈ rest.take (Server.clampPageSize pageSize).toNat, row.Legible :=
    fun row among => (beyond.listed row (mem_of_mem_take among)).2.2
  simp only [listCommits, Server.listCommits, Server.authorizeWorkspace, isOwned, later, bind,
    Except.bind, pure, Except.pure, Server.pageOf_take (Server.clampPageSize_pos pageSize),
    mapM_headers legible]
  rfl

/-- The read goes on from what has been read. -/
structure Ends (timeline : Timeline svc) (userID workspaceID : Uuid) (pageSize : Int)
    (number : Nat) (seen : List KukuSyncCommit) (requests : Nat) : Prop where
  ended : listPages (listCommits timeline userID workspaceID) pageSize requests number
    (Paging.lastKey rowSeq seen) (seen.map headerOf) =
      some (.ok (((timeline.db (2 * (number + requests) + 1)).history workspaceID).map headerOf))
  before : ∀ fewer < requests, listPages (listCommits timeline userID workspaceID) pageSize fewer
    number (Paging.lastKey rowSeq seen) (seen.map headerOf) = none

variable (owned : ∀ moment, (timeline.db moment).getSyncWorkspace workspaceID userID ≠ none)

include owned

/-- The last page. -/
theorem ends_of_short {number : Nat}
    (beyond : Beyond timeline workspaceID (2 * number + 3) seen rest)
    (short : (rest.length : Int) ≤ Server.clampPageSize pageSize) :
    Ends timeline userID workspaceID pageSize number seen 1 where
  ended := by
    have isPage := listCommits_eq pageSize (owned (2 * number + 2)) beyond
    rw [take_of_length_le (by omega)] at isPage
    have appended : appendCommits (seen.map headerOf) (rest.map headerOf) =
        .ok (((timeline.db (2 * number + 3)).history workspaceID).map headerOf) := by
      rw [beyond.history, map_append]
      apply appendCommits_ok
      rw [← map_append]
      exact pairwise_map.mpr beyond.increasing
    have noMore : ¬Server.clampPageSize pageSize < (rest.length : Int) := not_lt.mpr short
    simp only [listPages, isPage, appendCommitPage, appended, noMore, decide_false, Bool.not_false,
      if_true]
    rfl
  before fewer less := by
    rw [Nat.lt_one_iff.mp less]
    rfl

/-- A page that is not the last leaves the rest, with what has been published meanwhile. -/
theorem ends_of_long {number requests : Nat}
    (beyond : Beyond timeline workspaceID (2 * number + 3) seen rest)
    (long : Server.clampPageSize pageSize < (rest.length : Int))
    (later : Ends timeline userID workspaceID pageSize (number + 1)
      (seen ++ rest.take (Server.clampPageSize pageSize).toNat) requests) :
    Ends timeline userID workspaceID pageSize number seen (requests + 1) := by
  have isPage := listCommits_eq pageSize (owned (2 * number + 2)) beyond
  have size := Server.clampPageSize_pos pageSize
  set page := rest.take (Server.clampPageSize pageSize).toNat with isTaken
  have nonempty : page ≠ [] := by
    intro isNil
    have none := congrArg List.length isNil
    rw [isTaken, length_take, length_nil] at none
    omega
  have increasing : Paging.Increasing rowSeq (seen ++ page) := by
    refine beyond.increasing.sublist ?_
    exact (List.Sublist.refl seen).append (take_sublist _ _)
  have advances : ¬Paging.lastKey rowSeq page ≤ Paging.lastKey rowSeq seen := by
    rw [not_le, ← @Paging.lastKey_append _ rowSeq seen page nonempty]
    exact Paging.lastKey_lt_append increasing
      (fun row among => (beyond.listed row (mem_of_mem_take among)).1) nonempty
  have appended : appendCommits (seen.map headerOf) (page.map headerOf) =
      .ok ((seen ++ page).map headerOf) := by
    rw [map_append]
    apply appendCommits_ok
    rw [← map_append]
    exact pairwise_map.mpr increasing
  have step : ∀ requests, listPages (listCommits timeline userID workspaceID) pageSize (requests + 1)
      number (Paging.lastKey rowSeq seen) (seen.map headerOf) =
        listPages (listCommits timeline userID workspaceID) pageSize requests (number + 1)
          (Paging.lastKey rowSeq (seen ++ page)) ((seen ++ page).map headerOf) := by
    intro requests
    rw [listPages, isPage]
    simp only [appendCommitPage, appended, long, decide_true, Bool.not_true, Bool.false_eq_true,
      if_false, if_neg advances, Paging.lastKey_append nonempty]
  constructor
  · rw [step, later.ended, Nat.add_assoc, Nat.add_comm 1 requests]
  · intro fewer less
    cases fewer with
    | zero => rfl
    | succ fewer =>
      rw [step]
      exact later.before fewer (Nat.lt_of_succ_lt_succ less)

/-- **The read ends.**  The induction is on what is left of the range of `server_seq` beyond
the last one that has been read. -/
theorem listPages_ends (bigint : ∀ moment, (timeline.db moment).nextServerSeq ≤ 2 ^ 63)
    (left number : Nat) (isLeft : 2 ^ 63 - Paging.lastKey rowSeq seen ≤ left)
    (beyond : Beyond timeline workspaceID (2 * number + 3) seen rest) :
    ∃ requests, Ends timeline userID workspaceID pageSize number seen (requests + 1) := by
  induction left generalizing number seen rest with
  | zero =>
    refine ⟨0, ends_of_short owned beyond ?_⟩
    have isNil : rest = [] := by
      refine eq_nil_iff_forall_not_mem.mpr fun row isRest => ?_
      have later := Paging.lastKey_lt beyond.increasing
        (fun row isRest => (beyond.listed row isRest).1) isRest
      have below := (beyond.listed row isRest).2.1
      have bounded := bigint (2 * number + 3)
      omega
    rw [isNil]
    exact (Server.clampPageSize_pos pageSize).le
  | succ left ih =>
    by_cases short : (rest.length : Int) ≤ Server.clampPageSize pageSize
    · exact ⟨0, ends_of_short owned beyond short⟩
    · have size := Server.clampPageSize_pos pageSize
      have grown := timeline.grows (show 2 * number + 3 ≤ 2 * (number + 1) + 3 by omega) workspaceID
      obtain ⟨added, isGrown⟩ := grown
      have next : Beyond timeline workspaceID (2 * (number + 1) + 3)
          (seen ++ rest.take (Server.clampPageSize pageSize).toNat)
          (rest.drop (Server.clampPageSize pageSize).toNat ++ added) := by
        refine ⟨?_⟩
        rw [← isGrown, beyond.history, append_assoc, append_assoc, ← append_assoc
          (rest.take _), take_append_drop]
      have nonempty : rest.take (Server.clampPageSize pageSize).toNat ≠ [] := by
        intro isNil
        have none := congrArg List.length isNil
        rw [length_take, length_nil] at none
        omega
      have advances := Paging.lastKey_lt_append
        (next.increasing.sublist (sublist_append_left _ _))
        (fun row among => (beyond.listed row (mem_of_mem_take among)).1) nonempty
      obtain ⟨requests, ends⟩ := ih (number + 1) (by omega) next
      exact ⟨requests + 1, ends_of_long owned beyond (not_le.mp short) ends⟩

/-! ## The whole history -/

omit owned

/-- The list that the client ends up with, after this many requests. -/
structure WholeHistory (timeline : Timeline svc) (userID workspaceID : Uuid) (pageSize : Int)
    (requests : Nat) (commits : List SyncCommitHeader) : Prop where
  ended : listAllCommits (listCommits timeline userID workspaceID) pageSize requests =
    some (.ok commits)
  before : ∀ fewer < requests,
    listAllCommits (listCommits timeline userID workspaceID) pageSize fewer = none
  /-- No gap, no commit twice and none out of order: it is the history at the last page. -/
  history : commits = ((timeline.db (2 * requests + 1)).history workspaceID).map headerOf
  increasing : commits.Pairwise fun a b => a.serverSeq < b.serverSeq
  /-- The first request has its first statement at moment `2`. -/
  began : ((timeline.db 2).history workspaceID).map headerOf <+: commits

/-- If the history has not changed from `GetHead` up to a moment, the replay that is selected
from the list is not found to miss the head. -/
def FindsHead (timeline : Timeline svc) (userID workspaceID : Uuid) (upTo : Nat)
    (commits : List SyncCommitHeader) : Prop :=
  (∀ moment ≤ upTo,
    (timeline.db moment).history workspaceID = (timeline.db 0).history workspaceID) →
  ∀ localHead head, getHead timeline userID workspaceID = .ok head →
    selectReplayCommits (fun commit : SyncCommitHeader => commit.commitId) localHead head commits ≠
      .error (missesHead head)

theorem headAfter_none (commits : List KukuSyncCommit) :
    headAfter none commits = commits.getLast?.map (·.commitID) := by
  rcases eq_nil_or_concat commits with rfl | ⟨init, last, rfl⟩
  · rfl
  · rw [concat_eq_append, headAfter_append, getLast?_append]
    rfl

theorem getHead_last {head : SyncHead} (answered : getHead timeline userID workspaceID = .ok head) :
    head.currentHeadCommitId =
      ((((timeline.db 0).history workspaceID).map headerOf).getLast?.map (·.commitId)).getD "" := by
  rw [getHead, Server.getHead, Server.authorizeWorkspace] at answered
  cases owned : (timeline.db 0).getSyncWorkspace workspaceID userID with
  | none =>
    rw [owned] at answered
    cases answered
  | some workspace =>
    rw [owned] at answered
    cases answered
    have isRow := (filter_eq_some_iff.mp owned).1
    have reached := timeline.reachable 0
    have isHead := ((inv_of_reachable reached).tables.linear workspaceID workspace isRow).head
    have isHistory : (timeline.db 0).history workspaceID =
        (timeline.states 0).db.commitsOf workspaceID :=
      history_of_reachable reached workspaceID
    change Server.textValue workspace.currentHeadCommitID = _
    rw [isHistory, isHead, headAfter_none, getLast?_map, Option.map_map]
    cases ((timeline.states 0).db.commitsOf workspaceID).getLast? <;> rfl

theorem Ends.wholeHistory {requests : Nat} (positive : 0 < requests)
    (ends : Ends timeline userID workspaceID pageSize 0 [] requests) :
    WholeHistory timeline userID workspaceID pageSize requests
      (((timeline.db (2 * requests + 1)).history workspaceID).map headerOf) where
  ended := by
    have ended := ends.ended
    rwa [Nat.zero_add] at ended
  before := ends.before
  history := rfl
  increasing := by
    refine pairwise_map.mpr ((timeline.ordered (2 * requests + 1) workspaceID).imp ?_)
    exact fun less => Int.ofNat_lt.mpr less
  began := (timeline.grows (by omega) workspaceID).map headerOf

theorem findsHead_of_history :
    FindsHead timeline userID workspaceID moment
      (((timeline.db moment).history workspaceID).map headerOf) := by
  intro unchanged localHead head answered
  apply selectReplayCommits_ne_missesHead
  rw [unchanged moment le_rfl]
  exact getHead_last answered

end Pages

/-- **The pages make the whole history once, and the head is found in it unless something is
published before the last page is read.** -/
theorem reads_whole_history (svc : Server.Service) (timeline : Timeline svc)
    (userID workspaceID : Uuid) (pageSize : Int)
    (owned : ∀ moment, (timeline.db moment).getSyncWorkspace workspaceID userID ≠ none)
    (bigint : ∀ moment, (timeline.db moment).nextServerSeq ≤ 2 ^ 63) :
    ∃ requests commits, WholeHistory timeline userID workspaceID pageSize requests commits ∧
      FindsHead timeline userID workspaceID (2 * requests + 1) commits := by
  obtain ⟨fewer, ends⟩ : ∃ fewer, Ends timeline userID workspaceID pageSize 0 [] (fewer + 1) :=
    listPages_ends owned bigint (2 ^ 63) 0 (by simp) ⟨(nil_append _).symm⟩
  exact ⟨fewer + 1, _, ends.wholeHistory (Nat.succ_pos fewer), findsHead_of_history⟩

/-! ## A publish between two pages -/

section Sample

open Server.Example (serviceOfThree publishTwo publishThird)

/-- Nothing happens but one run of steps, before a moment. -/
def pausing {s s' : Server.State} (moment : Nat)
    (reached : (publishing serviceOfThree).Reachable s) (labels : List Server.Label)
    (ran : System.run (Server.State.next serviceOfThree) s labels = some s') :
    Timeline serviceOfThree where
  states n := if n < moment then s else s'
  reached := by
    split_ifs
    · exact reached
    · exact System.reachable_of_run reached ran
  moves n := by
    by_cases before : n + 1 < moment
    · exact ⟨[], by rw [if_pos before, if_pos (Nat.lt_of_succ_lt before)]; rfl⟩
    · by_cases isLast : n < moment
      · exact ⟨labels, by rw [if_pos isLast, if_neg before, ran]⟩
      · exact ⟨[], by rw [if_neg before, if_neg isLast]; rfl⟩

/-- Two commits are there, and a third is published before moment `4`. -/
structure PublishesThird (timeline : Timeline serviceOfThree) : Prop where
  early : ∀ moment < 4, Server.Example.seen (timeline.states moment) =
    (some ⟨1, 9, some "c2", 2, false⟩, ["c1", "c2"], 3, "c1")
  late : ∀ moment ≥ 4, Server.Example.seen (timeline.states moment) =
    (some ⟨1, 9, some "c3", 3, false⟩, ["c1", "c2", "c3"], 4, "c1")

theorem sample_timeline : ∃ timeline, PublishesThird timeline := by
  obtain ⟨s, ranTwo, rest⟩ := bind_eq_some_iff.mp Server.Example.run_publishes
  obtain ⟨s', ranThird, seen⟩ := map_eq_some_iff.mp rest
  obtain ⟨isTwo, isThree⟩ := Prod.mk.inj seen
  refine ⟨pausing 4 (System.reachable_of_run (.start rfl) ranTwo) publishThird ranThird, ?_, ?_⟩
  · intro moment before
    exact (congrArg Server.Example.seen (if_pos before)).trans isTwo
  · intro moment behind
    exact (congrArg Server.Example.seen (if_neg (not_lt.mpr behind))).trans isThree

section Publishes

variable {timeline : Timeline serviceOfThree} (publishes : PublishesThird timeline)

include publishes

theorem sample_owned (moment : Nat) : (timeline.db moment).getSyncWorkspace 1 9 ≠ none := by
  by_cases before : moment < 4
  · have row := congrArg Prod.fst (publishes.early moment before)
    exact fun none => nomatch none.symm.trans row
  · have row := congrArg Prod.fst (publishes.late moment (not_lt.mp before))
    exact fun none => nomatch none.symm.trans row

theorem sample_bigint (moment : Nat) : (timeline.db moment).nextServerSeq ≤ 2 ^ 63 := by
  by_cases before : moment < 4
  · have next := congrArg (fun seen => seen.2.2.1) (publishes.early moment before)
    exact le_of_eq_of_le next (by decide)
  · have next := congrArg (fun seen => seen.2.2.1) (publishes.late moment (not_lt.mp before))
    exact le_of_eq_of_le next (by decide)

end Publishes

/-- The third commit comes between the pages, and is read with the others. -/
theorem whole_history_while_publishing : ∃ timeline, PublishesThird timeline ∧
    ∃ requests commits, WholeHistory timeline 9 1 1 requests commits ∧
      FindsHead timeline 9 1 (2 * requests + 1) commits := by
  obtain ⟨timeline, publishes⟩ := sample_timeline
  exact ⟨timeline, publishes, reads_whole_history serviceOfThree timeline 9 1 1
    (sample_owned publishes) (sample_bigint publishes)⟩

/-- The second commit is the head, and a third follows it. -/
theorem misses_second {commits : List SyncCommitHeader}
    (ids : (commits.map fun commit => commit.commitId) = ["c1", "c2", "c3"]) :
    selectReplayCommits (fun commit : SyncCommitHeader => commit.commitId) none ⟨"c2", "c1"⟩
      commits = .error (missesHead ⟨"c2", "c1"⟩) := by
  obtain ⟨first, rest, rfl, isFirst, ids⟩ := map_eq_cons_iff.mp ids
  obtain ⟨second, rest, rfl, isSecond, ids⟩ := map_eq_cons_iff.mp ids
  obtain ⟨third, rest, rfl, isThird, ids⟩ := map_eq_cons_iff.mp ids
  rw [map_eq_nil_iff.mp ids]
  have started : replayStart (fun commit : SyncCommitHeader => commit.commitId) "" ⟨"c2", "c1"⟩
      [first, second, third] = .ok 0 := by
    simp [replayStart, findIdx?_cons, isFirst]
  simp [selectReplayCommits, started, isThird, missesHead, bind, Except.bind, throw, throwThe,
    MonadExceptOf.throw]

/-- Nobody publishes between `GetHead` and the first page, and yet the head is missed: the third
commit comes between the pages. -/
theorem head_missed_while_paging : ∃ timeline : Timeline serviceOfThree,
    (∀ moment, (timeline.db moment).getSyncWorkspace 1 9 ≠ none) ∧
    (∀ moment, (timeline.db moment).nextServerSeq ≤ 2 ^ 63) ∧
    (∀ moment ≤ 2, (timeline.db moment).history 1 = (timeline.db 0).history 1) ∧
    ∃ requests commits, WholeHistory timeline 9 1 1 requests commits ∧
      ¬FindsHead timeline 9 1 2 commits := by
  obtain ⟨timeline, publishes⟩ := sample_timeline
  have owned := sample_owned publishes
  have bigint := sample_bigint publishes
  have ids : ∀ moment < 4, ((timeline.db moment).history 1).map (·.commitID) = ["c1", "c2"] :=
    fun moment before => congrArg (fun seen => seen.2.1) (publishes.early moment before)
  have two : ((timeline.db 3).history 1).length = 2 := by
    rw [← length_map (f := fun row : KukuSyncCommit => row.commitID), ids 3 (by decide)]
    rfl
  -- A history of two that is there later, too, has not grown.
  have unchanged : ∀ moment ≤ 2, (timeline.db moment).history 1 = (timeline.db 0).history 1 := by
    intro moment early
    refine ((timeline.grows (Nat.zero_le moment) 1).eq_of_length ?_).symm
    rw [← length_map (f := fun row : KukuSyncCommit => row.commitID), ids 0 (by decide),
      ← length_map (f := fun row : KukuSyncCommit => row.commitID), ids moment (by omega)]
  refine ⟨timeline, owned, bigint, unchanged, ?_⟩
  have first : Beyond timeline 1 3 [] ((timeline.db 3).history 1) := ⟨(nil_append _).symm⟩
  obtain ⟨added, isGrown⟩ := timeline.grows (show 3 ≤ 5 by decide) 1
  have second : Beyond timeline 1 5 ([] ++ ((timeline.db 3).history 1).take 1)
      (((timeline.db 3).history 1).drop 1 ++ added) := by
    refine ⟨?_⟩
    rw [← isGrown, nil_append, ← append_assoc, take_append_drop]
  obtain ⟨requests, ends⟩ : ∃ requests, Ends timeline 9 1 1 1
      ([] ++ ((timeline.db 3).history 1).take 1) (requests + 1) :=
    listPages_ends owned bigint _ 1 (Int.self_le_toNat _) second
  have whole := (ends_of_long owned first (by rw [two]; decide) ends).wholeHistory (Nat.succ_pos _)
  refine ⟨_, _, whole, fun finds => ?_⟩
  have answered : getHead timeline 9 1 = .ok ⟨"c2", "c1"⟩ := by
    have row := congrArg Prod.fst (publishes.early 0 (by decide))
    have checkpoint := congrArg (fun seen => seen.2.2.2) (publishes.early 1 (by decide))
    rw [getHead, Server.getHead, Server.authorizeWorkspace]
    simp only [Timeline.db]
    rw [show (timeline.states 0).db.getSyncWorkspace 1 9 = _ from row,
      show (timeline.states 1).db.getLatestSyncCheckpointCommitID 1 = _ from checkpoint]
    rfl
  refine finds unchanged none _ answered (misses_second ?_)
  rw [List.map_map]
  exact congrArg (fun seen => seen.2.1) (publishes.late (2 * (requests + 1 + 1) + 1) (by omega))

end Sample

end Kuku.Sync.ListAllCommits
