/-
# Server.Gc -- the commits and objects that the head of a workspace needs

`buildReachableObjectGraph` walks from the head of a workspace through the parents of its commits
and collects the objects of the commits it meets.  Next to these it keeps what is preserved: all
commits from the latest checkpoint on, by `server_seq`, whether the walk meets them or not.

Maps and sets of the source are functions and finite sets here: it reads none of them in order.
The walk is recursive in the source and has no bound; here `calls` bounds how deep it nests, and
`buildReachableObjectGraph_spec` says that no graph needs more than it has commits.
-/
import Kuku.Server.ListCommits
import Kuku.Theory.Reachability

namespace Kuku.Server

open Kuku.Theory List Function Option

structure SyncCheckpointInfo where
  commitID : String
  serverSeq : Nat

structure SyncGCCommitCandidate where
  commitID : String
  commitKind : KukuSyncCommitKind
  serverSeq : Nat
  reason : String

structure SyncReachableGraph where
  headCommitID : String
  commitIDs : Finset String
  objectIDs : Finset String
  preservedCommitIDs : Finset String
  preservedObjectIDs : Finset String
  latestCheckpoint : Option SyncCheckpointInfo
  oldReachableHistoryCommits : List SyncGCCommitCandidate

namespace Db

def listSyncCommitsByWorkspaceDesc (db : Db) (workspaceID : Uuid) : List KukuSyncCommit :=
  (db.history workspaceID).reverse

/-- `ListSyncCommitObjectsByWorkspace`; the order of its rows is not looked at. -/
def listSyncCommitObjectsByWorkspace (db : Db) (workspaceID : Uuid) :
    List KukuSyncCommitObject :=
  db.commitObjects.filter fun link => link.workspaceID = workspaceID

end Db

def checkpointInfoFromCommit (commit : KukuSyncCommit) : SyncCheckpointInfo :=
  ⟨commit.commitID, commit.serverSeq⟩

def latestCheckpointFromCommits (commits : List KukuSyncCommit) : Option SyncCheckpointInfo :=
  (commits.find? fun commit => commit.commitKind = .checkpoint).map checkpointInfoFromCommit

/-! ## The objects of a commit -/

abbrev ObjectsByCommit := String → Finset String

def ObjectsByCommit.add (objects : ObjectsByCommit) (commitID objectID : String) :
    ObjectsByCommit :=
  Function.update objects commitID (insert objectID (objects commitID))

def addReferencedObjects (commitID : String) (objects : ObjectsByCommit)
    (referencedObjectIds : List String) : ObjectsByCommit :=
  referencedObjectIds.foldl (fun objects objectID =>
    if objectID ≠ "" then objects.add commitID objectID else objects) objects

def addCommitFieldObjects (objects : ObjectsByCommit) (commit : KukuSyncCommit) :
    ObjectsByCommit :=
  addReferencedObjects commit.commitID
    (if commit.bodyObjectID ≠ "" then objects.add commit.commitID commit.bodyObjectID else objects)
    commit.referencedObjectIds

def objectsByCommit (commits : List KukuSyncCommit) (commitObjects : List KukuSyncCommitObject) :
    ObjectsByCommit :=
  commits.foldl addCommitFieldObjects
    (commitObjects.foldl (fun objects link => objects.add link.commitID link.objectID) fun _ => ∅)

/-- The last row of an id, of which there is one. -/
def commitsByID (commits : List KukuSyncCommit) : String → Option KukuSyncCommit :=
  commits.foldl (fun byID commit => Function.update byID commit.commitID (some commit))
    fun _ => none

/-! ## The graph -/

/-- The walk, with calls nested at most so deep. -/
def visitReachableCommits (byID : String → Option KukuSyncCommit) :
    Nat → String → Finset String → Option (Finset String)
  | 0, _, _ => none
  | calls + 1, commitID, visited =>
    if commitID = "" then some visited
    else if commitID ∈ visited then some visited
    else match byID commitID with
      | none => some visited
      | some commit =>
        commit.parentCommitIds.foldlM
          (fun visited parentID => visitReachableCommits byID calls parentID visited)
          (insert commitID visited)

def oldReachableHistory (checkpoint : SyncCheckpointInfo) (commitIDs : Finset String)
    (commits : List KukuSyncCommit) : List SyncGCCommitCandidate :=
  (commits.filter fun commit =>
      commit.commitID ∈ commitIDs ∧ commit.serverSeq < checkpoint.serverSeq).map fun commit =>
    ⟨commit.commitID, commit.commitKind, commit.serverSeq, "before_latest_checkpoint"⟩

/-- The commits from a checkpoint on. -/
def preservedCommits (checkpoint : SyncCheckpointInfo) (commits : List KukuSyncCommit) :
    List KukuSyncCommit :=
  commits.filter fun commit => ¬ commit.serverSeq < checkpoint.serverSeq

/-- The graph, once the walk has ended. -/
def graphFrom (headCommitID : String) (commits : List KukuSyncCommit) (objects : ObjectsByCommit)
    (commitIDs : Finset String) : SyncReachableGraph :=
  let objectIDs := commitIDs.biUnion objects
  match latestCheckpointFromCommits commits with
  | some checkpoint =>
    let preserved := ((preservedCommits checkpoint commits).map (·.commitID)).toFinset
    { headCommitID
      commitIDs
      objectIDs
      preservedCommitIDs := preserved
      preservedObjectIDs := preserved.biUnion objects
      latestCheckpoint := some checkpoint
      oldReachableHistoryCommits := oldReachableHistory checkpoint commitIDs commits }
  | none =>
    { headCommitID
      commitIDs
      objectIDs
      preservedCommitIDs := commitIDs
      preservedObjectIDs := objectIDs
      latestCheckpoint := none
      oldReachableHistoryCommits := [] }

def buildReachableObjectGraph (calls : Nat) (workspace : KukuSyncWorkspace)
    (commits : List KukuSyncCommit) (commitObjects : List KukuSyncCommitObject) :
    Option SyncReachableGraph :=
  let headCommitID := textValue workspace.currentHeadCommitID
  (visitReachableCommits (commitsByID commits) calls headCommitID ∅).map
    (graphFrom headCommitID commits (objectsByCommit commits commitObjects))

/-! ## The objects of the rows -/

/-- The objects that the row of a commit names; the empty text names none. -/
def KukuSyncCommit.Names (commit : KukuSyncCommit) (objectID : String) : Prop :=
  objectID ≠ "" ∧ (objectID = commit.bodyObjectID ∨ objectID ∈ commit.referencedObjectIds)

/-- The objects that the rows name for a commit, or that are linked to it. -/
def ObjectOf (commits : List KukuSyncCommit) (commitObjects : List KukuSyncCommitObject)
    (commitID objectID : String) : Prop :=
  (∃ link ∈ commitObjects, link.commitID = commitID ∧ link.objectID = objectID) ∨
    ∃ commit ∈ commits, commit.commitID = commitID ∧ commit.Names objectID

section Objects

variable {objects : ObjectsByCommit} {commits : List KukuSyncCommit}
  {commitObjects : List KukuSyncCommitObject} {commit : KukuSyncCommit}
  {commitID objectID other added : String} {referenced : List String}

theorem ObjectsByCommit.mem_add : objectID ∈ objects.add other added commitID ↔
    objectID ∈ objects commitID ∨ commitID = other ∧ objectID = added := by
  by_cases same : commitID = other
  · rw [same, ObjectsByCommit.add, update_self, Finset.mem_insert]
    tauto
  · rw [ObjectsByCommit.add, update_of_ne same]
    tauto

theorem mem_addReferencedObjects :
    objectID ∈ addReferencedObjects other objects referenced commitID ↔
      objectID ∈ objects commitID ∨ commitID = other ∧ objectID ≠ "" ∧ objectID ∈ referenced := by
  induction referenced generalizing objects with
  | nil => simp [addReferencedObjects]
  | cons first rest ih =>
    change objectID ∈ addReferencedObjects other (if first ≠ "" then objects.add other first
      else objects) rest commitID ↔ _
    rw [ih, mem_cons]
    split_ifs with nonempty
    · rw [ObjectsByCommit.mem_add]
      have isFirst : objectID = first → objectID ≠ "" := fun same => same ▸ nonempty
      tauto
    · have notFirst : objectID ≠ "" → objectID ≠ first := fun named same =>
        named (same.trans (not_not.mp nonempty))
      tauto

theorem mem_addCommitFieldObjects : objectID ∈ addCommitFieldObjects objects commit commitID ↔
    objectID ∈ objects commitID ∨ commit.commitID = commitID ∧ commit.Names objectID := by
  rw [addCommitFieldObjects, mem_addReferencedObjects, KukuSyncCommit.Names]
  split_ifs with nonempty
  · rw [ObjectsByCommit.mem_add]
    have isBody : objectID = commit.bodyObjectID → objectID ≠ "" := fun same => same ▸ nonempty
    tauto
  · have notBody : objectID ≠ "" → objectID ≠ commit.bodyObjectID := fun named same =>
      named (same.trans (not_not.mp nonempty))
    tauto

theorem mem_linkedObjects :
    objectID ∈ commitObjects.foldl (fun objects link =>
        ObjectsByCommit.add objects link.commitID link.objectID) objects commitID ↔
      objectID ∈ objects commitID ∨
        ∃ link ∈ commitObjects, link.commitID = commitID ∧ link.objectID = objectID := by
  induction commitObjects generalizing objects with
  | nil => simp
  | cons link links ih =>
    rw [foldl_cons, ih, ObjectsByCommit.mem_add, exists_mem_cons_iff]
    tauto

theorem mem_objectsByCommit : objectID ∈ objectsByCommit commits commitObjects commitID ↔
    ObjectOf commits commitObjects commitID objectID := by
  have added (objects : ObjectsByCommit) :
      objectID ∈ commits.foldl addCommitFieldObjects objects commitID ↔
        objectID ∈ objects commitID ∨
          ∃ commit ∈ commits, commit.commitID = commitID ∧ commit.Names objectID := by
    induction commits generalizing objects with
    | nil => simp
    | cons commit commits ih =>
      rw [foldl_cons, ih, mem_addCommitFieldObjects, exists_mem_cons_iff]
      tauto
  rw [objectsByCommit, added, mem_linkedObjects]
  simp [ObjectOf]

end Objects

/-! ## The walk -/

/-- A commit that the rows know under a text that is not empty. -/
def IsCommit (commits : List KukuSyncCommit) (commitID : String) (commit : KukuSyncCommit) : Prop :=
  commitID ≠ "" ∧ commit ∈ commits ∧ commit.commitID = commitID

/-- From a known commit to its parents, known or not. -/
def ParentStep (commits : List KukuSyncCommit) (commitID parentID : String) : Prop :=
  ∃ commit, IsCommit commits commitID commit ∧ parentID ∈ commit.parentCommitIds

/-- A known commit to which parents lead from the head. -/
def ReachableCommit (commits : List KukuSyncCommit) (headCommitID commitID : String) : Prop :=
  (∃ commit, IsCommit commits commitID commit) ∧
    Relation.ReflTransGen (ParentStep commits) headCommitID commitID

section Walk

variable {commits : List KukuSyncCommit} {commit : KukuSyncCommit} {commitID : String}

theorem commitsByID_eq_some (distinct : (commits.map (·.commitID)).Nodup) :
    commitsByID commits commitID = some commit ↔ commit ∈ commits ∧ commit.commitID = commitID := by
  have found (byID : String → Option KukuSyncCommit) :
      commits.foldl (fun (byID : String → Option KukuSyncCommit) commit =>
          Function.update byID commit.commitID (some commit)) byID commitID = some commit ↔
        (commit ∈ commits ∧ commit.commitID = commitID) ∨
          commitID ∉ commits.map (·.commitID) ∧ byID commitID = some commit := by
    induction commits generalizing byID with
    | nil => simp
    | cons first rest ih =>
      obtain ⟨fresh, distinct⟩ := nodup_cons.mp distinct
      rw [foldl_cons, ih distinct, map_cons, mem_cons, mem_cons]
      by_cases same : commitID = first.commitID
      · subst same
        rw [update_self, Option.some.injEq]
        have later : commit ∈ rest → commit.commitID ≠ first.commitID := fun among isFirst =>
          fresh (List.mem_map.mpr ⟨commit, among, isFirst⟩)
        have isFirst : commit = first → commit.commitID = first.commitID := congrArg _
        have swap : first = commit ↔ commit = first := eq_comm
        tauto
      · rw [update_of_ne same]
        have isFirst : commit = first → commit.commitID ≠ commitID := by
          rintro rfl isIt
          exact same isIt.symm
        tauto
  rw [commitsByID, found]
  simp

def parentsOf (commits : List KukuSyncCommit) (commitID : String) : Option (List String) :=
  if commitID = "" then none else (commitsByID commits commitID).map (·.parentCommitIds)

/-- The walk of the source is the general one. -/
theorem visitReachableCommits_eq (calls : Nat) (commitID : String) (visited : Finset String) :
    visitReachableCommits (commitsByID commits) calls commitID visited =
      Reachability.visit (parentsOf commits) calls commitID visited := by
  induction calls generalizing commitID visited with
  | zero => rfl
  | succ calls ih =>
    rw [visitReachableCommits, Reachability.visit, parentsOf]
    by_cases isEmpty : commitID = ""
    · rw [if_pos isEmpty, if_pos isEmpty, ite_self]
    · rw [if_neg isEmpty, if_neg isEmpty]
      cases commitsByID commits commitID with
      | none => rfl
      | some commit =>
        simp only [map_some, ih]

variable (distinct : (commits.map (·.commitID)).Nodup)

include distinct

theorem parentsOf_eq_some {parents : List String} :
    parentsOf commits commitID = some parents ↔
      ∃ commit, IsCommit commits commitID commit ∧ commit.parentCommitIds = parents := by
  rw [parentsOf]
  split_ifs with isEmpty
  · refine iff_of_false nofun ?_
    rintro ⟨commit, ⟨named, -⟩, -⟩
    exact named isEmpty
  · simp only [map_eq_some_iff, commitsByID_eq_some distinct, IsCommit]
    tauto

theorem known_iff :
    Reachability.Known (parentsOf commits) commitID ↔
      ∃ commit, IsCommit commits commitID commit := by
  rw [Reachability.Known, isSome_iff_exists]
  simp only [parentsOf_eq_some distinct]
  constructor
  · rintro ⟨parents, commit, isCommit, -⟩
    exact ⟨commit, isCommit⟩
  · rintro ⟨commit, isCommit⟩
    exact ⟨_, commit, isCommit, rfl⟩

theorem step_iff {parentID : String} :
    Reachability.Step (parentsOf commits) commitID parentID ↔
      ParentStep commits commitID parentID := by
  simp only [Reachability.Step, parentsOf_eq_some distinct, ParentStep]
  constructor
  · rintro ⟨parents, ⟨commit, isCommit, rfl⟩, among⟩
    exact ⟨commit, isCommit, among⟩
  · rintro ⟨commit, isCommit, among⟩
    exact ⟨_, ⟨commit, isCommit, rfl⟩, among⟩

theorem visitReachableCommits_ends (headCommitID : String) :
    ∃ commitIDs, (∀ calls, commits.length < calls →
        visitReachableCommits (commitsByID commits) calls headCommitID ∅ = some commitIDs) ∧
      ∀ commitID, commitID ∈ commitIDs ↔ ReachableCommit commits headCommitID commitID := by
  have covers : ∀ commitID, Reachability.Known (parentsOf commits) commitID →
      commitID ∈ (commits.map (·.commitID)).toFinset := by
    intro commitID isKnown
    obtain ⟨commit, -, among, rfl⟩ := (known_iff distinct).mp isKnown
    exact List.mem_toFinset.mpr (List.mem_map_of_mem among)
  have fits : (commits.map (·.commitID)).toFinset.card ≤ commits.length :=
    (toFinset_card_le _).trans_eq (length_map _)
  obtain ⟨commitIDs, ends, isMark⟩ := Reachability.visit_reaches covers headCommitID
  refine ⟨commitIDs, fun calls enough => ?_, fun commitID => ?_⟩
  · rw [visitReachableCommits_eq]
    exact ends calls (fits.trans_lt enough)
  · have sameStep : Reachability.Step (parentsOf commits) = ParentStep commits := by
      funext commitID parentID
      exact propext (step_iff distinct)
    rw [isMark, known_iff distinct, Reachability.Reaches, sameStep]
    rfl

end Walk

/-! ## The graph of some rows -/

structure IsGraph (workspace : KukuSyncWorkspace) (commits : List KukuSyncCommit)
    (commitObjects : List KukuSyncCommitObject) (graph : SyncReachableGraph) : Prop where
  headCommitID : graph.headCommitID = textValue workspace.currentHeadCommitID
  commitIDs : ∀ commitID, commitID ∈ graph.commitIDs ↔
    ReachableCommit commits (textValue workspace.currentHeadCommitID) commitID
  objectIDs : ∀ objectID, objectID ∈ graph.objectIDs ↔
    ∃ commitID ∈ graph.commitIDs, ObjectOf commits commitObjects commitID objectID
  preserved : ∀ checkpoint, latestCheckpointFromCommits commits = some checkpoint →
    ∀ objectID, objectID ∈ graph.preservedObjectIDs ↔ ∃ commit ∈ commits,
      checkpoint.serverSeq ≤ commit.serverSeq ∧
        ObjectOf commits commitObjects commit.commitID objectID

/-- **The graph of some rows is built, and is theirs.** -/
theorem buildReachableObjectGraph_spec (workspace : KukuSyncWorkspace)
    {commits : List KukuSyncCommit} (commitObjects : List KukuSyncCommitObject)
    (distinct : (commits.map (·.commitID)).Nodup) :
    ∃ graph, (∀ calls, commits.length < calls →
        buildReachableObjectGraph calls workspace commits commitObjects = some graph) ∧
      IsGraph workspace commits commitObjects graph := by
  obtain ⟨commitIDs, ends, isMark⟩ :=
    visitReachableCommits_ends distinct (textValue workspace.currentHeadCommitID)
  refine ⟨graphFrom (textValue workspace.currentHeadCommitID) commits
    (objectsByCommit commits commitObjects) commitIDs, fun calls enough => ?_, ?_, ?_, ?_, ?_⟩
  · rw [buildReachableObjectGraph, ends calls enough]
    rfl
  · unfold graphFrom
    split <;> rfl
  · unfold graphFrom
    split <;> exact isMark
  · intro objectID
    unfold graphFrom
    split <;> simp only [Finset.mem_biUnion, mem_objectsByCommit]
  · intro checkpoint latest objectID
    unfold graphFrom
    rw [latest]
    simp only [Finset.mem_biUnion, List.mem_toFinset, List.mem_map, preservedCommits,
      mem_filter, decide_eq_true_eq, not_lt, mem_objectsByCommit]
    constructor
    · rintro ⟨_, ⟨commit, ⟨among, isLate⟩, rfl⟩, isObject⟩
      exact ⟨commit, among, isLate, isObject⟩
    · rintro ⟨commit, among, isLate, isObject⟩
      exact ⟨_, ⟨commit, ⟨among, isLate⟩, rfl⟩, isObject⟩

theorem latestCheckpoint_answered {db : Db} {workspaceID : Uuid} {checkpoint : SyncCheckpointInfo}
    (latest : latestCheckpointFromCommits (db.listSyncCommitsByWorkspaceDesc workspaceID) =
      some checkpoint) :
    db.getLatestSyncCheckpointCommitID workspaceID = checkpoint.commitID ∧
      ∃ commit ∈ db.history workspaceID, commit.commitKind = .checkpoint ∧
        checkpointInfoFromCommit commit = checkpoint := by
  obtain ⟨commit, found, rfl⟩ := map_eq_some_iff.mp latest
  have isLast : ((db.history workspaceID).filter fun c => c.commitKind = .checkpoint).getLast? =
      some commit := by
    rw [← head?_reverse, ← filter_reverse, head?_filter]
    exact found
  obtain ⟨among, isCheckpoint⟩ := mem_filter.mp (mem_of_getLast? isLast)
  refine ⟨?_, commit, among, of_decide_eq_true isCheckpoint, rfl⟩
  rw [Db.getLatestSyncCheckpointCommitID, isLast]
  rfl

end Kuku.Server
