/-
# Desktop.MutationReport -- what a plan has done, and what is said of it

A guarded operation makes several calls, and one that fails after it has made a directory, cut
a file or emptied part of a directory leaves that behind; and the paths are resolved once more
after the operation is recorded, where a failure ends the plan with the entry still there.  The
report of a plan is right exactly when neither happens (`reports_iff`).
-/
import Kuku.Desktop.ApplyMutation

namespace Kuku.Desktop.Mutation

open Kuku.Theory List Effect
open Kuku.Ai (Str MutationOp MutationPlan MutationApplyResult ConflictItem AiError)
open Kuku.Sync (Location)

/-! ## Calls, one by one -/

def World.withTree (world : World) (tree : Tree) : World := { world with tree := tree }

section Worlds

variable {world : World} {tree : Tree} {calls more : Nat}

@[simp] theorem skip_skip : (world.skip calls).skip more = world.skip (calls + more) := by
  simp [World.skip, drop_drop]

@[simp] theorem fault_skip : (world.skip calls).fault more = world.fault (calls + more) := by
  simp [World.skip, World.fault]

@[simp] theorem tree_skip : (world.skip calls).tree = world.tree := rfl

@[simp] theorem tree_withTree : (world.withTree tree).tree = tree := rfl

@[simp] theorem fault_withTree : (world.withTree tree).fault calls = world.fault calls := rfl

@[simp] theorem skip_withTree :
    (world.withTree tree).skip calls = (world.skip calls).withTree tree := rfl

@[simp] theorem withTree_withTree {tree' : Tree} :
    (world.withTree tree).withTree tree' = world.withTree tree' := rfl

end Worlds

section Calls

variable (location source target : Location) (content : List UInt8) (world : World)

theorem call_bind {ε α : Type} (next : Option Fault → Act ε α) :
    (call >>= next) world = next (world.fault 0) (world.skip 1) := rfl

theorem tryExists_run : tryExists location world =
    match world.fault 0 with
    | some fault => (.error fault.error, world.skip 1)
    | none => (.ok (world.tree.node location).isSome, world.skip 1) := by
  unfold tryExists
  rw [call_bind]
  cases world.fault 0 <;> rfl

theorem readToString_run : readToString location world =
    match world.fault 0, world.tree.node location with
    | some fault, _ => (.error fault.error, world.skip 1)
    | none, some (.file content) =>
      if (Text.decodeUtf8 content).isSome then (.ok content, world.skip 1)
      else (.error errUtf8, world.skip 1)
    | none, some .directory => (.error errIsDirectory, world.skip 1)
    | none, _ => (.error errNotFound, world.skip 1) := by
  unfold readToString
  rw [call_bind]
  cases world.fault 0 with
  | some fault => rfl
  | none =>
    dsimp only
    rw [get_bind, tree_skip]
    cases world.tree.node location with
    | none => rfl
    | some node =>
      cases node with
      | file content =>
        dsimp only
        split_ifs <;> rfl
      | directory => rfl
      | symlink => rfl

theorem isDirectory_run : isDirectory location world =
    match world.fault 0, world.tree.node location with
    | some fault, _ => (.error fault.error, world.skip 1)
    | none, some node => (.ok (decide (node = Node.directory)), world.skip 1)
    | none, none => (.error errNotFound, world.skip 1) := by
  unfold isDirectory
  rw [call_bind]
  cases world.fault 0 with
  | some fault => rfl
  | none =>
    dsimp only
    rw [get_bind, tree_skip]
    cases world.tree.node location <;> rfl

theorem createDirAll_run : createDirAll location world =
    if world.tree.isBlocked location then (.error errNotDirectory, world.skip 1)
    else match world.fault 0 with
      | some fault => (.error fault.error, (world.skip 1).withTree
          (world.tree.makeDirectories ((world.tree.missing location).dropLast.take fault.made)))
      | none => (.ok (), (world.skip 1).withTree
          (world.tree.makeDirectories (world.tree.missing location))) := by
  unfold createDirAll
  rw [call_bind, get_bind, tree_skip]
  split_ifs
  · rfl
  · cases world.fault 0 <;> rfl

theorem write_run : write location content world =
    if world.tree.node location = some .directory then (.error errIsDirectory, world.skip 1)
    else if world.tree.node location = none ∧
        world.tree.node location.dropLast ≠ some .directory then
      (.error errNotFound, world.skip 1)
    else match world.fault 0 with
      | some fault => (.error fault.error, (world.skip 1).withTree
          ((fault.written.map fun bytes => world.tree.put location (.file (content.take bytes))).getD
            world.tree))
      | none => (.ok (), (world.skip 1).withTree (world.tree.put location (.file content))) := by
  unfold write
  rw [call_bind, get_bind, tree_skip]
  split_ifs
  · rfl
  · rfl
  · cases world.fault 0 with
    | none => rfl
    | some fault =>
      dsimp only
      cases fault.written <;> rfl

theorem removeFile_run : removeFile location world =
    match world.fault 0, world.tree.node location with
    | some fault, _ => (.error fault.error, world.skip 1)
    | none, some .directory => (.error errIsDirectory, world.skip 1)
    | none, some _ => (.ok (), (world.skip 1).withTree (world.tree.remove location))
    | none, none => (.error errNotFound, world.skip 1) := by
  unfold removeFile
  rw [call_bind]
  cases world.fault 0 with
  | some fault => rfl
  | none =>
    dsimp only
    rw [get_bind, tree_skip]
    cases world.tree.node location with
    | none => rfl
    | some node => cases node <;> rfl

/-- What is left of a directory that is being emptied. -/
def Tree.emptied (tree : Tree) (location : Location) (removed : Location → Bool) : Tree :=
  fun other => if location <+: other ∧ removed other then none else tree other

theorem removeDirAll_run : removeDirAll location world =
    if world.tree.node location ≠ some .directory then (.error errNotDirectory, world.skip 1)
    else match world.fault 0 with
      | some fault => (.error fault.error, (world.skip 1).withTree
          (world.tree.emptied location fault.removed))
      | none => (.ok (), (world.skip 1).withTree (world.tree.removeBelow location)) := by
  unfold removeDirAll
  rw [call_bind, get_bind, tree_skip]
  split_ifs
  · rfl
  · cases world.fault 0 <;> rfl

theorem rename_run : rename source target world =
    match world.fault 0 with
    | some fault => (.error fault.error, world.skip 1)
    | none =>
      if world.tree.node source = none ∨ world.tree.node target.dropLast ≠ some .directory then
        (.error errNotFound, world.skip 1)
      else if source <+: target then (.error errInvalid, world.skip 1)
      else (.ok (), (world.skip 1).withTree (world.tree.move source target)) := by
  unfold rename
  rw [call_bind]
  cases world.fault 0 with
  | some fault => rfl
  | none =>
    dsimp only
    rw [get_bind, tree_skip]
    split_ifs <;> rfl

theorem computeDirectoryChecksum_run (host : Host) :
    computeDirectoryChecksum host location world =
      match world.fault 0 with
      | some fault => (.error fault.error, world.skip 1)
      | none => (.ok (host.directoryChecksum world.tree location), world.skip 1) := by
  unfold computeDirectoryChecksum
  rw [call_bind]
  cases world.fault 0 <;> rfl

end Calls

/-! ## Trees -/

section Trees

variable {tree : Tree} {location other : Location}

theorem makeDirectories_missing (unblocked : tree.isBlocked location = false) :
    tree.makeDirectories (tree.missing location) = tree.makeDirectories (way location) := by
  funext other
  unfold Tree.makeDirectories Tree.missing
  by_cases onWay : other ∈ way location
  · rw [if_pos onWay]
    cases isNode : tree other with
    | none => rw [if_pos (mem_filter.mpr ⟨onWay, by simp [isNode]⟩)]
    | some node =>
      have isDirectory := any_eq_false.mp unblocked other onWay
      rw [isNode] at isDirectory
      rw [if_neg fun member => by simp [isNode] at member]
      simpa using isDirectory
  · rw [if_neg onWay, if_neg fun member => onWay (mem_of_mem_filter member)]

/-- Making directories that are missing is seen, unless there is none. -/
theorem makeDirectories_eq {locations : List Location}
    (absent : ∀ other ∈ locations, tree other = none) :
    tree.makeDirectories locations = tree ↔ locations = [] := by
  constructor
  · intro same
    cases locations with
    | nil => rfl
    | cons first rest =>
      have isMade := congrFun same first
      unfold Tree.makeDirectories at isMade
      rw [if_pos mem_cons_self, absent first mem_cons_self] at isMade
      cases isMade
  · rintro rfl
    funext other
    exact if_neg not_mem_nil

theorem missing_absent : ∀ other ∈ tree.missing location, tree other = none :=
  fun _ member => of_decide_eq_true (mem_filter.mp member).2

theorem mem_way : other ∈ way location ↔ other ≠ [] ∧ other <+: location := by
  rw [← mem_inits]
  unfold way
  cases location with
  | nil => simp
  | cons name names =>
    rw [inits_cons, tail_cons]
    constructor
    · intro member
      obtain ⟨rest, -, rfl⟩ := mem_map.mp member
      exact ⟨nofun, mem_cons_of_mem _ member⟩
    · rintro ⟨isNot, member⟩
      exact (mem_cons.mp member).resolve_left isNot

theorem node_made (unblocked : tree.isBlocked location = false) :
    (tree.makeDirectories (tree.missing location)).node location = some .directory := by
  unfold Tree.node
  by_cases isRoot : location = []
  · rw [if_pos isRoot]
  · rw [if_neg isRoot, makeDirectories_missing unblocked]
    exact if_pos (mem_way.mpr ⟨isRoot, prefix_rfl⟩)

/-- The directories above a place leave the place itself as it is. -/
theorem node_made_below (isNot : location ≠ []) :
    (tree.makeDirectories (tree.missing location.dropLast)).node location =
      tree.node location := by
  unfold Tree.node
  rw [if_neg isNot, if_neg isNot]
  refine if_neg fun member => ?_
  have short := (mem_way.mp (mem_of_mem_filter member)).2.length_le
  rw [length_dropLast] at short
  have := length_pos_iff.mpr isNot
  omega

theorem node_of_ne (isNot : location ≠ []) : tree.node location = tree location := if_neg isNot

theorem ne_nil_of_node (isNone : tree.node location = none) : location ≠ [] := by
  rintro rfl
  cases isNone

end Trees

/-! ## What a guarded operation leaves behind -/

/-- The operation takes effect, or fails; and whether it leaves something when it fails. -/
def EndsAt (world : World) (effect : Tree) (leaves : Prop)
    (ended : Except ConflictItem Unit × World) : Prop :=
  (∃ world', ended = (.ok (), world') ∧ world'.tree = effect ∧ world'.ledger = world.ledger ∧
      ¬ leaves) ∨
    ∃ item world', ended = (.error item, world') ∧ world'.ledger = world.ledger ∧
      (world'.tree = world.tree ↔ ¬ leaves)

section Guarded

variable (host : Host) (location source target : Location) (content expectedChecksum : Str)

/-- A call that makes directories has made some when it fails. -/
def MadeSome (calls : Nat) (location : Location) (world : World) : Prop :=
  ∃ fault, world.fault calls = some fault ∧
    (world.tree.missing location).dropLast.take fault.made ≠ []

/-- The directories above are made, in part or before the file fails; or the file is begun. -/
def CreateLeaves (world : World) : Prop :=
  world.fault 0 = none ∧ world.tree.node location = none ∧
    world.tree.isBlocked location.dropLast = false ∧
    (MadeSome 1 location.dropLast world ∨
      world.fault 1 = none ∧ ∃ fault, world.fault 2 = some fault ∧
        (world.tree.missing location.dropLast ≠ [] ∨ fault.written.isSome = true))

def CreateDirLeaves (world : World) : Prop :=
  world.fault 0 = none ∧ world.tree.node location = none ∧
    world.tree.isBlocked location = false ∧ MadeSome 1 location world

/-- The file is opened, and what is written then is not what it held. -/
def WriteLeaves (world : World) : Prop :=
  world.fault 0 = none ∧ ∃ current, world.tree.node location = some (.file current) ∧
    (Text.decodeUtf8 current).isSome = true ∧ host.checksum current = expectedChecksum ∧
    ∃ fault bytes, world.fault 1 = some fault ∧ fault.written = some bytes ∧
      (utf8 content).take bytes ≠ current

/-- Something below the directory is gone. -/
def DeleteDirLeaves (world : World) : Prop :=
  world.fault 0 = none ∧ world.tree.node location = some .directory ∧ world.fault 1 = none ∧
    host.directoryChecksum world.tree location = expectedChecksum ∧
    ∃ fault other, world.fault 2 = some fault ∧ location <+: other ∧ fault.removed other = true ∧
      world.tree other ≠ none

/-- The directories above the target are made, in part or before the rename fails. -/
def RenameLeaves (world : World) : Prop :=
  world.fault 0 = none ∧ world.tree.node source ≠ none ∧ world.fault 1 = none ∧
    world.tree.node target = none ∧ world.tree.isBlocked target.dropLast = false ∧
    (MadeSome 2 target.dropLast world ∨
      world.fault 2 = none ∧ world.tree.missing target.dropLast ≠ [] ∧
        (world.fault 3 ≠ none ∨ source <+: target))

variable {host location source target content expectedChecksum} {world : World}
  {α : Type} {x : Act Str α} {value : α} {error path : Str} {what : String}
  {next : α → Act ConflictItem Unit} {world' : World}

theorem orConflict_ok (ran : x world = (.ok value, world')) :
    (orConflict path what x >>= next) world = next value world' :=
  bind_of_ok (mapError_of_ok ran)

theorem orConflict_error (ran : x world = (.error error, world')) :
    ∃ item, (orConflict path what x >>= next) world = (.error item, world') :=
  ⟨_, bind_of_error (mapError_of_error ran)⟩

variable {ended : Except ConflictItem Unit × World} {leaves : Prop}

/-- The end of an operation that leaves nothing, because it has not come to its writing call. -/
theorem failed_early {effect : Tree} {calls : Nat}
    (failed : ∃ item, ended = (.error item, world.skip calls)) (nothing : ¬ leaves) :
    EndsAt world effect leaves ended := by
  obtain ⟨item, rfl⟩ := failed
  exact .inr ⟨item, _, rfl, rfl, iff_of_true rfl nothing⟩

theorem failed_with {effect tree : Tree} {calls : Nat}
    (failed : ∃ item, ended = (.error item, (world.skip calls).withTree tree))
    (left : tree = world.tree ↔ ¬ leaves) : EndsAt world effect leaves ended := by
  obtain ⟨item, rfl⟩ := failed
  exact .inr ⟨item, _, rfl, rfl, left⟩

variable {tree : Tree}

theorem succeeded {calls : Nat} (isEnd : ended = (.ok (), (world.skip calls).withTree tree))
    (nothing : ¬ leaves) : EndsAt world tree leaves ended :=
  .inl ⟨_, isEnd, rfl, rfl, nothing⟩

theorem readToString_cases (location : Location) (world : World) :
    (∃ current, readToString location world = (.ok current, world.skip 1) ∧
      world.fault 0 = none ∧ world.tree.node location = some (.file current) ∧
      (Text.decodeUtf8 current).isSome = true) ∨
    (∃ error, readToString location world = (.error error, world.skip 1)) ∧
      ∀ current, world.fault 0 = none → world.tree.node location = some (.file current) →
        (Text.decodeUtf8 current).isSome = false := by
  rw [readToString_run]
  cases world.fault 0 with
  | some fault => exact .inr ⟨⟨_, rfl⟩, nofun⟩
  | none =>
    cases world.tree.node location with
    | none => exact .inr ⟨⟨_, rfl⟩, nofun⟩
    | some node =>
      cases node with
      | directory => exact .inr ⟨⟨_, rfl⟩, nofun⟩
      | symlink => exact .inr ⟨⟨_, rfl⟩, nofun⟩
      | file current =>
        dsimp only
        split_ifs with isText
        · exact .inl ⟨current, rfl, rfl, rfl, isText⟩
        · refine .inr ⟨⟨_, rfl⟩, ?_⟩
          rintro _ - ⟨⟩
          exact Bool.not_eq_true _ ▸ isText

theorem orConflict_last {x : Act Str Unit} (ran : x world = (.ok (), world')) :
    orConflict path what x world = (.ok (), world') :=
  mapError_of_ok ran

theorem orConflict_failed (ran : x world = (.error error, world')) :
    ∃ item, orConflict path what x world = (.error item, world') :=
  ⟨_, mapError_of_error ran⟩

theorem guardedDelete_ends :
    EndsAt world (world.tree.remove location) False
      (guardedDelete host location expectedChecksum world) := by
  obtain ⟨current, isRead, -, isFile, -⟩ | ⟨⟨error, unread⟩, -⟩ := readToString_cases location world
  · unfold guardedDelete
    rw [orConflict_ok isRead]
    split_ifs with differs
    · exact failed_early ⟨_, rfl⟩ not_false
    · have removing := removeFile_run location (world.skip 1)
      simp only [fault_skip, tree_skip, skip_skip, isFile] at removing
      cases isFault : world.fault (1 + 0) with
      | some fault =>
        rw [isFault] at removing
        exact failed_early (orConflict_failed removing) not_false
      | none =>
        rw [isFault] at removing
        exact succeeded (orConflict_last removing) not_false
  · exact failed_early (orConflict_error unread) not_false

/-- A file that has been opened holds what was written to it. -/
theorem put_eq {node : Node} (isNot : location ≠ []) :
    tree.put location node = tree ↔ tree.node location = some node := by
  rw [node_of_ne isNot]
  constructor
  · intro same
    rw [← congrFun same location]
    exact if_pos rfl
  · intro isNode
    funext other
    unfold Tree.put
    split_ifs with isIt
    · rw [isIt, isNode]
    · rfl

theorem guardedWrite_ends :
    EndsAt world (world.tree.put location (.file (utf8 content)))
      (WriteLeaves host location content expectedChecksum world)
      (guardedWrite host location content expectedChecksum world) := by
  obtain ⟨current, isRead, works, isFile, isText⟩ | ⟨⟨error, unread⟩, noText⟩ :=
    readToString_cases location world
  · have isNot : location ≠ [] := by
      rintro rfl
      cases isFile
    unfold guardedWrite
    rw [orConflict_ok isRead]
    split_ifs with differs
    · refine failed_early ⟨_, rfl⟩ ?_
      rintro ⟨-, other, isOther, -, isSame, -⟩
      cases isFile.symm.trans isOther
      exact differs isSame
    · have writing := write_run location (utf8 content) (world.skip 1)
      simp only [fault_skip, tree_skip, skip_skip, isFile, reduceCtorEq, if_false, false_and,
        Option.some.injEq] at writing
      cases isFault : world.fault (1 + 0) with
      | some fault =>
        rw [isFault] at writing
        refine failed_with (orConflict_failed writing) ?_
        cases isWritten : fault.written with
        | none =>
          refine iff_of_true rfl ?_
          rintro ⟨-, _, -, -, -, other, bytes, isOther, isSome, -⟩
          cases isFault.symm.trans isOther
          cases isWritten.symm.trans isSome
        | some bytes =>
          refine (put_eq isNot).trans ?_
          rw [isFile]
          constructor
          · rintro isSame ⟨-, other, isOther, -, -, other', bytes', isOther', isSome, differs⟩
            cases isFile.symm.trans isOther
            cases isFault.symm.trans isOther'
            cases isWritten.symm.trans isSome
            cases isSame
            exact differs rfl
          · intro nothing
            by_contra isDifferent
            exact nothing ⟨works, current, isFile, isText, not_not.mp differs, fault, bytes, isFault,
              isWritten, fun isSame => isDifferent (by rw [isSame])⟩
      | none =>
        rw [isFault] at writing
        refine succeeded (orConflict_last writing) ?_
        rintro ⟨-, other, -, -, -, fault, _, isSome, -⟩
        cases isFault.symm.trans isSome
  · refine failed_early (orConflict_error unread) ?_
    rintro ⟨works, current, isFile, isText, -⟩
    rw [noText current works isFile] at isText
    cases isText

theorem tryExists_cases (location : Location) (world : World) :
    (world.fault 0 = none ∧
      tryExists location world = (.ok (world.tree.node location).isSome, world.skip 1)) ∨
    world.fault 0 ≠ none ∧ ∃ error, tryExists location world = (.error error, world.skip 1) := by
  rw [tryExists_run]
  cases world.fault 0 with
  | none => exact .inl ⟨rfl, rfl⟩
  | some fault => exact .inr ⟨nofun, _, rfl⟩

/-- The directories that a failing call has made, as the tree shows them. -/
theorem made_eq (made : Nat) :
    tree.makeDirectories ((tree.missing location).dropLast.take made) = tree ↔
      (tree.missing location).dropLast.take made = [] :=
  makeDirectories_eq fun other member =>
    missing_absent other (mem_of_mem_dropLast (mem_of_mem_take member))

theorem guardedCreateDir_ends :
    EndsAt world (world.tree.makeDirectories (way location)) (CreateDirLeaves location world)
      (guardedCreateDir host location world) := by
  unfold guardedCreateDir
  obtain ⟨works, isFound⟩ | ⟨fails, error, isError⟩ := tryExists_cases location world
  · rw [orConflict_ok isFound]
    cases isNode : world.tree.node location with
    | some node =>
      refine failed_early ⟨_, rfl⟩ ?_
      rintro ⟨-, isNone, -⟩
      cases isNode.symm.trans isNone
    | none =>
      rw [Option.isSome_none, if_neg Bool.false_ne_true]
      have making := createDirAll_run location (world.skip 1)
      simp only [fault_skip, tree_skip, skip_skip] at making
      split_ifs at making with blocked
      · refine failed_early (orConflict_failed making) ?_
        rintro ⟨-, -, unblocked, -⟩
        rw [blocked] at unblocked
        cases unblocked
      · cases isFault : world.fault (1 + 0) with
        | some fault =>
          rw [isFault] at making
          refine failed_with (orConflict_failed making) ((made_eq _).trans ?_)
          constructor
          · rintro isNothing ⟨-, -, -, other, isOther, isMade⟩
            cases isFault.symm.trans isOther
            exact isMade isNothing
          · intro nothing
            by_contra isMade
            exact nothing ⟨works, isNode, Bool.not_eq_true _ ▸ blocked, fault, isFault, isMade⟩
        | none =>
          rw [isFault] at making
          rw [makeDirectories_missing (Bool.not_eq_true _ ▸ blocked)] at making
          refine succeeded (orConflict_last making) ?_
          rintro ⟨-, -, -, fault, isSome, -⟩
          cases isFault.symm.trans isSome
  · refine failed_early (orConflict_error isError) ?_
    rintro ⟨works, -⟩
    exact fails works

theorem guardedCreate_ends :
    EndsAt world ((world.tree.makeDirectories (way location.dropLast)).put location
        (.file (utf8 content))) (CreateLeaves location world)
      (guardedCreate host location content world) := by
  unfold guardedCreate
  obtain ⟨works, isFound⟩ | ⟨fails, error, isError⟩ := tryExists_cases location world
  · rw [orConflict_ok isFound]
    cases isNode : world.tree.node location with
    | some node =>
      refine failed_early ⟨_, rfl⟩ ?_
      rintro ⟨-, isNone, -⟩
      cases isNode.symm.trans isNone
    | none =>
      have isNot := ne_nil_of_node isNode
      rw [Option.isSome_none, if_neg Bool.false_ne_true]
      have making := createDirAll_run location.dropLast (world.skip 1)
      simp only [fault_skip, tree_skip, skip_skip] at making
      split_ifs at making with blocked
      · refine failed_early (orConflict_error making) ?_
        rintro ⟨-, -, unblocked, -⟩
        rw [blocked] at unblocked
        cases unblocked
      · have unblocked : world.tree.isBlocked location.dropLast = false :=
          Bool.not_eq_true _ ▸ blocked
        rw [← makeDirectories_missing unblocked]
        cases isFault : world.fault (1 + 0) with
        | some fault =>
          rw [isFault] at making
          refine failed_with (orConflict_error making) ((made_eq _).trans ?_)
          constructor
          · rintro isNothing ⟨-, -, -, ⟨other, isOther, isMade⟩ | ⟨isNone, -⟩⟩
            · cases isFault.symm.trans isOther
              exact isMade isNothing
            · cases isFault.symm.trans isNone
          · intro nothing
            by_contra isMade
            exact nothing ⟨works, isNode, unblocked, .inl ⟨fault, isFault, isMade⟩⟩
        | none =>
          rw [isFault] at making
          rw [orConflict_ok making]
          have writing := write_run location (utf8 content) (((world.skip (1 + 1)).withTree
            (world.tree.makeDirectories (world.tree.missing location.dropLast))))
          simp only [fault_skip, tree_withTree, skip_skip, fault_withTree, skip_withTree,
            withTree_withTree, node_made_below isNot, isNode, node_made unblocked, reduceCtorEq,
            if_false, ne_eq, not_true_eq_false, and_false] at writing
          cases isWrite : world.fault (1 + 1 + 0) with
          | some fault =>
            rw [isWrite] at writing
            refine failed_with (orConflict_failed writing) ?_
            cases isWritten : fault.written with
            | none =>
              refine (makeDirectories_eq missing_absent).trans ?_
              constructor
              · rintro isNothing ⟨-, -, -, ⟨other, isOther, -⟩ | ⟨-, other, isOther, isMade | isBegun⟩⟩
                · cases isFault.symm.trans isOther
                · exact isMade isNothing
                · cases isWrite.symm.trans isOther
                  rw [isWritten] at isBegun
                  cases isBegun
              · intro nothing
                by_contra isMade
                exact nothing ⟨works, isNode, unblocked, .inr ⟨isFault, fault, isWrite, .inl isMade⟩⟩
            | some bytes =>
              refine iff_of_false (fun same => ?_) fun nothing => nothing ⟨works, isNode, unblocked,
                .inr ⟨isFault, fault, isWrite, .inr (by rw [isWritten]; rfl)⟩⟩
              have isBegun := congrFun same location
              rw [node_of_ne isNot] at isNode
              rw [isNode] at isBegun
              simp [Tree.put] at isBegun
          | none =>
            rw [isWrite] at writing
            refine succeeded (orConflict_last writing) ?_
            rintro ⟨-, -, -, ⟨fault, isSome, -⟩ | ⟨-, fault, isSome, -⟩⟩
            · cases isFault.symm.trans isSome
            · cases isWrite.symm.trans isSome
  · refine failed_early (orConflict_error isError) ?_
    rintro ⟨works, -⟩
    exact fails works

theorem isDirectory_cases (location : Location) (world : World) :
    (∃ node, world.fault 0 = none ∧ world.tree.node location = some node ∧
      isDirectory location world = (.ok (decide (node = Node.directory)), world.skip 1)) ∨
    (∃ error, isDirectory location world = (.error error, world.skip 1)) ∧
      (world.fault 0 = none → world.tree.node location = none) := by
  rw [isDirectory_run]
  cases world.fault 0 with
  | some fault => exact .inr ⟨⟨_, rfl⟩, nofun⟩
  | none =>
    cases world.tree.node location with
    | none => exact .inr ⟨⟨_, rfl⟩, fun _ => rfl⟩
    | some node => exact .inl ⟨node, rfl, rfl, rfl⟩

theorem emptied_eq {removed : Location → Bool} :
    tree.emptied location removed = tree ↔
      ∀ other, location <+: other → removed other = true → tree other = none := by
  constructor
  · intro same other isBelow isRemoved
    rw [← congrFun same other]
    exact if_pos ⟨isBelow, isRemoved⟩
  · intro nothing
    funext other
    unfold Tree.emptied
    split_ifs with isGone
    · exact (nothing other isGone.1 isGone.2).symm
    · rfl

theorem guardedDeleteDir_ends :
    EndsAt world (world.tree.removeBelow location)
      (DeleteDirLeaves host location expectedChecksum world)
      (guardedDeleteDir host location expectedChecksum world) := by
  unfold guardedDeleteDir
  obtain ⟨node, works, isNode, isFound⟩ | ⟨⟨error, isError⟩, noNode⟩ :=
    isDirectory_cases location world
  · rw [orConflict_ok isFound]
    by_cases isDir : node = Node.directory
    · cases isDir
      rw [decide_eq_true rfl, if_neg (by decide)]
      have summing := computeDirectoryChecksum_run location (world.skip 1) host
      simp only [fault_skip, tree_skip, skip_skip] at summing
      cases isFault : world.fault (1 + 0) with
      | some fault =>
        rw [isFault] at summing
        refine failed_early (orConflict_error summing) ?_
        rintro ⟨-, -, isNone, -⟩
        cases isFault.symm.trans isNone
      | none =>
        rw [isFault] at summing
        rw [orConflict_ok summing]
        split_ifs with differs
        · refine failed_early ⟨_, rfl⟩ ?_
          rintro ⟨-, -, -, isSame, -⟩
          exact differs isSame
        · have removing := removeDirAll_run location (world.skip (1 + 1))
          simp only [fault_skip, tree_skip, skip_skip, isNode, ne_eq, not_true_eq_false,
            if_false] at removing
          cases isLast : world.fault (1 + 1 + 0) with
          | some fault =>
            rw [isLast] at removing
            refine failed_with (orConflict_failed removing) (emptied_eq.trans ?_)
            constructor
            · rintro isNothing ⟨-, -, -, -, last, other, isSome, isBelow, isRemoved, isThere⟩
              cases isLast.symm.trans isSome
              exact isThere (isNothing other isBelow isRemoved)
            · intro nothing other isBelow isRemoved
              by_contra isThere
              exact nothing ⟨works, isNode, isFault, not_not.mp differs, fault, other, isLast,
                isBelow, isRemoved, isThere⟩
          | none =>
            rw [isLast] at removing
            refine succeeded (orConflict_last removing) ?_
            rintro ⟨-, -, -, -, last, _, isSome, -⟩
            cases isLast.symm.trans isSome
    · rw [decide_eq_false isDir]
      refine failed_early ⟨_, rfl⟩ ?_
      rintro ⟨-, isDirectory, -⟩
      cases isNode.symm.trans isDirectory
      exact isDir rfl
  · refine failed_early (orConflict_error isError) ?_
    rintro ⟨works, isDirectory, -⟩
    cases (noNode works).symm.trans isDirectory

/-- Making directories takes nothing away. -/
theorem node_made_of_ne_none {locations : List Location} (isThere : tree.node location ≠ none) :
    (tree.makeDirectories locations).node location ≠ none := by
  unfold Tree.node Tree.makeDirectories at *
  split_ifs at *
  · exact nofun
  · exact nofun
  · exact isThere

theorem guardedRename_ends :
    EndsAt world ((world.tree.makeDirectories (way target.dropLast)).move source target)
      (RenameLeaves source target world) (guardedRename host source target world) := by
  unfold guardedRename
  obtain ⟨works, isFound⟩ | ⟨fails, error, isError⟩ := tryExists_cases source world
  · rw [orConflict_ok isFound]
    by_cases isSource : world.tree.node source = none
    · rw [isSource]
      refine failed_early ⟨_, rfl⟩ ?_
      rintro ⟨-, isSome, -⟩
      exact isSome isSource
    · rw [Option.isSome_iff_ne_none.mpr isSource, if_neg (by decide)]
      obtain ⟨worksToo, isFound⟩ | ⟨fails, error, isError⟩ := tryExists_cases target (world.skip 1)
      · simp only [fault_skip, tree_skip, skip_skip] at worksToo isFound
        rw [orConflict_ok isFound]
        cases isTarget : world.tree.node target with
        | some node =>
          refine failed_early ⟨_, rfl⟩ ?_
          rintro ⟨-, -, -, isNone, -⟩
          cases isTarget.symm.trans isNone
        | none =>
          rw [Option.isSome_none, if_neg Bool.false_ne_true]
          have making := createDirAll_run target.dropLast (world.skip (1 + 1))
          simp only [fault_skip, tree_skip, skip_skip] at making
          split_ifs at making with blocked
          · refine failed_early (orConflict_error making) ?_
            rintro ⟨-, -, -, -, unblocked, -⟩
            rw [blocked] at unblocked
            cases unblocked
          · have unblocked : world.tree.isBlocked target.dropLast = false :=
              Bool.not_eq_true _ ▸ blocked
            rw [← makeDirectories_missing unblocked]
            cases isFault : world.fault (1 + 1 + 0) with
            | some fault =>
              rw [isFault] at making
              refine failed_with (orConflict_error making) ((made_eq _).trans ?_)
              constructor
              · rintro isNothing ⟨-, -, -, -, -, ⟨other, isOther, isMade⟩ | ⟨isNone, -⟩⟩
                · cases isFault.symm.trans isOther
                  exact isMade isNothing
                · cases isFault.symm.trans isNone
              · intro nothing
                by_contra isMade
                exact nothing ⟨works, isSource, worksToo, isTarget, unblocked,
                  .inl ⟨fault, isFault, isMade⟩⟩
            | none =>
              rw [isFault] at making
              rw [orConflict_ok making]
              have moving := rename_run source target (((world.skip (1 + 1 + 1)).withTree
                (world.tree.makeDirectories (world.tree.missing target.dropLast))))
              simp only [fault_skip, tree_withTree, skip_skip, fault_withTree, skip_withTree,
                withTree_withTree, node_made unblocked, node_made_of_ne_none isSource, ne_eq,
                not_true_eq_false, or_self, if_false] at moving
              have left : world.fault (1 + 1 + 1 + 0) ≠ none ∨ source <+: target →
                  (world.tree.makeDirectories (world.tree.missing target.dropLast) = world.tree ↔
                    ¬ RenameLeaves source target world) := by
                intro isLast
                refine (makeDirectories_eq missing_absent).trans ?_
                constructor
                · rintro isNothing ⟨-, -, -, -, -, ⟨other, isOther, -⟩ | ⟨-, isMade, -⟩⟩
                  · cases isFault.symm.trans isOther
                  · exact isMade isNothing
                · intro nothing
                  by_contra isMade
                  exact nothing ⟨works, isSource, worksToo, isTarget, unblocked,
                    .inr ⟨isFault, isMade, isLast⟩⟩
              cases isLast : world.fault (1 + 1 + 1 + 0) with
              | some fault =>
                rw [isLast] at moving
                exact failed_with (orConflict_failed moving) (left (.inl (by rw [isLast]; exact nofun)))
              | none =>
                rw [isLast] at moving
                dsimp only at moving
                split_ifs at moving with isBelow
                · exact failed_with (orConflict_failed moving) (left (.inr isBelow))
                · refine succeeded (orConflict_last moving) ?_
                  rintro ⟨-, -, -, -, -, ⟨other, isOther, -⟩ | ⟨-, -, isSome | isPrefix⟩⟩
                  · cases isFault.symm.trans isOther
                  · exact isSome isLast
                  · exact isBelow isPrefix
      · simp only [fault_skip, skip_skip] at fails isError
        refine failed_early (orConflict_error isError) ?_
        rintro ⟨-, -, works, -⟩
        exact fails works
  · refine failed_early (orConflict_error isError) ?_
    rintro ⟨works, -⟩
    exact fails works

end Guarded

/-! ## Operations -/

def locationOf (path : Str) : Location := (resolveVaultPath path).toOption.getD []

/-- The path can be resolved by the next call. -/
def Resolves (path : Str) (world : World) : Prop :=
  world.fault 0 = none ∧ ∃ location, resolveVaultPath path = .ok location ∧
    world.tree.symlinkTo location = none

/-- What an operation is to do to the vault. -/
def effect (tree : Tree) : MutationOp → Tree
  | .createFile path content => (tree.makeDirectories (way (locationOf path).dropLast)).put
      (locationOf path) (.file (utf8 content))
  | .createDirectory path => tree.makeDirectories (way (locationOf path))
  | .replaceFile path content _ => tree.put (locationOf path) (.file (utf8 content))
  | .deleteFile path _ => tree.remove (locationOf path)
  | .deleteDirectory path _ => tree.removeBelow (locationOf path)
  | .renameFile source target => (tree.makeDirectories (way (locationOf target).dropLast)).move
      (locationOf source) (locationOf target)

/-- Before a rename is recorded, its source is resolved. -/
def Prepares (op : MutationOp) (world : World) : Prop :=
  match op with
  | .renameFile source _ => Resolves source world
  | _ => True

/-- The calls before an operation is recorded. -/
def preparing : MutationOp → Nat
  | .renameFile _ _ => 2
  | _ => 0

/-- The paths of a recorded operation can be resolved by the next calls. -/
def PathsResolve (op : MutationOp) (world : World) : Prop :=
  match op with
  | .createFile path _ => Resolves path world
  | .createDirectory path => Resolves path world
  | .replaceFile path _ _ => Resolves path world
  | .deleteFile path _ => Resolves path world
  | .deleteDirectory path _ => Resolves path world
  | .renameFile source target => Resolves source world ∧ Resolves target (world.skip 1)

/-- The guarded operation fails at one of the next calls, and leaves something. -/
def Leaves (host : Host) (op : MutationOp) (world : World) : Prop :=
  match op with
  | .createFile path _ => CreateLeaves (locationOf path) (world.skip 1)
  | .createDirectory path => CreateDirLeaves (locationOf path) (world.skip 1)
  | .replaceFile path content expectedChecksum =>
    WriteLeaves host (locationOf path) content expectedChecksum (world.skip 1)
  | .deleteFile _ _ => False
  | .deleteDirectory path expectedChecksum =>
    DeleteDirLeaves host (locationOf path) expectedChecksum (world.skip 1)
  | .renameFile source target =>
    RenameLeaves (locationOf source) (locationOf target) (world.skip 2)

section Operations

variable {host : Host} {path : Str} {world world' : World} {op : MutationOp}

theorem resolve_cases (host : Host) (path : Str) (world : World) :
    Resolves path world ∧
      resolveVaultPathStrict host path world = (.ok (locationOf path), world.skip 1) ∨
    ¬ Resolves path world ∧
      ∃ error, resolveVaultPathStrict host path world = (.error error, world.skip 1) := by
  unfold Resolves locationOf
  cases isLocation : resolveVaultPath path with
  | error error =>
    refine .inr ⟨?_, error, ?_⟩
    · rintro ⟨-, _, ⟨⟩, -⟩
    · change (lift (resolveVaultPath path) >>= _) (world.skip 1) = _
      rw [isLocation]
      rfl
  | ok location =>
    change _ ∧ (lift (resolveVaultPath path) >>= _) (world.skip 1) = _ ∨
      _ ∧ ∃ _, (lift (resolveVaultPath path) >>= _) (world.skip 1) = _
    rw [isLocation, lift_bind_ok, get_bind, tree_skip]
    cases world.fault 0 with
    | some fault => exact .inr ⟨by simp, _, rfl⟩
    | none =>
      cases isLink : world.tree.symlinkTo location with
      | none => exact .inl ⟨⟨rfl, location, rfl, isLink⟩, rfl⟩
      | some link =>
        refine .inr ⟨?_, _, rfl⟩
        rintro ⟨-, _, ⟨⟩, isNone⟩
        cases isLink.symm.trans isNone

theorem orState_ok {α β : Type} {x : Act Str α} {value : α} {next : α → Act AiError β}
    (ran : x world = (.ok value, world')) : (orState x >>= next) world = next value world' :=
  bind_of_ok (mapError_of_ok ran)

theorem orState_error {α β : Type} {x : Act Str α} {error : Str} {next : α → Act AiError β}
    (ran : x world = (.error error, world')) :
    ∃ error, (orState x >>= next) world = (.error error, world') :=
  ⟨_, bind_of_error (mapError_of_error ran)⟩

/-- What comes of an operation that is recorded. -/
def TriedAt (op : MutationOp) (host : Host) (world : World)
    (ended : Except AiError (Except ConflictItem Unit) × World) : Prop :=
  (¬ PathsResolve op world ∧ ∃ error world', ended = (.error error, world') ∧
    world'.tree = world.tree ∧ world'.ledger = world.ledger) ∨
  PathsResolve op world ∧ (
    (∃ world', ended = (.ok (.ok ()), world') ∧ world'.tree = effect world.tree op ∧
      world'.ledger = world.ledger ∧ ¬ Leaves host op world) ∨
    ∃ item world', ended = (.ok (.error item), world') ∧ world'.ledger = world.ledger ∧
      (world'.tree = world.tree ↔ ¬ Leaves host op world))

theorem triedAt_of_unresolved {calls : Nat}
    {ended : Except AiError (Except ConflictItem Unit) × World}
    (failed : ∃ error, ended = (.error error, world.skip calls))
    (unresolved : ¬ PathsResolve op world) : TriedAt op host world ended := by
  obtain ⟨error, rfl⟩ := failed
  exact .inl ⟨unresolved, error, _, rfl, rfl, rfl⟩

theorem triedAt_of_ends {calls : Nat} {x : Act ConflictItem Unit}
    (ends : EndsAt (world.skip calls) (effect world.tree op) (Leaves host op world)
      (x (world.skip calls)))
    (resolved : PathsResolve op world) :
    TriedAt op host world ((attempt x : Act AiError _) (world.skip calls)) := by
  refine .inr ⟨resolved, ?_⟩
  unfold attempt
  obtain ⟨after, isEnd, isEffect, sameLedger, nothing⟩ | ⟨item, after, isEnd, sameLedger, left⟩ :=
    ends
  · exact .inl ⟨after, by rw [isEnd], isEffect, sameLedger, nothing⟩
  · exact .inr ⟨item, after, by rw [isEnd], sameLedger, left⟩

theorem triedAt_of_path {x : Location → Act ConflictItem Unit}
    (isPath : PathsResolve op world ↔ Resolves path world)
    (ends : EndsAt (world.skip 1) (effect world.tree op) (Leaves host op world)
      (x (locationOf path) (world.skip 1))) :
    TriedAt op host world ((do
      let location ← orState (resolveVaultPathStrict host path)
      attempt (x location) : Act AiError _) world) := by
  obtain ⟨resolves, ran⟩ | ⟨unresolved, error, isError⟩ := resolve_cases host path world
  · rw [orState_ok ran]
    exact triedAt_of_ends ends (isPath.mpr resolves)
  · exact triedAt_of_unresolved (orState_error isError) (mt isPath.mp unresolved)

theorem tryOperation_cases (host : Host) (op : MutationOp) (world : World) :
    TriedAt op host world (tryOperation host op world) := by
  cases op with
  | createFile path content => exact triedAt_of_path Iff.rfl guardedCreate_ends
  | createDirectory path => exact triedAt_of_path Iff.rfl guardedCreateDir_ends
  | replaceFile path content expectedChecksum => exact triedAt_of_path Iff.rfl guardedWrite_ends
  | deleteFile path expectedChecksum => exact triedAt_of_path Iff.rfl guardedDelete_ends
  | deleteDirectory path expectedChecksum =>
    exact triedAt_of_path Iff.rfl guardedDeleteDir_ends
  | renameFile source target =>
    change TriedAt _ host world ((do
      let sourceLocation ← orState (resolveVaultPathStrict host source)
      let targetLocation ← orState (resolveVaultPathStrict host target)
      attempt (guardedRename host sourceLocation targetLocation) : Act AiError _) world)
    obtain ⟨resolves, ran⟩ | ⟨unresolved, error, isError⟩ := resolve_cases host source world
    · rw [orState_ok ran]
      obtain ⟨resolvesTarget, ran⟩ | ⟨unresolved, error, isError⟩ :=
        resolve_cases host target (world.skip 1)
      · rw [orState_ok ran, skip_skip]
        exact triedAt_of_ends guardedRename_ends ⟨resolves, resolvesTarget⟩
      · rw [skip_skip] at isError
        exact triedAt_of_unresolved (orState_error isError) fun both => unresolved both.2
    · exact triedAt_of_unresolved (orState_error isError) fun both => unresolved both.1

theorem mutationForAppliedOp_cases (host : Host) (op : MutationOp) (world : World) :
    (Prepares op world ∧ ∃ mutation,
      mutationForAppliedOp host op world = (.ok mutation, world.skip (preparing op))) ∨
    ¬ Prepares op world ∧ ∃ error,
      mutationForAppliedOp host op world = (.error error, world.skip 1) := by
  cases op with
  | createFile path content => exact .inl ⟨trivial, _, rfl⟩
  | createDirectory path => exact .inl ⟨trivial, _, rfl⟩
  | replaceFile path content expectedChecksum => exact .inl ⟨trivial, _, rfl⟩
  | deleteFile path expectedChecksum => exact .inl ⟨trivial, _, rfl⟩
  | deleteDirectory path expectedChecksum => exact .inl ⟨trivial, _, rfl⟩
  | renameFile source target =>
    change _ ∨ ¬ Resolves source world ∧ ∃ error, (resolveVaultPathStrict host source >>= _) world = _
    obtain ⟨resolves, ran⟩ | ⟨unresolved, error, isError⟩ := resolve_cases host source world
    · refine .inl ⟨resolves, ?_⟩
      change ∃ mutation, (resolveVaultPathStrict host source >>= _) world = _
      rw [bind_of_ok ran, attempt_bind]
      have looked : (isDirectory (locationOf source) (world.skip 1)).2 = world.skip 2 := by
        obtain ⟨_, -, -, isEnd⟩ | ⟨⟨_, isEnd⟩, -⟩ := isDirectory_cases (locationOf source) (world.skip 1)
        · rw [isEnd]
          exact skip_skip
        · rw [isEnd]
          exact skip_skip
      rw [looked]
      exact ⟨_, rfl⟩
    · exact .inr ⟨unresolved, error, bind_of_error isError⟩

/-- Once an operation is recorded its paths resolve, and if it fails it leaves nothing. -/
def Sound (host : Host) (op : MutationOp) (world : World) : Prop :=
  PathsResolve op (world.skip (preparing op)) ∧ ¬ Leaves host op (world.skip (preparing op))

/-- What one turn of the loop comes to. -/
inductive Turns (host : Host) (op : MutationOp) (world : World) :
    Except AiError (Except ConflictItem (Option Str)) × World → Prop where
  | unprepared (error : AiError) (world' : World) (isNot : ¬ Prepares op world)
      (sameTree : world'.tree = world.tree) (sameLedger : world'.ledger = world.ledger) :
      Turns host op world (.error error, world')
  | unresolved (error : AiError) (world' : World) (isPrepared : Prepares op world)
      (isNot : ¬ PathsResolve op (world.skip (preparing op)))
      (leftEntry : world'.ledger.entries.length = world.ledger.entries.length + 1) :
      Turns host op world (.error error, world')
  | failed (item : ConflictItem) (world' : World) (isPrepared : Prepares op world)
      (resolves : PathsResolve op (world.skip (preparing op)))
      (sameEntries : world'.ledger.entries = world.ledger.entries)
      (left : world'.tree = world.tree ↔ ¬ Leaves host op (world.skip (preparing op))) :
      Turns host op world (.ok (.error item), world')
  | applied (warning : Option Str) (world' : World) (isPrepared : Prepares op world)
      (sound : Sound host op world) (isEffect : world'.tree = effect world.tree op)
      (grown : world'.ledger.entries.length = world.ledger.entries.length + 1) :
      Turns host op world (.ok (.ok warning), world')

theorem applyOperation_turns (host : Host) (op : MutationOp) (world : World) :
    Turns host op world (applyOperation host op world) := by
  unfold applyOperation
  obtain ⟨isPrepared, mutation, ran⟩ | ⟨isNot, error, isError⟩ :=
    mutationForAppliedOp_cases host op world
  · rw [orState_ok ran, modify_bind, get_bind]
    have grown : (world.ledger.record mutation).entries.length =
        world.ledger.entries.length + 1 := by
      simp [ExpectedMutationLedger.record]
    obtain ⟨isNot, error, after, isEnd, -, sameLedger⟩ | ⟨resolves, ⟨after, isEnd, isEffect,
      sameLedger, nothing⟩ | ⟨item, after, isEnd, sameLedger, left⟩⟩ :=
        tryOperation_cases host op { world.skip (preparing op) with
          ledger := (world.skip (preparing op)).ledger.record mutation }
    · rw [bind_of_error isEnd]
      refine .unresolved error after isPrepared isNot ?_
      rw [sameLedger]
      exact grown
    · rw [bind_of_ok isEnd]
      refine .applied _ after isPrepared ⟨resolves, nothing⟩ isEffect ?_
      rw [sameLedger]
      exact grown
    · rw [bind_of_ok isEnd]
      refine .failed item _ isPrepared resolves ?_ left
      change (after.ledger.cancel _).entries = _
      rw [sameLedger]
      exact ExpectedMutationLedger.entries_cancel_record _ mutation
  · obtain ⟨error, isEnd⟩ := @orState_error world (world.skip 1) _ _ _ error _ isError
    rw [isEnd]
    exact .unprepared error _ isNot rfl rfl

end Operations

/-! ## Plans -/

/-- The operations are carried out, one after another. -/
inductive Carried (host : Host) : World → List MutationOp → World → Prop where
  | none (world : World) : Carried host world [] world
  | more {world next last : World} {op : MutationOp} {ops : List MutationOp}
      {warning : Option Str}
      (first : applyOperation host op world = (.ok (.ok warning), next))
      (rest : Carried host next ops last) : Carried host world (op :: ops) last

/-- The vault is as it was, and no entry of the plan is left. -/
structure Untouched (before after : World) : Prop where
  sameTree : after.tree = before.tree
  sameEntries : after.ledger.entries = before.ledger.entries

/-- The operations before the failed one are those that took effect. -/
structure PartlyDone (plan : MutationPlan) (before after : World)
    (applied failed skipped : List Str) (done rest : List MutationOp) (op : MutationOp) :
    Prop where
  isSplit : plan.operations = done ++ op :: rest
  isApplied : applied = done.map opSummary
  isFailed : ∃ reason, failed = [opSummary op ++ ": ".toList ++ reason]
  isSkipped : skipped = rest.map opSummary
  isEffect : after.tree = done.foldl effect before.tree
  entries : after.ledger.entries.length = before.ledger.entries.length + done.length

/-- The answer says what has happened. -/
def Reports (plan : MutationPlan) (before : World) :
    Except AiError MutationApplyResult × World → Prop
  | (.error _, after) => Untouched before after
  | (.ok (.conflict _ _), after) => Untouched before after
  | (.ok (.applied _ _), after) => after.tree = plan.operations.foldl effect before.tree
  | (.ok (.partiallyApplied _ applied failed skipped _), after) =>
    ∃ done rest op, PartlyDone plan before after applied failed skipped done rest op

/-- Every operation that is reached fails without a trace, if it fails: before it is recorded
only when it is the first, and never at a path once it is recorded. -/
def FailsCleanly (host : Host) (plan : MutationPlan) (world : World) : Prop :=
  ∀ checked done op rest reached, checkPlan host plan world = (.ok [], checked) →
    plan.operations = done ++ op :: rest → Carried host checked done reached →
    (Prepares op reached → Sound host op reached) ∧ (¬ Prepares op reached → done = [])

section Plans

variable {host : Host} {plan : MutationPlan} {world last : World} {ops done rest : List MutationOp}
  {op : MutationOp}

theorem Carried.outcome (carried : Carried host world ops last) :
    last.tree = ops.foldl effect world.tree ∧
      last.ledger.entries.length = world.ledger.entries.length + ops.length := by
  induction carried with
  | none world => exact ⟨rfl, rfl⟩
  | @more world next last op ops warning first rest ih =>
    have turns := applyOperation_turns host op world
    rw [first] at turns
    cases turns with
    | applied _ _ _ _ isEffect grown =>
      refine ⟨?_, ?_⟩
      · rw [ih.1, isEffect]
        rfl
      · rw [ih.2, grown, length_cons]
        omega

theorem Carried.run (carried : Carried host world done last) (applied warnings : List Str) :
    ∃ more, applyOperations host plan (done ++ rest) applied warnings world =
      applyOperations host plan rest (applied ++ done.map opSummary) more last := by
  induction carried generalizing applied warnings with
  | none world => exact ⟨warnings, by rw [nil_append, map_nil, append_nil]⟩
  | @more world next last op ops warning first rest' ih =>
    obtain ⟨more, isRest⟩ := ih (applied ++ [opSummary op]) (warnings ++ warning.toList)
    refine ⟨more, ?_⟩
    rw [append_assoc] at isRest
    refine Eq.trans ?_ isRest
    exact bind_of_ok first

/-- The operations are all carried out, or one of them stops the plan. -/
theorem carried_or_stops (ops : List MutationOp) (world : World) :
    (∃ last, Carried host world ops last) ∨
      ∃ done op rest reached, ops = done ++ op :: rest ∧ Carried host world done reached ∧
        ∀ warning next, applyOperation host op reached ≠ (.ok (.ok warning), next) := by
  induction ops generalizing world with
  | nil => exact .inl ⟨world, .none world⟩
  | cons op ops ih =>
    match ran : applyOperation host op world with
    | (.ok (.ok warning), next) =>
      obtain ⟨last, carried⟩ | ⟨done, stop, rest, reached, rfl, carried, stops⟩ := ih next
      · exact .inl ⟨last, .more ran carried⟩
      · exact .inr ⟨op :: done, stop, rest, reached, rfl, .more ran carried, stops⟩
    | (.ok (.error item), next) =>
      refine .inr ⟨[], op, ops, world, rfl, .none world, fun warning other isOther => ?_⟩
      cases ran.symm.trans isOther
    | (.error error, next) =>
      refine .inr ⟨[], op, ops, world, rfl, .none world, fun warning other isOther => ?_⟩
      cases ran.symm.trans isOther

end Plans

/-! ## The check before changes nothing -/

def Looks {ε α : Type} (x : Act ε α) : Prop :=
  x.Keeps fun world world' => world'.tree = world.tree ∧ world'.ledger = world.ledger

section Looks

variable {host : Host} {ε α β : Type} {x : Act ε α} {next : α → Act ε β}

theorem Looks.bind (first : Looks x) (rest : ∀ value, Looks (next value)) : Looks (x >>= next) :=
  Effect.Keeps.bind (fun _ _ _ one two => ⟨two.1.trans one.1, two.2.trans one.2⟩) first rest

theorem Looks.pure (value : α) : Looks (pure value : Act ε α) := fun _ => ⟨rfl, rfl⟩

theorem Looks.mapError {ε' : Type} {f : ε → ε'} (first : Looks x) :
    Looks (Effect.mapError f x) := by
  intro world
  have looked := first world
  unfold Effect.mapError
  match ran : x world with
  | (.ok _, _) =>
    rw [ran] at looked
    exact looked
  | (.error _, _) =>
    rw [ran] at looked
    exact looked

theorem Looks.attempt {ε' : Type} (first : Looks x) : Looks (attempt x : Act ε' _) :=
  fun world => first world

theorem Looks.tryExists (location : Location) : Looks (tryExists location) := by
  intro world
  obtain ⟨-, isEnd⟩ | ⟨-, _, isEnd⟩ := tryExists_cases location world
  · rw [isEnd]
    exact ⟨rfl, rfl⟩
  · rw [isEnd]
    exact ⟨rfl, rfl⟩

theorem Looks.readToString (location : Location) : Looks (readToString location) := by
  intro world
  obtain ⟨_, isEnd, -⟩ | ⟨⟨_, isEnd⟩, -⟩ := readToString_cases location world
  · rw [isEnd]
    exact ⟨rfl, rfl⟩
  · rw [isEnd]
    exact ⟨rfl, rfl⟩

theorem Looks.isDirectory (location : Location) : Looks (isDirectory location) := by
  intro world
  obtain ⟨_, -, -, isEnd⟩ | ⟨⟨_, isEnd⟩, -⟩ := isDirectory_cases location world
  · rw [isEnd]
    exact ⟨rfl, rfl⟩
  · rw [isEnd]
    exact ⟨rfl, rfl⟩

theorem Looks.computeDirectoryChecksum (location : Location) :
    Looks (computeDirectoryChecksum host location) := by
  intro world
  rw [computeDirectoryChecksum_run]
  cases world.fault 0 <;> exact ⟨rfl, rfl⟩

theorem Looks.resolve (path : Str) : Looks (resolveVaultPathStrict host path) := by
  intro world
  obtain ⟨-, isEnd⟩ | ⟨-, _, isEnd⟩ := resolve_cases host path world
  · rw [isEnd]
    exact ⟨rfl, rfl⟩
  · rw [isEnd]
    exact ⟨rfl, rfl⟩

theorem Looks.checkFile (path expectedChecksum : Str) :
    Looks (checkFile host path expectedChecksum) :=
  (Looks.resolve path).mapError.bind fun location =>
    (Looks.readToString location).attempt.bind fun _ => .pure _

theorem Looks.checkOperation (op : MutationOp) : Looks (checkOperation host op) := by
  cases op with
  | createFile path content =>
    exact (Looks.resolve path).mapError.bind fun location =>
      (Looks.tryExists location).mapError.bind fun _ => .pure _
  | createDirectory path =>
    exact (Looks.resolve path).mapError.bind fun location =>
      (Looks.tryExists location).mapError.bind fun _ => .pure _
  | replaceFile path content expectedChecksum => exact .checkFile path expectedChecksum
  | deleteFile path expectedChecksum => exact .checkFile path expectedChecksum
  | deleteDirectory path expectedChecksum =>
    refine (Looks.resolve path).mapError.bind fun location =>
      (Looks.isDirectory location).attempt.bind fun found => ?_
    cases found with
    | error error => exact .pure _
    | ok isDir =>
      cases isDir with
      | false => exact .pure _
      | true => exact (Looks.computeDirectoryChecksum location).attempt.bind fun _ => .pure _
  | renameFile source target =>
    exact (Looks.resolve source).mapError.bind fun sourceLocation =>
      (Looks.resolve target).mapError.bind fun targetLocation =>
        (Looks.tryExists sourceLocation).mapError.bind fun _ =>
          (Looks.tryExists targetLocation).mapError.bind fun _ => .pure _

theorem Looks.checkPlan (plan : MutationPlan) : Looks (checkPlan host plan) := by
  have guards : ∀ ops, Looks (guardOperations host ops) := by
    intro ops
    induction ops with
    | nil => exact .pure _
    | cons op ops ih =>
      exact Looks.bind (fun _ => ⟨rfl, rfl⟩) fun world =>
        Looks.bind (Looks.mapError fun _ => ⟨rfl, rfl⟩) fun _ => ih
  have checks : ∀ ops, Looks (checkOperations host ops) := by
    intro ops
    induction ops with
    | nil => exact .pure _
    | cons op ops ih =>
      exact (Looks.checkOperation op).bind fun _ => ih.bind fun _ => .pure _
  unfold Mutation.checkPlan
  cases host.root with
  | none => exact fun _ => ⟨rfl, rfl⟩
  | some root => exact (guards _).bind fun _ => checks _

end Looks

/-! ## The report of a plan -/

section Report

variable {host : Host} {plan : MutationPlan} {world checked reached last : World}
  {done rest : List MutationOp} {op : MutationOp}

theorem Carried.middle {ops more : List MutationOp} (carried : Carried host world (ops ++ more) last)
    (before : Carried host world ops reached) : Carried host reached more last := by
  induction before with
  | none world => exact carried
  | more first _ ih =>
    cases carried with
    | more first' rest' =>
      cases first.symm.trans first'
      exact ih rest'

/-- An operation that has been carried out was sound. -/
theorem Carried.sound (carried : Carried host reached (op :: rest) last) :
    Prepares op reached ∧ Sound host op reached := by
  cases carried with
  | more first _ =>
    have turns := applyOperation_turns host op reached
    rw [first] at turns
    cases turns with
    | applied _ _ isPrepared sound _ _ => exact ⟨isPrepared, sound⟩

/-- The operation that stops a plan is the only one that may be unsound. -/
theorem failsCleanly_iff (isChecked : checkPlan host plan world = (.ok [], checked))
    (isSplit : plan.operations = done ++ op :: rest) (carried : Carried host checked done reached)
    (stops : ∀ warning next, applyOperation host op reached ≠ (.ok (.ok warning), next)) :
    FailsCleanly host plan world ↔
      (Prepares op reached → Sound host op reached) ∧ (¬ Prepares op reached → done = []) := by
  constructor
  · exact fun clean => clean checked done op rest reached isChecked isSplit carried
  · rintro atStop checked' done' op' rest' reached' isChecked' isSplit' carried'
    cases isChecked.symm.trans isChecked'
    obtain ⟨more, rfl, isRest⟩ | ⟨more, rfl, isRest⟩ :=
      append_eq_append_iff.mp (isSplit.symm.trans isSplit')
    · have after := carried'.middle carried
      cases more with
      | nil =>
        cases isRest
        cases after
        rw [append_nil]
        exact atStop
      | cons next more =>
        -- the operation that stops the plan would have been carried out
        cases isRest
        cases after with
        | more first _ => exact absurd first (stops _ _)
    · have after := carried.middle carried'
      cases more with
      | nil =>
        cases isRest
        cases after
        rw [append_nil] at atStop
        exact atStop
      | cons next more =>
        cases isRest
        have sound := after.sound
        exact ⟨fun _ => sound.2, fun isNot => absurd sound.1 isNot⟩

/-- What the vault shows when the check has passed and the operations before have been done. -/
theorem reached_iff (isChecked : checkPlan host plan world = (.ok [], checked))
    (carried : Carried host checked done reached) :
    reached.tree = done.foldl effect world.tree ∧
      reached.ledger.entries.length = world.ledger.entries.length + done.length := by
  have looks : Looks (checkPlan host plan) := .checkPlan plan
  have looked := looks world
  rw [isChecked] at looked
  rw [← looked.1, ← looked.2]
  exact carried.outcome

theorem untouched_checked {result : Except AiError (List ConflictItem)}
    (isChecked : checkPlan host plan world = (result, checked)) : Untouched world checked := by
  have looks : Looks (checkPlan host plan) := .checkPlan plan
  have looked := looks world
  rw [isChecked] at looked
  exact ⟨looked.1, by rw [looked.2]⟩

/-- The answer to a plan is right exactly when whatever fails fails without a trace. -/
theorem reports_iff (host : Host) (plan : MutationPlan) (world : World) :
    Reports plan world (applyMutation host plan world) ↔ FailsCleanly host plan world := by
  unfold applyMutation
  match isChecked : checkPlan host plan world with
  | (.error error, checked) =>
    rw [bind_of_error isChecked]
    refine iff_of_true (untouched_checked isChecked) ?_
    intro other done op rest reached isOther
    cases isChecked.symm.trans isOther
  | (.ok (conflict :: conflicts), checked) =>
    rw [bind_of_ok isChecked]
    refine iff_of_true (untouched_checked isChecked) ?_
    intro other done op rest reached isOther
    cases isChecked.symm.trans isOther
  | (.ok [], checked) =>
    rw [bind_of_ok isChecked]
    change Reports plan world (applyOperations host plan plan.operations [] [] checked) ↔ _
    have ends : (∃ last, Carried host checked plan.operations last) ∨
        ∃ done op rest reached, plan.operations = done ++ op :: rest ∧
          Carried host checked done reached ∧
          ∀ warning next, applyOperation host op reached ≠ (.ok (.ok warning), next) :=
      carried_or_stops plan.operations checked
    obtain ⟨last, carried⟩ | ⟨done, op, rest, reached, isSplit, carried, stops⟩ := ends
    · have isRun : ∃ more, applyOperations host plan (plan.operations ++ []) [] [] checked =
          applyOperations host plan [] ([] ++ plan.operations.map opSummary) more last :=
        carried.run [] []
      obtain ⟨more, isRun⟩ := isRun
      rw [append_nil] at isRun
      rw [isRun]
      refine iff_of_true (reached_iff isChecked carried).1 ?_
      intro other done op rest reached isOther isSplit before
      cases isChecked.symm.trans isOther
      rw [isSplit] at carried
      have sound := (carried.middle before).sound
      exact ⟨fun _ => sound.2, fun isNot => absurd sound.1 isNot⟩
    · rw [failsCleanly_iff isChecked isSplit carried stops]
      have isRun : ∃ more, applyOperations host plan (done ++ op :: rest) [] [] checked =
          applyOperations host plan (op :: rest) ([] ++ done.map opSummary) more reached :=
        carried.run [] []
      obtain ⟨more, isRun⟩ := isRun
      rw [isSplit, isRun]
      obtain ⟨isTree, isLedger⟩ := reached_iff isChecked carried
      have turns := applyOperation_turns host op reached
      rw [nil_append]
      match ran : applyOperation host op reached with
      | (.error error, after) =>
        have isEnd : applyOperations host plan (op :: rest) (done.map opSummary) more reached =
            (.error error, after) := bind_of_error ran
        rw [isEnd]
        rw [ran] at turns
        cases turns with
        | unprepared _ _ isNot sameTree sameLedger =>
          constructor
          · intro untouched
            refine ⟨fun isPrepared => absurd isPrepared isNot, fun _ => ?_⟩
            have sameLength := congrArg List.length untouched.sameEntries
            rw [sameLedger, isLedger] at sameLength
            exact length_eq_zero_iff.mp (by omega)
          · rintro ⟨-, isFirst⟩
            cases isFirst isNot
            cases carried
            have untouched := untouched_checked isChecked
            exact ⟨sameTree.trans untouched.sameTree, by rw [sameLedger, untouched.sameEntries]⟩
        | unresolved _ _ isPrepared isNot leftEntry =>
          refine iff_of_false (fun untouched => ?_) fun clean => isNot (clean.1 isPrepared).1
          have sameLength := congrArg List.length untouched.sameEntries
          rw [leftEntry, isLedger] at sameLength
          omega
      | (.ok (.ok warning), after) => exact absurd ran (stops warning after)
      | (.ok (.error item), after) =>
        have isEnd : applyOperations host plan (op :: rest) (done.map opSummary) more reached =
            (if done.map opSummary = [] then
              (pure (.conflict "Commit-time conflict. No changes were applied.".toList [item]) :
                Act AiError MutationApplyResult)
            else pure (partialResult op rest item (done.map opSummary) more)) after :=
          bind_of_ok ran
        rw [isEnd]
        rw [ran] at turns
        cases turns with
        | failed _ _ isPrepared resolves sameEntries left =>
          have clean : ((Prepares op reached → Sound host op reached) ∧
              (¬ Prepares op reached → done = [])) ↔ after.tree = reached.tree := by
            rw [left]
            exact ⟨fun clean => (clean.1 isPrepared).2, fun nothing =>
              ⟨fun _ => ⟨resolves, nothing⟩, fun isNot => absurd isPrepared isNot⟩⟩
          rw [clean]
          by_cases isFirst : done = []
          · cases isFirst
            cases carried
            have untouched := untouched_checked isChecked
            constructor
            · exact fun answer => answer.sameTree.trans untouched.sameTree.symm
            · exact fun same => ⟨same.trans untouched.sameTree,
                sameEntries.trans untouched.sameEntries⟩
          · rw [if_neg (by rwa [map_eq_nil_iff])]
            constructor
            · rintro ⟨done', rest', op', isPartly⟩
              have sameLength := congrArg List.length isPartly.isApplied
              rw [length_map, length_map] at sameLength
              obtain ⟨rfl, -⟩ := append_inj (isSplit.symm.trans isPartly.isSplit) sameLength
              rw [isPartly.isEffect, isTree]
            · intro same
              refine ⟨done, rest, op, isSplit, rfl, ⟨_, rfl⟩, rfl, same.trans isTree, ?_⟩
              rw [sameEntries, isLedger]

end Report

/-! ## Plans whose answer is wrong -/

def sampleHost : Host where
  root := some "/vault".toList
  guardPath _ _ := .ok ()
  checksum content := content.map fun byte => Char.ofNat byte.toNat
  directoryChecksum _ _ := []
  notifyApplied _ := .ok ()

/-- A folder with a symbolic link in it. -/
def sampleWorld : World where
  tree location :=
    if location = ["notes".toList] then some .directory
    else if location = ["notes".toList, "link".toList] then some .symlink
    else none

/-- A folder is moved into itself. -/
def buryingPlan : MutationPlan := ⟨[], [.renameFile "notes".toList "notes/archive/notes".toList]⟩

/-- A folder is renamed, and a file is put behind the link in it. -/
def linkedPlan : MutationPlan :=
  ⟨[], [.renameFile "notes".toList "ideas".toList,
    .createFile "ideas/link/a.md".toList "text".toList]⟩

/-- The first is answered with a conflict that is said to have changed nothing, and has made a
directory; the second with an error, and the folder is renamed. -/
theorem wrong_reports :
    (¬ Reports buryingPlan sampleWorld (applyMutation sampleHost buryingPlan sampleWorld)) ∧
      ¬ Reports linkedPlan sampleWorld (applyMutation sampleHost linkedPlan sampleWorld) := by
  have buried : ∃ summary conflicts,
      (applyMutation sampleHost buryingPlan sampleWorld).1 = .ok (.conflict summary conflicts) :=
    ⟨_, _, rfl⟩
  have made : (applyMutation sampleHost buryingPlan sampleWorld).2.tree
      ["notes".toList, "archive".toList] = some .directory := by decide +kernel
  have linked : ∃ error,
      (applyMutation sampleHost linkedPlan sampleWorld).1 = .error error := ⟨_, rfl⟩
  have moved : (applyMutation sampleHost linkedPlan sampleWorld).2.tree ["ideas".toList] =
      some .directory := by decide +kernel
  constructor
  · intro reports
    obtain ⟨summary, conflicts, isConflict⟩ := buried
    match ran : applyMutation sampleHost buryingPlan sampleWorld with
    | (result, after) =>
      rw [ran] at reports made isConflict
      cases isConflict
      rw [reports.sameTree] at made
      exact absurd made (by decide)
  · intro reports
    obtain ⟨error, isError⟩ := linked
    match ran : applyMutation sampleHost linkedPlan sampleWorld with
    | (result, after) =>
      rw [ran] at reports moved isError
      cases isError
      rw [reports.sameTree] at moved
      exact absurd moved (by decide)

end Kuku.Desktop.Mutation
