/-
# Sync.Planner -- the packs that a commit's files go into

The planner sorts the files by path and fills packs with them (`assign_pack_entries`): a file
that does not fit into the pack at hand starts the next one.  The plan of the commit then finds
each file's pack again by its path (`build_plan`).

The sums are `i64` sums, which wrap: this is the greedy rule of `Theory.Shards` as long as every
sum it makes is an `i64` (`packsAll_iff`).

BLAKE3, the JSON of the tree entries and the text of a size in megabytes are parameters.
-/
import Kuku.Sync.CommitSignature
import Kuku.Sync.Db
import Kuku.Theory.Shards
import Kuku.Theory.Store

namespace Kuku.Sync.Planner

open Kuku.Theory List

def contentPackKind : Str := "content_pack".toList
def checkpointPackKind : Str := "checkpoint_pack".toList
def defaultMaxPackPlaintextBytes : Int := 28 * 1024 * 1024

structure PlannerConfig where
  maxPackPlaintextBytes : Int := defaultMaxPackPlaintextBytes

/-- A scanned file with its content. -/
structure ScannedContent extends ScannedFile where
  plaintext : Plaintext

structure PackEntryPlan where
  entryId : Str
  fileId : Str
  normalizedPath : Str
  plaintextHash : Str
  sizeBytes : Int
  plaintext : Plaintext
  deriving DecidableEq

structure PackShardPlan where
  packRef : Str
  packKind : Str
  shardIndex : Nat
  totalPlaintextBytes : Int
  entries : List PackEntryPlan
  deriving DecidableEq

structure PlannedTreeEntry where
  fileId : Str
  path : Str
  normalizedPath : Str
  plaintextHash : Str
  sizeBytes : Int
  kind : Str
  packRef : Option Str
  packEntryId : Option Str

inductive PlanFileOp where
  | upsert (fileId path normalizedPath plaintextHash : Str) (sizeBytes : Int)
      (packRef packEntryId : Str)
  | delete (fileId path normalizedPath : Str)

structure SyncPlan where
  commitKind : CommitPlanKind
  treeId : Str
  treeEntries : List PlannedTreeEntry
  fileOps : List PlanFileOp
  packShards : List PackShardPlan

/-- `blake3` in hex, `serde_json::to_vec` of the tree entries, and `format_size_mb`. -/
structure PlanCrates where
  blake3 : Plaintext → Str
  treeJson : List PlannedTreeEntry → Plaintext
  formatSizeMb : Int → String

variable (crates : PlanCrates)

/-- An `i64` sum. -/
def int64 (n : Int) : Int := n.bmod (2 ^ 64)

/-! ## The packs -/

def packEntryId (fileId plaintextHash : Str) : Str :=
  "entry_".toList ++ (crates.blake3 (Text.utf8 (String.ofList fileId) ++ 0 ::
    Text.utf8 (String.ofList plaintextHash))).take 32

def packEntry (file : ScannedContent) : PackEntryPlan :=
  { file with entryId := packEntryId crates file.fileId file.plaintextHash }

def packShard (packKind : Str) (shardIndex : Nat) (totalPlaintextBytes : Int)
    (entries : List PackEntryPlan) : PackShardPlan where
  packRef := packKind ++ '-' :: Chars.ofNat shardIndex
  packKind
  shardIndex
  totalPlaintextBytes
  entries

/-- The packs that are full, and the one at hand. -/
structure Packing where
  shards : List PackShardPlan
  currentEntries : List PackEntryPlan
  currentBytes : Int

namespace Packing

def flush (packKind : Str) (packing : Packing) : Packing where
  shards := packing.shards ++ [packShard packKind packing.shards.length packing.currentBytes
    packing.currentEntries]
  currentEntries := []
  currentBytes := 0

def push (file : ScannedContent) (packing : Packing) : Packing where
  shards := packing.shards
  currentEntries := packing.currentEntries ++ [packEntry crates file]
  currentBytes := int64 (packing.currentBytes + file.sizeBytes)

def isFull (config : PlannerConfig) (file : ScannedContent) (packing : Packing) : Bool :=
  packing.currentEntries ≠ [] ∧
    config.maxPackPlaintextBytes < int64 (packing.currentBytes + file.sizeBytes)

end Packing

def fileTooLarge (config : PlannerConfig) (file : ScannedContent) : SyncError :=
  .quotaExceeded ("file exceeds sync size limit: " ++ String.ofList file.path ++ " (" ++
    crates.formatSizeMb file.sizeBytes ++ " MB, limit " ++
    crates.formatSizeMb config.maxPackPlaintextBytes ++ " MB)")

/-- The loop of `assign_pack_entries`, and the flush behind it. -/
@[grind =] def packFiles (packKind : Str) (config : PlannerConfig) :
    List ScannedContent → Packing → Except SyncError (List PackShardPlan)
  | [], packing =>
    .ok (if packing.currentEntries = [] then packing.shards else (packing.flush packKind).shards)
  | file :: files, packing =>
    if config.maxPackPlaintextBytes < file.sizeBytes then .error (fileTooLarge crates config file)
    else if packing.isFull config file then
      packFiles packKind config files ((packing.flush packKind).push crates file)
    else packFiles packKind config files (packing.push crates file)

/-- `files.sort_by` of the normalized paths. -/
def sortedByPath (files : List ScannedContent) : List ScannedContent :=
  Table.sorted (fun file => file.normalizedPath) files

def assignPackEntries (files : List ScannedContent) (packKind : Str) (config : PlannerConfig) :
    Except SyncError (List PackShardPlan) :=
  packFiles crates packKind config (sortedByPath files) ⟨[], [], 0⟩

/-! ## The plan -/

/-- A pack by its reference, and an entry in it. -/
abbrev EntryRef := Str × Str

def entryRefs (shards : List PackShardPlan) : Assoc Str EntryRef :=
  Assoc.merge [] (shards.flatMap fun shard => shard.entries.map fun entry =>
    (entry.normalizedPath, shard.packRef, entry.entryId))

def plannedTreeEntry (file : ScannedContent) (ref : EntryRef) : PlannedTreeEntry :=
  { file with kind := kindMarkdown, packRef := some ref.1, packEntryId := some ref.2 }

def upsertOp (file : ScannedContent) (ref : EntryRef) : PlanFileOp :=
  .upsert file.fileId file.path file.normalizedPath file.plaintextHash file.sizeBytes ref.1 ref.2

def deleteOp (deleted : SyncFileRecord) : PlanFileOp :=
  .delete deleted.fileId deleted.path deleted.normalizedPath

def planFileOpSortKey : PlanFileOp → Str ×ₗ Str
  | .upsert _ _ normalizedPath _ _ _ _ => toLex ("0".toList, normalizedPath)
  | .delete _ _ normalizedPath => toLex ("1".toList, normalizedPath)

def computeTreeId (entries : List PlannedTreeEntry) : Str :=
  "tree_".toList ++ (crates.blake3 (crates.treeJson entries)).take 32

def findRef (refs : Assoc Str EntryRef) (file : ScannedContent) :
    Except SyncError (ScannedContent × EntryRef) :=
  match refs.get file.normalizedPath with
  | some ref => .ok (file, ref)
  | none => .error (.invalidArgument ("missing pack assignment for " ++
      String.ofList file.normalizedPath))

def buildPlan (commitKind : CommitPlanKind) (upserts : List ScannedContent)
    (deletions : List SyncFileRecord) (packShards : List PackShardPlan) :
    Except SyncError SyncPlan := do
  let assigned ← upserts.mapM (findRef (entryRefs packShards))
  let treeEntries := Table.sorted PlannedTreeEntry.normalizedPath
    (assigned.map fun held => plannedTreeEntry held.1 held.2)
  return {
    commitKind
    treeId := computeTreeId crates treeEntries
    treeEntries
    fileOps := Table.sorted planFileOpSortKey
      ((assigned.map fun held => upsertOp held.1 held.2) ++ deletions.map deleteOp)
    packShards }

/-! ## What the packs and the plan should be -/

structure HoldsFile (shards : List PackShardPlan) (file : ScannedContent) (shard : PackShardPlan)
    (entry : PackEntryPlan) : Prop where
  isShard : shard ∈ shards
  isEntry : entry ∈ shard.entries
  path : entry.normalizedPath = file.normalizedPath

/-- The files, sorted by path, are cut into packs that respect the cap. -/
structure Sharded (files : List ScannedContent) (packKind : Str) (config : PlannerConfig)
    (shards : List PackShardPlan) : Prop where
  nonempty : ∀ shard ∈ shards, shard.entries ≠ []
  entries : shards.flatMap PackShardPlan.entries = (sortedByPath files).map (packEntry crates)
  kind : ∀ shard ∈ shards, shard.packKind = packKind
  totals : ∀ shard ∈ shards,
    shard.totalPlaintextBytes = (shard.entries.map PackEntryPlan.sizeBytes).sum
  capped : ∀ shard ∈ shards, shard.totalPlaintextBytes ≤ config.maxPackPlaintextBytes
  refs : (shards.map PackShardPlan.packRef).Nodup
  full : shards.IsChain fun shard next => ∀ entry ∈ next.entries.head?,
    config.maxPackPlaintextBytes < shard.totalPlaintextBytes + entry.sizeBytes

/-- Every file is planned under the one entry that holds it. -/
structure Placed (files : List ScannedContent) (shards : List PackShardPlan) (plan : SyncPlan) :
    Prop where
  packs : plan.packShards = shards
  each : ∀ file ∈ files, ∃ shard, HoldsFile shards file shard (packEntry crates file) ∧
    (∀ other entry, HoldsFile shards file other entry →
      other = shard ∧ entry = packEntry crates file) ∧
    upsertOp file (shard.packRef, (packEntry crates file).entryId) ∈ plan.fileOps ∧
    plannedTreeEntry file (shard.packRef, (packEntry crates file).entryId) ∈ plan.treeEntries
  ops : ∀ op ∈ plan.fileOps, (∃ deleted, op = deleteOp deleted) ∨ ∃ file ∈ files, ∃ shard,
    HoldsFile shards file shard (packEntry crates file) ∧
      op = upsertOp file (shard.packRef, (packEntry crates file).entryId)
  treeEntries : ∀ entry ∈ plan.treeEntries, ∃ file ∈ files, ∃ shard,
    HoldsFile shards file shard (packEntry crates file) ∧
      entry = plannedTreeEntry file (shard.packRef, (packEntry crates file).entryId)

/-- Packing refuses a file that alone exceeds the cap, or packs and places all files. -/
def PacksAll (files : List ScannedContent) (packKind : Str) (config : PlannerConfig) : Prop :=
  match assignPackEntries crates files packKind config with
  | .error error => ∃ file ∈ files, config.maxPackPlaintextBytes < file.sizeBytes ∧
      error = fileTooLarge crates config file
  | .ok shards => Sharded crates files packKind config shards ∧
      ∀ commitKind deletions, ∃ plan,
        buildPlan crates commitKind files deletions shards = .ok plan ∧
          Placed crates files shards plan

variable {crates} {config : PlannerConfig} {packKind : Str} {packing : Packing}
  {files held : List ScannedContent} {file : ScannedContent} {shards : List PackShardPlan}
  {groups : List (List ScannedContent)} {error : SyncError}

theorem mem_sortedByPath : file ∈ sortedByPath files ↔ file ∈ files := Table.mem_sorted

/-! ## The sums -/

abbrev weight (file : ScannedContent) : Int := file.sizeBytes

theorem int64_of_lt {n : Int} (nonneg : 0 ≤ n) (less : n < 2 ^ 63) : int64 n = n := by
  rw [int64, Int.bmod_eq_of_le]
  · omega
  · omega

theorem int64_neg {n : Int} (atLeast : 2 ^ 63 ≤ n) (less : n < 2 ^ 64) : int64 n < 0 := by
  have wraps : int64 n = n - 2 ^ 64 := by
    have same : (n - 2 ^ 64).bmod (2 ^ 64) = n.bmod (2 ^ 64) := Int.sub_bmod_right n (2 ^ 64)
    rw [int64, ← same, Int.bmod_eq_of_le]
    · omega
    · omega
  omega

theorem sum_sizes : ((held.map (packEntry crates)).map PackEntryPlan.sizeBytes).sum =
    Shards.total weight held := by
  rw [map_map]
  rfl

/-! ## The packs of a cut -/

variable (crates packKind) in
def shardOf (index : Nat) (group : List ScannedContent) : PackShardPlan :=
  packShard packKind index (Shards.total weight group) (group.map (packEntry crates))

variable (crates packKind) in
/-- The packs of a cut, numbered from an index on. -/
def shardsFrom : Nat → List (List ScannedContent) → List PackShardPlan
  | _, [] => []
  | index, group :: groups => shardOf crates packKind index group :: shardsFrom (index + 1) groups

theorem mem_shardsFrom {index : Nat} {shard : PackShardPlan}
    (among : shard ∈ shardsFrom crates packKind index groups) :
    ∃ group ∈ groups, ∃ number, index ≤ number ∧ shard = shardOf crates packKind number group := by
  induction groups generalizing index with
  | nil => cases among
  | cons group groups ih =>
    rcases mem_cons.mp among with isFirst | later
    · exact ⟨group, mem_cons_self, index, le_refl index, isFirst⟩
    · obtain ⟨other, isGroup, number, atLeast, isShard⟩ := ih later
      exact ⟨other, mem_cons_of_mem _ isGroup, number, Nat.le_of_succ_le atLeast, isShard⟩

theorem entries_shardsFrom {index : Nat} :
    (shardsFrom crates packKind index groups).flatMap PackShardPlan.entries =
      groups.flatten.map (packEntry crates) := by
  induction groups generalizing index with
  | nil => rfl
  | cons group groups ih =>
    rw [shardsFrom, flatMap_cons, ih, flatten_cons, map_append]
    rfl

theorem ofNat_injective : Function.Injective Chars.ofNat := by
  intro a b same
  have read : ∀ n, Nat.ofDigitChars 10 (Chars.ofNat n) 0 = n := fun n =>
    Nat.ofDigitChars_toDigits (by decide) (by decide)
  rw [← read a, same, read b]

theorem packRef_inj {m n : Nat} {group other : List ScannedContent}
    (same : (shardOf crates packKind m group).packRef = (shardOf crates packKind n other).packRef) :
    m = n :=
  ofNat_injective (tail_eq_of_cons_eq (append_cancel_left same))

theorem refs_shardsFrom {index : Nat} :
    ((shardsFrom crates packKind index groups).map PackShardPlan.packRef).Nodup := by
  induction groups generalizing index with
  | nil => exact nodup_nil
  | cons group groups ih =>
    refine nodup_cons.mpr ⟨fun among => ?_, ih⟩
    obtain ⟨shard, later, isRef⟩ := mem_map.mp among
    obtain ⟨other, _, number, atLeast, rfl⟩ := mem_shardsFrom later
    exact absurd (packRef_inj isRef) (by omega)

theorem full_shardsFrom {index : Nat}
    (full : groups.IsChain (Shards.Full weight config.maxPackPlaintextBytes)) :
    (shardsFrom crates packKind index groups).IsChain fun shard next =>
      ∀ entry ∈ next.entries.head?,
        config.maxPackPlaintextBytes < shard.totalPlaintextBytes + entry.sizeBytes := by
  induction groups generalizing index with
  | nil => exact .nil
  | cons group groups ih =>
    cases groups with
    | nil => exact .singleton _
    | cons next groups =>
      obtain ⟨here, later⟩ := isChain_cons_cons.mp full
      refine isChain_cons_cons.mpr ⟨?_, ih later⟩
      intro entry isFirst
      cases next with
      | nil => cases isFirst
      | cons file next =>
        cases Option.mem_def.mp isFirst
        exact here file rfl

/-- The packs of a cut are as they should be. -/
theorem sharded_of_isCut (isCut : Shards.IsCut weight config.maxPackPlaintextBytes
    (sortedByPath files) groups) :
    Sharded crates files packKind config (shardsFrom crates packKind 0 groups) where
  nonempty := by
    intro shard among
    obtain ⟨group, isGroup, number, _, rfl⟩ := mem_shardsFrom among
    exact fun isNil => isCut.nonempty group isGroup (map_eq_nil_iff.mp isNil)
  entries := by rw [entries_shardsFrom, isCut.flatten]
  kind := by
    intro shard among
    obtain ⟨group, _, number, _, rfl⟩ := mem_shardsFrom among
    rfl
  totals := by
    intro shard among
    obtain ⟨group, _, number, _, rfl⟩ := mem_shardsFrom among
    exact sum_sizes.symm
  capped := by
    intro shard among
    obtain ⟨group, isGroup, number, _, rfl⟩ := mem_shardsFrom among
    exact isCut.fits group isGroup
  refs := refs_shardsFrom
  full := full_shardsFrom isCut.full

/-! ## The loop -/

/-- The pack at hand holds these files, and has counted them right. -/
structure Counts (crates : PlanCrates) (packing : Packing) (held : List ScannedContent) : Prop where
  entries : packing.currentEntries = held.map (packEntry crates)
  bytes : packing.currentBytes = Shards.total weight held

theorem Counts.push (counts : Counts crates packing held)
    (exact : int64 (Shards.total weight held + file.sizeBytes) =
      Shards.total weight held + file.sizeBytes) :
    Counts crates (packing.push crates file) (held ++ [file]) where
  entries := by rw [Packing.push, counts.entries, map_append, map_singleton]
  bytes := by
    rw [Packing.push, counts.bytes, exact, Shards.total_append, Shards.total_singleton]

theorem counts_flush : Counts crates (packing.flush packKind) [] := ⟨rfl, rfl⟩

theorem Counts.isFull (counts : Counts crates packing held) :
    packing.isFull config file = true ↔ held ≠ [] ∧
      config.maxPackPlaintextBytes < int64 (Shards.total weight held + file.sizeBytes) := by
  rw [Packing.isFull, decide_eq_true_iff, counts.entries, counts.bytes, Ne, map_eq_nil_iff]

theorem Counts.flush_shards (counts : Counts crates packing held) :
    (packing.flush packKind).shards =
      packing.shards ++ [shardOf crates packKind packing.shards.length held] := by
  rw [Packing.flush, counts.entries, counts.bytes]
  rfl

/-- **Where no sum wraps, the loop is the greedy rule.** -/
theorem packFiles_eq (counts : Counts crates packing held)
    (capped : config.maxPackPlaintextBytes < 2 ^ 63)
    (nonneg : ∀ file ∈ held ++ files, 0 ≤ file.sizeBytes)
    (each : ∀ file ∈ files, file.sizeBytes ≤ config.maxPackPlaintextBytes)
    (below : Shards.SumsBelow weight config.maxPackPlaintextBytes (2 ^ 63) held files) :
    packFiles crates packKind config files packing = .ok (packing.shards ++
      shardsFrom crates packKind packing.shards.length
        (Shards.cut weight config.maxPackPlaintextBytes held files)) := by
  induction files generalizing packing held with
  | nil =>
    rw [packFiles, Shards.cut]
    by_cases isNil : held = []
    · rw [if_pos isNil, if_pos (by rw [counts.entries, isNil]; rfl)]
      exact congrArg Except.ok (append_nil _).symm
    · rw [if_neg isNil, if_neg (by rwa [counts.entries, map_eq_nil_iff]), counts.flush_shards]
      rfl
  | cons file files ih =>
    obtain ⟨eachFirst, eachRest⟩ := forall_mem_cons.mp each
    obtain ⟨sum, below⟩ := below
    have nonnegHeld : 0 ≤ Shards.total weight held :=
      Shards.total_nonneg fun other among => nonneg other (mem_append_left _ among)
    have nonnegFile : 0 ≤ weight file := nonneg file (mem_append_right _ mem_cons_self)
    have exact : int64 (Shards.total weight held + weight file) =
        Shards.total weight held + weight file :=
      int64_of_lt (by omega) sum
    rw [packFiles, if_neg (not_lt.mpr eachFirst), Shards.cut]
    by_cases isFull : held ≠ [] ∧
        config.maxPackPlaintextBytes < Shards.total weight held + weight file
    · rw [if_pos (counts.isFull.mpr (by rwa [exact])), if_pos isFull]
      rw [if_pos isFull] at below
      have flushed : Counts crates ((packing.flush packKind).push crates file) [file] :=
        counts_flush.push (by
          rw [Shards.total_nil, zero_add]
          exact int64_of_lt nonnegFile (by omega))
      rw [ih flushed (fun other among => nonneg other (mem_append_right _ among)) eachRest below]
      change Except.ok ((packing.flush packKind).shards ++ shardsFrom crates packKind
        (packing.flush packKind).shards.length _) = _
      rw [counts.flush_shards, length_append, append_assoc]
      rfl
    · rw [if_neg (fun full => isFull (by simpa only [exact] using counts.isFull.mp full)),
        if_neg isFull]
      rw [if_neg isFull] at below
      refine ih (counts.push exact) (fun other among => nonneg other ?_) eachRest below
      rwa [append_assoc] at among

/-- A file over the cap is refused wherever it stands. -/
theorem packFiles_error (among : ∃ file ∈ files, config.maxPackPlaintextBytes < file.sizeBytes) :
    ∃ file ∈ files, config.maxPackPlaintextBytes < file.sizeBytes ∧
      packFiles crates packKind config files packing = .error (fileTooLarge crates config file) := by
  induction files generalizing packing with
  | nil =>
    obtain ⟨_, isFile, _⟩ := among
    cases isFile
  | cons file files ih =>
    rw [packFiles]
    by_cases large : config.maxPackPlaintextBytes < file.sizeBytes
    · exact ⟨file, mem_cons_self, large, if_pos large⟩
    · have later : ∃ file ∈ files, config.maxPackPlaintextBytes < file.sizeBytes := by
        obtain ⟨other, isFile, isLarge⟩ := among
        rcases mem_cons.mp isFile with rfl | isLater
        · exact absurd isLarge large
        · exact ⟨other, isLater, isLarge⟩
      rw [if_neg large]
      split_ifs with isFull
      · obtain ⟨other, isFile, refused⟩ := ih later
        exact ⟨other, mem_cons_of_mem _ isFile, refused⟩
      · obtain ⟨other, isFile, refused⟩ := ih later
        exact ⟨other, mem_cons_of_mem _ isFile, refused⟩

theorem packFiles_ok (each : ∀ file ∈ files, file.sizeBytes ≤ config.maxPackPlaintextBytes) :
    ∃ shards, packFiles crates packKind config files packing = .ok shards := by
  induction files generalizing packing with
  | nil => exact ⟨_, rfl⟩
  | cons file files ih =>
    obtain ⟨eachFirst, eachRest⟩ := forall_mem_cons.mp each
    rw [packFiles, if_neg (not_lt.mpr eachFirst)]
    split_ifs with isFull
    · exact ih eachRest
    · exact ih eachRest

/-- The pack at hand ends up among the packs, behind those that are full. -/
theorem packFiles_extends (nonempty : packing.currentEntries ≠ [])
    (packed : packFiles crates packKind config files packing = .ok shards) :
    ∃ more ⊆ files, ∃ number bytes, packing.shards ++ [packShard packKind number bytes
      (packing.currentEntries ++ more.map (packEntry crates))] <+: shards := by
  induction files generalizing packing with
  | nil =>
    rw [packFiles, if_neg nonempty] at packed
    refine ⟨[], List.Subset.refl _, packing.shards.length, packing.currentBytes, ?_⟩
    rw [← Except.ok.inj packed, map_nil, append_nil]
    exact prefix_rfl
  | cons file files ih =>
    have taken (packing : Packing) : (packing.push crates file).currentEntries ≠ [] :=
      append_ne_nil_of_right_ne_nil _ (cons_ne_nil _ _)
    rw [packFiles] at packed
    split_ifs at packed with large isFull
    · obtain ⟨_, _, _, _, isPrefix⟩ := ih (taken _) packed
      refine ⟨[], nil_subset _, packing.shards.length, packing.currentBytes, ?_⟩
      rw [map_nil, append_nil]
      exact (prefix_append _ _).trans isPrefix
    · obtain ⟨more, subset, number, bytes, isPrefix⟩ := ih (taken _) packed
      refine ⟨file :: more, cons_subset_cons file subset, number, bytes, ?_⟩
      have grown : packing.currentEntries ++ (file :: more).map (packEntry crates) =
          (packing.push crates file).currentEntries ++ more.map (packEntry crates) :=
        (append_assoc _ [packEntry crates file] _).symm
      rw [grown]
      exact isPrefix

/-- **Packs under the cap come of sums that did not wrap.** -/
theorem sumsBelow_of_packed (counts : Counts crates packing held)
    (capped : config.maxPackPlaintextBytes < 2 ^ 63)
    (fits : Shards.total weight held ≤ config.maxPackPlaintextBytes)
    (nonneg : ∀ file ∈ held ++ files, 0 ≤ file.sizeBytes)
    (each : ∀ file ∈ files, file.sizeBytes ≤ config.maxPackPlaintextBytes)
    (packed : packFiles crates packKind config files packing = .ok shards)
    (under : ∀ shard ∈ shards,
      (shard.entries.map PackEntryPlan.sizeBytes).sum ≤ config.maxPackPlaintextBytes) :
    Shards.SumsBelow weight config.maxPackPlaintextBytes (2 ^ 63) held files := by
  induction files generalizing packing held with
  | nil => trivial
  | cons file files ih =>
    obtain ⟨eachFirst, eachRest⟩ := forall_mem_cons.mp each
    have nonnegHeld : 0 ≤ Shards.total weight held :=
      Shards.total_nonneg fun other among => nonneg other (mem_append_left _ among)
    have nonnegFile : 0 ≤ weight file := nonneg file (mem_append_right _ mem_cons_self)
    have fileFits : weight file ≤ config.maxPackPlaintextBytes := eachFirst
    rw [packFiles, if_neg (not_lt.mpr eachFirst)] at packed
    by_cases sum : Shards.total weight held + weight file < 2 ^ 63
    · refine ⟨sum, ?_⟩
      have exact : int64 (Shards.total weight held + weight file) =
          Shards.total weight held + weight file :=
        int64_of_lt (by omega) sum
      by_cases isFull : held ≠ [] ∧
          config.maxPackPlaintextBytes < Shards.total weight held + weight file
      · rw [if_pos (counts.isFull.mpr (by rwa [exact]))] at packed
        rw [if_pos isFull]
        refine ih (counts_flush.push (by
          rw [Shards.total_nil, zero_add]
          exact int64_of_lt nonnegFile (by omega))) (by rwa [Shards.total_singleton])
          (fun other among => nonneg other (mem_append_right _ among)) eachRest packed
      · rw [if_neg (fun full => isFull (by simpa only [exact] using counts.isFull.mp full))] at packed
        rw [if_neg isFull]
        refine ih (counts.push exact) ?_ (fun other among => nonneg other ?_) eachRest packed
        · rw [Shards.total_append, Shards.total_singleton]
          by_cases isNil : held = []
          · rwa [isNil, Shards.total_nil, zero_add]
          · exact not_lt.mp fun less => isFull ⟨isNil, less⟩
        · rwa [append_assoc] at among
    · -- The sum wraps: the file goes into the pack at hand, which is over the cap then.
      exfalso
      have wraps : int64 (Shards.total weight held + weight file) < 0 :=
        int64_neg (not_lt.mp sum) (by omega)
      have hasRoom : ¬packing.isFull config file = true := fun full =>
        absurd (counts.isFull.mp full).2 (not_lt.mpr (by
          have under : int64 (Shards.total weight held + file.sizeBytes) < 0 := wraps
          omega))
      rw [if_neg hasRoom] at packed
      obtain ⟨more, subset, number, bytes, isPrefix⟩ := packFiles_extends
        (append_ne_nil_of_right_ne_nil _ (cons_ne_nil _ _)) packed
      have tooBig := under _ (isPrefix.subset (mem_append_right _ mem_cons_self))
      have isHeld : (packing.push crates file).currentEntries ++ more.map (packEntry crates) =
          (held ++ [file] ++ more).map (packEntry crates) := by
        rw [Packing.push, counts.entries, map_append, map_append, map_singleton]
      have nonnegMore : 0 ≤ Shards.total weight more := Shards.total_nonneg fun other among =>
        nonneg other (mem_append_right _ (mem_cons_of_mem _ (subset among)))
      rw [packShard, isHeld, sum_sizes, Shards.total_append, Shards.total_append,
        Shards.total_singleton] at tooBig
      omega

/-! ## The plan of the packs -/

section Plan

variable {commitKind : CommitPlanKind} {deletions : List SyncFileRecord} {shard : PackShardPlan}

theorem Sharded.keys (sharded : Sharded crates files packKind config shards)
    (distinct : Table.Keyed (fun file : ScannedContent => file.normalizedPath) files) :
    ((shards.flatMap PackShardPlan.entries).map PackEntryPlan.normalizedPath).Nodup := by
  rw [sharded.entries, map_map]
  exact ((perm_insertionSort _ files).map _).nodup_iff.mpr distinct

theorem Sharded.holds (sharded : Sharded crates files packKind config shards)
    (isFile : file ∈ files) : ∃ shard, HoldsFile shards file shard (packEntry crates file) := by
  have isEntry : packEntry crates file ∈ shards.flatMap PackShardPlan.entries := by
    rw [sharded.entries]
    exact mem_map_of_mem (mem_sortedByPath.mpr isFile)
  obtain ⟨shard, isShard, among⟩ := mem_flatMap.mp isEntry
  exact ⟨shard, isShard, among, rfl⟩

/-- A path stands in one entry of one pack. -/
theorem holdsFile_unique (keys : ((shards.flatMap PackShardPlan.entries).map
      PackEntryPlan.normalizedPath).Nodup) {other : PackShardPlan} {entry entry' : PackEntryPlan}
    (holds : HoldsFile shards file shard entry) (holdsOther : HoldsFile shards file other entry') :
    other = shard ∧ entry' = entry := by
  have samePath : entry'.normalizedPath = entry.normalizedPath :=
    holdsOther.path.trans holds.path.symm
  have sameEntry : entry' = entry := inj_on_of_nodup_map keys
    (mem_flatMap.mpr ⟨other, holdsOther.isShard, holdsOther.isEntry⟩)
    (mem_flatMap.mpr ⟨shard, holds.isShard, holds.isEntry⟩) samePath
  refine ⟨?_, sameEntry⟩
  have apart := (nodup_flatMap.mp keys.of_map).2
  have isSymm : Std.Symm (Function.onFun List.Disjoint PackShardPlan.entries) :=
    ⟨fun _ _ disjoint _ among other => disjoint other among⟩
  by_contra differs
  exact apart.forall holdsOther.isShard holds.isShard differs holdsOther.isEntry
    (sameEntry ▸ holds.isEntry)

theorem get_entryRefs (keys : ((shards.flatMap PackShardPlan.entries).map
      PackEntryPlan.normalizedPath).Nodup) {entry : PackEntryPlan}
    (holds : HoldsFile shards file shard entry) :
    (entryRefs shards).get file.normalizedPath = some (shard.packRef, entry.entryId) := by
  refine Assoc.get_merge_of_mem ?_ ?_
  · simpa only [map_flatMap, map_map, Function.comp_def] using keys
  · exact mem_flatMap.mpr ⟨shard, holds.isShard, mem_map.mpr
      ⟨entry, holds.isEntry, by rw [holds.path]⟩⟩

/-- **The plan finds each file where it was packed.** -/
theorem Sharded.placed (sharded : Sharded crates files packKind config shards)
    (distinct : Table.Keyed (fun file : ScannedContent => file.normalizedPath) files) :
    ∃ plan, buildPlan crates commitKind files deletions shards = .ok plan ∧
      Placed crates files shards plan := by
  have keys := sharded.keys distinct
  have found : ∀ file shard, HoldsFile shards file shard (packEntry crates file) →
      findRef (entryRefs shards) file =
        .ok (file, shard.packRef, (packEntry crates file).entryId) := by
    intro file shard holds
    rw [findRef, get_entryRefs keys holds]
  obtain ⟨assigned, ran⟩ : ∃ assigned, files.mapM (findRef (entryRefs shards)) = .ok assigned :=
    mapM_ok_of_forall fun file isFile =>
      (sharded.holds isFile).elim fun shard holds => ⟨_, found file shard holds⟩
  have isAssigned : ∀ file ∈ files, ∀ shard, HoldsFile shards file shard (packEntry crates file) →
      (file, shard.packRef, (packEntry crates file).entryId) ∈ assigned := by
    intro file isFile shard holds
    obtain ⟨item, among, isItem⟩ := mapM_ok_left ran isFile
    rw [found file shard holds] at isItem
    rwa [Except.ok.inj isItem]
  have ofAssigned : ∀ item ∈ assigned, ∃ file ∈ files, ∃ shard,
      HoldsFile shards file shard (packEntry crates file) ∧
        item = (file, shard.packRef, (packEntry crates file).entryId) := by
    intro item among
    obtain ⟨file, isFile, isItem⟩ := mapM_ok_right ran among
    obtain ⟨shard, holds⟩ := sharded.holds isFile
    rw [found file shard holds] at isItem
    exact ⟨file, isFile, shard, holds, (Except.ok.inj isItem).symm⟩
  refine ⟨_, bind_ok.mpr ⟨assigned, ran, rfl⟩, rfl, ?_, ?_, ?_⟩
  · intro file isFile
    obtain ⟨shard, holds⟩ := sharded.holds isFile
    have among := isAssigned file isFile shard holds
    refine ⟨shard, holds, fun other entry => holdsFile_unique keys holds, ?_, ?_⟩
    · exact Table.mem_sorted.mpr (mem_append_left _ (mem_map_of_mem among))
    · exact Table.mem_sorted.mpr (mem_map_of_mem among)
  · intro op among
    rcases mem_append.mp (Table.mem_sorted.mp among) with isUpsert | isDelete
    · obtain ⟨item, isItem, rfl⟩ := mem_map.mp isUpsert
      obtain ⟨file, isFile, shard, holds, rfl⟩ := ofAssigned item isItem
      exact .inr ⟨file, isFile, shard, holds, rfl⟩
    · obtain ⟨deleted, _, rfl⟩ := mem_map.mp isDelete
      exact .inl ⟨deleted, rfl⟩
  · intro entry among
    obtain ⟨item, isItem, rfl⟩ := mem_map.mp (Table.mem_sorted.mp among)
    obtain ⟨file, isFile, shard, holds, rfl⟩ := ofAssigned item isItem
    exact ⟨file, isFile, shard, holds, rfl⟩

end Plan

/-! ## The theorem -/

theorem counts_nil : Counts crates ⟨[], [], 0⟩ [] := ⟨rfl, rfl⟩

theorem packsAll_of_large (large : ∃ file ∈ files, config.maxPackPlaintextBytes < file.sizeBytes) :
    PacksAll crates files packKind config := by
  obtain ⟨file, isFile, isLarge⟩ := large
  obtain ⟨first, isFirst, firstLarge, refused⟩ : ∃ file ∈ sortedByPath files,
      config.maxPackPlaintextBytes < file.sizeBytes ∧
        assignPackEntries crates files packKind config = .error (fileTooLarge crates config file) :=
    packFiles_error ⟨file, mem_sortedByPath.mpr isFile, isLarge⟩
  rw [PacksAll, refused]
  exact ⟨first, mem_sortedByPath.mp isFirst, firstLarge, rfl⟩

/-- The cap is positive and an `i64`, and so are the sizes, which are not negative. -/
structure Sizes (config : PlannerConfig) (files : List ScannedContent) : Prop where
  positive : 0 < config.maxPackPlaintextBytes
  capped : config.maxPackPlaintextBytes < 2 ^ 63
  files : ∀ file ∈ files, 0 ≤ file.sizeBytes ∧ file.sizeBytes < 2 ^ 63

theorem packsAll_of_sumsBelow (sizes : Sizes config files)
    (distinct : Table.Keyed (fun file : ScannedContent => file.normalizedPath) files)
    (each : ∀ file ∈ files, file.sizeBytes ≤ config.maxPackPlaintextBytes)
    (below : Shards.SumsBelow weight config.maxPackPlaintextBytes (2 ^ 63) []
      (sortedByPath files)) :
    PacksAll crates files packKind config := by
  have eachSorted : ∀ file ∈ sortedByPath files, weight file ≤ config.maxPackPlaintextBytes :=
    fun file among => each file (mem_sortedByPath.mp among)
  have packed : assignPackEntries crates files packKind config = .ok ([] ++ shardsFrom crates
      packKind 0 (Shards.cut weight config.maxPackPlaintextBytes [] (sortedByPath files))) :=
    packFiles_eq counts_nil sizes.capped
      (fun file among => (sizes.files file (mem_sortedByPath.mp among)).1) eachSorted below
  rw [PacksAll, packed, nil_append]
  have isCut := Shards.cut_isCut sizes.positive.le eachSorted
  have sharded : Sharded crates files packKind config _ := sharded_of_isCut isCut
  exact ⟨sharded, fun commitKind deletions => sharded.placed distinct⟩

theorem sumsBelow_of_packsAll (sizes : Sizes config files)
    (each : ∀ file ∈ files, file.sizeBytes ≤ config.maxPackPlaintextBytes)
    (packsAll : PacksAll crates files packKind config) :
    Shards.SumsBelow weight config.maxPackPlaintextBytes (2 ^ 63) [] (sortedByPath files) := by
  obtain ⟨shards, packed⟩ : ∃ shards, assignPackEntries crates files packKind config = .ok shards :=
    packFiles_ok fun file among => each file (mem_sortedByPath.mp among)
  rw [PacksAll, packed] at packsAll
  refine sumsBelow_of_packed counts_nil sizes.capped sizes.positive.le
    (fun file among => (sizes.files file (mem_sortedByPath.mp among)).1)
    (fun file among => each file (mem_sortedByPath.mp among)) packed ?_
  intro shard among
  rw [← packsAll.1.totals shard among]
  exact packsAll.1.capped shard among

/-- **Packing does what it should unless a sum of the greedy rule leaves the `i64`s.** -/
theorem packsAll_iff (crates : PlanCrates) (packKind : Str) (config : PlannerConfig)
    (files : List ScannedContent) (sizes : Sizes config files)
    (distinct : Table.Keyed (fun file : ScannedContent => file.normalizedPath) files) :
    PacksAll crates files packKind config ↔
      (∃ file ∈ files, config.maxPackPlaintextBytes < file.sizeBytes) ∨
        Shards.SumsBelow weight config.maxPackPlaintextBytes (2 ^ 63) [] (sortedByPath files) := by
  constructor
  · intro packsAll
    by_cases large : ∃ file ∈ files, config.maxPackPlaintextBytes < file.sizeBytes
    · exact .inl large
    · refine .inr (sumsBelow_of_packsAll sizes (fun file isFile => ?_) packsAll)
      exact not_lt.mp fun isLarge => large ⟨file, isFile, isLarge⟩
  · rintro (large | below)
    · exact packsAll_of_large large
    · by_cases large : ∃ file ∈ files, config.maxPackPlaintextBytes < file.sizeBytes
      · exact packsAll_of_large large
      · refine packsAll_of_sumsBelow sizes distinct (fun file isFile => ?_) below
        exact not_lt.mp fun isLarge => large ⟨file, isFile, isLarge⟩

/-! ## Samples -/

section Samples

def sampleCrates : PlanCrates where
  blake3 bytes := bytes.map fun byte => Char.ofNat byte.toNat
  treeJson entries := entries.flatMap fun entry => Text.utf8 (String.ofList entry.normalizedPath)
  formatSizeMb bytes := toString (bytes / (1024 * 1024))

def scanned (name : String) (plaintext : Plaintext) (sizeBytes : Int) : ScannedContent where
  fileId := "file_".toList ++ name.toList
  path := name.toList
  normalizedPath := name.toList
  plaintextHash := name.toList
  sizeBytes
  plaintext

def testFiles : List ScannedContent :=
  [scanned "b.md" [98, 98, 98, 98] 4, scanned "a.md" [97, 97, 97, 97] 4,
    scanned "c.md" [99, 99, 99, 99] 4]

theorem packsAll_test_files : PacksAll sampleCrates testFiles checkpointPackKind ⟨8⟩ :=
  (packsAll_iff sampleCrates checkpointPackKind ⟨8⟩ testFiles
    ⟨by decide, by decide, by decide⟩ (by unfold Table.Keyed; decide)).mpr (.inr (by decide))

example : (assignPackEntries sampleCrates testFiles checkpointPackKind ⟨8⟩).toOption.map
    (List.map fun shard => shard.entries.length) = some [2, 1] := by decide

/-- Two files of half the range of the sizes. -/
def hugeFiles (first second : Plaintext) : List ScannedContent :=
  [scanned "a.md" first (2 ^ 62), scanned "b.md" second (2 ^ 62)]

theorem not_packsAll_huge (first second : Plaintext) :
    ¬PacksAll sampleCrates (hugeFiles first second) checkpointPackKind ⟨2 ^ 63 - 1⟩ := by
  intro packsAll
  have isSorted : sortedByPath (hugeFiles first second) = hugeFiles first second := by
    have ordered : (scanned "a.md" first (2 ^ 62)).normalizedPath ≤
        (scanned "b.md" second (2 ^ 62)).normalizedPath :=
      show "a.md".toList ≤ "b.md".toList by decide
    exact orderedInsert_cons_of_le (fun a b : ScannedContent =>
      a.normalizedPath ≤ b.normalizedPath) [] ordered
  have sizes : Sizes ⟨2 ^ 63 - 1⟩ (hugeFiles first second) := by
    refine ⟨by decide, by decide, ?_⟩
    simp [hugeFiles, scanned]
  have below := sumsBelow_of_packsAll sizes (by simp [hugeFiles, scanned]) packsAll
  rw [isSorted] at below
  simp [Shards.SumsBelow, Shards.total, hugeFiles, scanned, weight] at below

theorem huge_files_wrap : ¬PacksAll sampleCrates
    (hugeFiles (List.replicate (2 ^ 62) 0) (List.replicate (2 ^ 62) 0)) checkpointPackKind
    ⟨2 ^ 63 - 1⟩ :=
  not_packsAll_huge _ _

end Samples

end Kuku.Sync.Planner
