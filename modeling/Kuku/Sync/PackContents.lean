/-
# Sync.PackContents -- what an accepted pack holds

The reader takes a pack for complete when it has one file more than its index has lines.  That
counts the lines, not the ids: each line that repeats an id makes room for a file that the
index does not name (`accounted_iff`).
-/
import Kuku.Sync.Packer

namespace Kuku.Sync.Packer

open Kuku.Theory List Assoc

variable {crates : PackCrates} {files before after : Assoc Str Plaintext} {pack : List UInt8}
  {index : PackIndex} {item : PackIndexEntry} {items : List PackIndexEntry} {bytes : Plaintext}

def PackIndex.paths (index : PackIndex) : List Str :=
  packIndexPath :: index.entries.map fun item => entryPath item.entryId

/-- The archive is the index and the files it lists, each once, as its lines say. -/
structure Accounted (crates : PackCrates) (files : Assoc Str Plaintext)
    (unpacked : UnpackedPack) : Prop where
  paths : ∀ path, path ∈ files.map Prod.fst ↔ path ∈ unpacked.index.paths
  once : (unpacked.index.entries.map PackIndexEntry.entryId).Nodup
  count : unpacked.index.entries.length = unpacked.entries.length
  lines : ∀ item ∈ unpacked.index.entries, ∃ bytes, unpacked.entries.get item.entryId = some bytes ∧
    sizeOf bytes = item.sizeBytes ∧ crates.blake3 bytes = item.plaintextHash
  listed : ∀ entryId bytes, unpacked.entries.get entryId = some bytes →
    entryId ∈ unpacked.index.entries.map PackIndexEntry.entryId

/-- Whatever the reader returns is accounted for. -/
def AdmitsAccounted (crates : PackCrates) (pack : List UInt8) : Prop :=
  ∀ unpacked, unpackPlainPack crates pack = .ok unpacked →
    ∃ files, readCanonicalTarFiles crates pack = .ok files ∧ Accounted crates files unpacked

/-! ## The condition -/

/-- The line names a file of the archive, with its size and its hash. -/
def BorneOut (crates : PackCrates) (files : Assoc Str Plaintext) (item : PackIndexEntry) : Prop :=
  ValidEntryId item.entryId ∧ ∃ bytes, files.get (entryPath item.entryId) = some bytes ∧
    sizeOf bytes = item.sizeBytes ∧ crates.blake3 bytes = item.plaintextHash

/-- The archive has these files and this index, and every line of the index is borne out. -/
structure Holds (crates : PackCrates) (pack : List UInt8) (files : Assoc Str Plaintext)
    (index : PackIndex) : Prop where
  read : readCanonicalTarFiles crates pack = .ok files
  decoded : ∃ bytes, files.get packIndexPath = some bytes ∧ crates.indexOfJson bytes = .ok index
  format : index.format = packFormat ∧ index.version = 1
  lines : ∀ item ∈ index.entries, BorneOut crates files item

def PackIndex.ids (index : PackIndex) : List Str := (index.entries.map PackIndexEntry.entryId).dedup

/-- How many lines repeat an id. -/
def PackIndex.repeated (index : PackIndex) : Nat := index.entries.length - index.ids.length

/-- How many files the index does not name. -/
def unreferenced (files : Assoc Str Plaintext) (index : PackIndex) : Nat :=
  files.countP fun file => file.1 ∉ index.paths

/-- The lines that repeat an id are not as many as the files that no line names. -/
def NotMadeUp (crates : PackCrates) (pack : List UInt8) : Prop :=
  ∀ files index, Holds crates pack files index →
    index.repeated = unreferenced files index → index.repeated = 0

/-! ## The reader -/

theorem readEntry_ok_iff : readEntry crates files item = .ok bytes ↔
    ValidEntryId item.entryId ∧ files.get (entryPath item.entryId) = some bytes ∧
      sizeOf bytes = item.sizeBytes ∧ crates.blake3 bytes = item.plaintextHash := by
  rw [readEntry, bind_ok, ← validateEntryId_ok]
  constructor
  · rintro ⟨⟨⟩, isValid, read⟩
    refine ⟨isValid, ?_⟩
    cases held : files.get (entryPath item.entryId) with
    | none =>
      rw [held] at read
      cases read
    | some found =>
      rw [held] at read
      dsimp only at read
      by_cases isSize : sizeOf found = item.sizeBytes
      · rw [if_neg (not_not.mpr isSize)] at read
        by_cases isHash : crates.blake3 found = item.plaintextHash
        · rw [if_neg (not_not.mpr isHash)] at read
          cases read
          exact ⟨rfl, isSize, isHash⟩
        · rw [if_pos isHash] at read
          cases read
      · rw [if_pos isSize] at read
        cases read
  · rintro ⟨isValid, held, isSize, isHash⟩
    refine ⟨(), isValid, ?_⟩
    rw [held]
    dsimp only
    rw [if_neg (not_not.mpr isSize), if_neg (not_not.mpr isHash)]
    rfl

theorem borneOut_iff : BorneOut crates files item ↔
    ∃ bytes, readEntry crates files item = .ok bytes := by
  simp only [readEntry_ok_iff, BorneOut, exists_and_left]

theorem readEntries_cons_ok : readEntries crates files (item :: items) before = .ok after ↔
    ∃ bytes, readEntry crates files item = .ok bytes ∧
      readEntries crates files items (before.set item.entryId bytes) = .ok after := by
  rw [readEntries, bind_ok]

theorem exists_readEntries (lines : ∀ item ∈ items, BorneOut crates files item) :
    ∃ after, readEntries crates files items before = .ok after := by
  induction items generalizing before with
  | nil => exact ⟨before, rfl⟩
  | cons item items ih =>
    obtain ⟨isFirst, isRest⟩ := forall_mem_cons.mp lines
    obtain ⟨bytes, read⟩ := borneOut_iff.mp isFirst
    have rest : ∃ after,
        readEntries crates files items (before.set item.entryId bytes) = .ok after := ih isRest
    obtain ⟨after, isAfter⟩ := rest
    exact ⟨after, readEntries_cons_ok.mpr ⟨bytes, read, isAfter⟩⟩

/-- What the loop over the lines has made: every line is borne out, and the ids of the lines lead
to their files. -/
structure Entered (crates : PackCrates) (files : Assoc Str Plaintext)
    (items : List PackIndexEntry) (before after : Assoc Str Plaintext) : Prop where
  lines : ∀ item ∈ items, BorneOut crates files item
  listed : ∀ item ∈ items, after.get item.entryId = files.get (entryPath item.entryId)
  kept : ∀ entryId, entryId ∉ items.map PackIndexEntry.entryId →
    after.get entryId = before.get entryId
  keys : ∀ entryId, entryId ∈ after.map Prod.fst ↔
    entryId ∈ before.map Prod.fst ∨ entryId ∈ items.map PackIndexEntry.entryId
  distinct : (before.map Prod.fst).Nodup → (after.map Prod.fst).Nodup

theorem entered_of_readEntries (ran : readEntries crates files items before = .ok after) :
    Entered crates files items before after := by
  induction items generalizing before with
  | nil =>
    cases ran
    exact ⟨nofun, nofun, fun _ _ => rfl, fun entryId => by simp, id⟩
  | cons item items ih =>
    obtain ⟨bytes, read, rest⟩ := readEntries_cons_ok.mp ran
    have entered := ih rest
    obtain ⟨-, held, -⟩ := readEntry_ok_iff.mp read
    constructor
    · exact forall_mem_cons.mpr ⟨borneOut_iff.mpr ⟨bytes, read⟩, entered.lines⟩
    · refine forall_mem_cons.mpr ⟨?_, entered.listed⟩
      by_cases again : item.entryId ∈ items.map PackIndexEntry.entryId
      · obtain ⟨other, later, same⟩ := mem_map.mp again
        rw [← same]
        exact entered.listed other later
      · rw [entered.kept _ again, get_set_self, held]
    · intro entryId absent
      rw [map_cons, mem_cons, not_or] at absent
      rw [entered.kept entryId absent.2, get_set_of_ne absent.1]
    · intro entryId
      rw [entered.keys entryId, Assoc.mem_keys, map_cons, mem_cons]
      by_cases isIt : entryId = item.entryId
      · rw [isIt, get_set_self]
        simp
      · rw [get_set_of_ne isIt, ← Assoc.mem_keys]
        simp [isIt]
    · exact fun distinct => entered.distinct (nodup_set distinct)

/-- The files of an archive go by distinct paths. -/
theorem nodup_readTarEntries {entries : List (Except SyncError TarEntry)}
    (read : readTarEntries entries before = .ok files)
    (distinct : (before.map Prod.fst).Nodup) : (files.map Prod.fst).Nodup := by
  induction entries generalizing before with
  | nil =>
    cases read
    exact distinct
  | cons entry entries ih =>
    obtain ⟨entry, -, read⟩ := bind_ok.mp read
    split_ifs at read
    · cases read
    obtain ⟨raw, -, read⟩ := bind_ok.mp read
    obtain ⟨path, -, read⟩ := bind_ok.mp read
    obtain ⟨bytes, -, read⟩ := bind_ok.mp read
    dsimp only at read
    split_ifs at read with isThere
    · cases read
    refine ih read ?_
    rw [map_append, map_singleton, nodup_append]
    refine ⟨distinct, nodup_singleton _, ?_⟩
    rintro other among _ isPath rfl
    rw [mem_singleton] at isPath
    rw [isPath, Assoc.mem_keys] at among
    exact isThere among

theorem Holds.distinct (holds : Holds crates pack files index) : (files.map Prod.fst).Nodup := by
  obtain ⟨entries, -, read⟩ := bind_ok.mp holds.read
  exact nodup_readTarEntries read nodup_nil

theorem unpack_ok {unpacked : UnpackedPack} :
    unpackPlainPack crates pack = .ok unpacked ↔
      ∃ files, Holds crates pack files unpacked.index ∧
        readEntries crates files unpacked.index.entries [] = .ok unpacked.entries ∧
        files.length = unpacked.index.entries.length + 1 := by
  rw [unpackPlainPack, bind_ok]
  constructor
  · rintro ⟨files, read, unpacks⟩
    cases hasIndex : files.get packIndexPath with
    | none =>
      rw [hasIndex] at unpacks
      cases unpacks
    | some bytes =>
      rw [hasIndex] at unpacks
      obtain ⟨index, decoded, unpacks⟩ := bind_ok.mp unpacks
      by_cases foreign : index.format ≠ packFormat ∨ index.version ≠ 1
      · rw [if_pos foreign] at unpacks
        cases unpacks
      · rw [if_neg foreign] at unpacks
        obtain ⟨entries, entered, unpacks⟩ := bind_ok.mp unpacks
        by_cases counts : files.length = index.entries.length + 1
        · rw [if_neg (not_not.mpr counts)] at unpacks
          cases unpacks
          rw [not_or, not_not, not_not] at foreign
          exact ⟨files, ⟨read, ⟨bytes, hasIndex, decoded⟩, foreign,
            (entered_of_readEntries entered).lines⟩, entered, counts⟩
        · rw [if_pos counts] at unpacks
          cases unpacks
  · rintro ⟨files, ⟨read, ⟨bytes, hasIndex, decoded⟩, format, -⟩, entered, counts⟩
    refine ⟨files, read, ?_⟩
    rw [hasIndex]
    refine bind_ok.mpr ⟨unpacked.index, decoded, ?_⟩
    rw [if_neg (by rw [not_or, not_not, not_not]; exact format)]
    refine bind_ok.mpr ⟨unpacked.entries, entered, ?_⟩
    rw [if_neg (not_not.mpr counts)]
    rfl

/-! ## Counting -/

theorem PackIndex.dedup_paths : index.paths.dedup = packIndexPath :: index.ids.map entryPath := by
  have isPaths : index.paths =
      packIndexPath :: (index.entries.map PackIndexEntry.entryId).map entryPath := by
    rw [PackIndex.paths, map_map]
    rfl
  have isApart : packIndexPath ∉ (index.entries.map PackIndexEntry.entryId).map entryPath := by
    intro among
    obtain ⟨entryId, -, same⟩ := mem_map.mp among
    have firsts : some 'e' = some 'p' := congrArg List.head? same
    exact absurd firsts (by decide)
  have inj : Function.Injective entryPath := fun _ _ => entryPath_inj
  rw [isPaths, dedup_cons_of_notMem isApart, dedup_map_of_injective inj, PackIndex.ids]

/-- Each path of the index is that of a file. -/
theorem Holds.named (holds : Holds crates pack files index) {path : Str}
    (among : path ∈ index.paths) : path ∈ files.map Prod.fst := by
  rcases mem_cons.mp among with rfl | isEntry
  · obtain ⟨bytes, held, -⟩ := holds.decoded
    exact Assoc.mem_keys.mpr (by rw [held]; rfl)
  · obtain ⟨item, isItem, rfl⟩ := mem_map.mp isEntry
    obtain ⟨-, bytes, held, -⟩ := holds.lines item isItem
    exact Assoc.mem_keys.mpr (by rw [held]; rfl)

/-- The files are the index, one for each id, and those that no line names. -/
theorem Holds.length_files (holds : Holds crates pack files index) :
    files.length = index.ids.length + 1 + unreferenced files index := by
  have referenced : ((files.map Prod.fst).filter fun path => path ∈ index.paths).Perm
      index.paths.dedup := by
    rw [perm_ext_iff_of_nodup (holds.distinct.filter _) (nodup_dedup _)]
    intro path
    rw [mem_filter, decide_eq_true_eq, mem_dedup]
    exact ⟨And.right, fun among => ⟨holds.named among, among⟩⟩
  have isLength := referenced.length_eq
  rw [PackIndex.dedup_paths, length_cons, length_map, ← countP_eq_length_filter,
    countP_map] at isLength
  have all := length_eq_countP_add_countP (fun file => decide (file.1 ∈ index.paths)) (l := files)
  have isRest : files.countP (fun file => ¬ (decide (file.1 ∈ index.paths)) = true) =
      unreferenced files index := by
    simp only [unreferenced, decide_eq_true_eq]
  rw [isRest] at all
  rw [all]
  exact congrArg (· + unreferenced files index) isLength

theorem PackIndex.length_entries : index.entries.length = index.ids.length + index.repeated := by
  have le : index.ids.length ≤ index.entries.length := by
    have sub := (dedup_sublist (index.entries.map PackIndexEntry.entryId)).length_le
    rwa [length_map] at sub
  rw [PackIndex.repeated]
  omega

theorem PackIndex.repeated_eq_zero : index.repeated = 0 ↔
    (index.entries.map PackIndexEntry.entryId).Nodup := by
  rw [← dedup_eq_self]
  have isLength := index.length_entries
  constructor
  · intro none
    refine (dedup_sublist _).eq_of_length ?_
    rw [length_map]
    have isWhole : index.ids.length = index.entries.length := by omega
    exact isWhole
  · intro same
    have sameLength := congrArg List.length same
    rw [length_map] at sameLength
    have isIds : index.ids.length = index.entries.length := sameLength
    omega

/-- The reader's count is right when no line repeats an id as often as a file goes unnamed. -/
theorem Holds.counts_iff (holds : Holds crates pack files index) :
    files.length = index.entries.length + 1 ↔ index.repeated = unreferenced files index := by
  rw [holds.length_files, index.length_entries]
  omega

/-! ## What is returned is accounted for -/

theorem Holds.accounted {unpacked : UnpackedPack} (holds : Holds crates pack files unpacked.index)
    (entered : readEntries crates files unpacked.index.entries [] = .ok unpacked.entries)
    (counts : files.length = unpacked.index.entries.length + 1)
    (once : unpacked.index.repeated = 0) : Accounted crates files unpacked := by
  have isEntered := entered_of_readEntries entered
  have distinct := PackIndex.repeated_eq_zero.mp once
  have noneLeft : unreferenced files unpacked.index = 0 := (holds.counts_iff.mp counts).symm.trans once
  have listed : ∀ entryId, entryId ∈ unpacked.entries.map Prod.fst ↔
      entryId ∈ unpacked.index.entries.map PackIndexEntry.entryId := by
    intro entryId
    rw [isEntered.keys entryId]
    simp
  constructor
  · refine fun path => ⟨fun among => ?_, holds.named⟩
    obtain ⟨file, isFile, rfl⟩ := mem_map.mp among
    rw [unreferenced, countP_eq_zero] at noneLeft
    have isNamed := noneLeft file isFile
    rwa [decide_eq_true_eq, not_not] at isNamed
  · exact distinct
  · have perm : (unpacked.entries.map Prod.fst).Perm
        (unpacked.index.entries.map PackIndexEntry.entryId) := by
      rw [perm_ext_iff_of_nodup (isEntered.distinct nodup_nil) distinct]
      exact listed
    have sameLength := perm.length_eq
    rw [length_map, length_map] at sameLength
    exact sameLength.symm
  · intro item among
    obtain ⟨-, bytes, held, isSize, isHash⟩ := isEntered.lines item among
    exact ⟨bytes, (isEntered.listed item among).trans held, isSize, isHash⟩
  · intro entryId bytes held
    rw [← listed, Assoc.mem_keys, held]
    rfl

/-- **What the reader accepts is accounted for exactly when no repeated line makes up for a file
that no line names.** -/
theorem accounted_iff (crates : PackCrates) (pack : List UInt8) :
    AdmitsAccounted crates pack ↔ NotMadeUp crates pack := by
  constructor
  · intro admits files index holds madeUp
    obtain ⟨entries, entered⟩ : ∃ entries, readEntries crates files index.entries [] = .ok entries :=
      exists_readEntries holds.lines
    have accepted : unpackPlainPack crates pack = .ok ⟨index, entries⟩ :=
      unpack_ok.mpr ⟨files, holds, entered, holds.counts_iff.mpr madeUp⟩
    obtain ⟨_, -, accounted⟩ := admits _ accepted
    exact PackIndex.repeated_eq_zero.mpr accounted.once
  · intro notMadeUp unpacked accepted
    obtain ⟨files, holds, entered, counts⟩ := unpack_ok.mp accepted
    have once := notMadeUp files unpacked.index holds (holds.counts_iff.mp counts)
    exact ⟨files, holds.read, holds.accounted entered counts once⟩

/-! ## A pack whose index repeats an id -/

/-- Two lines for `a`, none for `b`. -/
def repeatingIndex : PackIndex :=
  ⟨packFormat, 1, "p".toList, [⟨"a".toList, emptyHash, 0⟩, ⟨"a".toList, emptyHash, 0⟩]⟩

def repeatingFiles : List (Str × Plaintext) :=
  packFiles (indexText repeatingIndex) [⟨"a".toList, []⟩, ⟨"b".toList, []⟩]

theorem read_sample (index : PackIndex) (files : List (Str × Plaintext)) :
    readCanonicalTarFiles (sampleCrates index files) (ustar files) =
      readTarEntries (files.map regularFile) [] := by
  rw [readCanonicalTarFiles]
  simp only [sampleCrates, if_true]
  rfl

theorem repeating_holds : Holds (sampleCrates repeatingIndex repeatingFiles)
    (ustar repeatingFiles) repeatingFiles repeatingIndex := by
  have distinct : (repeatingFiles.map Prod.fst).Nodup := nodup_packFiles _ (by decide)
  have valid : ∀ entryId ∈ ["a".toList, "b".toList], ValidEntryId entryId := by
    intro entryId among
    simp only [mem_cons, not_mem_nil, or_false] at among
    rcases among with rfl | rfl
    · exact validateEntryId_ok.mp rfl
    · exact validateEntryId_ok.mp rfl
  have held : get repeatingFiles (entryPath "a".toList) = some [] :=
    get_of_mem distinct (mem_cons_of_mem _ mem_cons_self)
  constructor
  · rw [read_sample]
    refine readTarEntries_regular ?_ distinct
    intro file among
    simp only [repeatingFiles, packFiles, map_cons, map_nil, mem_cons,
      not_mem_nil, or_false] at among
    rcases among with rfl | rfl | rfl
    · exact validateTarPath_packIndexPath
    · exact validateTarPath_entryPath (valid _ (by simp))
    · exact validateTarPath_entryPath (valid _ (by simp))
  · refine ⟨indexText repeatingIndex, get_of_mem distinct mem_cons_self, ?_⟩
    simp only [sampleCrates, if_true]
  · exact ⟨rfl, rfl⟩
  · intro item among
    have isLine : item = ⟨"a".toList, emptyHash, 0⟩ := by
      simpa only [repeatingIndex, mem_cons, not_mem_nil, or_false, or_self] using among
    rw [isLine]
    refine ⟨valid _ (by simp), [], held, rfl, ?_⟩
    simp only [sampleCrates, if_true]

/-- The reader takes the file `b`, which no line names, for the second `a`. -/
theorem repeating_accepted : ¬ ∀ crates pack, AdmitsAccounted crates pack := by
  intro claim
  have madeUp : repeatingIndex.repeated = unreferenced repeatingFiles repeatingIndex := by
    decide +kernel
  obtain ⟨entries, entered⟩ : ∃ entries,
      readEntries (sampleCrates repeatingIndex repeatingFiles) repeatingFiles
        repeatingIndex.entries [] = .ok entries := exists_readEntries repeating_holds.lines
  have accepted : unpackPlainPack (sampleCrates repeatingIndex repeatingFiles)
      (ustar repeatingFiles) = .ok ⟨repeatingIndex, entries⟩ :=
    unpack_ok.mpr ⟨repeatingFiles, repeating_holds, entered, repeating_holds.counts_iff.mpr madeUp⟩
  obtain ⟨_, -, accounted⟩ := claim _ _ _ accepted
  have once : (repeatingIndex.entries.map PackIndexEntry.entryId).Nodup := accounted.once
  exact absurd once (by decide)

end Kuku.Sync.Packer
