/-
# Sync.Packer -- a pack of files and what is read back of it

A pack is a tar archive: an index, `pack-index.json`, and one file for each entry under
`entries/`.  The writer (`create_plain_pack`) sorts the entries by id, so that the bytes do not
depend on the order they come in; the reader (`unpack_plain_pack`) checks every line of the
index against the file it names.

The tar crate, `serde_json` on the index and BLAKE3 are parameters.  A tar path is its bytes on
Unix, and the files of an archive go by the path that `validate_tar_path` makes of it.
-/
import Kuku.Sync.Scanner
import Kuku.Theory.Store
import Kuku.Theory.Utf8

namespace Kuku.Sync.Packer

open Kuku.Theory List Text Table

structure PackEntryInput where
  entryId : Str
  plaintext : Plaintext

structure PackIndexEntry where
  entryId : Str
  plaintextHash : Str
  sizeBytes : Int

structure PackIndex where
  format : Str
  version : Nat
  packId : Str
  entries : List PackIndexEntry

structure UnpackedPack where
  index : PackIndex
  entries : Assoc Str Plaintext

/-- One turn of the iterator over an archive: the header's type, the path and the data. -/
structure TarEntry where
  isFile : Bool
  path : Except SyncError (List UInt8)
  bytes : Except SyncError Plaintext

structure PackCrates where
  blake3 : Plaintext → Str
  /-- `append_canonical_file` for each path and its bytes, and `finish`. -/
  tarFiles : List (Str × Plaintext) → Except SyncError (List UInt8)
  /-- `Archive::entries`. -/
  tarEntries : List UInt8 → Except SyncError (List (Except SyncError TarEntry))
  /-- `serde_json::to_vec` and `serde_json::from_slice` at `PackIndex`. -/
  indexJson : PackIndex → Except SyncError Plaintext
  indexOfJson : Plaintext → Except SyncError PackIndex

def packIndexPath : Str := "pack-index.json".toList
def entriesDir : Str := "entries".toList
def packFormat : Str := "kuku.sync.pack".toList

/-- `format!("{ENTRIES_DIR}/{id}")`. -/
def entryPath (entryId : Str) : Str := entriesDir ++ '/' :: entryId

/-- `bytes.len().min(i64::MAX as usize) as i64`. -/
def sizeOf (bytes : Plaintext) : Int := min bytes.length (2 ^ 63 - 1)

def isEntryIdChar (c : Char) : Bool :=
  ('a' ≤ c ∧ c ≤ 'z') || ('A' ≤ c ∧ c ≤ 'Z') || ('0' ≤ c ∧ c ≤ '9') ||
    c = '-' || c = '_' || c = '.'

def validateEntryId (entryId : Str) : Except SyncError Unit :=
  if entryId = [] || entryId = ".".toList || entryId = "..".toList || '/' ∈ entryId ||
      '\\' ∈ entryId || !entryId.all isEntryIdChar then
    .error (.invalidArgument "invalid pack entry id")
  else .ok ()

variable (crates : PackCrates)

/-! ## The writer -/

def validateEntryIds : List PackEntryInput → Except SyncError Unit
  | [] => .ok ()
  | entry :: entries => do
    validateEntryId entry.entryId
    validateEntryIds entries

/-- `windows(2).any(..)`. -/
def repeatsEntryId : List PackEntryInput → Bool
  | first :: second :: entries =>
    first.entryId = second.entryId || repeatsEntryId (second :: entries)
  | _ => false

def packIndex (packId : Str) (entries : List PackEntryInput) : PackIndex where
  format := packFormat
  version := 1
  packId
  entries := entries.map fun entry =>
    { entryId := entry.entryId
      plaintextHash := crates.blake3 entry.plaintext
      sizeBytes := sizeOf entry.plaintext }

/-- The files of the archive, in the order they are appended. -/
def packFiles (indexJson : Plaintext) (entries : List PackEntryInput) : List (Str × Plaintext) :=
  (packIndexPath, indexJson) :: entries.map fun entry => (entryPath entry.entryId, entry.plaintext)

def createPlainPack (packId : Str) (entries : List PackEntryInput) :
    Except SyncError (List UInt8) := do
  let entries := sorted PackEntryInput.entryId entries
  validateEntryIds entries
  if repeatsEntryId entries then throw (.invalidArgument "duplicate pack entry id")
  let indexJson ← crates.indexJson (packIndex crates packId entries)
  crates.tarFiles (packFiles indexJson entries)

/-! ## The reader -/

/-- `std::path::Component`. -/
inductive Component where
  | rootDir
  | curDir
  | parentDir
  | normal (name : List UInt8)

/-- `Path::components`: of the dots only the one at the front is seen. -/
def components (path : List UInt8) : List Component :=
  let names := path.splitOn 47
  (if path.head? = some 47 then [.rootDir]
    else if names.head? = some [46] then [.curDir] else []) ++
    names.filterMap fun name =>
      if name = [] ∨ name = [46] then none
      else if name = [46, 46] then some .parentDir
      else some (.normal name)

def normalParts : List Component → Except SyncError (List Str)
  | [] => .ok []
  | .normal name :: rest => do
    let some value := decodeUtf8 name
      | throw (.crypto "pack tar path is not utf-8")
    if value = [] then throw (.crypto "pack tar path has empty segment")
    let parts ← normalParts rest
    return value :: parts
  | _ :: _ => .error (.crypto "pack tar path traversal is not allowed")

def validateTarPath (path : List UInt8) : Except SyncError Str := do
  let parts ← normalParts (components path)
  match parts with
  | [] => throw (.crypto "pack tar path is empty")
  | [name] =>
    if name = packIndexPath then return packIndexPath
    throw (.crypto "unexpected pack tar path")
  | [dir, name] =>
    if dir = entriesDir then do
      validateEntryId name
      return entryPath name
    throw (.crypto "unexpected pack tar path")
  | _ => throw (.crypto "unexpected pack tar path")

/-- The loop over the entries of the archive; `files` are the ones before. -/
def readTarEntries : List (Except SyncError TarEntry) → Assoc Str Plaintext →
    Except SyncError (Assoc Str Plaintext)
  | [], files => .ok files
  | entry :: rest, files => do
    let entry ← entry
    if !entry.isFile then throw (.crypto "pack contains non-file tar entry")
    let path ← entry.path
    let path ← validateTarPath path
    let bytes ← entry.bytes
    if (files.get path).isSome then
      throw (.crypto ("duplicate pack tar path: " ++ String.ofList path))
    readTarEntries rest (files ++ [(path, bytes)])

def readCanonicalTarFiles (pack : List UInt8) : Except SyncError (Assoc Str Plaintext) := do
  let entries ← crates.tarEntries pack
  readTarEntries entries []

/-- A line of the index, against the file it names. -/
def readEntry (files : Assoc Str Plaintext) (item : PackIndexEntry) :
    Except SyncError Plaintext := do
  validateEntryId item.entryId
  let some bytes := files.get (entryPath item.entryId)
    | throw (.crypto ("pack entry missing: " ++ String.ofList item.entryId))
  if sizeOf bytes ≠ item.sizeBytes then
    throw (.crypto ("pack entry size mismatch: " ++ String.ofList item.entryId))
  if crates.blake3 bytes ≠ item.plaintextHash then
    throw (.crypto ("pack entry hash mismatch: " ++ String.ofList item.entryId))
  return bytes

/-- The loop over the lines of the index; `entries` are the ones before. -/
def readEntries (files : Assoc Str Plaintext) : List PackIndexEntry → Assoc Str Plaintext →
    Except SyncError (Assoc Str Plaintext)
  | [], entries => .ok entries
  | item :: items, entries => do
    let bytes ← readEntry crates files item
    readEntries files items (entries.set item.entryId bytes)

def unpackPlainPack (pack : List UInt8) : Except SyncError UnpackedPack := do
  let files ← readCanonicalTarFiles crates pack
  let some indexBytes := files.get packIndexPath
    | throw (.crypto "pack index missing")
  let index ← crates.indexOfJson indexBytes
  if index.format ≠ packFormat ∨ index.version ≠ 1 then
    throw (.unsupportedVersion index.version)
  let entries ← readEntries crates files index.entries []
  if files.length ≠ index.entries.length + 1 then
    throw (.crypto "pack contains unreferenced entries")
  return ⟨index, entries⟩

/-! ## Ids and paths -/

section Paths

variable {entryId : Str} {c : Char}

structure ValidEntryId (entryId : Str) : Prop where
  named : entryId ≠ [] ∧ entryId ≠ ".".toList ∧ entryId ≠ "..".toList
  plain : ∀ c ∈ entryId, isEntryIdChar c = true

theorem slash_of_isEntryIdChar (plain : isEntryIdChar c = true) : c ≠ '/' ∧ c ≠ '\\' := by
  constructor
  · rintro rfl
    exact absurd plain (by decide)
  · rintro rfl
    exact absurd plain (by decide)

theorem validateEntryId_ok : validateEntryId entryId = .ok () ↔ ValidEntryId entryId := by
  unfold validateEntryId
  split_ifs with invalid
  · refine iff_of_false nofun fun valid => ?_
    simp only [Bool.or_eq_true, decide_eq_true_eq, Bool.not_eq_true', all_eq_false] at invalid
    rcases invalid with ((((isNil | isDot) | isDots) | isSlash) | isBack) | ⟨c, among, notPlain⟩
    · exact valid.named.1 isNil
    · exact valid.named.2.1 isDot
    · exact valid.named.2.2 isDots
    · exact (slash_of_isEntryIdChar (valid.plain _ isSlash)).1 rfl
    · exact (slash_of_isEntryIdChar (valid.plain _ isBack)).2 rfl
    · exact notPlain (valid.plain c among)
  · simp only [Bool.or_eq_true, decide_eq_true_eq, Bool.not_eq_true', not_or,
      Bool.not_eq_false, all_eq_true] at invalid
    obtain ⟨⟨⟨⟨⟨notNil, notDot⟩, notDots⟩, -⟩, -⟩, plain⟩ := invalid
    exact iff_of_true rfl ⟨⟨notNil, notDot, notDots⟩, plain⟩

theorem utf8_ofList_inj {first second : Str}
    (same : utf8 (String.ofList first) = utf8 (String.ofList second)) :
    first = second := by
  have decoded := congrArg decodeUtf8 same
  rw [decodeUtf8_utf8, decodeUtf8_utf8, String.toList_ofList, String.toList_ofList] at decoded
  exact Option.some.inj decoded

theorem components_entryPath (valid : ValidEntryId entryId) :
    components (utf8 (String.ofList (entryPath entryId))) =
      [.normal (utf8 (String.ofList entriesDir)), .normal (utf8 (String.ofList entryId))] := by
  have isPath : utf8 (String.ofList (entryPath entryId)) =
      utf8 (String.ofList entriesDir) ++ 47 :: utf8 (String.ofList entryId) := by
    simp only [utf8, String.toList_ofList, entryPath, flatMap_append, flatMap_cons]
    rfl
  have noSlash : (47 : UInt8) ∉ utf8 (String.ofList entryId) := by
    intro among
    have isSlash := (mem_utf8_iff (c := '/') rfl).mp among
    rw [String.toList_ofList] at isSlash
    exact (slash_of_isEntryIdChar (valid.plain _ isSlash)).1 rfl
  have isSplit : (utf8 (String.ofList (entryPath entryId))).splitOn 47 =
      [utf8 (String.ofList entriesDir), utf8 (String.ofList entryId)] := by
    rw [isPath, splitOn_append_cons_self, splitOn_eq_singleton noSlash,
      splitOn_eq_singleton (by decide +kernel)]
    rfl
  have differs : ∀ name : Str, entryId ≠ name →
      utf8 (String.ofList entryId) ≠ utf8 (String.ofList name) :=
    fun name notName same => notName (utf8_ofList_inj same)
  have notNil : utf8 (String.ofList entryId) ≠ [] := differs [] valid.named.1
  have notDot : utf8 (String.ofList entryId) ≠ [46] := differs ".".toList valid.named.2.1
  have notDots : utf8 (String.ofList entryId) ≠ [46, 46] := differs "..".toList valid.named.2.2
  have isHead : (utf8 (String.ofList (entryPath entryId))).head? = some 101 := by
    rw [isPath]
    rfl
  have isDir : utf8 (String.ofList entriesDir) = [101, 110, 116, 114, 105, 101, 115] := by
    decide +kernel
  have kept : ¬ (utf8 (String.ofList entryId) = [] ∨
      utf8 (String.ofList entryId) = [46]) := not_or.mpr ⟨notNil, notDot⟩
  rw [components, isSplit, isHead, filterMap_cons, filterMap_cons, filterMap_nil,
    if_neg kept, if_neg notDots, isDir]
  rfl

/-- The writer's paths are canonical. -/
theorem validateTarPath_entryPath (valid : ValidEntryId entryId) :
    validateTarPath (utf8 (String.ofList (entryPath entryId))) = .ok (entryPath entryId) := by
  have parts : normalParts (components (utf8 (String.ofList (entryPath entryId)))) =
      .ok [entriesDir, entryId] := by
    rw [components_entryPath valid]
    simp only [normalParts, decodeUtf8_utf8, String.toList_ofList]
    rw [if_neg valid.named.1]
    rfl
  rw [validateTarPath, parts]
  simp only [bind, Except.bind, if_true]
  rw [validateEntryId_ok.mpr valid]
  rfl

theorem validateTarPath_packIndexPath :
    validateTarPath (utf8 (String.ofList packIndexPath)) = .ok packIndexPath := by
  decide +kernel

end Paths

/-! ## What the reader makes of the writer's archive -/

section RoundTrip

variable {crates} {packId : Str} {entries others : List PackEntryInput}
  {files before : Assoc Str Plaintext}

/-- A regular file, as the iterator over the archive shows it. -/
def regularFile (file : Str × Plaintext) : Except SyncError TarEntry :=
  .ok ⟨true, .ok (utf8 (String.ofList file.1)), .ok file.2⟩

theorem readTarEntries_regular
    (canonical : ∀ file ∈ files, validateTarPath (utf8 (String.ofList file.1)) = .ok file.1)
    (distinct : ((before ++ files).map Prod.fst).Nodup) :
    readTarEntries (files.map regularFile) before = .ok (before ++ files) := by
  induction files generalizing before with
  | nil => rw [append_nil]; rfl
  | cons file files ih =>
    have isFresh : before.get file.1 = none := by
      apply Assoc.get_eq_none
      rw [map_append, nodup_append] at distinct
      exact fun among => distinct.2.2 _ among _ mem_cons_self rfl
    have isSplit : before ++ file :: files = (before ++ [file]) ++ files := by
      rw [append_assoc]
      rfl
    rw [isSplit] at distinct ⊢
    have rest := ih (fun other later => canonical other (mem_cons_of_mem _ later)) distinct
    rw [map_cons, readTarEntries, regularFile]
    simp only [bind, Except.bind, canonical file mem_cons_self, isFresh, Option.isSome_none,
      Bool.not_true, Bool.false_eq_true, if_false]
    exact rest

def asMap (entries : List PackEntryInput) : Assoc Str Plaintext :=
  entries.map fun entry => (entry.entryId, entry.plaintext)

theorem readEntry_ok (valid : ∀ entry ∈ entries, ValidEntryId entry.entryId) {json : Plaintext}
    (distinct : ((packFiles json entries).map Prod.fst).Nodup) {entry : PackEntryInput}
    (among : entry ∈ entries) :
    readEntry crates (packFiles json entries)
      ⟨entry.entryId, crates.blake3 entry.plaintext, sizeOf entry.plaintext⟩ =
      .ok entry.plaintext := by
  have held : Assoc.get (packFiles json entries) (entryPath entry.entryId) = some entry.plaintext :=
    Assoc.get_of_mem distinct (mem_cons_of_mem _ (mem_map_of_mem among))
  simp only [readEntry, validateEntryId_ok.mpr (valid entry among), held, bind, Except.bind,
    ne_eq, not_true_eq_false, if_false]
  rfl

theorem set_fresh {key : Str} {value : Plaintext} (fresh : key ∉ files.map Prod.fst) :
    files.set key value = (key, value) :: files := by
  rw [Assoc.set, Assoc.remove, Assoc.restrict, filter_eq_self.mpr]
  intro file among
  rw [decide_eq_true_eq]
  exact fun same => fresh (same ▸ mem_map_of_mem among)

/-- The lines of the index give back their entries, the last one in front. -/
theorem readEntries_ok (each : ∀ entry ∈ others, readEntry crates files
      ⟨entry.entryId, crates.blake3 entry.plaintext, sizeOf entry.plaintext⟩ = .ok entry.plaintext)
    (distinct : ((asMap others).map Prod.fst).Nodup)
    (apart : ∀ entry ∈ others, entry.entryId ∉ before.map Prod.fst) :
    readEntries crates files (others.map fun entry =>
      ⟨entry.entryId, crates.blake3 entry.plaintext, sizeOf entry.plaintext⟩) before =
      .ok ((asMap others).reverse ++ before) := by
  induction others generalizing before with
  | nil => rfl
  | cons entry others ih =>
    obtain ⟨notLater, distinctLater⟩ := nodup_cons.mp distinct
    rw [map_cons, readEntries, each entry mem_cons_self]
    simp only [bind, Except.bind, set_fresh (apart entry mem_cons_self)]
    rw [ih (fun other later => each other (mem_cons_of_mem _ later)) distinctLater]
    · rw [asMap, asMap, map_cons, reverse_cons, append_assoc]
      rfl
    · intro other later among
      rcases mem_cons.mp among with same | earlier
      · have isLater : other.entryId ∈ (asMap others).map Prod.fst := by
          rw [asMap, map_map]
          exact mem_map_of_mem later
        exact notLater (same ▸ isLater)
      · exact apart other (mem_cons_of_mem _ later) earlier

theorem validateEntryIds_ok :
    validateEntryIds entries = .ok () ↔ ∀ entry ∈ entries, ValidEntryId entry.entryId := by
  induction entries with
  | nil => exact iff_of_true rfl nofun
  | cons entry entries ih =>
    rw [validateEntryIds, bind_ok, forall_mem_cons, ← ih, ← validateEntryId_ok]
    exact ⟨fun ⟨_, isFirst, isRest⟩ => ⟨isFirst, isRest⟩,
      fun ⟨isFirst, isRest⟩ => ⟨(), isFirst, isRest⟩⟩

/-- Among sorted entries a repeated id stands next to itself. -/
theorem repeatsEntryId_iff (ordered : entries.Pairwise fun a b => a.entryId ≤ b.entryId) :
    repeatsEntryId entries = false ↔ (entries.map PackEntryInput.entryId).Nodup := by
  induction entries with
  | nil => exact iff_of_true rfl nodup_nil
  | cons first entries ih =>
    obtain ⟨isLeast, orderedRest⟩ := pairwise_cons.mp ordered
    cases entries with
    | nil => exact iff_of_true rfl (nodup_singleton _)
    | cons second entries =>
      have isCons : ((first :: second :: entries).map PackEntryInput.entryId).Nodup ↔
          first.entryId ∉ (second :: entries).map PackEntryInput.entryId ∧
            ((second :: entries).map PackEntryInput.entryId).Nodup := nodup_cons
      rw [repeatsEntryId, Bool.or_eq_false_iff, decide_eq_false_iff_not, ih orderedRest, isCons]
      refine and_congr_left fun _ => ?_
      constructor
      · intro differ among
        obtain ⟨other, isOther, same⟩ := mem_map.mp among
        rcases mem_cons.mp isOther with rfl | later
        · exact differ same.symm
        · have less := lt_of_le_of_ne (isLeast second mem_cons_self) differ
          have le := (pairwise_cons.mp orderedRest).1 other later
          exact absurd same (lt_of_lt_of_le less le).ne'
      · intro absent same
        exact absent (same ▸ mem_map_of_mem mem_cons_self)

theorem entryPath_inj {first second : Str} (same : entryPath first = entryPath second) :
    first = second :=
  (List.cons.inj (append_cancel_left same)).2

theorem nodup_packFiles (json : Plaintext) (distinct : (entries.map PackEntryInput.entryId).Nodup) :
    ((packFiles json entries).map Prod.fst).Nodup := by
  have paths : (packFiles json entries).map Prod.fst =
      packIndexPath :: (entries.map PackEntryInput.entryId).map entryPath := by
    rw [packFiles, map_cons, map_map, map_map]
    rfl
  rw [paths, nodup_cons]
  refine ⟨?_, distinct.map fun _ _ => entryPath_inj⟩
  intro among
  obtain ⟨entryId, -, same⟩ := mem_map.mp among
  have firsts : some 'e' = some 'p' := congrArg List.head? same
  exact absurd firsts (by decide)

/-- The crates read back what they have written for this pack. -/
def ReadsBack (crates : PackCrates) (packId : Str) (entries : List PackEntryInput) : Prop :=
  (∀ entry ∈ entries, ValidEntryId entry.entryId) →
  (entries.map PackEntryInput.entryId).Nodup →
  ∃ json pack, crates.indexJson (packIndex crates packId entries) = .ok json ∧
    crates.indexOfJson json = .ok (packIndex crates packId entries) ∧
    crates.tarFiles (packFiles json entries) = .ok pack ∧
    crates.tarEntries pack = .ok ((packFiles json entries).map regularFile)

/-- The archive of entries in their order, and what the reader makes of it. -/
theorem unpack_packed (valid : ∀ entry ∈ entries, ValidEntryId entry.entryId)
    (distinct : (entries.map PackEntryInput.entryId).Nodup)
    (readsBack : ReadsBack crates packId entries) :
    ∃ json pack, crates.indexJson (packIndex crates packId entries) = .ok json ∧
      crates.tarFiles (packFiles json entries) = .ok pack ∧
      unpackPlainPack crates pack =
        .ok ⟨packIndex crates packId entries, (asMap entries).reverse⟩ := by
  obtain ⟨json, pack, isJson, isIndex, isPack, isRead⟩ := readsBack valid distinct
  refine ⟨json, pack, isJson, isPack, ?_⟩
  have distinctFiles := nodup_packFiles json distinct
  have hasFiles : readCanonicalTarFiles crates pack = .ok (packFiles json entries) := by
    rw [readCanonicalTarFiles, isRead]
    refine readTarEntries_regular ?_ distinctFiles
    intro file among
    rcases mem_cons.mp among with rfl | later
    · exact validateTarPath_packIndexPath
    · obtain ⟨entry, isEntry, rfl⟩ := mem_map.mp later
      exact validateTarPath_entryPath (valid entry isEntry)
  have hasIndex : Assoc.get (packFiles json entries) packIndexPath = some json :=
    Assoc.get_of_mem distinctFiles mem_cons_self
  have distinctMap : ((asMap entries).map Prod.fst).Nodup := by
    rw [asMap, map_map]
    exact distinct
  have hasEntries : readEntries crates (packFiles json entries)
      (packIndex crates packId entries).entries [] = .ok ((asMap entries).reverse ++ []) :=
    readEntries_ok (fun entry among => readEntry_ok valid distinctFiles among) distinctMap
      fun _ _ => not_mem_nil
  rw [append_nil] at hasEntries
  have isCount : (packFiles json entries).length =
      (packIndex crates packId entries).entries.length + 1 := by
    rw [packFiles, length_cons, length_map, packIndex, length_map]
  rw [unpackPlainPack, hasFiles]
  simp only [bind, Except.bind, hasIndex, isIndex]
  rw [if_neg (by simp [packIndex]), hasEntries]
  simp only [← isCount, ne_eq, not_true_eq_false, if_false]
  rfl

theorem sorted_eq_of_perm (distinct : (entries.map PackEntryInput.entryId).Nodup)
    (perm : others.Perm entries) :
    sorted PackEntryInput.entryId others = sorted PackEntryInput.entryId entries := by
  have distinctOthers : (others.map PackEntryInput.entryId).Nodup :=
    (perm.map PackEntryInput.entryId).nodup_iff.mpr distinct
  refine eq_of_pairwise_lt PackEntryInput.entryId (sorted_pairwise distinctOthers)
    (sorted_pairwise distinct) fun entry => ?_
  rw [mem_sorted, mem_sorted, perm.mem_iff]

/-- **A pack is read back as the entries it was made of**, and making it fails for an id that is
invalid or repeated and for nothing else. -/
theorem pack_round_trip (crates : PackCrates) (packId : Str) (entries : List PackEntryInput)
    (readsBack : ReadsBack crates packId (sorted PackEntryInput.entryId entries)) :
    ((∃ error, createPlainPack crates packId entries = .error error) ↔
      (∃ entry ∈ entries, ¬ ValidEntryId entry.entryId) ∨
        ¬ (entries.map PackEntryInput.entryId).Nodup) ∧
    ((∀ entry ∈ entries, ValidEntryId entry.entryId) →
      (entries.map PackEntryInput.entryId).Nodup →
      (∃ pack unpacked, createPlainPack crates packId entries = .ok pack ∧
        unpackPlainPack crates pack = .ok unpacked ∧ unpacked.index.packId = packId ∧
        (unpacked.entries.map Prod.fst).Nodup ∧
        ∀ entryId, unpacked.entries.get entryId = (asMap entries).get entryId) ∧
      ∀ others, others.Perm entries →
        createPlainPack crates packId others = createPlainPack crates packId entries) := by
  have isPerm : (sorted PackEntryInput.entryId entries).Perm entries := perm_insertionSort _ entries
  have sameNodup : ((sorted PackEntryInput.entryId entries).map
      PackEntryInput.entryId).Nodup ↔ (entries.map PackEntryInput.entryId).Nodup :=
    (isPerm.map PackEntryInput.entryId).nodup_iff
  have sameValid : validateEntryIds (sorted PackEntryInput.entryId entries) = .ok () ↔
      ∀ entry ∈ entries, ValidEntryId entry.entryId := by
    rw [validateEntryIds_ok]
    simp only [mem_sorted]
  have repeats : repeatsEntryId (sorted PackEntryInput.entryId entries) = false ↔
      ((sorted PackEntryInput.entryId entries).map PackEntryInput.entryId).Nodup :=
    repeatsEntryId_iff sorted_ordered
  have made : (∀ entry ∈ entries, ValidEntryId entry.entryId) →
      (entries.map PackEntryInput.entryId).Nodup →
      ∃ pack, createPlainPack crates packId entries = .ok pack ∧ unpackPlainPack crates pack =
        .ok ⟨packIndex crates packId (sorted PackEntryInput.entryId entries),
          (asMap (sorted PackEntryInput.entryId entries)).reverse⟩ := by
    intro valid distinct
    have validSorted := validateEntryIds_ok.mp (sameValid.mpr valid)
    obtain ⟨json, pack, isJson, isPack, unpacked⟩ :=
      unpack_packed validSorted (sameNodup.mpr distinct) readsBack
    refine ⟨pack, ?_, unpacked⟩
    rw [createPlainPack, sameValid.mpr valid]
    simp only [bind, Except.bind, repeats.mpr (sameNodup.mpr distinct), Bool.false_eq_true,
      if_false, isJson, isPack]
  refine ⟨⟨?_, ?_⟩, fun valid distinct => ⟨?_, ?_⟩⟩
  · rintro ⟨error, failed⟩
    by_contra fine
    rw [not_or, not_exists, not_not] at fine
    have valid : ∀ entry ∈ entries, ValidEntryId entry.entryId := fun entry among =>
      not_not.mp fun invalid => fine.1 entry ⟨among, invalid⟩
    obtain ⟨pack, isPack, -⟩ := made valid fine.2
    cases failed.symm.trans isPack
  · intro broken
    rw [createPlainPack]
    cases isValid : validateEntryIds (sorted PackEntryInput.entryId entries) with
    | error error => exact ⟨error, rfl⟩
    | ok =>
      have repeated : repeatsEntryId (sorted PackEntryInput.entryId entries) = true := by
        rcases broken with ⟨entry, among, invalid⟩ | repeated
        · exact absurd (sameValid.mp isValid entry among) invalid
        · rw [← Bool.not_eq_false, repeats, sameNodup]
          exact repeated
      simp only [bind, Except.bind, repeated, if_true]
      exact ⟨_, rfl⟩
  · obtain ⟨pack, isPack, unpacked⟩ := made valid distinct
    refine ⟨pack, _, isPack, unpacked, rfl, ?_, fun entryId => ?_⟩
    · rw [map_reverse, nodup_reverse, asMap, map_map]
      exact sameNodup.mpr distinct
    · have distinctMap : ((asMap entries).map Prod.fst).Nodup := by
        rw [asMap, map_map]
        exact distinct
      have sameMap : (asMap (sorted PackEntryInput.entryId entries)).reverse.Perm
          (asMap entries) := (reverse_perm _).trans (isPerm.map _)
      exact Assoc.get_of_perm distinctMap sameMap entryId
  · intro others perm
    rw [createPlainPack, createPlainPack, sorted_eq_of_perm distinct perm]

end RoundTrip

/-! ## A pack of one empty file -/

section Sample

/-- `octal_into`. -/
def octal (width value : Nat) : List UInt8 :=
  utf8 (String.ofList ((Nat.toDigits 8 value).leftpad (width - 1) '0')) ++ [0]

def padTo (width : Nat) (bytes : List UInt8) : List UInt8 :=
  bytes ++ List.replicate (width - bytes.length) 0

/-- The header of a regular file whose path fits into the field of the name. -/
def ustarHeader (path : Str) (size : Nat) : List UInt8 :=
  let front := padTo 100 (utf8 (String.ofList path)) ++ octal 8 384 ++ octal 8 0 ++
    octal 8 0 ++ octal 12 size ++ octal 12 0
  let back := padTo 101 (utf8 "0") ++ utf8 "ustar" ++ [0] ++ padTo 249 (utf8 "00")
  let checksum := ((front ++ back).map UInt8.toNat).sum + 8 * 32
  front ++ octal 8 checksum ++ back

/-- The data of a file fills whole blocks, and two empty blocks are the end. -/
def ustar (files : List (Str × Plaintext)) : List UInt8 :=
  files.flatMap (fun file => ustarHeader file.1 file.2.length ++
    padTo ((file.2.length + 511) / 512 * 512) file.2) ++ List.replicate 1024 0

/-- `serde_json` of an index whose texts need no escape. -/
def indexText (index : PackIndex) : Plaintext :=
  let line := fun entry : PackIndexEntry =>
    "\x7b\"entry_id\":\"".toList ++ entry.entryId ++ "\",\"plaintext_hash\":\"".toList ++
      entry.plaintextHash ++ "\",\"size_bytes\":".toList ++ (toString entry.sizeBytes).toList ++
      "\x7d".toList
  utf8 (String.ofList ("\x7b\"format\":\"".toList ++ index.format ++ "\",\"version\":".toList ++
    (toString index.version).toList ++ ",\"pack_id\":\"".toList ++ index.packId ++
    "\",\"entries\":[".toList ++ List.intercalate [','] (index.entries.map line) ++ "]\x7d".toList))

/-- BLAKE3 of the empty text, as it was computed. -/
def emptyHash : Str := "af1349b9f5f9a1a6a0404dea36dcc9499bcb25c9adc112b7cc9a93cae41f3262".toList

/-- The crates, where they read but this archive. -/
def sampleCrates (index : PackIndex) (files : List (Str × Plaintext)) : PackCrates where
  blake3 bytes := if bytes = [] then emptyHash else []
  tarFiles written := .ok (ustar written)
  tarEntries pack :=
    if pack = ustar files then .ok (files.map regularFile)
    else .error (.storage "unknown archive")
  indexJson written := .ok (indexText written)
  indexOfJson json :=
    if json = indexText index then .ok index else .error (.serialization "unknown index")

def sampleEntries : List PackEntryInput := [⟨"a".toList, []⟩]

def sampleIndex : PackIndex := ⟨packFormat, 1, "p".toList, [⟨"a".toList, emptyHash, 0⟩]⟩

def sampleFiles : List (Str × Plaintext) := packFiles (indexText sampleIndex) sampleEntries

theorem sample_readsBack : ReadsBack (sampleCrates sampleIndex sampleFiles) "p".toList
    (sorted PackEntryInput.entryId sampleEntries) := by
  intro _ _
  have isSorted : sorted PackEntryInput.entryId sampleEntries = sampleEntries := rfl
  have isIndex : packIndex (sampleCrates sampleIndex sampleFiles) "p".toList sampleEntries =
      sampleIndex := by
    simp only [packIndex, sampleEntries, map_cons, map_nil, sampleCrates, if_true]
    rfl
  have isFiles : packFiles (indexText sampleIndex) sampleEntries = sampleFiles := by
    rw [sampleFiles]
  rw [isSorted, isIndex]
  refine ⟨indexText sampleIndex, ustar sampleFiles, ?_, ?_, ?_, ?_⟩
  · simp only [sampleCrates]
  · simp only [sampleCrates, if_true]
  · rw [isFiles]
    simp only [sampleCrates]
  · rw [isFiles]
    simp only [sampleCrates, if_true]

theorem pack_round_trip_empty_file : ∃ pack unpacked,
    createPlainPack (sampleCrates sampleIndex sampleFiles) "p".toList sampleEntries = .ok pack ∧
    unpackPlainPack (sampleCrates sampleIndex sampleFiles) pack = .ok unpacked ∧
    unpacked.entries.get "a".toList = some [] := by
  obtain ⟨pack, unpacked, isPack, isUnpacked, -, -, sameMap⟩ :=
    ((pack_round_trip (sampleCrates sampleIndex sampleFiles) "p".toList sampleEntries
      sample_readsBack).2 (by rintro entry ⟨⟩ <;> [exact validateEntryId_ok.mp rfl; contradiction])
      (nodup_singleton _)).1
  exact ⟨pack, unpacked, isPack, isUnpacked, (sameMap _).trans rfl⟩

end Sample

end Kuku.Sync.Packer
