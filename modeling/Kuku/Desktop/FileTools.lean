/-
# Desktop.FileTools -- reading a file, and planning to change it

`read_file` and `list_files` remember the checksum of what they read, under the path they
were given, lightly trimmed.  `edit_file` and `delete_file` look for it under the normal
form of that path (`guard_ai_raw_mutation_path`).  A path that is its own normal form
(`IsOwnPath`) is found again; any other is found only where the session knows the file by
its other name (`edit_addresses_read_iff` and its siblings).
-/
import Kuku.Ai.Runtime
import Kuku.Desktop.VaultEntries

namespace Kuku.Desktop.Tools

open Kuku.Theory List Function Text
open Kuku.Ai (Str ChatMode MutationOp MutationPlan NativeToolResult ToolError SessionRuntime
  PathSnapshot)
open Kuku.Sync (Location)
open Kuku.Desktop.Mutation (resolveVaultPath)

/-! ## Arguments -/

/-- The arguments of a call that are texts. -/
structure ToolArgs where
  path : Option Str := none
  content : Option Str := none
  kind : Option Str := none

structure ToolCallContext where
  mode : ChatMode
  activeFile : Option Str

inductive PathKind where
  | file
  | directory
  deriving DecidableEq

def PathKind.text : PathKind → Str
  | .file => "file".toList
  | .directory => "directory".toList

def normalizeVaultPath (value : Str) : Str :=
  let trimmed := Chars.trim value
  if trimmed = [] ∨ trimmed = ".".toList ∨ trimmed = "./".toList then []
  else
    let withoutCurrent := (stripPrefix "./".toList trimmed).getD trimmed
    (withoutCurrent.dropWhile (· = '/')).rdropWhile (· = '/')

def normalizeNonEmptyPath (value : Option Str) : Option Str :=
  (value.map normalizeVaultPath).filter (· ≠ [])

def optionalPathArg (args : ToolArgs) : Option Str := args.path.map normalizeVaultPath

def pathArg (args : ToolArgs) : Option Str := (optionalPathArg args).filter (· ≠ [])

/-- `Path::parent`: the last name goes, and with it what only repeats the directory. -/
def parentText (value : Str) : Str :=
  let trivial (name : Str) : Bool := decide (name = [] ∨ name = ".".toList)
  Sync.joined ((((value.splitOn '/').rdropWhile trivial).dropLast).rdropWhile trivial)

def directoryArg (args : ToolArgs) (fallback : Option Str) : Str :=
  ((optionalPathArg args).or (fallback.map fun value => normalizeVaultPath (parentText value))).getD []

def invalidArguments {α : Type} (text : String) : Except ToolError α :=
  .error (.invalidArguments text.toList)

def optionalKindArg (args : ToolArgs) : Except ToolError (Option PathKind) :=
  match args.kind with
  | none => .ok none
  | some raw =>
    let kind := (Chars.trim raw).map asciiLowerChar
    if kind = [] then .ok none
    else if kind = "file".toList then .ok (some .file)
    else if kind = "directory".toList ∨ kind = "dir".toList ∨ kind = "folder".toList then
      .ok (some .directory)
    else .error (.invalidArguments ("Unsupported kind '".toList ++ kind ++
      "'. Use 'file' or 'directory'.".toList))

def resolveEditTargetPath (mode : ChatMode) (requestedPath activeFile : Option Str) :
    Except ToolError Str :=
  let activePath := normalizeNonEmptyPath activeFile
  match mode with
  | .inline =>
    match activePath with
    | none => invalidArguments
        "Inline mode can only edit the active file, but no active file is available."
    | some activePath =>
      match requestedPath with
      | some requested =>
        if requested ≠ activePath then .error (.invalidArguments
          ("Inline mode can only edit the active file: ".toList ++ activePath))
        else .ok activePath
      | none => .ok activePath
  | _ =>
    match requestedPath.or activePath with
    | some path => .ok path
    | none => invalidArguments "No path specified"

def previewExcerpt (text : Str) : Str := text.take 240

/-! ## Reading tools -/

section Crates

variable (crates : ToolCrates) (vault : Vault) (ctx : ToolCallContext) (session : SessionRuntime)
  (args : ToolArgs)

def readFile : Except ToolError (NativeToolResult × SessionRuntime) := do
  let some path := (pathArg args).or (normalizeNonEmptyPath ctx.activeFile)
    | invalidArguments "No path specified"
  let resolved ← (resolveVaultPathStrict vault path).mapError .invalidArguments
  let content ← (readToString vault resolved).mapError .executionFailed
  return (⟨content, none, none⟩,
    session.rememberPathSnapshot path ⟨computeChecksum crates content, false⟩)

/-- The text of a listing is the JSON of its entries. -/
def listFiles (prettyJson : List FileEntry → Str) :
    Except ToolError (NativeToolResult × SessionRuntime) := do
  let path := directoryArg args ctx.activeFile
  let resolved ← (resolveVaultPathStrict vault path).mapError .invalidArguments
  let entries ← (readDirectoryRecursive defaultFileExtensions vault resolved).mapError
    .executionFailed
  let checksum ← (computeDirectoryChecksum crates vault resolved).mapError .executionFailed
  return (⟨prettyJson entries, none, none⟩, session.rememberPathSnapshot path ⟨checksum, true⟩)

/-! ## Planning tools -/

/-- What `metadata` of a resolved path decides about a missing snapshot. -/
def missingSnapshot (resolved : Location) (path onDirectory onFile : Str) : ToolError :=
  match vault.stat resolved with
  | .found (.directory _) => .invalidArguments onDirectory
  | .found _ => .invalidArguments onFile
  | .notFound => .invalidArguments ("Path does not exist: ".toList ++ path)
  | .notDirectory => .executionFailed Mutation.errNotDirectory

def expectedFileChecksum (path : Str) (resolved : Location) (prerequisiteTool actionTool : Str) :
    Except ToolError Str :=
  match session.pathSnapshots path with
  | none => .error (missingSnapshot vault resolved path
      ("Path is a directory: ".toList ++ path ++ ". Call list_files on that directory before ".toList
        ++ actionTool ++ ".".toList)
      ("Missing read-time checksum for ".toList ++ path ++ ". Call ".toList ++ prerequisiteTool ++
        " on this path before ".toList ++ actionTool ++ ".".toList))
  | some snapshot =>
    if snapshot.isDir then .error (.invalidArguments ("Path is a directory: ".toList ++ path ++
      ". Use list_files before directory operations.".toList))
    else .ok snapshot.checksum

def deleteTargetSnapshot (path : Str) (resolved : Location) : Except ToolError (PathKind × Str) :=
  match session.pathSnapshots path with
  | some snapshot => .ok (if snapshot.isDir then .directory else .file, snapshot.checksum)
  | none => .error (missingSnapshot vault resolved path
      ("Missing read-time checksum for ".toList ++ path ++
        ". Call list_files on this directory before delete_file.".toList)
      ("Missing read-time checksum for ".toList ++ path ++
        ". Call read_file on this path before delete_file.".toList))

/-- The plan of one operation. -/
def proposed (summary text previewText : Str) (operation : MutationOp) : NativeToolResult :=
  ⟨text, some ⟨summary, [operation]⟩, some previewText⟩

def editFile : Except ToolError NativeToolResult := do
  let path ← resolveEditTargetPath ctx.mode (pathArg args) ctx.activeFile
  let some content := args.content | invalidArguments "Missing content"
  let path ← (guardAiRawMutationPath crates vault path).mapError .invalidArguments
  let resolved ← (resolveVaultPathStrict vault path).mapError .invalidArguments
  let expectedChecksum ←
    expectedFileChecksum vault session path resolved "read_file".toList "edit_file".toList
  return proposed ("Edit ".toList ++ path) ("Proposed edit to ".toList ++ path)
    (previewExcerpt content) (.replaceFile path content expectedChecksum)

def deletion (path : Str) (kind : PathKind) (expectedChecksum : Str) : NativeToolResult :=
  match kind with
  | .file =>
    proposed ("Delete ".toList ++ path) ("Proposed deletion of ".toList ++ path)
      ("Delete file ".toList ++ path) (.deleteFile path expectedChecksum)
  | .directory =>
    proposed ("Delete directory ".toList ++ path)
      ("Proposed recursive deletion of directory ".toList ++ path)
      ("Delete directory ".toList ++ path ++ " recursively".toList)
      (.deleteDirectory path expectedChecksum)

def deleteFile : Except ToolError NativeToolResult := do
  let some path := (pathArg args).or (normalizeNonEmptyPath ctx.activeFile)
    | invalidArguments "No path specified"
  let path ← (guardAiRawMutationPath crates vault path).mapError .invalidArguments
  let resolved ← (resolveVaultPathStrict vault path).mapError .invalidArguments
  let (detectedKind, expectedChecksum) ← deleteTargetSnapshot vault session path resolved
  let requestedKind ← optionalKindArg args
  if requestedKind.any (· ≠ detectedKind) then
    .error (.invalidArguments ("Path kind mismatch for ".toList ++ path ++ ": requested ".toList ++
      (requestedKind.map PathKind.text).getD [] ++ ", detected ".toList ++ detectedKind.text))
  return deletion path detectedKind expectedChecksum

end Crates

/-! ## Where a normal form leads -/

section Paths

open Kuku.Knowledge (normalizeAiRawMutationPath normalized_ok exists_keeps valid_of_keeps IsNfc
  IsOwnPath IsSegment isSeparator)

variable {crates : ToolCrates} {vault : Vault} {path other : Str} {location : Location}

theorem resolveComponents_names {names : List Str} (relativePath : Str)
    (plain : ∀ name ∈ names, name ≠ [] ∧ name ≠ ".".toList ∧ name ≠ "..".toList)
    (resolved : Location) :
    Sync.resolveComponents relativePath names resolved = .ok (resolved ++ names) := by
  induction names generalizing resolved with
  | nil => rw [Sync.resolveComponents, append_nil]
  | cons name names ih =>
    obtain ⟨isSome, notDot, notDots⟩ := plain name mem_cons_self
    rw [Sync.resolveComponents, if_neg (not_or.mpr ⟨isSome, notDot⟩), if_neg notDots,
      ih (fun other among => plain other (mem_cons_of_mem _ among)), append_assoc,
      singleton_append]

/-- Segments that name something lead to the location of that name. -/
theorem resolveVaultPath_join {nfc : String → String} {segments : List String}
    (nonempty : segments ≠ []) (valid : ∀ segment ∈ segments, IsSegment nfc segment)
    (notDot : ∀ segment ∈ segments, segment ≠ "." ∧ segment ≠ "..") :
    resolveVaultPath (join '/' segments).toList = .ok (segments.map String.toList) := by
  have clean := fun segment among => (valid segment among).clean
  have isSplit : Sync.segments (join '/' segments).toList = segments.map String.toList := by
    have texts := Knowledge.split_join nonempty clean
    rw [split] at texts
    have chars := congrArg (List.map String.toList) texts
    rw [map_map] at chars
    simpa [comp_def, Sync.segments] using chars
  have notSlash : ¬ (join '/' segments).toList.head? = some '/' := by
    obtain ⟨first, rest, rfl⟩ := exists_cons_of_ne_nil nonempty
    have isFirst := valid first mem_cons_self
    obtain ⟨c, more, isPath, isHead⟩ := @Knowledge.exists_toList_join _ rest isFirst.nonempty
    rw [isPath, head?_cons]
    rintro ⟨⟩
    exact Bool.eq_false_iff.mp (isFirst.clean '/' (mem_of_head? isHead)) rfl
  have named : ∀ name ∈ segments.map String.toList,
      name ≠ [] ∧ name ≠ ".".toList ∧ name ≠ "..".toList := by
    intro name isName
    obtain ⟨segment, isSegment, rfl⟩ := mem_map.mp isName
    refine ⟨fun isEmpty => (valid segment isSegment).nonempty (String.toList_eq_nil_iff.mp isEmpty),
      fun isDot => (notDot segment isSegment).1 (String.toList_inj.mp isDot),
      fun isDots => (notDot segment isSegment).2 (String.toList_inj.mp isDots)⟩
  rw [resolveVaultPath, Sync.resolveRemotePath, if_neg notSlash, isSplit,
    resolveComponents_names _ named, nil_append]

/-- A normal form leads below the root, and is the text of where it leads. -/
theorem exists_resolved_of_normalized (isNfc : IsNfc crates.knowledge.nfc) {value normal : String}
    (accepted : normalizeAiRawMutationPath crates.knowledge value = .ok normal) :
    ∃ location, resolveVaultPath normal.toList = .ok location ∧ location ≠ [] ∧
      Sync.joined location = normal.toList := by
  obtain ⟨-, -, -, segments, ran, nonempty, rfl⟩ := normalized_ok.mp accepted
  obtain ⟨kept, keeps⟩ := exists_keeps ran
  refine ⟨segments.map String.toList,
    resolveVaultPath_join nonempty (valid_of_keeps isNfc keeps) keeps.notDot, by simpa using nonempty,
    ?_⟩
  rw [join, String.toList_ofList, Sync.joined]

/-- No protected directory is above a location, by its name or by where links lead. -/
structure IsOutside (crates : ToolCrates) (vault : Vault) (location : Location) : Prop where
  lexical : isProtectedRelativePath crates (Sync.joined location) = false
  resolved : resolvedPathIsProtected crates vault (Sync.joined location) = .ok false

theorem normalized_of_guarded (guarded : guardAiRawMutationPath crates vault path = .ok other) :
    normalizeAiRawMutationPath crates.knowledge (String.ofList path) = .ok (String.ofList other) := by
  simp only [guardAiRawMutationPath, bind, Except.bind, pure, Except.pure] at guarded
  cases accepted : normalizeAiRawMutationPath crates.knowledge (String.ofList path) with
  | error error =>
    rw [accepted] at guarded
    cases guarded
  | ok text =>
    rw [accepted] at guarded
    simp only at guarded
    split_ifs at guarded
    split at guarded
    · cases guarded
    · split_ifs at guarded
      cases guarded
      rw [String.ofList_toList]

/-- The guard leaves a path as it is exactly when it is its own normal form. -/
theorem guarded_self_iff (isNfc : IsNfc crates.knowledge.nfc)
    (isLocation : resolveVaultPath path = .ok location) (outside : IsOutside crates vault location) :
    guardAiRawMutationPath crates vault path = .ok path ↔
      IsOwnPath crates.knowledge.nfc (String.ofList path) := by
  rw [← Knowledge.normalized_self_iff isNfc]
  refine ⟨normalized_of_guarded, fun accepted => ?_⟩
  obtain ⟨same, isSame, -, isText⟩ := exists_resolved_of_normalized isNfc accepted
  rw [String.toList_ofList, isLocation] at isSame
  cases isSame
  rw [String.toList_ofList] at isText
  obtain ⟨lexical, resolved⟩ := outside
  rw [isText] at lexical resolved
  simp only [guardAiRawMutationPath, accepted, String.toList_ofList, bind, Except.bind, lexical,
    resolved, Bool.false_eq_true, if_false, pure, Except.pure]

end Paths

/-! ## What is planned after a reading -/

section Plans

variable {crates : ToolCrates} {vault : Vault} {ctx : ToolCallContext}
  {session session' : SessionRuntime} {args : ToolArgs} {path other content checksum : Str}
  {location : Location} {operation : Str → MutationOp} {answer : NativeToolResult} {isDir : Bool}

/-- The plan has one operation, whose path leads to a location. -/
def Plans (vault : Vault) (location : Location) (operation : Str → MutationOp)
    (result : Except ToolError NativeToolResult) : Prop :=
  ∃ answer summary path, result = .ok answer ∧ answer.mutation = some ⟨summary, [operation path]⟩ ∧
    resolveVaultPathStrict vault path = .ok location

/-- Under the normal form of a path, which leads to a location, a session holds a snapshot. -/
def KnownAs (crates : ToolCrates) (vault : Vault) (session : SessionRuntime) (location : Location)
    (snapshot : PathSnapshot) (path : Str) : Prop :=
  ∃ other, guardAiRawMutationPath crates vault path = .ok other ∧
    resolveVaultPathStrict vault other = .ok location ∧ session.pathSnapshots other = some snapshot

/-- The path a tool is about. -/
def target (ctx : ToolCallContext) (args : ToolArgs) : Option Str :=
  (pathArg args).or (normalizeNonEmptyPath ctx.activeFile)

theorem resolveVaultPath_of_strict (leads : resolveVaultPathStrict vault path = .ok location) :
    resolveVaultPath path = .ok location := by
  simp only [resolveVaultPathStrict, bind, Except.bind, pure, Except.pure] at leads
  cases resolved : resolveVaultPath path with
  | error error =>
    rw [resolved] at leads
    cases leads
  | ok plain =>
    rw [resolved] at leads
    simp only at leads
    split at leads
    · cases leads
    · exact leads

theorem mapError_ok {ε ε' α : Type} {f : ε → ε'} {x : Except ε α} {a : α} :
    x.mapError f = .ok a ↔ x = .ok a := by
  cases x <;> simp [Except.mapError]

theorem expectedFileChecksum_ok {resolved : Location} {prerequisiteTool actionTool : Str} :
    expectedFileChecksum vault session path resolved prerequisiteTool actionTool = .ok checksum ↔
      session.pathSnapshots path = some ⟨checksum, false⟩ := by
  rw [expectedFileChecksum]
  rcases isSnapshot : session.pathSnapshots path with _ | ⟨known, isDir⟩
  · simp
  · cases isDir <;> simp

theorem editFile_ok (isContent : args.content = some content) :
    editFile crates vault ctx session args = .ok answer ↔
      ∃ path other resolved checksum,
        resolveEditTargetPath ctx.mode (pathArg args) ctx.activeFile = .ok path ∧
        guardAiRawMutationPath crates vault path = .ok other ∧
        resolveVaultPathStrict vault other = .ok resolved ∧
        session.pathSnapshots other = some ⟨checksum, false⟩ ∧
        answer = proposed ("Edit ".toList ++ other) ("Proposed edit to ".toList ++ other)
          (previewExcerpt content) (.replaceFile other content checksum) := by
  simp only [editFile, isContent]
  constructor
  · intro accepted
    obtain ⟨path, isPath, accepted⟩ := bind_ok.mp accepted
    obtain ⟨other, guarded, accepted⟩ := bind_ok.mp accepted
    obtain ⟨resolved, isResolved, accepted⟩ := bind_ok.mp accepted
    obtain ⟨checksum, isChecksum, accepted⟩ := bind_ok.mp accepted
    cases accepted
    exact ⟨path, other, resolved, checksum, isPath, mapError_ok.mp guarded,
      mapError_ok.mp isResolved, expectedFileChecksum_ok.mp isChecksum, rfl⟩
  · rintro ⟨path, other, resolved, checksum, isPath, guarded, isResolved, isChecksum, rfl⟩
    exact bind_ok.mpr ⟨path, isPath, bind_ok.mpr ⟨other, mapError_ok.mpr guarded,
      bind_ok.mpr ⟨resolved, mapError_ok.mpr isResolved,
        bind_ok.mpr ⟨checksum, expectedFileChecksum_ok.mpr isChecksum, rfl⟩⟩⟩⟩

theorem editFile_plans_iff (isContent : args.content = some content) :
    Plans vault location (fun path => .replaceFile path content checksum)
      (editFile crates vault ctx session args) ↔
      ∃ path, resolveEditTargetPath ctx.mode (pathArg args) ctx.activeFile = .ok path ∧
        KnownAs crates vault session location ⟨checksum, false⟩ path := by
  constructor
  · rintro ⟨answer, summary, shown, accepted, isPlan, leads⟩
    obtain ⟨path, other, resolved, known, isPath, guarded, -, isKnown, rfl⟩ :=
      (editFile_ok isContent).mp accepted
    simp only [proposed, Option.some.injEq, MutationPlan.mk.injEq, List.cons.injEq,
      MutationOp.replaceFile.injEq, and_true, true_and] at isPlan
    obtain ⟨-, rfl, rfl⟩ := isPlan
    exact ⟨path, isPath, other, guarded, leads, isKnown⟩
  · rintro ⟨path, isPath, other, guarded, leads, isKnown⟩
    exact ⟨_, _, other, (editFile_ok isContent).mpr
      ⟨path, other, location, checksum, isPath, guarded, leads, isKnown, rfl⟩, rfl, leads⟩

def deleteOperation (snapshot : PathSnapshot) (path : Str) : MutationOp :=
  if snapshot.isDir then .deleteDirectory path snapshot.checksum
  else .deleteFile path snapshot.checksum

variable {snapshot : PathSnapshot}

theorem deletion_mutation :
    ∃ summary, (deletion path (if snapshot.isDir then .directory else .file)
      snapshot.checksum).mutation = some ⟨summary, [deleteOperation snapshot path]⟩ := by
  unfold deleteOperation
  split <;> exact ⟨_, rfl⟩

theorem deleteOperation_inj {snapshot known : PathSnapshot}
    (same : deleteOperation snapshot path = deleteOperation known other) :
    snapshot = known ∧ path = other := by
  obtain ⟨checksum, isDir⟩ := snapshot
  obtain ⟨checksum', isDir'⟩ := known
  cases isDir <;> cases isDir' <;> simp_all [deleteOperation]

theorem deleteTargetSnapshot_ok {resolved : Location} {found : PathKind × Str} :
    deleteTargetSnapshot vault session path resolved = .ok found ↔
      ∃ snapshot : PathSnapshot, session.pathSnapshots path = some snapshot ∧
        found = (if snapshot.isDir then .directory else .file, snapshot.checksum) := by
  rw [deleteTargetSnapshot]
  cases session.pathSnapshots path with
  | none => simp
  | some snapshot =>
    constructor
    · rintro ⟨⟩
      exact ⟨snapshot, rfl, rfl⟩
    · rintro ⟨_, ⟨⟩, rfl⟩
      rfl

/-- Without a hint of the kind, what the session knows is deleted. -/
theorem deleteFile_ok (noKind : args.kind = none) :
    deleteFile crates vault ctx session args = .ok answer ↔
      ∃ path other resolved, ∃ snapshot : PathSnapshot, target ctx args = some path ∧
        guardAiRawMutationPath crates vault path = .ok other ∧
        resolveVaultPathStrict vault other = .ok resolved ∧
        session.pathSnapshots other = some snapshot ∧
        answer = deletion other (if snapshot.isDir then .directory else .file)
          snapshot.checksum := by
  have isKind : optionalKindArg args = .ok none := by rw [optionalKindArg, noKind]
  cases isTarget : target ctx args with
  | none =>
    rw [target] at isTarget
    simp [deleteFile, isTarget, invalidArguments]
  | some path =>
    rw [target] at isTarget
    simp only [deleteFile, isTarget, isKind]
    constructor
    · intro accepted
      obtain ⟨other, guarded, accepted⟩ := bind_ok.mp accepted
      obtain ⟨resolved, isResolved, accepted⟩ := bind_ok.mp accepted
      obtain ⟨found, isFound, accepted⟩ := bind_ok.mp accepted
      obtain ⟨snapshot, isSnapshot, rfl⟩ := deleteTargetSnapshot_ok.mp isFound
      cases accepted
      exact ⟨path, other, resolved, snapshot, rfl, mapError_ok.mp guarded,
        mapError_ok.mp isResolved, isSnapshot, rfl⟩
    · rintro ⟨_, other, resolved, snapshot, ⟨⟩, guarded, isResolved, isSnapshot, rfl⟩
      exact bind_ok.mpr ⟨other, mapError_ok.mpr guarded,
        bind_ok.mpr ⟨resolved, mapError_ok.mpr isResolved,
          bind_ok.mpr ⟨_, deleteTargetSnapshot_ok.mpr ⟨snapshot, isSnapshot, rfl⟩, rfl⟩⟩⟩

theorem deleteFile_plans_iff (snapshot : PathSnapshot) (noKind : args.kind = none) :
    Plans vault location (deleteOperation snapshot) (deleteFile crates vault ctx session args) ↔
      ∃ path, target ctx args = some path ∧
        KnownAs crates vault session location snapshot path := by
  constructor
  · rintro ⟨answer, summary, shown, accepted, isPlan, leads⟩
    obtain ⟨path, other, resolved, known, isPath, guarded, -, isKnown, rfl⟩ :=
      (deleteFile_ok noKind).mp accepted
    obtain ⟨text, isMutation⟩ := @deletion_mutation other known
    rw [isMutation, Option.some.injEq, MutationPlan.mk.injEq, List.cons.injEq] at isPlan
    obtain ⟨rfl, rfl⟩ := deleteOperation_inj isPlan.2.1
    exact ⟨path, isPath, other, guarded, leads, isKnown⟩
  · rintro ⟨path, isPath, other, guarded, leads, isKnown⟩
    obtain ⟨text, isMutation⟩ := @deletion_mutation other snapshot
    exact ⟨_, text, other, (deleteFile_ok noKind).mpr
      ⟨path, other, location, snapshot, isPath, guarded, leads, isKnown, rfl⟩, isMutation, leads⟩

theorem readFile_ok : readFile crates vault ctx session args = .ok (answer, session') ↔
    ∃ path location content, target ctx args = some path ∧
      resolveVaultPathStrict vault path = .ok location ∧
      readToString vault location = .ok content ∧ answer = ⟨content, none, none⟩ ∧
      session' = session.rememberPathSnapshot path ⟨computeChecksum crates content, false⟩ := by
  cases isTarget : target ctx args with
  | none =>
    rw [target] at isTarget
    simp [readFile, isTarget, invalidArguments]
  | some path =>
    rw [target] at isTarget
    simp only [readFile, isTarget]
    constructor
    · intro accepted
      obtain ⟨location, isLocation, accepted⟩ := bind_ok.mp accepted
      obtain ⟨content, isContent, accepted⟩ := bind_ok.mp accepted
      cases accepted
      exact ⟨path, location, content, rfl, mapError_ok.mp isLocation, mapError_ok.mp isContent,
        rfl, rfl⟩
    · rintro ⟨_, location, content, ⟨⟩, isLocation, isContent, rfl, rfl⟩
      exact bind_ok.mpr ⟨location, mapError_ok.mpr isLocation,
        bind_ok.mpr ⟨content, mapError_ok.mpr isContent, rfl⟩⟩

theorem listFiles_ok {prettyJson : List FileEntry → Str} :
    listFiles crates vault ctx session args prettyJson = .ok (answer, session') ↔
      ∃ location entries checksum,
        resolveVaultPathStrict vault (directoryArg args ctx.activeFile) = .ok location ∧
        readDirectoryRecursive defaultFileExtensions vault location = .ok entries ∧
        computeDirectoryChecksum crates vault location = .ok checksum ∧
        answer = ⟨prettyJson entries, none, none⟩ ∧
        session' = session.rememberPathSnapshot (directoryArg args ctx.activeFile)
          ⟨checksum, true⟩ := by
  constructor
  · intro accepted
    obtain ⟨location, isLocation, accepted⟩ := bind_ok.mp accepted
    obtain ⟨entries, areEntries, accepted⟩ := bind_ok.mp accepted
    obtain ⟨checksum, isChecksum, accepted⟩ := bind_ok.mp accepted
    cases accepted
    exact ⟨location, entries, checksum, mapError_ok.mp isLocation, mapError_ok.mp areEntries,
      mapError_ok.mp isChecksum, rfl, rfl⟩
  · rintro ⟨location, entries, checksum, isLocation, areEntries, isChecksum, rfl, rfl⟩
    exact bind_ok.mpr ⟨location, mapError_ok.mpr isLocation,
      bind_ok.mpr ⟨entries, mapError_ok.mpr areEntries,
        bind_ok.mpr ⟨checksum, mapError_ok.mpr isChecksum, rfl⟩⟩⟩

theorem pathSnapshots_remembered :
    (session.rememberPathSnapshot path snapshot).pathSnapshots other =
      if other = path then some snapshot else session.pathSnapshots other :=
  update_apply _ _ _ _

/-- After a reading the session knows what was read under the path it was read by. -/
theorem knownAs_remembered_iff (isNfc : Knowledge.IsNfc crates.knowledge.nfc)
    (isLocation : resolveVaultPathStrict vault path = .ok location)
    (outside : IsOutside crates vault location) :
    KnownAs crates vault (session.rememberPathSnapshot path snapshot) location snapshot path ↔
      Knowledge.IsOwnPath crates.knowledge.nfc (String.ofList path) ∨
        KnownAs crates vault session location snapshot path := by
  rw [← guarded_self_iff isNfc (resolveVaultPath_of_strict isLocation) outside]
  constructor
  · rintro ⟨other, guarded, leads, isKnown⟩
    by_cases same : other = path
    · rw [same] at guarded
      exact .inl guarded
    · rw [pathSnapshots_remembered, if_neg same] at isKnown
      exact .inr ⟨other, guarded, leads, isKnown⟩
  · intro ownOrKnown
    rcases ownOrKnown with guarded | known
    · exact ⟨path, guarded, isLocation, by rw [pathSnapshots_remembered, if_pos rfl]⟩
    · obtain ⟨other, guarded, leads, isKnown⟩ := known
      exact ⟨other, guarded, leads, by rw [pathSnapshots_remembered, isKnown, ite_self]⟩

/-- What the session is asked for, under the path's own name or under another one it knew. -/
def IsAddressed (crates : ToolCrates) (vault : Vault) (session : SessionRuntime)
    (location : Location) (snapshot : PathSnapshot) (path : Str) : Prop :=
  Knowledge.IsOwnPath crates.knowledge.nfc (String.ofList path) ∨
    KnownAs crates vault session location snapshot path

theorem resolveEditTargetPath_ok (isTarget : target ctx args = some path) :
    resolveEditTargetPath ctx.mode (pathArg args) ctx.activeFile = .ok other ↔
      other = path ∧ (ctx.mode = .inline → normalizeNonEmptyPath ctx.activeFile = some path) := by
  rw [target] at isTarget
  cases isMode : ctx.mode with
  | inline =>
    rcases isActive : normalizeNonEmptyPath ctx.activeFile with _ | active
    · simp [resolveEditTargetPath, isActive, invalidArguments]
    · rw [isActive] at isTarget
      rcases isRequested : pathArg args with _ | requested
      · rw [isRequested] at isTarget
        cases isTarget
        simp [resolveEditTargetPath, isActive, eq_comm]
      · rw [isRequested] at isTarget
        cases isTarget
        by_cases same : path = active
        · simp [resolveEditTargetPath, isActive, same, eq_comm]
        · simp [resolveEditTargetPath, isActive, same, Ne.symm same]
  | ask => simp [resolveEditTargetPath, isTarget, eq_comm]
  | agent => simp [resolveEditTargetPath, isTarget, eq_comm]

theorem target_of_arg {value : Str} (isArg : args.path = some value)
    (nonempty : normalizeVaultPath value ≠ []) :
    target ctx args = some (normalizeVaultPath value) := by
  simp [target, pathArg, optionalPathArg, isArg, nonempty]

/-- The root of the vault is no path of `delete_file`: it goes on with the active file. -/
theorem not_known_at_root (isNfc : Knowledge.IsNfc crates.knowledge.nfc) (atRoot : location = []) :
    ¬ KnownAs crates vault session location snapshot path := by
  rintro ⟨other, guarded, leads, -⟩
  obtain ⟨below, isBelow, notRoot, -⟩ :=
    exists_resolved_of_normalized isNfc (normalized_of_guarded guarded)
  rw [String.toList_ofList, resolveVaultPath_of_strict leads] at isBelow
  cases isBelow
  exact notRoot atRoot

theorem resolveVaultPath_nil (leads : resolveVaultPathStrict vault [] = .ok location) :
    location = [] := by
  have plain := resolveVaultPath_of_strict leads
  have isRoot : resolveVaultPath [] = .ok [] := by decide +kernel
  rw [isRoot] at plain
  exact (Except.ok.inj plain).symm

/-- After `read_file` or `list_files` on a path, the plans that `edit_file` and `delete_file` make
for the same argument are about what was read, with its checksum, exactly when the path is its
own normal form or the session knew the file by that form; in inline mode only the active file is
edited, and the root of the vault is never deleted. -/
theorem mutations_address_read_iff (isNfc : Knowledge.IsNfc crates.knowledge.nfc) {value : Str}
    (isArg : args.path = some value) (isPath : normalizeVaultPath value = path)
    (isContent : args.content = some content) (noKind : args.kind = none)
    (leads : resolveVaultPathStrict vault path = .ok location)
    (outside : IsOutside crates vault location) :
    (∀ answer session', path ≠ [] →
      readFile crates vault ctx session args = .ok (answer, session') →
      ∃ checksum, checksum = computeChecksum crates answer.text ∧
        (Plans vault location (fun path => .replaceFile path content checksum)
            (editFile crates vault ctx session' args) ↔
          (ctx.mode = .inline → normalizeNonEmptyPath ctx.activeFile = some path) ∧
            IsAddressed crates vault session location ⟨checksum, false⟩ path) ∧
        (Plans vault location (fun path => .deleteFile path checksum)
            (deleteFile crates vault ctx session' args) ↔
          IsAddressed crates vault session location ⟨checksum, false⟩ path)) ∧
    (∀ answer session' prettyJson,
      listFiles crates vault ctx session args prettyJson = .ok (answer, session') →
      ∃ checksum, session'.pathSnapshots path = some ⟨checksum, true⟩ ∧
        (Plans vault location (fun path => .deleteDirectory path checksum)
            (deleteFile crates vault ctx session' args) ↔
          path ≠ [] ∧ IsAddressed crates vault session location ⟨checksum, true⟩ path)) := by
  subst isPath
  constructor
  · intro answer session' nonempty read
    have isTarget : target ctx args = some _ := target_of_arg isArg nonempty
    obtain ⟨read, place, text, isRead, isPlace, -, rfl, rfl⟩ := readFile_ok.mp read
    rw [isTarget] at isRead
    cases isRead
    rw [leads] at isPlace
    cases isPlace
    refine ⟨_, rfl, ?_, ?_⟩
    · rw [editFile_plans_iff isContent]
      simp only [resolveEditTargetPath_ok isTarget]
      rw [IsAddressed, ← knownAs_remembered_iff isNfc leads outside]
      constructor
      · rintro ⟨_, ⟨rfl, inline⟩, known⟩
        exact ⟨inline, known⟩
      · rintro ⟨inline, known⟩
        exact ⟨_, ⟨rfl, inline⟩, known⟩
    · rw [IsAddressed, ← knownAs_remembered_iff isNfc leads outside]
      refine (deleteFile_plans_iff ⟨_, false⟩ noKind).trans ?_
      rw [isTarget]
      exact ⟨fun ⟨_, same, known⟩ => Option.some.inj same ▸ known, fun known => ⟨_, rfl, known⟩⟩
  · intro answer session' prettyJson listed
    obtain ⟨place, entries, checksum, isPlace, -, -, -, rfl⟩ := listFiles_ok.mp listed
    have isDirectory : directoryArg args ctx.activeFile = normalizeVaultPath value := by
      simp [directoryArg, optionalPathArg, isArg]
    rw [isDirectory] at isPlace ⊢
    rw [leads] at isPlace
    cases isPlace
    refine ⟨checksum, by rw [pathSnapshots_remembered, if_pos rfl], ?_⟩
    refine (deleteFile_plans_iff ⟨checksum, true⟩ noKind).trans ?_
    by_cases nonempty : normalizeVaultPath value = []
    · have atRoot := resolveVaultPath_nil (nonempty ▸ leads)
      refine iff_of_false ?_ fun both => both.1 nonempty
      rintro ⟨path, -, known⟩
      exact not_known_at_root isNfc atRoot known
    · rw [IsAddressed, ← knownAs_remembered_iff isNfc leads outside]
      simp [target_of_arg isArg nonempty, nonempty]

end Plans

/-! ## Poles -/

def sampleTools : ToolCrates where
  knowledge := Knowledge.composedCrates
  toLowercase text := text.map asciiLowerChar
  blake3 _ := "checksum".toList

/-- A vault of one empty note. -/
def sampleVault (name : Str) : Vault where
  disk := .directory (.cons ['v'] (.directory (.cons name (.file []) .nil)) .nil)
  root := [['v']]
  opened := "/v".toList

def sampleArgs (name : Str) : ToolArgs := { path := some name, content := some [] }

def sampleContext : ToolCallContext := ⟨.agent, none⟩

def sampleRead (name : Str) : SessionRuntime :=
  (SessionRuntime.new .agent).rememberPathSnapshot name ⟨"checksum".toList, false⟩

theorem plain_name_edited :
    ∃ checksum, checksum = computeChecksum sampleTools [] ∧
      Plans (sampleVault ['a']) [['a']] (fun path => .replaceFile path [] checksum)
        (editFile sampleTools (sampleVault ['a']) sampleContext (sampleRead ['a']) (sampleArgs ['a'])) := by
  have leads : resolveVaultPathStrict (sampleVault ['a']) ['a'] = .ok [['a']] := by decide +kernel
  have read : readFile sampleTools (sampleVault ['a']) sampleContext (SessionRuntime.new .agent)
      (sampleArgs ['a']) = .ok (⟨[], none, none⟩, sampleRead ['a']) :=
    readFile_ok.mpr ⟨['a'], [['a']], [], by decide +kernel, leads, by decide +kernel, rfl, rfl⟩
  obtain ⟨checksum, isChecksum, edit, -⟩ :=
    (@mutations_address_read_iff sampleTools (sampleVault ['a']) sampleContext
      (SessionRuntime.new .agent) (sampleArgs ['a']) ['a'] _ _ Knowledge.isNfc_composed _ rfl
      (by decide +kernel) rfl rfl leads ⟨by decide +kernel, by decide +kernel⟩).1 _ _ (by decide) read
  refine ⟨checksum, isChecksum, edit.mpr ⟨nofun, .inl ⟨rfl, rfl, rfl, ?_, ?_⟩⟩⟩
  · exact @of_decide_eq_true _ (List.decidableBAll _ _) (by decide +kernel)
  intro name isName
  have names : split '/' (String.ofList ['a']) = ["a"] := by decide +kernel
  rw [names, mem_singleton] at isName
  rw [isName]
  decide

/-- A note whose name has a percent sign is read, and then cannot be edited. -/
theorem percent_name_not_edited :
    ¬ ∀ answer session', readFile sampleTools (sampleVault ['%']) sampleContext
        (SessionRuntime.new .agent) (sampleArgs ['%']) = .ok (answer, session') →
      ∃ location checksum, Plans (sampleVault ['%']) location
        (fun path => .replaceFile path [] checksum)
        (editFile sampleTools (sampleVault ['%']) sampleContext session' (sampleArgs ['%'])) := by
  intro claim
  have leads : resolveVaultPathStrict (sampleVault ['%']) ['%'] = .ok [['%']] := by decide +kernel
  obtain ⟨location, checksum, answer, summary, path, edited, -⟩ := claim _ _
    (readFile_ok.mpr ⟨['%'], [['%']], [], by decide +kernel, leads, by decide +kernel, rfl, rfl⟩)
  obtain ⟨requested, other, resolved, known, isRequested, guarded, -⟩ := (editFile_ok rfl).mp edited
  have isIt : requested = ['%'] := by
    have itself : resolveEditTargetPath .agent (some ['%']) none = .ok ['%'] := by decide +kernel
    exact Except.ok.inj (isRequested.symm.trans itself)
  have refused : guardAiRawMutationPath sampleTools (sampleVault ['%']) ['%'] =
      .error "Malformed percent encoding".toList := by decide +kernel
  rw [isIt, refused] at guarded
  cases guarded

end Kuku.Desktop.Tools
